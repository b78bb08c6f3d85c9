import Luci.ResultDB.JsonResults

/-!
# GTest results to test results

`GTestResults.ToProtos` goes through the iterations, and in each through the test names in sorted
order. It splits each name into a base path and parameters with `extractGTestParameters`,
converts each run of the test, and only after the loops updates the invocation: interrupted when a
run was `NOTRUN`, and the global tags. Every error is returned from inside the loops, before that
update.

`extractGTestParameters` recognises a name by four anchored regular expressions. The three that
split a name are sequences of `\w+` groups joined by `/` and `.`, and neither separator is a word
character, so each of them matches exactly the names that cut at their non-word characters into
non-empty runs with the right separators in between, and each group is one of the runs. The base
path keeps the suite and the test name with its `MANUAL_` and `PRE_` prefixes stripped, by a loop
that trims both prefixes until a pass trims nothing. The loop is given `length + 1` passes here;
each pass that changes the name shortens it, so it never needs more.
-/

namespace Luci.ResultDB.Formats

structure GTestRunResult where
  status : String
  elapsedTimeMs : Int
  losslessSnippet : Bool
  outputSnippetBase64 : String

structure Location where
  file : String
  line : Int

/-- The fields of `GTestResults`; each iteration is a map from test name to runs. -/
structure GTestResults where
  allTests : List String
  globalTags : List String
  perIterationData : List (List (String × List GTestRunResult))
  testLocations : List (String × Location)

/-- `GTestResults.ConvertFromJSON`, given what `Decode` returned. -/
def GTestResults.convertFromJSON (decoded : Except String GTestResults) :
    Except String GTestResults := do
  let r ← decoded
  if r.allTests.length = 0 then throw "missing \"all_tests\" field in JSON"
  pure r

/-- `\w`: an ASCII letter or digit, or `_`. -/
def isWordChar (c : Char) : Bool := c.isAlphanum || c = '_'

def cut : List Char → List (List Char × Char) × List Char
  | [] => ([], [])
  | c :: cs =>
    let rest := cut cs
    if isWordChar c then
      match rest.1 with
      | (run, sep) :: segs => ((c :: run, sep) :: segs, rest.2)
      | [] => ([], c :: rest.2)
    else (([], c) :: rest.1, rest.2)

/-- `javaPathRE`, `^[\w.]+#[\w]+$`: the whole match. -/
def javaPathRE (testPath : String) : Option (List String) :=
  match testPath.toList.span (fun c => isWordChar c || c = '.') with
  | (_ :: _, '#' :: rest) => if rest ≠ [] ∧ rest.all isWordChar then some [testPath] else none
  | _ => none

/-- `basePathRE`, `^(\w+)\.(\w+)$`: the match and its groups. -/
def basePathRE (testPath : String) : Option (List String) :=
  match cut testPath.toList with
  | ([(suite, '.')], name) =>
    if suite ≠ [] ∧ name ≠ [] then some [testPath, ⟨suite⟩, ⟨name⟩] else none
  | _ => none

/-- `typeParamRE`, `^((\w+)/)?(\w+)/(\w+)\.(\w+)$`: the match and its groups, the optional ones
empty when the name has no instantiation. -/
def typeParamRE (testPath : String) : Option (List String) :=
  match cut testPath.toList with
  | ([(inst, '/'), (suite, '/'), (param, '.')], name) =>
    if inst ≠ [] ∧ suite ≠ [] ∧ param ≠ [] ∧ name ≠ [] then
      some [testPath, ⟨inst⟩ ++ "/", ⟨inst⟩, ⟨suite⟩, ⟨param⟩, ⟨name⟩]
    else none
  | ([(suite, '/'), (param, '.')], name) =>
    if suite ≠ [] ∧ param ≠ [] ∧ name ≠ [] then
      some [testPath, "", "", ⟨suite⟩, ⟨param⟩, ⟨name⟩]
    else none
  | _ => none

/-- `valueParamRE`, `^((\w+)/)?(\w+)\.(\w+)/(\w+)$`. -/
def valueParamRE (testPath : String) : Option (List String) :=
  match cut testPath.toList with
  | ([(inst, '/'), (suite, '.'), (name, '/')], param) =>
    if inst ≠ [] ∧ suite ≠ [] ∧ name ≠ [] ∧ param ≠ [] then
      some [testPath, ⟨inst⟩ ++ "/", ⟨inst⟩, ⟨suite⟩, ⟨name⟩, ⟨param⟩]
    else none
  | ([(suite, '.'), (name, '/')], param) =>
    if suite ≠ [] ∧ name ≠ [] ∧ param ≠ [] then
      some [testPath, "", "", ⟨suite⟩, ⟨name⟩, ⟨param⟩]
    else none
  | _ => none

def testInstantiationKey : String := "param/instantiation"

def testParameterKey : String := "param/id"

def prefixes : List String := ["MANUAL_", "PRE_"]

/-- `strings.TrimPrefix`. -/
def trimPrefix (s pre : String) : String :=
  if hasPrefix s pre then ⟨s.toList.drop pre.length⟩ else s

/-- One pass of the stripping loop: `strippedName` after trimming each prefix in turn. -/
def stripOnce (name : String) : String := prefixes.foldl trimPrefix name

/-- The stripping loop, which stops at the first pass that trims nothing, given `fuel` passes. -/
def stripLoop : Nat → String → Option String
  | 0, _ => none
  | fuel + 1, name =>
    let strippedName := stripOnce name
    if strippedName = name then some name else stripLoop fuel strippedName

/-- `extractGTestParameters`: the base path and the parameters, in the order they are set. -/
def extractGTestParameters (testPath : String) :
    Except String (String × List (String × String)) :=
  if (javaPathRE testPath).isSome then .ok (testPath, [])
  else
    let parsed : Option (String × String × List (String × String)) :=
      match typeParamRE testPath with
      | some m => some (m.getD 3 "", m.getD 5 "",
          [(testInstantiationKey, m.getD 2 ""), (testParameterKey, m.getD 4 "")])
      | none =>
        match valueParamRE testPath with
        | some m => some (m.getD 3 "", m.getD 4 "",
            [(testInstantiationKey, m.getD 2 ""), (testParameterKey, m.getD 5 "")])
        | none => (basePathRE testPath).map fun m => (m.getD 1 "", m.getD 2 "", [])
    match parsed with
    | none => .error "test path of unknown format"
    | some (suite, name, params) =>
      .ok (suite ++ "." ++ (stripLoop (name.length + 1) name).getD name, params)

def fromGTestStatus (s : String) : Except String TestStatus :=
  if s = "SUCCESS" then .ok .pass
  else if s = "FAILURE" then .ok .fail
  else if s = "FAILURE_ON_EXIT" then .ok .fail
  else if s = "TIMEOUT" then .ok .abort
  else if s = "CRASH" then .ok .crash
  else if s = "SKIPPED" then .ok .skip
  else if s = "EXCESSIVE_OUTPUT" then .ok .fail
  else if s = "NOTRUN" then .ok .skip
  else .error ("unknown GTest status " ++ goQuote s)

section Convert

variable (env : Env) (r : GTestResults)

/-- `convertTestResult`. The snippet artifact keeps its name; its content type and contents are
not modelled. -/
def GTestResults.convertTestResult (testPath name : String) (result : GTestRunResult) :
    Except String TestResult := do
  let status ← fromGTestStatus result.status
  let rpb : TestResult :=
    { testPath, expected := decide (status = .pass), status,
      tags := [⟨"gtest_status", result.status⟩,
        ⟨"lossless_snippet", toString result.losslessSnippet⟩],
      outputArtifacts := [],
      duration := if result.elapsedTimeMs ≠ 0 then some (1e-6 * Float.ofInt result.elapsedTimeMs)
        else none,
      variant := [] }
  let rpb :=
    if result.outputSnippetBase64 ≠ "" then
      match env.decodeBase64 result.outputSnippetBase64 with
      | .ok _ => { rpb with outputArtifacts := rpb.outputArtifacts ++ [⟨"gtest_snippet.txt", ""⟩] }
      | .error _ => rpb
    else rpb
  match List.lookup name r.testLocations with
  | some loc =>
    pure { rpb with
      tags := rpb.tags ++ [⟨"gtest_file", loc.file⟩, ⟨"gtest_line", toString loc.line⟩] }
  | none => pure rpb

/-- The loop over the runs of one test from run `i`: the results, and whether a run was
`NOTRUN`. -/
def GTestResults.runsToProtos (testPath name : String) (params : List (String × String)) :
    Nat → List GTestRunResult → Except String (List TestResult × Bool)
  | _, [] => .ok ([], false)
  | i, result :: results =>
    match r.convertTestResult env testPath name result with
    | .error e =>
      .error ("iteration " ++ toString i ++ " of test " ++ name ++
        " failed to convert run result: " ++ e)
    | .ok rpb =>
      let rpb := if 0 < params.length then { rpb with variant := params } else rpb
      (GTestResults.runsToProtos testPath name params (i + 1) results).map fun rest =>
        (rpb :: rest.1, result.status == "NOTRUN" || rest.2)

/-- The loop over the sorted test names of one iteration. -/
def GTestResults.namesToProtos (testPathPrefix : String)
    (data : List (String × List GTestRunResult)) :
    List String → Except String (List TestResult × Bool)
  | [] => .ok ([], false)
  | name :: names =>
    match extractGTestParameters name with
    | .error e =>
      .error ("failed to extract test base name and parameters from " ++ goQuote name ++ ": " ++ e)
    | .ok (baseName, params) =>
      match r.runsToProtos env (testPathPrefix ++ baseName) name params 0
        ((List.lookup name data).getD []) with
      | .error e => .error e
      | .ok runs =>
        (GTestResults.namesToProtos testPathPrefix data names).map fun rest =>
          (runs.1 ++ rest.1, runs.2 || rest.2)

/-- The loop over the iterations. -/
def GTestResults.iterationsToProtos (testPathPrefix : String) :
    List (List (String × List GTestRunResult)) → Except String (List TestResult × Bool)
  | [] => .ok ([], false)
  | data :: rest =>
    match r.namesToProtos env testPathPrefix data (sortStrings (data.map Prod.fst)) with
    | .error e => .error e
    | .ok tests =>
      (GTestResults.iterationsToProtos testPathPrefix rest).map fun more =>
        (tests.1 ++ more.1, tests.2 || more.2)

/-- The in-place update of `inv` after the loops, before `NormalizeInvocation`. -/
def GTestResults.updateInvocation (interrupted : Bool) (inv : Invocation) : Invocation :=
  let inv := if interrupted then { inv with state := .interrupted } else inv
  { inv with
    tags := inv.tags ++ r.globalTags.map (fun tag => ⟨"gtest_global_tag", tag⟩) ++
      [⟨env.originalFormatTagKey, env.formatGTest⟩] }

/-- `GTestResults.ToProtos`: the test results or the error, and `inv` as the call leaves it. -/
def GTestResults.toProtos (testPathPrefix : String) (inv : Invocation) :
    Except String (List TestResult) × Invocation :=
  match r.iterationsToProtos env testPathPrefix r.perIterationData with
  | .error e => (.error e, inv)
  | .ok (ret, interrupted) =>
    (.ok ret, env.normalizeInvocation (r.updateInvocation env interrupted inv))

theorem GTestResults.toProtos_cases (testPathPrefix : String) (inv : Invocation) :
    (∃ e, r.toProtos env testPathPrefix inv = (.error e, inv)) ∨
    ∃ ret interrupted,
      r.iterationsToProtos env testPathPrefix r.perIterationData = .ok (ret, interrupted) ∧
      r.toProtos env testPathPrefix inv =
        (.ok ret, env.normalizeInvocation (r.updateInvocation env interrupted inv)) := by
  unfold GTestResults.toProtos
  rcases r.iterationsToProtos env testPathPrefix r.perIterationData with e | ⟨ret, interrupted⟩
  · exact .inl ⟨e, rfl⟩
  · exact .inr ⟨ret, interrupted, rfl, rfl⟩

end Convert

theorem toProtos_error_keeps_invocation {Raw : Type} (env : Env) (L : JsonLib Raw)
    (r : JSONTestResults Raw) (g : GTestResults) (testPathPrefix : String) (inv : Invocation)
    (outputsToProcess : Outputs) :
    (∀ e, (r.toProtos env L testPathPrefix inv outputsToProcess).1 = .error e →
      (r.toProtos env L testPathPrefix inv outputsToProcess).2.1 = inv) ∧
    ∀ e, (g.toProtos env testPathPrefix inv).1 = .error e →
      (g.toProtos env testPathPrefix inv).2 = inv := by
  refine ⟨fun e he => ?_, fun e he => ?_⟩
  · rcases r.toProtos_cases env L testPathPrefix inv outputsToProcess with
      ⟨_, _, h⟩ | ⟨_, _, _, -, h⟩ <;> rw [h] at he ⊢
    cases he
  · rcases g.toProtos_cases env testPathPrefix inv with ⟨_, h⟩ | ⟨_, _, -, h⟩ <;> rw [h] at he ⊢
    cases he

def unnamedGTest : GTestResults :=
  ⟨["Suite.Bad name"], [], [[("Suite.Bad name", [⟨"SUCCESS", 0, false, ""⟩])]], []⟩

example : unnamedGTest.toProtos plainEnv "ninja://" shardInvocation =
    (.error ("failed to extract test base name and parameters from \"Suite.Bad name\": " ++
      "test path of unknown format"), shardInvocation) := rfl

/-! ## Stripping prefixes from test names -/

theorem hasPrefix_iff {s p : String} : hasPrefix s p = true ↔ ∃ t, s.data = p.data ++ t := by
  unfold hasPrefix
  rw [List.isPrefixOf_iff_prefix]
  exact ⟨fun ⟨t, h⟩ => ⟨t, h.symm⟩, fun ⟨t, h⟩ => ⟨t, h.symm⟩⟩

theorem trimPrefix_append (p t : String) : trimPrefix (p ++ t) p = t := by
  rw [trimPrefix, if_pos (hasPrefix_append p t)]
  cases p; cases t
  simp [String.toList]

theorem trimPrefix_of_not {s p : String} (h : hasPrefix s p = false) : trimPrefix s p = s := by
  rw [trimPrefix, if_neg (by simp [h])]

theorem trimPrefix_length {s p : String} (h : hasPrefix s p = true) :
    (trimPrefix s p).length + p.length = s.length := by
  obtain ⟨t, ht⟩ := hasPrefix_iff.mp h
  obtain rfl : s = p ++ ⟨t⟩ := String.ext ht
  simp only [trimPrefix_append, ← String.length_data, String.data_append, List.length_append,
    Nat.add_comm]

theorem trimPrefix_length_le (s p : String) : (trimPrefix s p).length ≤ s.length := by
  cases h : hasPrefix s p
  · rw [trimPrefix_of_not h]
  · have := trimPrefix_length h; omega

theorem stripOnce_pre (t : String) : stripOnce ("PRE_" ++ t) = t := by
  rw [stripOnce, prefixes, List.foldl_cons, List.foldl_cons, List.foldl_nil,
    trimPrefix_of_not (rfl : hasPrefix ("PRE_" ++ t) "MANUAL_" = false), trimPrefix_append]

theorem stripOnce_manual (t : String) : stripOnce ("MANUAL_" ++ t) = trimPrefix t "PRE_" := by
  rw [stripOnce, prefixes, List.foldl_cons, List.foldl_cons, List.foldl_nil, trimPrefix_append]

theorem stripOnce_cases (s : String) :
    (hasPrefix s "MANUAL_" = false ∧ hasPrefix s "PRE_" = false ∧ stripOnce s = s) ∨
    ((hasPrefix s "MANUAL_" = true ∨ hasPrefix s "PRE_" = true) ∧
      (stripOnce s).length < s.length) := by
  simp only [stripOnce, prefixes, List.foldl_cons, List.foldl_nil]
  have hM : "MANUAL_".length = 7 := rfl
  have hP : "PRE_".length = 4 := rfl
  cases hm : hasPrefix s "MANUAL_"
  · rw [trimPrefix_of_not hm]
    cases hp : hasPrefix s "PRE_"
    · exact .inl ⟨rfl, rfl, trimPrefix_of_not hp⟩
    · have := trimPrefix_length hp
      exact .inr ⟨.inr rfl, by omega⟩
  · have := trimPrefix_length hm
    have := trimPrefix_length_le (trimPrefix s "MANUAL_") "PRE_"
    exact .inr ⟨.inl rfl, by omega⟩

theorem stripOnce_eq_self {s : String} :
    stripOnce s = s ↔ hasPrefix s "MANUAL_" = false ∧ hasPrefix s "PRE_" = false := by
  rcases stripOnce_cases s with ⟨hm, hp, h⟩ | ⟨hm, hlt⟩
  · exact ⟨fun _ => ⟨hm, hp⟩, fun _ => h⟩
  · refine ⟨fun h => absurd (h ▸ hlt) (Nat.lt_irrefl _), fun ⟨h1, h2⟩ => ?_⟩
    rcases hm with h | h <;> simp_all

theorem stripOnce_length_lt {s : String} (h : stripOnce s ≠ s) :
    (stripOnce s).length < s.length := by
  rcases stripOnce_cases s with ⟨-, -, h'⟩ | ⟨-, hlt⟩
  · exact absurd h' h
  · exact hlt

theorem stripLoop_some : ∀ {n : Nat} {x : String}, x.length < n →
    ∃ y, stripLoop n x = some y ∧ stripOnce y = y
  | 0, _, hn => absurd hn (Nat.not_lt_zero _)
  | n + 1, x, hn => by
    simp only [stripLoop]
    split_ifs with h
    · exact ⟨x, rfl, h⟩
    · have := stripOnce_length_lt h
      exact stripLoop_some (by omega)

theorem stripLoop_fuel : ∀ {n m : Nat} {x : String}, x.length < n → x.length < m →
    stripLoop n x = stripLoop m x
  | 0, _, _, hn, _ => absurd hn (Nat.not_lt_zero _)
  | _, 0, _, _, hm => absurd hm (Nat.not_lt_zero _)
  | n + 1, m + 1, x, hn, hm => by
    simp only [stripLoop]
    split_ifs with h
    · rfl
    · have := stripOnce_length_lt h
      exact stripLoop_fuel (by omega) (by omega)

theorem stripLoop_succ_of_ne {n : Nat} {x : String} (h : stripOnce x ≠ x) :
    stripLoop (n + 1) x = stripLoop n (stripOnce x) := if_neg h

theorem stripLoop_append_of_mem_prefixes {p : String} (hp : p ∈ prefixes) (t : String) :
    stripLoop ((p ++ t).length + 1) (p ++ t) = stripLoop (t.length + 1) t := by
  have hlen : (p ++ t).length = p.length + t.length := by
    simp only [← String.length_data, String.data_append, List.length_append]
  have hne : stripOnce (p ++ t) ≠ p ++ t := fun h => by
    have := (stripOnce_eq_self.mp h)
    rcases List.mem_pair.mp hp with rfl | rfl
    · exact absurd this.1 (by simp [hasPrefix_append])
    · exact absurd this.2 (by simp [hasPrefix_append])
  have hp0 : 0 < p.length := by rcases List.mem_pair.mp hp with rfl | rfl <;> decide
  rw [stripLoop_succ_of_ne hne]
  rcases List.mem_pair.mp hp with rfl | rfl
  · rw [stripOnce_manual]
    cases hpre : hasPrefix t "PRE_"
    · rw [trimPrefix_of_not hpre]
      exact stripLoop_fuel (by omega) (by omega)
    · have hshort := trimPrefix_length hpre
      have hne' : stripOnce t ≠ t := fun h => by
        rw [stripOnce_eq_self, hpre] at h; exact Bool.noConfusion h.2
      rw [stripLoop_succ_of_ne hne']
      obtain ⟨u, hu⟩ := hasPrefix_iff.mp hpre
      obtain rfl : t = "PRE_" ++ ⟨u⟩ := String.ext hu
      rw [stripOnce_pre, trimPrefix_append]
      rw [trimPrefix_append] at hshort
      have : "PRE_".length = 4 := rfl
      exact stripLoop_fuel (by omega) (by omega)
  · rw [stripOnce_pre]
    exact stripLoop_fuel (by omega) (by omega)

theorem cut_word : ∀ {w : List Char}, w.all isWordChar = true → cut w = ([], w)
  | [], _ => rfl
  | c :: cs, h => by
    simp only [List.all_cons, Bool.and_eq_true] at h
    simp only [cut, h.1, if_true, cut_word h.2]

theorem cut_append_nonword {c : Char} (hc : isWordChar c = false) :
    ∀ xs ys : List Char,
      cut (xs ++ c :: ys) = ((cut xs).1 ++ ((cut xs).2, c) :: (cut ys).1, (cut ys).2)
  | [], ys => by simp [cut, hc]
  | x :: xs, ys => by
    have ih := cut_append_nonword hc xs ys
    rw [List.cons_append, cut.eq_2, cut.eq_2, ih]
    dsimp only
    split_ifs
    · rcases (cut xs).1 with _ | ⟨⟨run, sep⟩, segs⟩ <;> rfl
    · rfl

def prependRun (P : List Char) :
    List (List Char × Char) × List Char → List (List Char × Char) × List Char
  | ((run, sep) :: segs, last) => ((P ++ run, sep) :: segs, last)
  | ([], last) => ([], P ++ last)

theorem cut_word_append {P : List Char} (hP : P.all isWordChar = true) (ys : List Char) :
    cut (P ++ ys) = prependRun P (cut ys) := by
  induction P with
  | nil => rcases hys : cut ys with ⟨_ | ⟨⟨run, sep⟩, segs⟩, last⟩ <;> simp [prependRun, hys]
  | cons c cs ih =>
    simp only [List.all_cons, Bool.and_eq_true] at hP
    rw [List.cons_append, cut.eq_2, ih hP.2]
    rcases cut ys with ⟨_ | ⟨⟨run, sep⟩, segs⟩, last⟩ <;> simp [prependRun, hP.1]

theorem dot_inj : ∀ {L B : List (List Char × Char)} {r r' : List Char}
    {L' A : List (List Char × Char)}, (∀ x ∈ B, x.2 ≠ '.') → (∀ x ∈ A, x.2 ≠ '.') →
    L ++ (r, '.') :: L' = B ++ (r', '.') :: A → L = B ∧ r = r' ∧ L' = A
  | [], [], _, _, _, _, _, _, h => by simp_all
  | [], b :: B, _, _, _, _, hB, _, h => by
    simp only [List.nil_append, List.cons_append, List.cons.injEq] at h
    exact absurd (h.1 ▸ rfl) (hB b (List.mem_cons_self _ _))
  | l :: L, [], r, _, L', _, _, hA, h => by
    simp only [List.nil_append, List.cons_append, List.cons.injEq] at h
    exact absurd rfl (hA (r, '.') (h.2 ▸ List.mem_append_right _ (List.mem_cons_self _ _)))
  | l :: L, b :: B, _, _, _, _, hB, hA, h => by
    simp only [List.cons_append, List.cons.injEq] at h
    obtain ⟨rfl, h1, h2⟩ := dot_inj (fun x hx => hB x (List.mem_cons_of_mem _ hx)) hA h.2
    exact ⟨by rw [h.1], h1, h2⟩

theorem cut_insert_after_dot {P b a : List Char} (hP : P.all isWordChar = true)
    (B A : List (List Char × Char)) {r last : List Char} (hB : ∀ x ∈ B, x.2 ≠ '.')
    (hA : ∀ x ∈ A, x.2 ≠ '.') (h : cut (b ++ '.' :: a) = (B ++ (r, '.') :: A, last)) :
    cut (b ++ '.' :: (P ++ a)) =
      (B ++ (r, '.') :: (prependRun P (A, last)).1, (prependRun P (A, last)).2) := by
  have hdot : isWordChar '.' = false := by decide
  rw [cut_append_nonword hdot, Prod.mk.injEq] at h
  obtain ⟨h1, h2, h3⟩ := dot_inj hB hA h.1
  rw [cut_append_nonword hdot, cut_word_append hP, h1, h2,
    show cut a = (A, last) from Prod.ext h3 h.2]

theorem mem_seps_of_not_word {c : Char} (hc : isWordChar c = false) :
    ∀ {l : List Char}, c ∈ l → c ∈ (cut l).1.map Prod.snd
  | x :: xs, h => by
    rw [cut.eq_2]
    rcases List.mem_cons.mp h with rfl | h
    · simp [hc]
    · have ih := mem_seps_of_not_word hc h
      split_ifs
      · rcases hxs : (cut xs).1 with _ | ⟨⟨run, sep⟩, segs⟩
        · simp [hxs] at ih
        · simpa [hxs] using ih
      · exact List.mem_cons_of_mem _ ih

theorem javaPathRE_eq_none {t : String}
    (h : ∀ seg ∈ (cut t.data).1, seg.2 = '/' ∨ seg.2 = '.') : javaPathRE t = none := by
  unfold javaPathRE
  split
  · rename_i x xs rest heq
    have hmem : '#' ∈ t.data := by
      rw [String.toList, List.span_eq_take_drop, Prod.mk.injEq] at heq
      rw [← List.takeWhile_append_dropWhile (fun c => isWordChar c || c = '.') t.data, heq.2]
      simp
    obtain ⟨seg, hseg, hsep⟩ := List.mem_map.mp (mem_seps_of_not_word (by decide) hmem)
    rcases h seg hseg with h | h <;> rw [h] at hsep <;> exact absurd hsep (by decide)
  · rfl

theorem extractGTestParameters_shapes {t : String} {v : String × List (String × String)}
    (hj : javaPathRE t = none) (h : extractGTestParameters t = .ok v) :
    (∃ i s q n, cut t.data = ([(i, '/'), (s, '/'), (q, '.')], n) ∧
      i ≠ [] ∧ s ≠ [] ∧ q ≠ [] ∧ n ≠ []) ∨
    (∃ s q n, cut t.data = ([(s, '/'), (q, '.')], n) ∧ s ≠ [] ∧ q ≠ [] ∧ n ≠ []) ∨
    (∃ i s n q, cut t.data = ([(i, '/'), (s, '.'), (n, '/')], q) ∧
      i ≠ [] ∧ s ≠ [] ∧ n ≠ [] ∧ q ≠ []) ∨
    (∃ s n q, cut t.data = ([(s, '.'), (n, '/')], q) ∧ s ≠ [] ∧ n ≠ [] ∧ q ≠ []) ∨
    (∃ s n, cut t.data = ([(s, '.')], n) ∧ s ≠ [] ∧ n ≠ []) := by
  rcases htype : typeParamRE t with _ | m
  · rcases hval : valueParamRE t with _ | m
    · rcases hbase : basePathRE t with _ | m
      · simp [extractGTestParameters, hj, htype, hval, hbase] at h
      · unfold basePathRE at hbase
        split at hbase
        · split_ifs at hbase with hne
          exact .inr (.inr (.inr (.inr ⟨_, _, by assumption, hne⟩)))
        · cases hbase
    · unfold valueParamRE at hval
      split at hval
      · split_ifs at hval with hne
        exact .inr (.inr (.inl ⟨_, _, _, _, by assumption, hne⟩))
      · split_ifs at hval with hne
        exact .inr (.inr (.inr (.inl ⟨_, _, _, by assumption, hne⟩)))
      · cases hval
  · unfold typeParamRE at htype
    split at htype
    · split_ifs at htype with hne
      exact .inl ⟨_, _, _, _, by assumption, hne⟩
    · split_ifs at htype with hne
      exact .inr (.inl ⟨_, _, _, by assumption, hne⟩)
    · cases htype

theorem stripLoop_getD_prefix {p : String} (hp : p ∈ prefixes) (t : String) :
    (stripLoop ((p ++ t).length + 1) (p ++ t)).getD (p ++ t) =
      (stripLoop (t.length + 1) t).getD t := by
  obtain ⟨y, hy, -⟩ := stripLoop_some (Nat.lt_succ_self t.length)
  rw [stripLoop_append_of_mem_prefixes hp, hy, Option.getD_some, Option.getD_some]

theorem extractGTestParameters_insert_eq (before after p : String) (hp : p ∈ prefixes)
    (hjava : javaPathRE (before ++ "." ++ after) = none)
    (hok : ∃ v, extractGTestParameters (before ++ "." ++ after) = .ok v) :
    extractGTestParameters (before ++ "." ++ p ++ after) =
      extractGTestParameters (before ++ "." ++ after) := by
  obtain ⟨v, hv⟩ := hok
  have hdata : (before ++ "." ++ after).data = before.data ++ '.' :: after.data := by simp
  have hw : p.data.all isWordChar = true := by
    rcases List.mem_pair.mp hp with rfl | rfl <;> decide
  have hpn : ∀ n : List Char, p.data ++ n ≠ [] := fun n h => by
    rcases List.mem_pair.mp hp with rfl | rfl <;> simp at h
  have hname : ∀ n : List Char, (⟨p.data ++ n⟩ : String) = p ++ ⟨n⟩ := fun _ => rfl
  have hstrip : ∀ n : List Char, (stripLoop (p.length + n.length + 1) (p ++ ⟨n⟩)).getD (p ++ ⟨n⟩) =
      (stripLoop (n.length + 1) ⟨n⟩).getD ⟨n⟩ := fun n => by
    simpa using stripLoop_getD_prefix hp ⟨n⟩
  rcases extractGTestParameters_shapes hjava hv with
    ⟨i, s, q, n, h, hne⟩ | ⟨s, q, n, h, hne⟩ | ⟨i, s, n, q, h, hne⟩ | ⟨s, n, q, h, hne⟩ |
      ⟨s, n, h, hne⟩ <;> rw [hdata] at h
  -- in each shape the `.` is the only one and the test name is the run right after it
  on_goal 1 => have h' := cut_insert_after_dot hw [(i, '/'), (s, '/')] [] (by simp) (by simp) h
  on_goal 2 => have h' := cut_insert_after_dot hw [(s, '/')] [] (by simp) (by simp) h
  on_goal 3 => have h' := cut_insert_after_dot hw [(i, '/')] [(n, '/')] (by simp) (by simp) h
  on_goal 4 => have h' := cut_insert_after_dot hw [] [(n, '/')] (by simp) (by simp) h
  on_goal 5 => have h' := cut_insert_after_dot hw [] [] (by simp) (by simp) h
  all_goals
    have hj' : javaPathRE (before ++ "." ++ p ++ after) = none :=
      javaPathRE_eq_none (by simp [h', prependRun])
    simp [extractGTestParameters, hjava, hj', typeParamRE, valueParamRE, basePathRE, String.toList,
      h', h, prependRun, hne, hpn, hname, hstrip]

theorem stripLoop_ends (name : String) :
    ∃ stripped, (∀ fuel, name.length < fuel → stripLoop fuel name = some stripped) ∧
      hasPrefix stripped "MANUAL_" = false ∧ hasPrefix stripped "PRE_" = false := by
  obtain ⟨y, hy, hfix⟩ := stripLoop_some (Nat.lt_succ_self name.length)
  exact ⟨y, fun _ hf => (stripLoop_fuel hf (Nat.lt_succ_self _)).trans hy,
    stripOnce_eq_self.mp hfix⟩

theorem extractGTestParameters_base {testPath : String} {v : String × List (String × String)}
    (hjava : javaPathRE testPath = none) (h : extractGTestParameters testPath = .ok v) :
    ∃ suite stripped, v.1 = suite ++ "." ++ stripped ∧
      hasPrefix stripped "MANUAL_" = false ∧ hasPrefix stripped "PRE_" = false := by
  simp only [extractGTestParameters, hjava, Option.isSome_none, Bool.false_eq_true, if_false] at h
  split at h
  · cases h
  · rename_i suite name params _
    obtain ⟨stripped, hs, hm, hpre⟩ := stripLoop_ends name
    cases h
    exact ⟨suite, stripped, by rw [hs _ (Nat.lt_succ_self _)]; rfl, hm, hpre⟩

theorem extractGTestParameters_ignores_prefix (before after p : String) (hp : p ∈ prefixes)
    (hjava : javaPathRE (before ++ "." ++ after) = none)
    (hok : ∃ v, extractGTestParameters (before ++ "." ++ after) = .ok v) :
    extractGTestParameters (before ++ "." ++ p ++ after) =
      extractGTestParameters (before ++ "." ++ after) ∧
    (∀ name : String, ∃ stripped,
      (∀ fuel, name.length < fuel → stripLoop fuel name = some stripped) ∧
      hasPrefix stripped "MANUAL_" = false ∧ hasPrefix stripped "PRE_" = false) ∧
    ∀ testPath v, javaPathRE testPath = none → extractGTestParameters testPath = .ok v →
      ∃ suite stripped, v.1 = suite ++ "." ++ stripped ∧
        hasPrefix stripped "MANUAL_" = false ∧ hasPrefix stripped "PRE_" = false :=
  ⟨extractGTestParameters_insert_eq before after p hp hjava hok, stripLoop_ends,
    fun _ _ => extractGTestParameters_base⟩

theorem extractGTestParameters_ignores_prefix_value :
    "PRE_" ∈ prefixes ∧
    javaPathRE ("MyInstantiation/FooTest" ++ "." ++ "MANUAL_DoesBar/1") = none ∧
    (∃ v, extractGTestParameters ("MyInstantiation/FooTest" ++ "." ++ "MANUAL_DoesBar/1") = .ok v) ∧
    extractGTestParameters ("MyInstantiation/FooTest" ++ "." ++ "PRE_" ++ "MANUAL_DoesBar/1") =
      extractGTestParameters ("MyInstantiation/FooTest" ++ "." ++ "MANUAL_DoesBar/1") ∧
    (∀ name : String, ∃ stripped,
      (∀ fuel, name.length < fuel → stripLoop fuel name = some stripped) ∧
      hasPrefix stripped "MANUAL_" = false ∧ hasPrefix stripped "PRE_" = false) ∧
    ∀ testPath v, javaPathRE testPath = none → extractGTestParameters testPath = .ok v →
      ∃ suite stripped, v.1 = suite ++ "." ++ stripped ∧
        hasPrefix stripped "MANUAL_" = false ∧ hasPrefix stripped "PRE_" = false :=
  have hp : "PRE_" ∈ prefixes := by decide
  have hjava : javaPathRE ("MyInstantiation/FooTest" ++ "." ++ "MANUAL_DoesBar/1") = none := by
    decide
  have hok : ∃ v, extractGTestParameters ("MyInstantiation/FooTest" ++ "." ++ "MANUAL_DoesBar/1") =
      .ok v := ⟨_, rfl⟩
  ⟨hp, hjava, hok, extractGTestParameters_ignores_prefix _ _ _ hp hjava hok⟩

end Luci.ResultDB.Formats
