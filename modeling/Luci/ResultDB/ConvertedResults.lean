import Luci.ResultDB.JsonTrie

/-!
# What `JSONTestResults.ToProtos` returns and consumes

`ToProtos` goes through the test names in sorted order and converts each test into one result
per run status, all with the test path `testPathPrefix ++ name`; so its results come out sorted
by test path, whatever order `Tests` holds them in.

Each test looks its artifact paths up among the isolated outputs and deletes those it finds, when
the path's run ID parses. So `ToProtos` removes from `outputsToProcess` only outputs at paths some
test lists, leaves every other one as it was, also on error, and when it succeeds has removed
every listed output.
-/

namespace Luci.ResultDB.Formats

theorem append_le_append_left {a b : String} (p : String) (h : a ≤ b) : p ++ a ≤ p ++ b := by
  rcases h.lt_or_eq with h | rfl
  · refine le_of_lt ?_
    rw [String.lt_iff_toList_lt] at h ⊢
    exact List.Lex.append_left _ h p.toList
  · exact le_rfl

theorem bind_eq_ok {ε α β : Type} {x : Except ε α} {f : α → Except ε β} {b : β}
    (h : x >>= f = .ok b) : ∃ a, x = .ok a ∧ f a = .ok b := by
  cases x with
  | error e => cases h
  | ok a => exact ⟨a, rfl, h⟩

theorem map_eq_ok {ε α β : Type} {x : Except ε α} {f : α → β} {b : β} (h : x.map f = .ok b) :
    ∃ a, x = .ok a ∧ f a = b := by
  cases x with
  | error e => cases h
  | ok a => exact ⟨a, rfl, Except.ok.inj h⟩

theorem TestFields.toProtos_eq_ok {env : Env} {f : TestFields} {testPath : String}
    {outputs : Outputs} {trs : List TestResult} {unresolved : String → List String}
    {outputs' : Outputs} (h : f.toProtos env testPath outputs = (.ok (trs, unresolved), outputs')) :
    ∃ durations, runsToProtos env testPath (split f.expected ' ')
        (getArtifacts f.artifacts outputs).artifacts durations 0 (split f.actual ' ') = .ok trs ∧
      unresolved = (getArtifacts f.artifacts outputs).unresolved ∧
      outputs' = (getArtifacts f.artifacts outputs).outputs := by
  unfold TestFields.toProtos at h
  dsimp only at h
  split at h
  · cases h
  · simp only [Prod.mk.injEq] at h
    obtain ⟨h, rfl⟩ := h
    obtain ⟨trs', hr, he⟩ := map_eq_ok h
    obtain ⟨rfl, rfl⟩ := Prod.mk.inj he
    exact ⟨_, hr, rfl, rfl⟩

/-! ## The results, in order -/

section Results

variable (env : Env) (hnorm : ∀ tr, (env.normalizeTestResult tr).testPath = tr.testPath)
include hnorm

theorem runsToProtos_testPath {testPath : String} {expectedSet : List String}
    {arts : Int → List Artifact} {durations : List Float} :
    ∀ {i : Nat} {statuses : List String} {trs : List TestResult},
      runsToProtos env testPath expectedSet arts durations i statuses = .ok trs →
      trs.map (·.testPath) = List.replicate statuses.length testPath
  | _, [], _, h => by cases h; rfl
  | i, s :: rest, trs, h => by
    obtain ⟨status, -, h⟩ := bind_eq_ok h
    obtain ⟨trs', hrest, h⟩ := bind_eq_ok h
    cases h
    rw [List.map_cons, runsToProtos_testPath hrest, hnorm]
    rfl

theorem TestFields.toProtos_testPath {f : TestFields} {testPath : String} {outputs : Outputs}
    {trs : List TestResult} {unresolved : String → List String} {outputs' : Outputs}
    (h : f.toProtos env testPath outputs = (.ok (trs, unresolved), outputs')) :
    trs.map (·.testPath) = List.replicate (split f.actual ' ').length testPath := by
  obtain ⟨_, hr, -⟩ := TestFields.toProtos_eq_ok h
  exact runsToProtos_testPath env hnorm hr

def runCount {Raw : Type} (r : JSONTestResults Raw) (name : String) : Nat :=
  ((r.tests.lookup name).map fun f => (split f.actual ' ').length).getD 0

theorem JSONTestResults.testsToProtos_testPath {Raw : Type} (r : JSONTestResults Raw)
    (testPathPrefix : String) :
    ∀ {names : List String} {outputs : Outputs} {ret : List TestResult} {outputs' : Outputs},
      r.testsToProtos env testPathPrefix names outputs = (.ok ret, outputs') →
      ret.map (·.testPath) =
        names.flatMap fun name => List.replicate (runCount r name) (testPathPrefix ++ name)
  | [], _, _, _, h => by cases h; rfl
  | name :: names, outputs, ret, outputs', h => by
    unfold JSONTestResults.testsToProtos at h
    rw [List.flatMap_cons, runCount]
    rcases hl : r.tests.lookup name with _ | f
    · rw [hl] at h
      exact r.testsToProtos_testPath testPathPrefix h
    · rcases hf : f.toProtos env (testPathPrefix ++ name) outputs with ⟨_ | ⟨trs, u⟩, o⟩ <;>
        simp only [hl, hf, Prod.mk.injEq] at h
      · cases h.1
      · obtain ⟨h, -⟩ := h
        obtain ⟨ret', hrest, rfl⟩ := map_eq_ok h
        rw [List.map_append, TestFields.toProtos_testPath env hnorm hf,
          r.testsToProtos_testPath testPathPrefix (Prod.ext hrest rfl)]
        rfl

theorem JSONTestResults.toProtos_sorted {Raw : Type} (L : JsonLib Raw) (r : JSONTestResults Raw)
    {testPathPrefix : String} {inv : Invocation} {outputs : Outputs} {ret : List TestResult}
    (h : (r.toProtos env L testPathPrefix inv outputs).1 = .ok ret) :
    ret.map (·.testPath) = (sortStrings (r.tests.map Prod.fst)).flatMap
      (fun name => List.replicate (runCount r name) (testPathPrefix ++ name)) ∧
    (ret.map (·.testPath)).Sorted (· ≤ ·) := by
  have hret : ret.map (·.testPath) = (sortStrings (r.tests.map Prod.fst)).flatMap
      (fun name => List.replicate (runCount r name) (testPathPrefix ++ name)) := by
    unfold JSONTestResults.toProtos at h
    split_ifs at h
    rcases ht : r.testsToProtos env testPathPrefix (sortStrings (r.tests.map Prod.fst)) outputs with
      ⟨_ | ret', o⟩
    · simp [ht] at h
    rcases he : r.extractTags L with _ | tags
    · simp [ht, he] at h
    simp only [ht, he, Except.ok.injEq] at h
    subst h
    exact r.testsToProtos_testPath env hnorm testPathPrefix ht
  refine ⟨hret, ?_⟩
  rw [hret, List.Sorted, List.pairwise_flatMap]
  refine ⟨fun _ _ => List.pairwise_replicate.mpr (.inr le_rfl), ?_⟩
  refine (List.sorted_insertionSort _ _).imp fun hle x hx y hy => ?_
  rw [(List.mem_replicate.mp hx).2, (List.mem_replicate.mp hy).2]
  exact append_le_append_left _ hle

end Results

def retriedJson : Json :=
  .obj [("actual", .str "FAIL PASS"), ("expected", .str "PASS"), ("times", .arr [.num 2, .num 1])]

def twoTestsResults : JSONTestResults Json :=
  ⟨false, "", .obj [("b/two", retriedJson), ("a/one", leafJson "PASS")],
    [("b/two", fixtureLib.toFields retriedJson), ("a/one", fixtureLib.toFields (leafJson "PASS"))],
    3, "", []⟩

theorem twoTestsResults_names :
    sortStrings (twoTestsResults.tests.map Prod.fst) = ["a/one", "b/two"] := by
  have h : ¬ ("b/two" : String) ≤ "a/one" := by rw [String.le_iff_toList_le]; decide
  simp [twoTestsResults, sortStrings, List.insertionSort, List.orderedInsert, h]

theorem toProtos_sorted_two_tests :
    (∀ tr, (plainEnv.normalizeTestResult tr).testPath = tr.testPath) ∧
    ∃ ret, (twoTestsResults.toProtos plainEnv fixtureLib "ninja://" shardInvocation
        fun _ => none).1 = .ok ret ∧
      ret.map (·.testPath) = ["ninja://a/one", "ninja://b/two", "ninja://b/two"] ∧
      ret.map (·.testPath) = (sortStrings (twoTestsResults.tests.map Prod.fst)).flatMap
        (fun name => List.replicate (runCount twoTestsResults name) ("ninja://" ++ name)) ∧
      (ret.map (·.testPath)).Sorted (· ≤ ·) := by
  have hnorm : ∀ tr, (plainEnv.normalizeTestResult tr).testPath = tr.testPath := fun _ => rfl
  obtain ⟨ret, hok⟩ : ∃ ret, (twoTestsResults.toProtos plainEnv fixtureLib "ninja://"
      shardInvocation fun _ => none).1 = .ok ret :=
    ⟨_, by unfold JSONTestResults.toProtos; rw [twoTestsResults_names]; rfl⟩
  have hsorted := JSONTestResults.toProtos_sorted plainEnv hnorm fixtureLib twoTestsResults hok
  refine ⟨hnorm, ret, hok, ?_, hsorted⟩
  rw [hsorted.1, twoTestsResults_names]
  rfl

/-! ## What `ToProtos` takes from the isolated outputs -/

def Consumed (used : String → Prop) (outputs outputs' : Outputs) : Prop :=
  ∀ p, outputs' p = outputs p ∨ (outputs' p = none ∧ used p)

theorem Consumed.refl (used : String → Prop) (outputs : Outputs) : Consumed used outputs outputs :=
  fun _ => .inl rfl

theorem Consumed.trans {used used' : String → Prop} {o₁ o₂ o₃ : Outputs} (h₁ : Consumed used o₁ o₂)
    (h₂ : Consumed used' o₂ o₃) : Consumed (fun p => used p ∨ used' p) o₁ o₃ := fun p => by
  rcases h₂ p with h₂ | ⟨h₂, hu⟩
  · rcases h₁ p with h₁ | ⟨h₁, hu⟩
    · exact .inl (h₂.trans h₁)
    · exact .inr ⟨h₂.trans h₁, .inl hu⟩
  · exact .inr ⟨h₂, .inr hu⟩

theorem Consumed.mono {used used' : String → Prop} (h : ∀ p, used p → used' p) {o o' : Outputs}
    (hc : Consumed used o o') : Consumed used' o o' :=
  fun p => (hc p).imp_right fun ⟨h₁, hu⟩ => ⟨h₁, h p hu⟩

theorem Consumed.none {used : String → Prop} {o o' : Outputs} (h : Consumed used o o') {p : String}
    (hp : o p = none) : o' p = none :=
  (h p).elim (fun h => h.trans hp) And.left

def Resolvable (p : String) : Prop := ∃ runID, artifactRunID p = .ok runID

theorem getArtifactsPaths_consumed :
    ∀ (acc : Acc) (name : String) (i : Nat) (paths : List String),
      Consumed (fun p => p ∈ paths ∧ Resolvable p) acc.outputs
        (getArtifactsPaths acc name i paths).outputs
  | acc, _, _, [] => Consumed.refl _ acc.outputs
  | acc, name, i, path :: paths => by
    have hrest : ∀ (acc' : Acc) (name' : String), Consumed (fun p => p ∈ path :: paths ∧
        Resolvable p) acc'.outputs (getArtifactsPaths acc' name' (i + 1) paths).outputs :=
      fun acc' name' => (getArtifactsPaths_consumed acc' name' (i + 1) paths).mono
        fun _ ⟨hp, hr⟩ => ⟨List.mem_cons_of_mem _ hp, hr⟩
    unfold getArtifactsPaths
    rcases hid : artifactRunID path with _ | runID <;> simp only
    · exact hrest _ _
    rcases ho : acc.outputs path with _ | art <;> simp only
    · split
      · exact hrest _ _
      · exact hrest _ _
    · refine (Consumed.trans (fun p => ?_) (hrest _ _)).mono fun p hp => hp.elim id id
      by_cases hp : p = path
      · exact .inr ⟨if_pos hp, hp ▸ List.mem_cons_self _ _, hp ▸ ⟨runID, hid⟩⟩
      · exact .inl (if_neg hp)

theorem getArtifactsPaths_removes {p : String} (hp : Resolvable p) :
    ∀ (acc : Acc) (name : String) (i : Nat) (paths : List String), p ∈ paths →
      (getArtifactsPaths acc name i paths).outputs p = none
  | _, _, _, [], h => nomatch h
  | acc, name, i, path :: paths, h => by
    by_cases hin : p ∈ paths
    · unfold getArtifactsPaths
      split
      · exact getArtifactsPaths_removes hp _ _ _ _ hin
      · split
        · exact getArtifactsPaths_removes hp _ _ _ _ hin
        · split
          · exact getArtifactsPaths_removes hp _ _ _ _ hin
          · exact getArtifactsPaths_removes hp _ _ _ _ hin
    obtain rfl : p = path := (List.mem_cons.mp h).resolve_right hin
    obtain ⟨runID, hid⟩ := hp
    have hnext : ∀ (acc' : Acc) (name' : String), acc'.outputs p = none →
        (getArtifactsPaths acc' name' (i + 1) paths).outputs p = none :=
      fun acc' name' hnone => (getArtifactsPaths_consumed acc' name' (i + 1) paths).none hnone
    unfold getArtifactsPaths
    rw [hid]
    rcases ho : acc.outputs p with _ | art <;> simp only
    · split
      · exact hnext _ _ ho
      · exact hnext _ _ ho
    · exact hnext _ _ (if_pos rfl)

theorem getArtifactsLoop_consumed :
    ∀ (artifacts : List (String × List String)) (acc : Acc),
      Consumed (fun p => (∃ e ∈ artifacts, p ∈ e.2) ∧ Resolvable p) acc.outputs
        (artifacts.foldl (fun acc entry => getArtifactsPaths acc entry.1 0 entry.2) acc).outputs
  | [], acc => Consumed.refl _ acc.outputs
  | e :: es, acc => ((getArtifactsPaths_consumed acc e.1 0 e.2).trans
      (getArtifactsLoop_consumed es _)).mono fun _ hp =>
    hp.elim (fun ⟨h, hr⟩ => ⟨⟨e, List.mem_cons_self _ _, h⟩, hr⟩)
      fun ⟨⟨e', he', h⟩, hr⟩ => ⟨⟨e', List.mem_cons_of_mem _ he', h⟩, hr⟩

theorem getArtifacts_consumed (artifacts : List (String × List String)) (outputs : Outputs) :
    Consumed (fun p => (∃ e ∈ artifacts, p ∈ e.2) ∧ Resolvable p) outputs
      (getArtifacts artifacts outputs).outputs :=
  getArtifactsLoop_consumed artifacts _

theorem getArtifacts_removes {p : String} (hp : Resolvable p) :
    ∀ (artifacts : List (String × List String)) (acc : Acc), (∃ e ∈ artifacts, p ∈ e.2) →
      (artifacts.foldl (fun acc entry => getArtifactsPaths acc entry.1 0 entry.2) acc).outputs p =
        none
  | [], _, ⟨_, he, _⟩ => nomatch he
  | e :: es, acc, ⟨e', he', h⟩ => by
    rw [List.foldl_cons]
    rcases List.mem_cons.mp he' with rfl | he'
    · exact (getArtifactsLoop_consumed es _).none (getArtifactsPaths_removes hp acc _ 0 _ h)
    · exact getArtifacts_removes hp es _ ⟨e', he', h⟩

theorem TestFields.toProtos_consumed (env : Env) (f : TestFields) (testPath : String)
    (outputs : Outputs) :
    Consumed (fun p => (∃ e ∈ f.artifacts, p ∈ e.2) ∧ Resolvable p) outputs
      (f.toProtos env testPath outputs).2 := by
  unfold TestFields.toProtos
  dsimp only
  split
  · exact Consumed.refl _ outputs
  · exact getArtifacts_consumed f.artifacts outputs

def JSONTestResults.Resolves {Raw : Type} (r : JSONTestResults Raw) (p : String) : Prop :=
  (∃ name f, r.tests.lookup name = some f ∧ ∃ e ∈ f.artifacts, p ∈ e.2) ∧ Resolvable p

theorem JSONTestResults.testsToProtos_consumed (env : Env) {Raw : Type} (r : JSONTestResults Raw)
    (testPathPrefix : String) :
    ∀ (names : List String) (outputs : Outputs),
      Consumed r.Resolves outputs (r.testsToProtos env testPathPrefix names outputs).2
  | [], outputs => Consumed.refl _ outputs
  | name :: names, outputs => by
    unfold JSONTestResults.testsToProtos
    rcases hl : r.tests.lookup name with _ | f
    · exact r.testsToProtos_consumed env testPathPrefix names outputs
    · have hf : Consumed r.Resolves outputs (f.toProtos env (testPathPrefix ++ name) outputs).2 :=
        (TestFields.toProtos_consumed env f (testPathPrefix ++ name) outputs).mono
          fun p ⟨⟨e, he, hp⟩, hr⟩ => ⟨⟨name, f, hl, e, he, hp⟩, hr⟩
      rcases hr : f.toProtos env (testPathPrefix ++ name) outputs with ⟨_ | ⟨trs, u⟩, o⟩ <;>
        simp only [hr] at hf ⊢
      · exact hf
      · exact (hf.trans (r.testsToProtos_consumed env testPathPrefix names o)).mono
          fun p hp => hp.elim id id

theorem JSONTestResults.testsToProtos_removes (env : Env) {Raw : Type} (r : JSONTestResults Raw)
    (testPathPrefix : String) {p : String} (hp : Resolvable p) :
    ∀ {names : List String} {outputs : Outputs} {ret : List TestResult} {outputs' : Outputs},
      r.testsToProtos env testPathPrefix names outputs = (.ok ret, outputs') →
      ∀ name ∈ names, ∀ f, r.tests.lookup name = some f → (∃ e ∈ f.artifacts, p ∈ e.2) →
        outputs' p = none
  | [], _, _, _, _, _, hname, _, _, _ => nomatch hname
  | name :: names, outputs, ret, outputs', h, name', hname', f', hl', hlists => by
    unfold JSONTestResults.testsToProtos at h
    rcases hl : r.tests.lookup name with _ | f
    · simp only [hl] at h
      rcases List.mem_cons.mp hname' with rfl | hname'
      · rw [hl] at hl'
        cases hl'
      · exact r.testsToProtos_removes env testPathPrefix hp h name' hname' f' hl' hlists
    · rcases hf : f.toProtos env (testPathPrefix ++ name) outputs with ⟨_ | ⟨trs, u⟩, o⟩ <;>
        simp only [hl, hf, Prod.mk.injEq] at h
      · cases h.1
      obtain ⟨h₁, rfl⟩ := h
      obtain ⟨ret', hrest, -⟩ := map_eq_ok h₁
      have hrest : r.testsToProtos env testPathPrefix names o = (.ok ret', _) := Prod.ext hrest rfl
      rcases List.mem_cons.mp hname' with rfl | hname'
      · rw [hl] at hl'
        cases hl'
        obtain ⟨_, -, -, ho⟩ := TestFields.toProtos_eq_ok hf
        exact (r.testsToProtos_consumed env testPathPrefix names o).none
          (ho ▸ getArtifacts_removes hp _ _ hlists)
      · exact r.testsToProtos_removes env testPathPrefix hp hrest name' hname' f' hl' hlists

theorem JSONTestResults.toProtos_outputs (env : Env) {Raw : Type} (L : JsonLib Raw)
    (r : JSONTestResults Raw) (testPathPrefix : String) (inv : Invocation) (outputs : Outputs) :
    (∀ p, (r.toProtos env L testPathPrefix inv outputs).2.2 p = outputs p ∨
      ((r.toProtos env L testPathPrefix inv outputs).2.2 p = none ∧ r.Resolves p)) ∧
    ∀ ret, (r.toProtos env L testPathPrefix inv outputs).1 = .ok ret →
      ∀ p, r.Resolves p → (r.toProtos env L testPathPrefix inv outputs).2.2 p = none := by
  have h := r.testsToProtos_consumed env testPathPrefix (sortStrings (r.tests.map Prod.fst)) outputs
  unfold JSONTestResults.toProtos
  split_ifs
  · exact ⟨Consumed.refl _ outputs, fun _ h => nomatch h⟩
  rcases ht : r.testsToProtos env testPathPrefix (sortStrings (r.tests.map Prod.fst)) outputs with
    ⟨_ | ret, o⟩ <;> rw [ht] at h
  · exact ⟨h, fun _ h => nomatch h⟩
  rcases r.extractTags L with _ | tags
  · exact ⟨h, fun _ h => nomatch h⟩
  refine ⟨h, fun _ _ p ⟨⟨name, f, hl, hlists⟩, hp⟩ =>
    r.testsToProtos_removes env testPathPrefix hp ht name ?_ f hl hlists⟩
  obtain ⟨q, hq, he⟩ := List.lookup_isSome_iff.mp (by rw [hl]; rfl)
  exact (List.perm_insertionSort _ _).mem_iff.mpr
    (List.mem_map.mpr ⟨q, hq, (beq_iff_eq.mp he).symm⟩)

end Luci.ResultDB.Formats
