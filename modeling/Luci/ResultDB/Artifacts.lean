import Mathlib.Data.List.Basic

/-!
# Artifacts of a JSON test result

`TestFields.getArtifacts` goes through the artifact names of a test and the paths under each. A
path found among the isolated outputs becomes that output's artifact, a path under a triage-link
name becomes an artifact whose view URL is the path, and any other path is returned as unresolved.
Each artifact goes to the run named by a `/retry_<i>/` directory in its path, or run 0.

The triage-link case renames the artifact `<name>_<i>` for the `i`-th path, to keep more than one
link per test. The renaming assigns the loop variable `name` itself, so from the third path on the
name is no longer a triage-link name and the path is reported unresolved.

Go maps are lists in iteration order, and maps written by the loop are functions.
-/

namespace Luci.ResultDB.Formats

/-- A `pb.Artifact`, with the fields `getArtifacts` sets. -/
structure Artifact where
  name : String
  viewUrl : String
  deriving DecidableEq, Repr

/-- `append` to the slice of a map of slices. -/
def addTo {α β : Type} [DecidableEq α] (m : α → List β) (k : α) (v : β) : α → List β :=
  fun k' => if k' = k then m k ++ [v] else m k'

@[simp] theorem addTo_self {α β : Type} [DecidableEq α] (m : α → List β) (k : α) (v : β) :
    addTo m k v k = m k ++ [v] := if_pos rfl

theorem addTo_other {α β : Type} [DecidableEq α] (m : α → List β) {k k' : α} (v : β)
    (h : k' ≠ k) : addTo m k v k' = m k' := if_neg h

/-- `strconv.Atoi` of a string of ASCII digits, with a 64-bit `int`: at most `2^63 - 1`. -/
def atoi (digits : List Char) : Except String Int :=
  let n := digits.foldl (fun n c => 10 * n + (c.toNat - '0'.toNat)) 0
  if n < 9223372036854775808 then .ok n
  else .error ("strconv.Atoi: parsing \"" ++ String.mk digits ++ "\": value out of range")

/-- A match of `/retry_([0-9]+)/` starting at the head of `cs`: its group. The digits are as many
as there are, since the next character must be `/`. -/
def retryAt (cs : List Char) : Option (List Char) :=
  if "/retry_".toList.isPrefixOf cs then
    let rest := cs.drop 7
    let ds := rest.takeWhile Char.isDigit
    if ds ≠ [] ∧ (rest.drop ds.length).head? = some '/' then some ds else none
  else none

/-- `testRunSubdirRe.FindStringSubmatch`: the group of the leftmost match. -/
def findRetry : List Char → Option (List Char)
  | [] => none
  | c :: cs => (retryAt (c :: cs)).orElse fun _ => findRetry cs

/-- `artifactRunID`. -/
def artifactRunID (path : String) : Except String Int :=
  match findRetry path.toList with
  | some ds => atoi ds
  | none => .ok 0

/-- What the loop of `getArtifacts` writes: the artifacts per run, the unresolved paths per name,
and `outputsToProcess`, from which it deletes what it uses. -/
structure Acc where
  artifacts : Int → List Artifact
  unresolved : String → List String
  outputs : String → Option Artifact

def Acc.unresolve (acc : Acc) (name path : String) : Acc :=
  { acc with unresolved := addTo acc.unresolved name path }

def Acc.add (acc : Acc) (runID : Int) (art : Artifact) : Acc :=
  { acc with artifacts := addTo acc.artifacts runID art }

/-- `delete(outputsToProcess, path)`. -/
def Acc.delete (acc : Acc) (path : String) : Acc :=
  { acc with outputs := fun p => if p = path then none else acc.outputs p }

def isTriageLink (name : String) : Bool :=
  name = "gold_triage_link" || name = "triage_link_for_entire_cl"

/-- The inner loop of `getArtifacts`, over the paths of one name from index `i`. The body may
reassign `name`, and the next iterations see the new value. -/
def getArtifactsPaths : Acc → String → Nat → List String → Acc
  | acc, _, _, [] => acc
  | acc, name, i, path :: paths =>
    match artifactRunID path with
    | .error _ => getArtifactsPaths (acc.unresolve name path) name (i + 1) paths
    | .ok runID =>
      match acc.outputs path with
      | some art =>
        getArtifactsPaths ((acc.add runID art).delete path) name (i + 1) paths
      | none =>
        if isTriageLink name then
          let name := if 0 < i then name ++ "_" ++ toString i else name
          getArtifactsPaths (acc.add runID ⟨name, path⟩) name (i + 1) paths
        else getArtifactsPaths (acc.unresolve name path) name (i + 1) paths

/-- `TestFields.getArtifacts`, over the artifact names in iteration order: the artifacts per run,
the unresolved paths per name, and what is left of `outputsToProcess`. -/
def getArtifacts (artifacts : List (String × List String)) (outputs : String → Option Artifact) :
    Acc :=
  artifacts.foldl (fun acc entry => getArtifactsPaths acc entry.1 0 entry.2)
    ⟨fun _ => [], fun _ => [], outputs⟩

@[simp] theorem Acc.unresolve_outputs (acc : Acc) (name path : String) :
    (acc.unresolve name path).outputs = acc.outputs := rfl

@[simp] theorem Acc.add_outputs (acc : Acc) (runID : Int) (art : Artifact) :
    (acc.add runID art).outputs = acc.outputs := rfl

theorem getArtifactsPaths_unresolved {name : String} (hname : isTriageLink name = false) :
    ∀ {acc : Acc} {i : Nat} {paths : List String}, (∀ p ∈ paths, acc.outputs p = none) →
      getArtifactsPaths acc name i paths = paths.foldl (fun acc p => acc.unresolve name p) acc
  | _, _, [], _ => rfl
  | acc, i, path :: paths, hout => by
    have hrest : ∀ p ∈ paths, (acc.unresolve name path).outputs p = none :=
      fun p hp => hout p (List.mem_cons_of_mem _ hp)
    unfold getArtifactsPaths
    split
    · exact getArtifactsPaths_unresolved hname hrest
    · rw [hout path (List.mem_cons_self _ _)]
      simp only [hname, Bool.false_eq_true, if_false]
      exact getArtifactsPaths_unresolved hname hrest

theorem isTriageLink_suffix {base : String} (h : isTriageLink base = true) :
    isTriageLink (base ++ "_1") = false := by
  simp only [isTriageLink, Bool.or_eq_true, decide_eq_true_eq] at h
  rcases h with rfl | rfl <;> decide

theorem getArtifactsPaths_triage {base : String} (hbase : isTriageLink base = true) {acc : Acc}
    {p₀ p₁ : String} {rest : List String} {r₀ r₁ : Int} (h₀ : artifactRunID p₀ = .ok r₀)
    (h₁ : artifactRunID p₁ = .ok r₁) (hout : ∀ p ∈ p₀ :: p₁ :: rest, acc.outputs p = none) :
    getArtifactsPaths acc base 0 (p₀ :: p₁ :: rest) =
      rest.foldl (fun acc p => acc.unresolve (base ++ "_1") p)
        ((acc.add r₀ ⟨base, p₀⟩).add r₁ ⟨base ++ "_1", p₁⟩) := by
  have hout₀ := hout p₀ (List.mem_cons_self _ _)
  have hout₁ := hout p₁ (List.mem_cons_of_mem _ (List.mem_cons_self _ _))
  have hname : (if 0 < 0 + 1 then base ++ "_" ++ toString (0 + 1) else base) = base ++ "_1" := by
    rw [if_pos Nat.zero_lt_one, String.append_assoc]; rfl
  simp only [getArtifactsPaths, h₀, h₁, hout₀, hout₁, Acc.add_outputs, hbase, if_true,
    Nat.lt_irrefl, if_false]
  rw [hname]
  exact getArtifactsPaths_unresolved (isTriageLink_suffix hbase)
    fun p hp => hout p (List.mem_cons_of_mem _ (List.mem_cons_of_mem _ hp))

theorem getArtifacts_third_triage_link_unresolved :
    (getArtifacts [("gold_triage_link", ["https://gold/1", "https://gold/2", "https://gold/3"])]
        fun _ => none).artifacts 0 =
      [⟨"gold_triage_link", "https://gold/1"⟩, ⟨"gold_triage_link_1", "https://gold/2"⟩] ∧
    (getArtifacts [("gold_triage_link", ["https://gold/1", "https://gold/2", "https://gold/3"])]
        fun _ => none).unresolved "gold_triage_link_1" = ["https://gold/3"] := by
  decide

end Luci.ResultDB.Formats
