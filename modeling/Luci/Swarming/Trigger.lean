import Mathlib.Data.Prod.Lex
import Luci.ResultDB.JsonResults

/-!
# Task requests of `swarming trigger`

`processTriggerOptions` turns the flags of `swarming trigger` into a new-task request. The string
maps among the flags are Go maps. `mapToArray` ranges over one, in an order the language leaves
open, and sorts the pairs with `sort.Sort`, which is not stable and promises only that no pair is
`Less` than a pair before it. So a run of `mapToArray` is a relation, and so is the range over the
CIPD packages, which the request keeps in iteration order.

`Less` compares keys, then values: it is the lexicographic order on pairs, so a sorted permutation
is unique. Every run of `mapToArray` returns the map's pairs in increasing key order, and two runs
of `processTriggerOptions` on the same flags build the same request but for the order of the CIPD
packages.
-/

namespace Luci.Swarming

open Luci.ResultDB.Formats (split)

/-- A `stringmapflag.Value`: a Go map, kept as its pairs, whose keys are distinct. -/
structure StringMap where
  entries : List (String × String)
  nodup : (entries.map Prod.fst).Nodup

/-- `array.Less`. -/
def less (a b : String × String) : Bool := a.1 < b.1 || (a.1 == b.1 && a.2 < b.2)

def SortedBefore (a b : String × String) : Prop := less b a = false

instance : DecidableRel SortedBefore := fun a b => inferInstanceAs (Decidable (less b a = false))

/-- `sort.Sort(array(a))`: a permutation of `a` in which no pair is `Less` than one before it. -/
def SortSort (a sorted : List (String × String)) : Prop :=
  sorted.Perm a ∧ sorted.Sorted SortedBefore

/-- A run of `mapToArray(m)`: the range takes the pairs in some order, then `sort.Sort`. -/
def MapToArray (m : StringMap) (a : List (String × String)) : Prop :=
  ∃ order, order.Perm m.entries ∧ SortSort order a

def sortPairs (pairs : List (String × String)) : List (String × String) :=
  pairs.insertionSort SortedBefore

/-- `swarming.SwarmingRpcsStringListPair`. -/
structure StringListPair where
  key : String
  value : List String
  deriving DecidableEq, Repr

/-- `mapToStringListPairArray`, from the array `mapToArray` returned. -/
def toStringListPairs (a : List (String × String)) : List StringListPair :=
  a.map fun kv => ⟨kv.1, split kv.2 ':'⟩

/-! ## The order of `Less` -/

theorem less_iff (a b : String × String) : less a b = true ↔ toLex a < toLex b := by
  rw [Prod.Lex.lt_iff]
  simp [less]

theorem sortedBefore_iff {a b : String × String} : SortedBefore a b ↔ toLex a ≤ toLex b := by
  rw [SortedBefore, ← not_lt, ← less_iff]
  simp

instance : IsTrans (String × String) SortedBefore :=
  ⟨fun _ _ _ h₁ h₂ =>
    sortedBefore_iff.mpr ((sortedBefore_iff.mp h₁).trans (sortedBefore_iff.mp h₂))⟩

instance : IsTotal (String × String) SortedBefore :=
  ⟨fun a b => (le_total (toLex a) (toLex b)).imp sortedBefore_iff.mpr sortedBefore_iff.mpr⟩

instance : IsAntisymm (String × String) SortedBefore :=
  ⟨fun _ _ h₁ h₂ => toLex.injective (le_antisymm (sortedBefore_iff.mp h₁) (sortedBefore_iff.mp h₂))⟩

theorem keys_lt_of_sorted {a : List (String × String)} (hs : a.Sorted SortedBefore)
    (hk : (a.map Prod.fst).Nodup) : (a.map Prod.fst).Sorted (· < ·) := by
  rw [List.Sorted, List.pairwise_map]
  refine (hs.and (List.pairwise_map.mp hk)).imp fun ⟨hle, hne⟩ => ?_
  rcases (Prod.Lex.le_iff _ _).mp (sortedBefore_iff.mp hle) with h | ⟨h, -⟩
  · exact h
  · exact absurd h hne

theorem mapToArray_sortPairs (m : StringMap) : MapToArray m (sortPairs m.entries) :=
  ⟨m.entries, .refl _, List.perm_insertionSort _ _, List.sorted_insertionSort _ _⟩

theorem MapToArray.perm {m : StringMap} {a} (h : MapToArray m a) : a.Perm m.entries :=
  let ⟨_, horder, hperm, _⟩ := h
  hperm.trans horder

theorem MapToArray.eq_sortPairs {m : StringMap} {a} (h : MapToArray m a) :
    a = sortPairs m.entries :=
  let ⟨_, _, _, hsorted⟩ := h
  List.eq_of_perm_of_sorted (h.perm.trans (List.perm_insertionSort _ _).symm) hsorted
    (List.sorted_insertionSort _ _)

theorem MapToArray.keys_sorted {m : StringMap} {a} (h : MapToArray m a) :
    (a.map Prod.fst).Sorted (· < ·) :=
  let ⟨_, _, _, hsorted⟩ := h
  keys_lt_of_sorted hsorted ((h.perm.map Prod.fst).nodup_iff.mpr m.nodup)

theorem mapToArray_unique (m : StringMap) :
    ∃ a, MapToArray m a ∧ (∀ a', MapToArray m a' → a' = a) ∧ a.Perm m.entries ∧
      (a.map Prod.fst).Sorted (· < ·) :=
  ⟨_, mapToArray_sortPairs m, fun _ h => h.eq_sortPairs, (mapToArray_sortPairs m).perm,
    (mapToArray_sortPairs m).keys_sorted⟩

/-! ## The request -/

/-- What `commonFlags.Parse` calls outside this file: `defaultFlags.Parse`, `lhttp.CheckURL` and
`authFlags.Options`. -/
structure CommonDeps where
  defaultParse : Except String Unit
  checkURL : String → Except String String
  authOptions : Except String Unit

/-- The fields of `commonFlags` that `Parse` reads. -/
structure CommonFlags where
  serverURL : String

/-- `commonFlags.Parse`: it replaces the server URL by the one `lhttp.CheckURL` returns. -/
def CommonFlags.parse (d : CommonDeps) (c : CommonFlags) : Except String CommonFlags := do
  d.defaultParse
  if c.serverURL = "" then throw "must provide -server"
  let s ← d.checkURL c.serverURL
  d.authOptions
  pure { c with serverURL := s }

/-- The fields of `triggerRun` that `Parse`, `processTriggerOptions` and `main` read. -/
structure TriggerRun where
  commonFlags : CommonFlags
  isolateServer : String
  «namespace» : String
  isolated : String
  dimensions : StringMap
  env : StringMap
  envPrefix : StringMap
  idempotent : Bool
  lowerPriority : Bool
  containmentType : String
  limitProcesses : Int
  limitTotalCommittedMemory : Int
  hardTimeout : Int
  ioTimeout : Int
  cipdPackage : StringMap
  outputs : List String
  taskName : String
  priority : Int
  tags : List String
  user : String
  rawCmd : Bool
  dumpJSON : String
  cancelExtraTasks : Bool

/-- `swarming.SwarmingRpcsFilesRef`. -/
structure FilesRef where
  isolated : String
  isolatedserver : String
  «namespace» : String
  deriving DecidableEq, Repr

/-- `swarming.SwarmingRpcsContainment`. -/
structure Containment where
  lowerPriority : Bool
  containmentType : String
  limitProcesses : Int
  limitTotalCommittedMemory : Int
  deriving DecidableEq, Repr

/-- `swarming.SwarmingRpcsCipdPackage`. -/
structure CipdPackage where
  packageName : String
  path : String
  version : String
  deriving DecidableEq, Repr

/-- `swarming.SwarmingRpcsTaskProperties`, with the fields `processTriggerOptions` sets. -/
structure TaskProperties where
  command : List String
  dimensions : List (String × String)
  env : List (String × String)
  envPrefixes : List StringListPair
  executionTimeoutSecs : Int
  extraArgs : List String
  gracePeriodSecs : Int
  idempotent : Bool
  inputsRef : Option FilesRef
  outputs : List String
  ioTimeoutSecs : Int
  containment : Containment
  cipdInput : Option (List CipdPackage)
  deriving DecidableEq, Repr

/-- `swarming.SwarmingRpcsNewTaskRequest`, with the fields `processTriggerOptions` sets. -/
structure NewTaskRequest where
  expirationSecs : Int
  name : String
  parentTaskId : String
  priority : Int
  properties : TaskProperties
  tags : List String
  user : String
  deriving DecidableEq, Repr

/-- `strings.SplitN(s, ":", 2)`. -/
def splitColon (s : String) : List String :=
  match s.toList.span (· ≠ ':') with
  | (before, _ :: after) => [⟨before⟩, ⟨after⟩]
  | (_, []) => [s]

/-- The package of one `[subdir:]pkgname=version` entry of `-cipd-package`. -/
def cipdPackage (kv : String × String) : CipdPackage :=
  let s := splitColon kv.1
  { packageName := s.getLastD "", version := kv.2, path := if 1 < s.length then s.headD "" else "" }

/-- The string `namePartFromDimensions` builds from the array `mapToArray` returned. -/
def joinPairs (a : List (String × String)) : String :=
  "_".intercalate (a.map fun kv => kv.1 ++ "=" ++ kv.2)

/-- A run of `namePartFromDimensions(m)`. -/
def NamePart (m : StringMap) (s : String) : Prop := ∃ a, MapToArray m a ∧ s = joinPairs a

structure Choices where
  namePart : List (String × String)
  dimensions : List (String × String)
  env : List (String × String)
  envPrefix : List (String × String)
  cipdOrder : List (String × String)

def Choices.Valid (c : TriggerRun) (ch : Choices) : Prop :=
  MapToArray c.dimensions ch.namePart ∧ MapToArray c.dimensions ch.dimensions ∧
    MapToArray c.env ch.env ∧ MapToArray c.envPrefix ch.envPrefix ∧
    ch.cipdOrder.Perm c.cipdPackage.entries

/-- `processTriggerOptions`: the flags as it leaves them (it sets `taskName`) and the request. The
environment is `subcommands.Env`, read for `SWARMING_TASK_ID`. -/
def processTriggerOptions (c : TriggerRun) (args : List String) (env : List (String × String))
    (ch : Choices) : TriggerRun × NewTaskRequest :=
  let commands := if c.rawCmd then args else []
  let extraArgs := if c.rawCmd then [] else args
  let c := if c.taskName ≠ "" then { c with taskName := c.user ++ "/" ++ joinPairs ch.namePart }
    else c
  let c := if c.isolated ≠ "" ∧ c.taskName = "" then
      { c with taskName := c.taskName ++ "/" ++ c.isolated }
    else c
  let inputsRef : Option FilesRef :=
    if c.isolated ≠ "" then some ⟨c.isolated, c.isolateServer, c.namespace⟩ else none
  let properties : TaskProperties :=
    { command := commands, dimensions := ch.dimensions, env := ch.env,
      envPrefixes := toStringListPairs ch.envPrefix, executionTimeoutSecs := c.hardTimeout,
      extraArgs, gracePeriodSecs := 30, idempotent := c.idempotent, inputsRef,
      outputs := c.outputs, ioTimeoutSecs := c.ioTimeout,
      containment := ⟨c.lowerPriority, c.containmentType, c.limitProcesses,
        c.limitTotalCommittedMemory⟩,
      cipdInput :=
        if c.cipdPackage.entries ≠ [] then some (ch.cipdOrder.map cipdPackage) else none }
  (c,
    { expirationSecs := c.hardTimeout, name := c.taskName,
      parentTaskId := (env.lookup "SWARMING_TASK_ID").getD "", priority := c.priority,
      properties, tags := c.tags, user := c.user })

section Request

variable (c : TriggerRun) (args : List String) (env : List (String × String)) (ch : Choices)

@[simp] theorem processTriggerOptions_dimensions :
    (processTriggerOptions c args env ch).2.properties.dimensions = ch.dimensions := rfl

@[simp] theorem processTriggerOptions_command :
    (processTriggerOptions c args env ch).2.properties.command = if c.rawCmd then args else [] :=
  rfl

@[simp] theorem processTriggerOptions_inputsRef :
    (processTriggerOptions c args env ch).2.properties.inputsRef =
      if c.isolated ≠ "" then some ⟨c.isolated, c.isolateServer, c.namespace⟩ else none := by
  unfold processTriggerOptions
  dsimp only
  split_ifs <;> simp_all

end Request

/-- `triggerRun.Parse`, given `$USER`. A `-dimension` flag always adds a pair, so the map is nil
exactly when it is empty. -/
def TriggerRun.parse (d : CommonDeps) (envUser : String) (c : TriggerRun) (args : List String) :
    Except String TriggerRun := do
  let commonFlags ← c.commonFlags.parse d
  let c := { c with commonFlags }
  if c.dimensions.entries = [] then throw "please at least specify one dimension"
  else if c.rawCmd ∧ args = [] then
    throw "arguments with -raw-cmd should be passed after -- as command delimiter"
  else if ¬c.rawCmd ∧ c.isolated = "" then
    throw "please use -isolated to specify hash or -raw-cmd"
  else pure (if c.user = "" then { c with user := envUser } else c)

def sampleFlags : TriggerRun :=
  { commonFlags := ⟨"chromium-swarm"⟩, isolateServer := "isolateserver",
    «namespace» := "default-gzip", isolated := "",
    dimensions := ⟨[("pool", "ci"), ("os", "Linux")], by decide⟩,
    env := ⟨[], .nil⟩, envPrefix := ⟨[("PATH", "bin:tools")], by decide⟩, idempotent := false,
    lowerPriority := false, containmentType := "NONE", limitProcesses := 0,
    limitTotalCommittedMemory := 0, hardTimeout := 3600, ioTimeout := 1200,
    cipdPackage := ⟨[("bin:infra/tools/luci/vpython", "latest"), ("infra/git", "2.21")], by decide⟩,
    outputs := [], taskName := "", priority := 200, tags := [], user := "alice", rawCmd := true,
    dumpJSON := "", cancelExtraTasks := true }

def sampleChoices : Choices :=
  ⟨sortPairs sampleFlags.dimensions.entries, sortPairs sampleFlags.dimensions.entries,
    sortPairs sampleFlags.env.entries, sortPairs sampleFlags.envPrefix.entries,
    sampleFlags.cipdPackage.entries⟩

theorem sampleChoices_valid : sampleChoices.Valid sampleFlags :=
  ⟨mapToArray_sortPairs _, mapToArray_sortPairs _, mapToArray_sortPairs _, mapToArray_sortPairs _,
    .refl _⟩

theorem processTriggerOptions_agree {c : TriggerRun} {args : List String}
    {env : List (String × String)} {ch₁ ch₂ : Choices} (h₁ : ch₁.Valid c) (h₂ : ch₂.Valid c) :
    processTriggerOptions c args env ch₁ =
      processTriggerOptions c args env { ch₂ with cipdOrder := ch₁.cipdOrder } := by
  obtain ⟨n₁, d₁, e₁, p₁, -⟩ := h₁
  obtain ⟨n₂, d₂, e₂, p₂, -⟩ := h₂
  have same : ch₁ = { ch₂ with cipdOrder := ch₁.cipdOrder } := by
    cases ch₁; cases ch₂
    simp only [Choices.mk.injEq]
    exact ⟨n₁.eq_sortPairs.trans n₂.eq_sortPairs.symm, d₁.eq_sortPairs.trans d₂.eq_sortPairs.symm,
      e₁.eq_sortPairs.trans e₂.eq_sortPairs.symm, p₁.eq_sortPairs.trans p₂.eq_sortPairs.symm,
      trivial⟩
  exact congrArg _ same

def sampleChoicesReversed : Choices :=
  { sampleChoices with cipdOrder := sampleChoices.cipdOrder.reverse }

theorem processTriggerOptions_agree_reversed :
    sampleChoices.Valid sampleFlags ∧ sampleChoicesReversed.Valid sampleFlags ∧
      processTriggerOptions sampleFlags ["python", "run.py"] [] sampleChoices =
        processTriggerOptions sampleFlags ["python", "run.py"] []
          { sampleChoicesReversed with cipdOrder := sampleChoices.cipdOrder } :=
  have h₂ : sampleChoicesReversed.Valid sampleFlags :=
    ⟨mapToArray_sortPairs _, mapToArray_sortPairs _, mapToArray_sortPairs _, mapToArray_sortPairs _,
      List.reverse_perm _⟩
  ⟨sampleChoices_valid, h₂, processTriggerOptions_agree sampleChoices_valid h₂⟩

theorem TriggerRun.parse_ok {d : CommonDeps} {envUser : String} {c c' : TriggerRun}
    {args : List String} (h : c.parse d envUser args = .ok c') :
    c'.dimensions.entries ≠ [] ∧ (c'.rawCmd = true → args ≠ []) ∧
      (c'.rawCmd = false → c'.isolated ≠ "") := by
  unfold TriggerRun.parse at h
  cases hc : c.commonFlags.parse d with
  | error e => rw [hc] at h; cases h
  | ok cf =>
    rw [hc] at h
    dsimp only [bind, Except.bind] at h
    split_ifs at h with h₁ h₂ h₃ <;> cases h <;>
      exact ⟨h₁, fun hr ha => h₂ ⟨hr, ha⟩, fun hr hi => h₃ ⟨ne_true_of_eq_false hr, hi⟩⟩

theorem parse_processTriggerOptions {d : CommonDeps} {envUser : String} {c c' : TriggerRun}
    {args : List String} (hp : c.parse d envUser args = .ok c') (env : List (String × String))
    {ch : Choices} (hv : ch.Valid c') :
    (processTriggerOptions c' args env ch).2.properties.dimensions ≠ [] ∧
      ((processTriggerOptions c' args env ch).2.properties.dimensions.map Prod.fst).Sorted (· < ·) ∧
      (c'.rawCmd = true →
        (processTriggerOptions c' args env ch).2.properties.command = args ∧ args ≠ []) ∧
      (c'.rawCmd = false → ∃ ref, (processTriggerOptions c' args env ch).2.properties.inputsRef =
        some ref ∧ ref.isolated = c'.isolated ∧ ref.isolated ≠ "") := by
  obtain ⟨hdims, hraw, hiso⟩ := TriggerRun.parse_ok hp
  obtain ⟨-, hd, -⟩ := hv
  simp only [processTriggerOptions_dimensions, processTriggerOptions_command,
    processTriggerOptions_inputsRef]
  refine ⟨fun h => hdims (List.nil_perm.mp (h ▸ hd.perm)), hd.keys_sorted,
    fun hr => ⟨if_pos hr, hraw hr⟩, fun hr => ⟨_, if_pos (hiso hr), rfl, hiso hr⟩⟩

def sampleDeps : CommonDeps := ⟨.ok (), .ok, .ok ()⟩

theorem parse_processTriggerOptions_sample :
    sampleFlags.parse sampleDeps "" ["python", "run.py"] = .ok sampleFlags ∧
      (processTriggerOptions sampleFlags ["python", "run.py"] [] sampleChoices).2.properties.command
        = ["python", "run.py"] :=
  ⟨rfl, ((@parse_processTriggerOptions sampleDeps "" sampleFlags sampleFlags ["python", "run.py"]
    rfl [] sampleChoices sampleChoices_valid).2.2.1 rfl).1⟩

end Luci.Swarming
