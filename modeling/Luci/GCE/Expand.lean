import Mathlib.Data.List.Nodup
import Luci.GCE.Backend
import Luci.Text

/-!
# Expanding a block of VMs

`expand` reads a block of VMs from the config service and schedules one `ensure` task for each of
the block's `Amount` VMs, whose ID is the block's ID and the VM's index. The task queue runs every
task at least once, in any order, and runs a failed task again. An execution of `ensure` is one
transaction on the entity of its task's ID.

The tasks' IDs are distinct, so each entity is written only by the executions of one task, and
`ensure` puts the same entity again when it runs again. So once every task has succeeded, every VM
of the block holds the block's attributes and an empty prefix, whatever order and retries the
queue took, and no other entity has changed.
-/

namespace Luci.GCE

/-- `config.VMs`, the fields `expand` reads. -/
structure VMs where
  amount : Int
  attributes : Option Attributes

/-- A `tasks.Ensure` payload. -/
structure EnsureTask where
  id : String
  attributes : Option Attributes
  namePrefix : String
  deriving DecidableEq, Repr

/-- The payloads of the tasks `expand` builds for a block, with the IDs
`fmt.Sprintf("%s-%d", task.Id, i)`. -/
def ensureTasks (id : String) (vms : VMs) : List EnsureTask :=
  (List.range vms.amount.toNat).map fun i => ⟨id ++ "-" ++ toString i, vms.attributes, ""⟩

/-- `expand`, given what `GetVMs` and `AddTask` return: the tasks it scheduled. `make` panics on
a negative `Amount`. -/
def expand (id : String) (getVMs : Except String VMs) (addTask : Except String Unit) :
    Except String (List EnsureTask) :=
  if id = "" then .error "ID is required"
  else
    match getVMs with
    | .error err => .error ("failed to get VMs block: " ++ err)
    | .ok vms =>
      if vms.amount < 0 then .error "panic: runtime error: makeslice: len out of range"
      else
        match addTask with
        | .error err => .error ("failed to schedule tasks: " ++ err)
        | .ok () => .ok (ensureTasks id vms)

theorem expand_eq_ok {id : String} {getVMs : Except String VMs} {addTask : Except String Unit}
    {tasks : List EnsureTask} : expand id getVMs addTask = .ok tasks ↔
      id ≠ "" ∧ ∃ vms, getVMs = .ok vms ∧ 0 ≤ vms.amount ∧ addTask = .ok () ∧
        tasks = ensureTasks id vms := by
  unfold expand
  by_cases hid : id = ""
  · simp [hid]
  rcases getVMs with err | vms
  · simp [hid]
  by_cases ha : vms.amount < 0
  · simp [hid, ha]
  rcases addTask with err | ⟨⟩
  · simp [hid, ha]
  · simp [hid, ha, eq_comm]
    omega

section Run

variable (newSHA1 : String → String)

def runEnsure (ds : String → Option VM) (t : EnsureTask) (fault : Option String) :
    String → Option VM :=
  Function.update ds t.id
    (advance newSHA1 t.id ⟨"", fault⟩ (ds t.id) (.ensure t.attributes t.namePrefix)).2.1

def runEnsures (ds : String → Option VM) (runs : List (EnsureTask × Option String)) :
    String → Option VM :=
  runs.foldl (fun ds r => runEnsure newSHA1 ds r.1 r.2) ds

variable {newSHA1}

theorem advance_ensure (id : String) (inp : Input) (db : Option VM) (a : Option Attributes)
    (p : String) : (advance newSHA1 id inp db (.ensure a p)).2.1 =
      if id ≠ "" ∧ inp.fault = none then some (ensureVM id a p db) else db := by
  rcases inp with ⟨suffix, _ | err⟩ <;> by_cases hid : id = "" <;> simp [advance, hid]

theorem ensureVM_idem (id : String) (a : Option Attributes) (p : String) (db : Option VM) :
    ensureVM id a p (some (ensureVM id a p db)) = ensureVM id a p db := by
  cases a <;> rfl

theorem runEnsure_of_ne {ds : String → Option VM} {t : EnsureTask} (fault : Option String)
    {k : String} (hk : k ≠ t.id) : runEnsure newSHA1 ds t fault k = ds k :=
  Function.update_noteq hk _ _

theorem runEnsures_apply (ds : String → Option VM) (runs : List (EnsureTask × Option String))
    (k : String) : runEnsures newSHA1 ds runs k =
      (runs.filter fun r => r.1.id = k).foldl (fun db r =>
        (advance newSHA1 k ⟨"", r.2⟩ db (.ensure r.1.attributes r.1.namePrefix)).2.1) (ds k) := by
  induction runs generalizing ds with
  | nil => rfl
  | cons r runs ih =>
    rw [runEnsures, List.foldl_cons, ← runEnsures, ih, List.filter_cons]
    by_cases hk : r.1.id = k
    · subst hk
      simp only [decide_True, if_true, List.foldl_cons, runEnsure, Function.update_same]
    · simp only [hk, decide_False, Bool.false_eq_true, if_false, runEnsure_of_ne _ (Ne.symm hk)]

theorem foldl_ensure {t : EnsureTask} (ht : t.id ≠ "") (runs : List (EnsureTask × Option String))
    (hsame : ∀ r ∈ runs, r.1 = t) (db : Option VM) :
    runs.foldl (fun db r =>
        (advance newSHA1 t.id ⟨"", r.2⟩ db (.ensure r.1.attributes r.1.namePrefix)).2.1) db =
      if (t, none) ∈ runs then some (ensureVM t.id t.attributes t.namePrefix db) else db := by
  induction runs generalizing db with
  | nil => simp
  | cons r runs ih =>
    obtain ⟨t', f⟩ := r
    obtain rfl : t' = t := hsame _ (List.mem_cons_self _ _)
    rw [List.foldl_cons, ih (fun r hr => hsame r (List.mem_cons_of_mem _ hr)), advance_ensure]
    rcases f with _ | err
    · simp [ht, ensureVM_idem]
    · simp

end Run

theorem ensureTasks_ids (id : String) (vms : VMs) :
    ((ensureTasks id vms).map EnsureTask.id).Nodup ∧ ∀ t ∈ ensureTasks id vms, t.id ≠ "" := by
  refine ⟨?_, fun t ht => ?_⟩
  · rw [ensureTasks, List.map_map]
    refine List.Nodup.map (fun i j h => repr_injective ?_) (List.nodup_range _)
    exact String.ext (List.append_cancel_left (congrArg String.data h))
  · obtain ⟨i, -, rfl⟩ := List.mem_map.mp ht
    exact hostname_ne_empty id _

theorem expand_ensures (newSHA1 : String → String) {id : String} {getVMs : Except String VMs}
    {addTask : Except String Unit} {tasks : List EnsureTask}
    (hexp : expand id getVMs addTask = .ok tasks) {vms : VMs} (hvms : getVMs = .ok vms)
    (ds : String → Option VM) (runs : List (EnsureTask × Option String))
    (hfrom : ∀ r ∈ runs, r.1 ∈ tasks) (hdone : ∀ t ∈ tasks, (t, none) ∈ runs) (k : String) :
    (tasks.map EnsureTask.id).Nodup ∧
    runEnsures newSHA1 ds runs k =
      if ∃ i < vms.amount.toNat, k = id ++ "-" ++ toString i then
        some (ensureVM k vms.attributes "" (ds k))
      else ds k := by
  obtain ⟨-, vms', hvms', -, -, rfl⟩ := expand_eq_ok.mp hexp
  obtain rfl : vms = vms' := Except.ok.inj (hvms.symm.trans hvms')
  obtain ⟨hnodup, hne⟩ := ensureTasks_ids id vms
  refine ⟨hnodup, ?_⟩
  rw [runEnsures_apply]
  split_ifs with hk
  · obtain ⟨i, hi, rfl⟩ := hk
    have ht : (⟨id ++ "-" ++ toString i, vms.attributes, ""⟩ : EnsureTask) ∈ ensureTasks id vms :=
      List.mem_map.mpr ⟨i, List.mem_range.mpr hi, rfl⟩
    -- every execution at this key is one of this task
    have hsame : ∀ r ∈ runs.filter (fun r => r.1.id = id ++ "-" ++ toString i),
        r.1 = ⟨id ++ "-" ++ toString i, vms.attributes, ""⟩ := fun r hr => by
      obtain ⟨hr, hrk⟩ := List.mem_filter.mp hr
      exact List.inj_on_of_nodup_map hnodup (hfrom r hr) ht (of_decide_eq_true hrk)
    exact (foldl_ensure (hne _ ht) _ hsame _).trans
      (if_pos (List.mem_filter.mpr ⟨hdone _ ht, decide_eq_true rfl⟩))
  · rw [List.filter_eq_nil_iff.mpr]
    · rfl
    · intro r hr hrk
      obtain ⟨j, hj, hr'⟩ := List.mem_map.mp (hfrom r hr)
      exact hk ⟨j, List.mem_range.mp hj, by rw [← of_decide_eq_true hrk, ← hr']⟩

def retriedRuns : List (EnsureTask × Option String) :=
  [(⟨"pool-1", none, ""⟩, some "failed to store VM: datastore: concurrent transaction"),
    (⟨"pool-0", none, ""⟩, none), (⟨"pool-1", none, ""⟩, none)]

theorem expand_ensures_retried :
    expand "pool" (.ok ⟨2, none⟩) (.ok ()) = .ok (ensureTasks "pool" ⟨2, none⟩) ∧
      ((ensureTasks "pool" ⟨2, none⟩).map EnsureTask.id).Nodup ∧
      runEnsures (fun h => h) (fun _ => none) retriedRuns "pool-1" =
        some (ensureVM "pool-1" none "" none) :=
  have h := @expand_ensures (fun h => h) "pool" (.ok ⟨2, none⟩) (.ok ())
    (ensureTasks "pool" ⟨2, none⟩) rfl ⟨2, none⟩ rfl _ _ (by decide) (by decide) "pool-1"
  ⟨rfl, h.1, h.2.trans (if_pos ⟨1, by decide, rfl⟩)⟩

end Luci.GCE
