import Mathlib.Logic.Relation
import Mathlib.Data.List.Basic

/-!
# One hostname per VM

The `create` task names the GCE instance of a `VM` entity: it reads the entity, and when it has no
hostname yet, draws one and records it in a transaction that checks again that none was recorded
in the meantime. It then sends the compute `Insert` call under that hostname, with a request ID
derived from it. The `ensure` task rewrites the entity's attributes and prefix in a transaction.

Each task execution is a thread whose datastore operations are atomic steps on the committed entity
of one VM ID. Any number of executions interleave, and any datastore operation or `Insert` call
may fail. A recorded non-empty hostname is never overwritten, so every `Insert` ever sent carries
the hostname the entity holds from then on.
-/

namespace Luci.GCE

structure Disk where
  size : Int
  type : String
  image : String
  deriving DecidableEq, Repr

/-- `config.VM`, the fields the backend reads. -/
structure Attributes where
  project : String
  zone : String
  machineType : String
  disk : List Disk
  deriving DecidableEq, Repr

def Attributes.empty : Attributes := ⟨"", "", "", []⟩

/-- The `VM` entity. -/
structure VM where
  id : String
  attributes : Attributes
  hostname : String
  namePrefix : String
  url : String
  deriving DecidableEq, Repr

structure AttachedDisk where
  autoDelete : Bool
  boot : Bool
  diskSizeGb : Int
  diskType : String
  sourceImage : String
  deriving DecidableEq, Repr

/-- `compute.Instance`, without its one default network interface. -/
structure Instance where
  name : String
  machineType : String
  disks : List AttachedDisk
  deriving DecidableEq, Repr

/-- `VM.GetInstance`: the first disk is the boot disk. -/
def VM.getInstance (vm : VM) : Instance :=
  { name := vm.hostname
    machineType := vm.attributes.machineType
    disks := (vm.attributes.disk.map fun d => ⟨true, false, d.size, d.type, d.image⟩).modifyHead
      fun d => { d with boot := true } }

/-- A compute `Insert` call: project, zone, instance and request ID. -/
structure InsertCall where
  project : String
  zone : String
  inst : Instance
  requestId : String
  deriving DecidableEq, Repr

def allowed : List Char := "abcdefghijklmnopqrstuvwxyz0123456789".toList

/-- `getSuffix`, given the four draws of `mathrand.Intn`. -/
def getSuffix (draws : List (Fin 36)) : String := ⟨draws.map fun i => allowed.getD i 'a'⟩

def noSuchEntity : String := "datastore: no such entity"

inductive Exec
  | create
  | creating (hostname : String)
  | inserting (vm : VM)
  | ensure (attributes : Option Attributes) (namePrefix : String)
  | done (err : Option String)
  deriving DecidableEq, Repr

structure Input where
  suffix : String
  fault : Option String

section Tasks

variable (newSHA1 : String → String) (id : String)

/-- The entity `ensure` puts: the stored one, or a new one, with the task's attributes and
prefix. -/
def ensureVM (attributes : Option Attributes) (namePrefix : String) (db : Option VM) : VM :=
  let vm := db.getD ⟨id, .empty, "", "", ""⟩
  { vm with attributes := attributes.getD vm.attributes, namePrefix }

/-- The `Insert` call `create` sends for `vm`, with the request ID
`uuid.NewSHA1(uuid.Nil, hostname)`. -/
def insertCall (vm : VM) : InsertCall :=
  ⟨vm.attributes.project, vm.attributes.zone, vm.getInstance, newSHA1 vm.hostname⟩

/-- One operation of one execution on the committed entity `db`: the execution's next state, the
entity committed after it, and the `Insert` call it sent, if any. -/
def advance (inp : Input) (db : Option VM) : Exec → Exec × Option VM × Option InsertCall
  | .create =>
    if id = "" then (.done (some "ID is required"), db, none)
    else
      match inp.fault, db with
      | some err, _ => (.done (some ("failed to fetch VM: " ++ err)), db, none)
      | none, none => (.done (some ("failed to fetch VM: " ++ noSuchEntity)), db, none)
      | none, some vm =>
        if vm.hostname = "" then (.creating (vm.id ++ "-" ++ inp.suffix), db, none)
        else (.inserting vm, db, none)
  | .creating hostname =>
    match inp.fault, db with
    | some err, _ => (.done (some err), db, none)
    | none, none => (.done (some ("failed to fetch VM: " ++ noSuchEntity)), db, none)
    | none, some vm =>
      if vm.hostname = "" then (.inserting { vm with hostname }, some { vm with hostname }, none)
      else (.inserting vm, db, none)
  | .inserting vm =>
    if vm.url ≠ "" then (.done none, db, none)
    else
      (.done (inp.fault.map fun _ => "failed to create instance"), db, some (insertCall newSHA1 vm))
  | .ensure attributes namePrefix =>
    if id = "" then (.done (some "ID is required"), db, none)
    else
      match inp.fault with
      | some err => (.done (some err), db, none)
      | none => (.done none, some (ensureVM id attributes namePrefix db), none)
  | .done err => (.done err, db, none)

end Tasks

structure Sys where
  db : Option VM
  execs : List Exec
  inserts : List InsertCall

inductive Step (newSHA1 : String → String) (id : String) : Sys → Sys → Prop
  | exec {s : Sys} {i : Nat} {e : Exec} {draws : List (Fin 36)} (fault : Option String) :
      s.execs[i]? = some e → draws.length = 4 →
      Step newSHA1 id s
        (let r := advance newSHA1 id ⟨getSuffix draws, fault⟩ s.db e
         ⟨r.2.1, s.execs.set i r.1, s.inserts ++ r.2.2.toList⟩)

def Keeps (db db' : Option VM) : Prop :=
  ∀ v, db = some v → v.hostname ≠ "" → ∃ v', db' = some v' ∧ v'.hostname = v.hostname

theorem Keeps.refl (db : Option VM) : Keeps db db := fun v h _ => ⟨v, h, rfl⟩

theorem Keeps.trans {db₁ db₂ db₃ : Option VM} (h₁ : Keeps db₁ db₂) (h₂ : Keeps db₂ db₃) :
    Keeps db₁ db₃ := fun v hv hn =>
  let ⟨v', hv', hh⟩ := h₁ v hv hn
  let ⟨v'', hv'', hh'⟩ := h₂ v' hv' (hh ▸ hn)
  ⟨v'', hv'', hh'.trans hh⟩

theorem hostname_ne_empty (vmId suffix : String) : vmId ++ "-" ++ suffix ≠ "" := fun h => by
  have hl := congrArg String.length h
  have : ("-" : String).length = 1 := rfl
  simp only [String.length_append, String.length_empty] at hl
  omega

variable (newSHA1 : String → String) (id : String)

def ExecOk (db : Option VM) : Exec → Prop
  | .creating hostname => hostname ≠ ""
  | .inserting vm => vm.hostname ≠ "" ∧ ∃ v, db = some v ∧ v.hostname = vm.hostname
  | _ => True

def InsertOk (db : Option VM) (c : InsertCall) : Prop :=
  ∃ v, db = some v ∧ v.hostname ≠ "" ∧ c.inst.name = v.hostname ∧ c.requestId = newSHA1 v.hostname

variable {newSHA1 id}

theorem ExecOk.keeps {db db' : Option VM} (h : Keeps db db') :
    ∀ {e : Exec}, ExecOk db e → ExecOk db' e
  | .create, he | .ensure _ _, he | .done _, he | .creating _, he => he
  | .inserting _, ⟨hn, v, hv, hh⟩ =>
    let ⟨v', hv', hh'⟩ := h v hv (hh ▸ hn)
    ⟨hn, v', hv', hh'.trans hh⟩

theorem InsertOk.keeps {db db' : Option VM} (h : Keeps db db') {c : InsertCall}
    (hc : InsertOk newSHA1 db c) : InsertOk newSHA1 db' c :=
  let ⟨v, hv, hn, hname, hreq⟩ := hc
  let ⟨v', hv', hh⟩ := h v hv hn
  ⟨v', hv', hh ▸ hn, hh ▸ hname, hh ▸ hreq⟩

theorem advance_cases (inp : Input) (db : Option VM) (e : Exec) :
    (∃ e', advance newSHA1 id inp db e = (e', db, none) ∧ ExecOk db e') ∨
    (∃ vm hostname, e = .creating hostname ∧ db = some vm ∧ vm.hostname = "" ∧
      advance newSHA1 id inp db e =
        (.inserting { vm with hostname }, some { vm with hostname }, none)) ∨
    (∃ vm, (∀ v, db = some v → vm.hostname = v.hostname) ∧
      advance newSHA1 id inp db e = (.done none, some vm, none)) ∨
    (∃ vm err, e = .inserting vm ∧
      advance newSHA1 id inp db e = (.done err, db, some (insertCall newSHA1 vm))) := by
  cases e with
  | create =>
    refine .inl ?_
    simp only [advance]
    split_ifs
    · exact ⟨_, rfl, trivial⟩
    rcases inp with ⟨suffix, _ | err⟩ <;> rcases db with _ | vm
    · exact ⟨_, rfl, trivial⟩
    · dsimp only
      split_ifs with hh
      · exact ⟨_, rfl, hostname_ne_empty _ _⟩
      · exact ⟨_, rfl, hh, vm, rfl, rfl⟩
    all_goals exact ⟨_, rfl, trivial⟩
  | creating hostname =>
    rcases inp with ⟨suffix, _ | err⟩ <;> rcases db with _ | vm
    · exact .inl ⟨_, rfl, trivial⟩
    · by_cases hh : vm.hostname = ""
      · exact .inr (.inl ⟨vm, hostname, rfl, rfl, hh, by simp only [advance, hh, if_true]⟩)
      · exact .inl ⟨.inserting vm, by simp only [advance, hh, if_false], hh, vm, rfl, rfl⟩
    all_goals exact .inl ⟨_, rfl, trivial⟩
  | inserting vm =>
    by_cases hu : vm.url = ""
    · exact .inr (.inr (.inr ⟨vm, inp.fault.map fun _ => "failed to create instance", rfl,
        by simp only [advance, hu, ne_eq, not_true_eq_false, if_false]⟩))
    · exact .inl ⟨.done none, by simp only [advance, hu, ne_eq, not_false_eq_true, if_true],
        trivial⟩
  | ensure attributes namePrefix =>
    by_cases hid : id = ""
    · exact .inl ⟨.done (some "ID is required"), by simp only [advance, hid, if_true], trivial⟩
    rcases inp with ⟨suffix, _ | err⟩
    · refine .inr (.inr (.inl ⟨ensureVM id attributes namePrefix db, fun v hv => ?_,
        by simp only [advance, hid, if_false]⟩))
      subst hv
      rfl
    · exact .inl ⟨.done (some err), by simp only [advance, hid, if_false], trivial⟩
  | done err => exact .inl ⟨_, rfl, trivial⟩

theorem advance_keeps (inp : Input) (db : Option VM) (e : Exec) :
    Keeps db (advance newSHA1 id inp db e).2.1 := by
  rcases advance_cases inp db e with ⟨e', h, -⟩ | ⟨vm, hostname, -, rfl, hh, h⟩ | ⟨vm, hv, h⟩ |
    ⟨vm, err, -, h⟩ <;> rw [h]
  · exact Keeps.refl _
  · rintro v ⟨⟩ hn
    exact absurd hh hn
  · exact fun v hdb _ => ⟨vm, rfl, hv v hdb⟩
  · exact Keeps.refl _

theorem advance_ok (inp : Input) {db : Option VM} {e : Exec} (he : ExecOk db e) :
    ExecOk (advance newSHA1 id inp db e).2.1 (advance newSHA1 id inp db e).1 ∧
      ∀ c ∈ (advance newSHA1 id inp db e).2.2,
        InsertOk newSHA1 (advance newSHA1 id inp db e).2.1 c := by
  rcases advance_cases inp db e with ⟨e', h, he'⟩ | ⟨vm, hostname, rfl, rfl, -, h⟩ | ⟨vm, -, h⟩ |
    ⟨vm, err, rfl, h⟩ <;> rw [h]
  · exact ⟨he', nofun⟩
  · exact ⟨⟨he, _, rfl, rfl⟩, nofun⟩
  · exact ⟨trivial, nofun⟩
  · obtain ⟨hn, v, hv, hh⟩ := he
    refine ⟨trivial, fun c hc => ?_⟩
    obtain rfl := Option.some.inj (Option.mem_def.mp hc)
    exact ⟨v, hv, hh ▸ hn, hh.symm, by rw [hh]; rfl⟩

variable (newSHA1 id)

def Inv (s : Sys) : Prop :=
  (∀ e ∈ s.execs, ExecOk s.db e) ∧ ∀ c ∈ s.inserts, InsertOk newSHA1 s.db c

variable {newSHA1 id}

theorem Step.keeps {s s' : Sys} (h : Step newSHA1 id s s') : Keeps s.db s'.db := by
  cases h
  exact advance_keeps _ _ _

theorem Step.inv {s s' : Sys} (h : Step newSHA1 id s s') (hi : Inv newSHA1 s) : Inv newSHA1 s' := by
  obtain ⟨hexec, hins⟩ := hi
  cases h with
  | @exec i e draws fault he _ =>
    have hk := @advance_keeps newSHA1 id ⟨getSuffix draws, fault⟩ s.db e
    have hok := @advance_ok newSHA1 id ⟨getSuffix draws, fault⟩ s.db e
      (hexec e (List.getElem?_mem he))
    refine ⟨fun x hx => ?_, fun c hc => ?_⟩
    · rcases List.mem_or_eq_of_mem_set hx with hx | rfl
      · exact (hexec x hx).keeps hk
      · exact hok.1
    · rcases List.mem_append.mp hc with hc | hc
      · exact (hins c hc).keeps hk
      · exact hok.2 c (Option.mem_toList.mp hc)

theorem Step.keeps_run {s s' : Sys} (h : Relation.ReflTransGen (Step newSHA1 id) s s') :
    Keeps s.db s'.db := by
  induction h with
  | refl => exact Keeps.refl _
  | tail _ hstep ih => exact ih.trans hstep.keeps

theorem Step.inv_run {s s' : Sys} (h : Relation.ReflTransGen (Step newSHA1 id) s s')
    (hi : Inv newSHA1 s) : Inv newSHA1 s' := by
  induction h with
  | refl => exact hi
  | tail _ hstep ih => exact hstep.inv ih

theorem one_hostname_of_run (newSHA1 : String → String) (id : String) {s s' : Sys}
    (hexecs : ∀ e ∈ s.execs,
      e = .create ∨ ∃ attributes namePrefix, e = .ensure attributes namePrefix)
    (hins : s.inserts = []) (hrun : Relation.ReflTransGen (Step newSHA1 id) s s') :
    (∀ t t', Relation.ReflTransGen (Step newSHA1 id) t t' → ∀ v, t.db = some v → v.hostname ≠ "" →
      ∃ v', t'.db = some v' ∧ v'.hostname = v.hostname) ∧
    (∀ c ∈ s'.inserts, ∃ v, s'.db = some v ∧ v.hostname ≠ "" ∧ c.inst.name = v.hostname ∧
      c.requestId = newSHA1 v.hostname) ∧
    ∀ c ∈ s'.inserts, ∀ c' ∈ s'.inserts,
      c.inst.name = c'.inst.name ∧ c.requestId = c'.requestId := by
  have hi : Inv newSHA1 s := by
    refine ⟨fun e he => ?_, by simp only [hins, List.not_mem_nil, false_implies, implies_true]⟩
    rcases hexecs e he with rfl | ⟨_, _, rfl⟩ <;> trivial
  have hsent := (Step.inv_run hrun hi).2
  refine ⟨fun t t' h => Step.keeps_run h, hsent, fun c hc c' hc' => ?_⟩
  obtain ⟨v, hv, -, hn, hr⟩ := hsent c hc
  obtain ⟨v', hv', -, hn', hr'⟩ := hsent c' hc'
  obtain rfl := Option.some.inj (hv.symm.trans hv')
  exact ⟨hn.trans hn'.symm, hr.trans hr'.symm⟩

def insertedVM : VM := ⟨"vm", .empty, "vm-abcd", "p", ""⟩

def createdSys : Sys :=
  ⟨some insertedVM, [.done none, .done none], [insertCall (fun h => h) insertedVM]⟩

theorem ensureThenCreate_run :
    Relation.ReflTransGen (Step (fun h => h) "vm") ⟨none, [.create, .ensure none "p"], []⟩
      createdSys :=
  .head (by apply @Step.exec _ _ _ 1 _ [0, 1, 2, 3] none <;> rfl) <|
    .head (by apply @Step.exec _ _ _ 0 _ [0, 1, 2, 3] none <;> rfl) <|
    .head (by apply @Step.exec _ _ _ 0 _ [0, 1, 2, 3] none <;> rfl) <|
    .single (by apply @Step.exec _ _ _ 0 (.inserting insertedVM) [0, 1, 2, 3] none <;> rfl)

theorem one_hostname_of_run_ensure_create :
    (∀ e ∈ [Exec.create, .ensure none "p"], e = .create ∨
      ∃ attributes namePrefix, e = .ensure attributes namePrefix) ∧
    (∀ t t', Relation.ReflTransGen (Step (fun h => h) "vm") t t' → ∀ v, t.db = some v →
      v.hostname ≠ "" → ∃ v', t'.db = some v' ∧ v'.hostname = v.hostname) ∧
    (∀ c ∈ createdSys.inserts, ∃ v, createdSys.db = some v ∧ v.hostname ≠ "" ∧
      c.inst.name = v.hostname ∧ c.requestId = v.hostname) ∧
    ∀ c ∈ createdSys.inserts, ∀ c' ∈ createdSys.inserts,
      c.inst.name = c'.inst.name ∧ c.requestId = c'.requestId :=
  have hexecs : ∀ e ∈ [Exec.create, .ensure none "p"], e = .create ∨
      ∃ attributes namePrefix, e = .ensure attributes namePrefix := by
    intro e he
    rcases List.mem_pair.mp he with rfl | rfl
    · exact .inl rfl
    · exact .inr ⟨none, "p", rfl⟩
  ⟨hexecs, one_hostname_of_run (fun h => h) "vm" hexecs rfl ensureThenCreate_run⟩

end Luci.GCE
