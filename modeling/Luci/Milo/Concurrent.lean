import Luci.Milo.WriteCache
import Mathlib.Logic.Relation

/-!
# Concurrent `Log` calls keep the cache valid

Each `Log` call is a process that performs its cache operations one at a time: the `Get`s of the
loop of `readCache`, then, after Gitiles answered, the probing `Get` of `writeCache` and its batched
`Set`. Any number of calls interleave these steps in any order, entries expire or are evicted at
any moment, any `Get` may fail, and a batched `Set` may store any subset of its items.

Validity is preserved because it holds of every item a call ever puts in a batch: the direct
entries hold Gitiles' answer for the commit their key names, and a pointer's distance is exactly the
number of single-parent links in that answer. Neither depends on the state of the cache, so no
race between a probe and a `Set` can break it; the probe only decides which valid items are sent.
-/

namespace Luci.Milo.Git

open Memcache

inductive Phase
  | reading (e : Item) (dist : UInt8)
  | fetching
  | probing (marshalled : Bytes) (log : List Commit)
  | setting (batch : List Item)
  | done

def Phase.afterRead : LogReq.Iteration → Phase
  | .next e dist => .reading e dist
  | .done ⟨_, _, true⟩ => .done
  | .done ⟨_, _, false⟩ => .fetching
  | .panic _ => .done

structure Sys where
  store : Store
  calls : List (LogReq × Phase)

/-- What `memcache.Get` may report for `key`: the stored value, a miss when nothing is stored, or
an error at any time. -/
inductive GetOk (m : Store) (key : String) : GetResult → Prop
  | found {v : Bytes} : m key = some v → GetOk m key (.found v)
  | miss : m key = none → GetOk m key .cacheMiss
  | failure : GetOk m key .failure

def Repo.Answers (R : Repo) (commitish : String) (log : List Commit) : Prop :=
  ∃ c, R.commit c.id = some c ∧ log = R.remoteLog c ∧
    (gitHash commitish = true → R.denote commitish = some c)

variable (R : Repo) (codec : Codec)

inductive Step : Sys → Sys → Prop
  | read {m : Store} {pre post : List (LogReq × Phase)} {l : LogReq} {e : Item} {dist : UInt8}
      {r : GetResult} : GetOk m e.key r →
      Step ⟨m, pre ++ (l, .reading e dist) :: post⟩
        ⟨m, pre ++ (l, Phase.afterRead (l.readCacheStep codec dist r)) :: post⟩
  | fetch {m : Store} {pre post : List (LogReq × Phase)} {l : LogReq} {res : LogResponse}
      {b : Bytes} : R.Answers l.commitish res.log → codec.marshal res = some b →
      Step ⟨m, pre ++ (l, .fetching) :: post⟩ ⟨m, pre ++ (l, .probing b res.log) :: post⟩
  | stop {m : Store} {pre post : List (LogReq × Phase)} {l : LogReq} :
      Step ⟨m, pre ++ (l, .fetching) :: post⟩ ⟨m, pre ++ (l, .done) :: post⟩
  | probe {m : Store} {pre post : List (LogReq × Phase)} {l : LogReq} {b : Bytes}
      {log : List Commit} {results : List GetResult} :
      List.Forall₂ (fun e r => GetOk m e.key r) (l.ancestorCaches log) results →
      Step ⟨m, pre ++ (l, .probing b log) :: post⟩
        ⟨m, pre ++ (l, .setting (l.writeBatch b log results)) :: post⟩
  | set {m : Store} {pre post : List (LogReq × Phase)} {l : LogReq} {batch written : List Item} :
      written.Sublist batch →
      Step ⟨m, pre ++ (l, .setting batch) :: post⟩ ⟨m.set written, pre ++ (l, .done) :: post⟩
  | evict {m : Store} {calls : List (LogReq × Phase)} {k : String} :
      Step ⟨m, calls⟩ ⟨m.evict k, calls⟩

variable (host project : String)

def ValidItem (e : Item) : Prop :=
  ∀ s x, gitHash s = true → R.denote s = some x → e.key = cacheKey host project s →
    ValidValue R codec x e.value

def CallOk (c : LogReq × Phase) : Prop :=
  c.1.host = host ∧ c.1.project = project ∧
    match c.2 with
    | .probing b log => codec.unmarshal b = some ⟨log⟩ ∧ R.Answers c.1.commitish log
    | .setting batch => ∀ e ∈ batch, ValidItem R codec host project e
    | _ => True

def Inv (s : Sys) : Prop :=
  Valid R codec host project s.store ∧ ∀ c ∈ s.calls, CallOk R codec host project c

variable {R codec host project}

theorem ValidValue.direct {x : Commit} {b : Bytes} (h : codec.unmarshal b = some ⟨R.remoteLog x⟩) :
    ValidValue R codec x (b ++ [0]) := by
  intro data meta hv
  obtain ⟨rfl, hm⟩ := List.append_inj' hv rfl
  obtain rfl := (List.singleton_inj.mp hm).symm
  exact ⟨fun _ => h, fun h1 => absurd h1 (by decide)⟩

theorem ValidValue.pointer {x z : Commit} {d : Nat} (hz : R.commit z.id = some z)
    (hr : R.Reach z d x) (h1 : 1 ≤ d) (h99 : d ≤ 99) :
    ValidValue R codec x (LogReq.pointerValue z.id (UInt8.ofNat d)) := by
  intro data meta hv
  obtain ⟨rfl, hm⟩ := List.append_inj' hv rfl
  obtain rfl := (List.singleton_inj.mp hm).symm
  have hd : (UInt8.ofNat d).toNat = d := by rw [byte_ofNat_toNat]; omega
  refine ⟨fun h0 => absurd (congrArg UInt8.toNat h0) (by rw [hd]; simp; omega),
    fun _ _ => ⟨z, hz, by rw [hd]; exact hr⟩⟩

theorem Valid.set {m : Store} {written : List Item} (hv : Valid R codec host project m)
    (hw : ∀ e ∈ written, ValidItem R codec host project e) :
    Valid R codec host project (m.set written) := by
  intro s x v hs hx hm
  rcases Store.set_cases m written (cacheKey host project s) with ⟨e, he, hk, hv'⟩ | ⟨-, hv'⟩
  · rw [hv'] at hm
    cases hm
    exact hw e he s x hs hx hk
  · exact hv s x v hs hx (hv' ▸ hm)

theorem Valid.evict {m : Store} {k : String} (hv : Valid R codec host project m) :
    Valid R codec host project (m.evict k) := by
  intro s x v hs hx hm
  by_cases hk : cacheKey host project s = k
  · rw [hk, Store.evict_self] at hm; cases hm
  · exact hv s x v hs hx (by rwa [Store.evict_other _ hk] at hm)

theorem writeBatch_valid {l : LogReq} {b : Bytes} {log : List Commit} (hh : l.host = host)
    (hp : l.project = project) (hb : codec.unmarshal b = some ⟨log⟩)
    (ha : R.Answers l.commitish log) (results : List GetResult) :
    ∀ e ∈ l.writeBatch b log results, ValidItem R codec host project e := by
  obtain ⟨c, hc, rfl, hden⟩ := ha
  subst hh hp
  obtain ⟨t, ht⟩ := R.walk_head c
  have hlog : R.remoteLog c = c :: t.take 99 := by rw [Repo.remoteLog, ht]; rfl
  intro e he s x hs hx hk
  rcases l.mem_writeBatch he with ⟨hval, hkey | ⟨-, c', rest, hcr, hkey⟩⟩ |
    ⟨c', rest, hcr, j, d, r, hd, -, -, hkey, hval⟩
  · obtain rfl := cacheKey_inj (hk.symm.trans hkey)
    obtain rfl := Option.some.inj (hx.symm.trans (hden hs))
    exact hval ▸ ValidValue.direct hb
  · obtain rfl : c' = c := (List.cons.inj (hcr.symm.trans hlog)).1
    obtain rfl := cacheKey_inj (hk.symm.trans hkey)
    obtain rfl := Option.some.inj (hx.symm.trans (R.commit_hex hc).2)
    exact hval ▸ ValidValue.direct hb
  · obtain rfl : c' = c := (List.cons.inj (hcr.symm.trans hlog)).1
    obtain ⟨hreach, hdc, hj⟩ := R.singleParentRun_take_walk 100 hc j d hd
    obtain rfl := cacheKey_inj (hk.symm.trans hkey)
    obtain rfl := Option.some.inj (hx.symm.trans (R.commit_hex hdc).2)
    exact hval ▸ ValidValue.pointer hc hreach (by omega) (by omega)

theorem Phase.afterRead_ok (l : LogReq) (it : LogReq.Iteration) :
    CallOk R codec host project (l, Phase.afterRead it) ↔ l.host = host ∧ l.project = project := by
  rcases it with _ | ⟨_, _, _ | _⟩ | _ <;> simp [CallOk, Phase.afterRead]

theorem calls_update {P : LogReq × Phase → Prop} {pre post : List (LogReq × Phase)}
    {old new : LogReq × Phase} (h : ∀ c ∈ pre ++ old :: post, P c) (hn : P new) :
    ∀ c ∈ pre ++ new :: post, P c := by
  intro c hc
  rcases List.mem_append.mp hc with hc | hc
  · exact h c (List.mem_append_left _ hc)
  · rcases List.mem_cons.mp hc with rfl | hc
    · exact hn
    · exact h c (List.mem_append_right _ (List.mem_cons_of_mem _ hc))

theorem calls_old {P : LogReq × Phase → Prop} {pre post : List (LogReq × Phase)}
    {old : LogReq × Phase} (h : ∀ c ∈ pre ++ old :: post, P c) : P old :=
  h old (List.mem_append_right _ (List.mem_cons_self _ _))

theorem Step.inv {s s' : Sys} (hs : Step R codec s s') (hi : Inv R codec host project s) :
    Inv R codec host project s' := by
  obtain ⟨hv, hc⟩ := hi
  cases hs with
  | read _ =>
    obtain ⟨hh, hp, -⟩ := calls_old hc
    exact ⟨hv, calls_update hc ((Phase.afterRead_ok _ _).mpr ⟨hh, hp⟩)⟩
  | @fetch _ _ _ _ res _ ha hm =>
    obtain ⟨hh, hp, -⟩ := calls_old hc
    exact ⟨hv, calls_update hc ⟨hh, hp, codec.unmarshal_marshal hm, ha⟩⟩
  | stop =>
    obtain ⟨hh, hp, -⟩ := calls_old hc
    exact ⟨hv, calls_update hc ⟨hh, hp, trivial⟩⟩
  | probe _ =>
    obtain ⟨hh, hp, hb, ha⟩ := calls_old hc
    exact ⟨hv, calls_update hc ⟨hh, hp, writeBatch_valid hh hp hb ha _⟩⟩
  | set hw =>
    obtain ⟨hh, hp, hb⟩ := calls_old hc
    exact ⟨hv.set fun e he => hb e (hw.subset he), calls_update hc ⟨hh, hp, trivial⟩⟩
  | evict => exact ⟨hv.evict, hc⟩

theorem Step.inv_run {s s' : Sys} (hs : Relation.ReflTransGen (Step R codec) s s')
    (hi : Inv R codec host project s) : Inv R codec host project s' := by
  induction hs with
  | refl => exact hi
  | tail _ hstep ih => exact hstep.inv ih

theorem valid_of_run (R : Repo) (codec : Codec) (host project : String) {s s' : Sys}
    (hv : Valid R codec host project s.store)
    (hcalls : ∀ c ∈ s.calls, c.1.host = host ∧ c.1.project = project ∧
      c.2 = .reading c.1.commitishEntry 0)
    (hrun : Relation.ReflTransGen (Step R codec) s s') :
    Valid R codec host project s'.store := by
  refine (Step.inv_run hrun ⟨hv, fun ⟨l, ph⟩ hc => ?_⟩).1
  obtain ⟨hh, hp, hph⟩ := hcalls _ hc
  dsimp only at hh hp hph
  subst hph
  exact ⟨hh, hp, trivial⟩

def refFetched : Store := Store.empty.set (refReq.writeBatch [7] tipLog.log [.cacheMiss])

theorem tipRepo_answers_ref : tipRepo.Answers refReq.commitish tipLog.log :=
  ⟨tipCommit, by decide, by decide, fun h => absurd h (by decide)⟩

theorem refFetch_run :
    Relation.ReflTransGen (Step tipRepo tipCodec)
      ⟨Store.empty, [(refReq, .reading refReq.commitishEntry 0)]⟩ ⟨refFetched, [(refReq, .done)]⟩ :=
  .tail (.tail (.tail (.single (@Step.read _ _ _ [] [] _ _ _ _ (.miss rfl)))
    (@Step.fetch _ _ _ [] [] _ tipLog [7] tipRepo_answers_ref (by decide)))
    (@Step.probe _ _ _ [] [] _ _ _ _ (.cons (.miss rfl) .nil)))
    (@Step.set _ _ _ [] [] _ _ _ (List.Sublist.refl _))

theorem valid_of_run_ref_fetch :
    Valid tipRepo tipCodec "host" "proj" Store.empty ∧
    (∀ c ∈ [(refReq, Phase.reading refReq.commitishEntry 0)], c.1.host = "host" ∧
      c.1.project = "proj" ∧ c.2 = .reading c.1.commitishEntry 0) ∧
    Relation.ReflTransGen (Step tipRepo tipCodec)
      ⟨Store.empty, [(refReq, .reading refReq.commitishEntry 0)]⟩ ⟨refFetched, [(refReq, .done)]⟩ ∧
    Valid tipRepo tipCodec "host" "proj" refFetched :=
  have hcalls : ∀ c ∈ [(refReq, Phase.reading refReq.commitishEntry 0)], c.1.host = "host" ∧
      c.1.project = "proj" ∧ c.2 = .reading c.1.commitishEntry 0 := fun c hc => by
    rw [List.mem_singleton.mp hc]
    exact ⟨rfl, rfl, rfl⟩
  ⟨valid_empty _ _ _ _, hcalls, refFetch_run,
    valid_of_run tipRepo tipCodec "host" "proj" (valid_empty _ _ _ _) hcalls refFetch_run⟩

end Luci.Milo.Git
