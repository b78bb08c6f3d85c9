import Luci.Milo.WriteCache

/-!
# Calls run one at a time never make a cached distance worse

When no other call runs between `writeCache`'s probe and its `Set`, nothing evicts entries and the
probe reports what the store holds, every item of the batch ends in a byte no larger than what is
stored under its key: direct entries end in `0`, and a pointer is written only where the store
holds nothing or a value ending in a larger byte. A partial `Set` only drops items.
-/

namespace Luci.Milo.Git

open Memcache

/-- One `Log` call run alone, with no eviction and no probe error: a hit or a failed fetch leaves
the store as it was, and an answer is written by `writeCache`, whose batched `Set` may store any
subset of its items. -/
inductive SeqCall (codec : Codec) : Store → Store → Prop
  | keep (m : Store) : SeqCall codec m m
  | write {m : Store} {l : LogReq} {res : LogResponse} {b : Bytes} {written : List Item} :
      codec.marshal res = some b →
      written.Sublist
        (l.writeBatch b res.log ((l.ancestorCaches res.log).map fun e => m.get e.key)) →
      SeqCall codec m (m.set written)

theorem LogReq.call_seqCall (l : LogReq) (codec : Codec)
    (client : String → Except String (LogRequest → Except String LogResponse)) (m : Store) :
    SeqCall codec m (l.call codec client m).2 := by
  unfold LogReq.call
  split
  · exact .keep m
  · exact .keep m
  · split
    · exact .keep m
    · split
      · exact .keep m
      · unfold LogReq.writeCache
        split
        · exact .keep m
        · exact .write ‹_› (List.Sublist.refl _)

def NoRegress (m m' : Store) : Prop :=
  ∀ k v d, m k = some v → v.getLast? = some d →
    ∃ v' d', m' k = some v' ∧ v'.getLast? = some d' ∧ d' ≤ d ∧
      (1 ≤ d.toNat → v' ≠ v → d' < d) ∧ (d = 0 → d' = 0)

theorem writeBatch_le_stored {m : Store} {l : LogReq} {b : Bytes} {log : List Commit} {e : Item}
    (he : e ∈ l.writeBatch b log ((l.ancestorCaches log).map fun e => m.get e.key))
    {v : Bytes} {d : UInt8} (hm : m e.key = some v) (hd : v.getLast? = some d) :
    ∃ d', e.value.getLast? = some d' ∧ (d' = 0 ∨ d' < d) := by
  rcases l.mem_writeBatch he with ⟨hval, -⟩ | ⟨c, rest, -, j, dc, r, hdc, hr, hw, hkey, hval⟩
  · exact ⟨0, by rw [hval, List.getLast?_concat], .inl rfl⟩
  · refine ⟨UInt8.ofNat (j + 1), by rw [hval, LogReq.pointerValue, List.getLast?_concat], .inr ?_⟩
    simp only [List.getElem?_map, LogReq.ancestorCaches, Option.map_map, hdc, Option.map_some',
      Option.some.injEq, Function.comp_apply, LogReq.mkCache_key] at hr
    rw [← hr, ← hkey, Store.get, hm] at hw
    simpa [LogReq.probedValue, LogReq.notWorse, hd] using hw

theorem SeqCall.noRegress {codec : Codec} {m m' : Store} (h : SeqCall codec m m') :
    NoRegress m m' := by
  intro k v d hm hd
  cases h with
  | keep => exact ⟨v, d, hm, hd, byte_le_iff.mpr (Nat.le_refl _), fun _ h => absurd rfl h, id⟩
  | @write l res b written _ hw =>
    rcases Store.set_cases m written k with ⟨e, he, rfl, hv'⟩ | ⟨-, hv'⟩
    · obtain ⟨d', hd', hlt⟩ := writeBatch_le_stored (hw.subset he) hm hd
      refine ⟨e.value, d', hv', hd', ?_, fun h1 _ => ?_, fun h0 => ?_⟩
      · rcases hlt with rfl | hlt
        · exact Nat.zero_le _
        · exact byte_le_iff.mpr (Nat.le_of_lt (byte_lt_iff.mp hlt))
      · rcases hlt with rfl | hlt
        · exact byte_lt_iff.mpr (by simpa using h1)
        · exact hlt
      · subst h0
        rcases hlt with rfl | hlt
        · rfl
        · exact absurd (byte_lt_iff.mp hlt) (by simp)
    · exact ⟨v, d, hv' ▸ hm, hd, byte_le_iff.mpr (Nat.le_refl _), fun _ h => absurd rfl h, id⟩

theorem seqCall_no_regress (codec : Codec) (run : Nat → Store)
    (hrun : ∀ i, SeqCall codec (run i) (run (i + 1))) :
    (∀ i, NoRegress (run i) (run (i + 1))) ∧
    ∀ i j k v d, i ≤ j → run i k = some v → v.getLast? = some d →
      ∃ v' d', run j k = some v' ∧ v'.getLast? = some d' ∧ d' ≤ d := by
  refine ⟨fun i => (hrun i).noRegress, fun i j k v d hij hv hd => ?_⟩
  induction j, hij using Nat.le_induction with
  | base => exact ⟨v, d, hv, hd, byte_le_iff.mpr (Nat.le_refl _)⟩
  | succ j _ ih =>
    obtain ⟨v', d', hv', hd', hle⟩ := ih
    obtain ⟨v'', d'', hv'', hd'', hle', -⟩ := (hrun j).noRegress k v' d' hv' hd'
    exact ⟨v'', d'', hv'', hd'', byte_le_iff.mpr (Nat.le_trans hle' hle)⟩

def refWarmed : Store :=
  Store.empty.set (refReq.writeBatch [7] tipLog.log
    ((refReq.ancestorCaches tipLog.log).map fun e => Store.empty.get e.key))

def refRewarmed : Store :=
  refWarmed.set (refReq.writeBatch [7] tipLog.log
    ((refReq.ancestorCaches tipLog.log).map fun e => refWarmed.get e.key))

def twoFetches : Nat → Store
  | 0 => Store.empty
  | 1 => refWarmed
  | _ + 2 => refRewarmed

theorem seqCall_no_regress_two_fetches :
    (∀ i, SeqCall tipCodec (twoFetches i) (twoFetches (i + 1))) ∧
    (∀ i, NoRegress (twoFetches i) (twoFetches (i + 1))) ∧
    ∀ i j k v d, i ≤ j → twoFetches i k = some v → v.getLast? = some d →
      ∃ v' d', twoFetches j k = some v' ∧ v'.getLast? = some d' ∧ d' ≤ d :=
  have hrun : ∀ i, SeqCall tipCodec (twoFetches i) (twoFetches (i + 1)) := fun
    | 0 => @SeqCall.write tipCodec _ refReq tipLog [7] _ (by decide) (.refl _)
    | 1 => @SeqCall.write tipCodec _ refReq tipLog [7] _ (by decide) (.refl _)
    | _ + 2 => .keep _
  ⟨hrun, seqCall_no_regress tipCodec twoFetches hrun⟩

end Luci.Milo.Git
