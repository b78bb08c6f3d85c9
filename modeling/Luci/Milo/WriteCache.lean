import Luci.Milo.Repo

/-!
# What `writeCache` puts in its batch

Every item of the batch is one of three kinds: the direct entry under the commitish, the direct
entry under the hash of the first commit when the commitish is a ref, or the pointer under the
hash of the `j`-th commit reached by single-parent links, carrying the first commit's id and the
distance byte `j + 1`, written only when the probe did not find a value ending in a distance at
most `j + 1`.
-/

namespace Luci.Milo.Git

open Memcache

namespace LogReq

variable (l : LogReq)

theorem mem_directCaches {value : Bytes} {log : List Commit} {e : Item}
    (h : e ∈ l.directCaches value log) :
    e.value = value ∧ (e.key = cacheKey l.host l.project l.commitish ∨
      l.commitishIsHash = false ∧ ∃ c rest, log = c :: rest ∧
        e.key = cacheKey l.host l.project (hexEncode c.id)) := by
  cases log with
  | nil =>
    obtain rfl := List.mem_singleton.mp h
    exact ⟨rfl, .inl l.commitishEntry_key⟩
  | cons c rest =>
    simp only [directCaches, List.mem_cons] at h
    rcases h with rfl | h
    · exact ⟨rfl, .inl l.commitishEntry_key⟩
    · split_ifs at h with hh
      · cases h
      · obtain rfl := List.mem_singleton.mp h
        exact ⟨rfl, .inr ⟨by simpa using hh, c, rest, rfl, rfl⟩⟩

theorem mem_pointerCaches {head : Bytes} {e : Item} :
    ∀ {i : Nat} {items : List Item} {results : List GetResult},
      e ∈ pointerCaches head i (probed items results) →
      ∃ j item r, items[j]? = some item ∧ results[j]? = some r ∧
        notWorse (probedValue r) (UInt8.ofNat (i + j + 1)) = false ∧
        e = item.setValue (pointerValue head (UInt8.ofNat (i + j + 1)))
  | _, [], _, h => by simp [probed, pointerCaches] at h
  | _, _ :: _, [], h => by simp [probed, pointerCaches] at h
  | i, item :: items, r :: results, h => by
    simp only [probed, List.zipWith_cons_cons, pointerCaches, Item.setValue_value] at h
    have tail (ht : e ∈ pointerCaches head (i + 1) (probed items results)) :
        ∃ j item' r', (item :: items)[j]? = some item' ∧ (r :: results)[j]? = some r' ∧
          notWorse (probedValue r') (UInt8.ofNat (i + j + 1)) = false ∧
          e = item'.setValue (pointerValue head (UInt8.ofNat (i + j + 1))) := by
      obtain ⟨j, item', r', hi, hr, hw, rfl⟩ := mem_pointerCaches ht
      have hj : i + (j + 1) + 1 = i + 1 + j + 1 := by omega
      exact ⟨j + 1, item', r', by simpa using hi, by simpa using hr, by rwa [hj], by rw [hj]⟩
    split_ifs at h with hw
    · exact tail h
    · rcases List.mem_cons.mp h with rfl | ht
      · exact ⟨0, item, r, List.getElem?_cons_zero, List.getElem?_cons_zero, by simpa using hw, rfl⟩
      · exact tail ht

theorem singleParentRun_getElem? : ∀ {log : List Commit} {j : Nat} {d : Commit},
    (singleParentRun log)[j]? = some d → log[j + 1]? = some d
  | c :: d' :: rest, j, d, h => by
    rw [singleParentRun] at h
    split_ifs at h
    · cases j with
      | zero => simpa using h
      | succ j =>
        rw [List.getElem?_cons_succ] at h ⊢
        exact singleParentRun_getElem? h
    · simp at h
  | [], _, _, h | [_], _, _, h => by simp [singleParentRun] at h

theorem ancestorCaches_getElem? {log : List Commit} {j : Nat} {item : Item}
    (h : (l.ancestorCaches log)[j]? = some item) :
    ∃ d, (singleParentRun log)[j]? = some d ∧ item = l.mkCache (hexEncode d.id) := by
  simp only [ancestorCaches, List.getElem?_map, Option.map_eq_some'] at h
  obtain ⟨d, hd, rfl⟩ := h
  exact ⟨d, hd, rfl⟩

theorem mem_writeBatch {b : Bytes} {log : List Commit} {results : List GetResult} {e : Item}
    (h : e ∈ l.writeBatch b log results) :
    e.value = b ++ [0] ∧ (e.key = cacheKey l.host l.project l.commitish ∨
      l.commitishIsHash = false ∧ ∃ c rest, log = c :: rest ∧
        e.key = cacheKey l.host l.project (hexEncode c.id)) ∨
    ∃ c rest, log = c :: rest ∧ ∃ j d r, (singleParentRun log)[j]? = some d ∧
      results[j]? = some r ∧ notWorse (probedValue r) (UInt8.ofNat (j + 1)) = false ∧
      e.key = cacheKey l.host l.project (hexEncode d.id) ∧
      e.value = pointerValue c.id (UInt8.ofNat (j + 1)) := by
  rcases List.mem_append.mp h with h | h
  · exact .inl (l.mem_directCaches h)
  · cases log with
    | nil => cases h
    | cons c rest =>
      obtain ⟨j, item, r, hi, hr, hw, rfl⟩ := mem_pointerCaches h
      obtain ⟨d, hd, rfl⟩ := l.ancestorCaches_getElem? hi
      rw [Nat.zero_add] at hw ⊢
      exact .inr ⟨c, rest, rfl, j, d, r, hd, hr, hw, rfl, rfl⟩

end LogReq

theorem Repo.singleParentRun_take_walk (R : Repo) :
    ∀ (n : Nat) {c : Commit}, R.commit c.id = some c → ∀ j d,
      (LogReq.singleParentRun ((R.walk c).take n))[j]? = some d →
        R.Reach c (j + 1) d ∧ R.commit d.id = some d ∧ j + 1 < n
  | 0, _, _, _, _, h => by simp [LogReq.singleParentRun] at h
  | n + 1, c, hc, j, d, h => by
    obtain ⟨t, ht⟩ := R.walk_head c
    rw [ht, List.take_succ_cons] at h
    rcases htn : t.take n with _ | ⟨d', rest⟩
    · simp [htn, LogReq.singleParentRun] at h
    rw [htn, LogReq.singleParentRun] at h
    split_ifs at h with h1
    · obtain ⟨p, hp⟩ := List.length_eq_one.mp h1
      obtain ⟨pc, hpc, hw⟩ := R.walk_parent hc hp
      obtain rfl : t = R.walk pc := List.tail_eq_of_cons_eq (ht.symm.trans hw)
      have hpc' : R.commit pc.id = some pc := by rw [R.commit_id hpc]; exact hpc
      obtain ⟨u, hu⟩ := R.walk_head pc
      have hn : n ≠ 0 := by rintro rfl; simp at htn
      obtain rfl : d' = pc := by
        rw [hu] at htn
        obtain ⟨k, rfl⟩ := Nat.exists_eq_succ_of_ne_zero hn
        exact (List.cons.inj htn).1.symm
      cases j with
      | zero =>
        obtain rfl : d = d' := by simpa using h.symm
        exact ⟨.parent hp hpc (.refl d), hpc', by omega⟩
      | succ j =>
        rw [List.getElem?_cons_succ, ← htn] at h
        obtain ⟨hr, hd, hj⟩ := Repo.singleParentRun_take_walk R n hpc' j d h
        exact ⟨.parent hp hpc hr, hd, by omega⟩
    · simp at h

end Luci.Milo.Git
