import Luci.Milo.GitLog

/-!
# The loop of `readCache` is bounded, whatever the cache holds

Nothing is assumed about what `memcache.Get` reports: the values may be corrupt, written by
another version of the app, or pointers that form a cycle. Every pass that continues adds a
distance in `1..99` to `dist` and keeps `dist ≤ maxDist = 100 - min ≤ 99`, so the byte sum
`dist + meta` never wraps and the loop makes at most `101 - min` `Get`s.

The loop does not survive every content, though: a pointer to a direct entry that decodes to fewer
commits than the accumulated distance makes `decoded.Log[dist:]` panic.
-/

namespace Luci.Milo.Git

open Memcache

namespace LogReq

variable (l : LogReq) (codec : Codec) (get : String → GetResult)

inductive LoopReach : Item → UInt8 → Prop
  | start : LoopReach l.commitishEntry 0
  | next {e : Item} {dist : UInt8} {e' : Item} {dist' : UInt8} : LoopReach e dist →
      l.readCacheStep codec dist (get e.key) = .next e' dist' → LoopReach e' dist'

/-- The keys the loop passes to `memcache.Get`, in order, within `fuel` passes. -/
def readCacheGets : Nat → Item → UInt8 → List String
  | 0, _, _ => []
  | fuel + 1, e, dist =>
    e.key :: match l.readCacheStep codec dist (get e.key) with
      | .next e' dist' => readCacheGets fuel e' dist'
      | _ => []

variable {l codec get}

theorem maxDist_le : l.maxDist.toNat ≤ 99 := by
  have := l.min_pos
  rw [maxDist_toNat]; omega

theorem readCacheStep_eq_next {dist : UInt8} {r : GetResult} {e' : Item} {dist' : UInt8}
    (hd : dist ≤ l.maxDist) (h : l.readCacheStep codec dist r = .next e' dist') :
    ∃ data meta, r = .found (data ++ [meta]) ∧ 1 ≤ meta.toNat ∧ meta.toNat ≤ 99 ∧
      e' = l.mkCache (hexEncode data) ∧ dist' = dist + meta ∧
      dist'.toNat = dist.toNat + meta.toNat ∧ dist' ≤ l.maxDist := by
  rcases l.readCacheStep_cases codec dist r with
    ⟨data, meta, hr, h0, h100, hle, hs⟩ | ⟨_, _, -, -, -, hs⟩ | ⟨_, _, -, -, -, hs⟩ | ⟨_, hs⟩ <;>
    rw [hs] at h <;> cases h
  have hm : 1 ≤ meta.toNat := Nat.pos_of_ne_zero fun h => h0 (byte_eq_iff.mpr h)
  have hsum := byte_add_toNat (a := dist) (b := meta)
    (by have := maxDist_le (l := l); rw [byte_le_iff] at hd; omega)
  exact ⟨data, meta, hr, hm, by omega, rfl, rfl, hsum, hle⟩

theorem LoopReach.dist_le {e : Item} {dist : UInt8} (h : l.LoopReach codec get e dist) :
    dist ≤ l.maxDist := by
  induction h with
  | start => exact Nat.zero_le _
  | next _ hs ih =>
    obtain ⟨_, _, -, -, -, -, -, -, hle⟩ := readCacheStep_eq_next ih hs
    exact hle

theorem readCacheLoop_stops (fuel : Nat) {e : Item} {dist : UInt8} (hd : dist ≤ l.maxDist)
    (hf : l.maxDist.toNat - dist.toNat < fuel) :
    (∀ k, l.readCacheLoop codec get (fuel + k) e dist = l.readCacheLoop codec get fuel e dist) ∧
      ∀ e' dist', l.readCacheLoop codec get fuel e dist ≠ .next e' dist' := by
  induction fuel generalizing e dist with
  | zero => omega
  | succ fuel ih =>
    cases hs : l.readCacheStep codec dist (get e.key) with
    | next e' dist' =>
      obtain ⟨_, meta, -, hm, -, -, -, hsum, hle⟩ := readCacheStep_eq_next hd hs
      have hle' := byte_le_iff.mp hle
      obtain ⟨ihk, ihn⟩ := ih hle (by omega)
      refine ⟨fun k => ?_, ?_⟩
      · rw [Nat.add_right_comm, readCacheLoop_succ, readCacheLoop_succ, hs]
        exact ihk k
      · rw [readCacheLoop_succ, hs]
        exact ihn
    | _ =>
      refine ⟨fun k => ?_, fun e' d' => ?_⟩
      · rw [Nat.add_right_comm, readCacheLoop_succ, readCacheLoop_succ, hs]
      · rw [readCacheLoop_succ, hs]; exact Iteration.noConfusion

theorem readCacheGets_length (fuel : Nat) {e : Item} {dist : UInt8} (hd : dist ≤ l.maxDist) :
    (l.readCacheGets codec get fuel e dist).length ≤ l.maxDist.toNat - dist.toNat + 1 := by
  induction fuel generalizing e dist with
  | zero => exact Nat.zero_le _
  | succ fuel ih =>
    simp only [readCacheGets, List.length_cons]
    split
    · rename_i e' dist' hs
      obtain ⟨_, meta, -, hm, -, -, -, hsum, hle⟩ := readCacheStep_eq_next hd hs
      have := ih (e := e') hle
      have := byte_le_iff.mp hle
      omega
    · simp

theorem readCacheLoop_result (fuel : Nat) {e : Item} {dist : UInt8}
    (h : l.LoopReach codec get e dist) :
    (∃ e' dist', l.readCacheLoop codec get fuel e dist = .next e' dist') ∨
      ∃ e' dist', l.LoopReach codec get e' dist' ∧
        l.readCacheLoop codec get fuel e dist = l.readCacheStep codec dist' (get e'.key) := by
  induction fuel generalizing e dist with
  | zero => exact .inl ⟨e, dist, rfl⟩
  | succ fuel ih =>
    rw [readCacheLoop_succ]
    cases hs : l.readCacheStep codec dist (get e.key) with
    | next e' dist' => exact ih (h.next hs)
    | _ => exact .inr ⟨e, dist, h, hs.symm⟩

theorem readCache_terminates (l : LogReq) (codec : Codec) (get : String → GetResult) :
    (∀ fuel, (l.readCacheGets codec get fuel l.commitishEntry 0).length ≤ 101 - l.min) ∧
    (∀ fuel, 101 - l.min ≤ fuel →
      l.readCacheLoop codec get fuel l.commitishEntry 0 = l.readCache codec get) ∧
    (∀ e dist, l.readCache codec get ≠ .next e dist) ∧
    (∀ e dist, l.LoopReach codec get e dist →
      dist.toNat ≤ 100 - l.min ∧
      (∀ data meta, get e.key = .found (data ++ [meta]) → meta ≠ 0 → meta.toNat < 100 →
        dist.toNat ≤ 99 ∧ meta.toNat ≤ 99 ∧ (dist + meta).toNat = dist.toNat + meta.toNat) ∧
      (∀ e' dist', l.readCacheStep codec dist (get e.key) = .next e' dist' →
        ∃ meta : UInt8, 1 ≤ meta.toNat ∧ meta.toNat ≤ 99 ∧ dist' = dist + meta ∧
          dist'.toNat = dist.toNat + meta.toNat ∧ dist'.toNat ≤ 100 - l.min)) := by
  have hmax := l.maxDist_toNat
  have h99 := maxDist_le (l := l)
  have hstart : (0 : UInt8) ≤ l.maxDist := Nat.zero_le _
  have hfuel : l.maxDist.toNat - (0 : UInt8).toNat < 101 - l.min := by
    have := l.min_le; simp only [UInt8.toNat_zero]; omega
  obtain ⟨hk, hn⟩ := @readCacheLoop_stops l codec get _ _ _ hstart hfuel
  refine ⟨fun fuel => ?_, fun fuel hf => ?_, hn, fun e dist hr => ?_⟩
  · have := @readCacheGets_length l codec get fuel l.commitishEntry _ hstart
    simp only [UInt8.toNat_zero] at this; omega
  · obtain ⟨k, rfl⟩ := Nat.exists_eq_add_of_le hf
    exact hk k
  · have hd := byte_le_iff.mp hr.dist_le
    refine ⟨by omega, fun data meta _ _ h100 => ⟨by omega, by omega, byte_add_toNat (by omega)⟩,
      fun e' dist' hs => ?_⟩
    obtain ⟨_, meta, -, hm, hm', -, heq, hsum, hle⟩ := readCacheStep_eq_next hr.dist_le hs
    exact ⟨meta, hm, hm', heq, hsum, by rw [← hmax]; exact hle⟩

theorem readCache_short_entry_panics {data target : Bytes} {meta : UInt8} {decoded : LogResponse}
    (h1 : get l.commitishEntry.key = .found (data ++ [meta])) (h0 : meta ≠ 0)
    (hm : meta ≤ l.maxDist) (h2 : get (l.mkCache (hexEncode data)).key = .found (target ++ [0]))
    (hdec : codec.unmarshal target = some decoded) (hlen : decoded.log.length < meta.toNat) :
    l.readCache codec get = .panic "runtime error: slice bounds out of range" := by
  have hmax := l.maxDist_toNat
  have := l.min_pos
  have hm' := byte_le_iff.mp hm
  obtain ⟨k, hk⟩ : ∃ k, 101 - l.min = k + 2 := ⟨99 - l.min, by omega⟩
  rw [readCache, hk, readCacheLoop_succ, h1,
    readCacheStep_pointer _ _ h0 (by omega) (by rwa [byte_zero_add])]
  dsimp only
  rw [readCacheLoop_succ, h2, byte_zero_add, readCacheStep_short _ _ hdec hlen]

end LogReq

def shortEntryReq : LogReq := ⟨"host", "proj", "refs/heads/main", 50, by decide, by decide⟩

def shortEntryStore : Store := fun k =>
  if k = "host|proj|refs/heads/main" then some (List.replicate 20 17 ++ [5])
  else if k = "host|proj|" ++ hexEncode (List.replicate 20 17) then some [0] else none

theorem readCache_panics_on_corrupt_cache (codec : Codec) :
    shortEntryReq.readCache codec shortEntryStore.get =
      .panic "runtime error: slice bounds out of range" :=
  @LogReq.readCache_short_entry_panics _ codec _ (List.replicate 20 17) [] 5 _
    (by decide) (by decide) (by decide) (by decide) codec.unmarshal_nil (by decide)

end Luci.Milo.Git

