import Luci.Milo.Repo

/-!
# A cache hit is a prefix of Gitiles' answer

From a valid cache, `readCache` for a commit hash naming `x` walks pointers through commits
from which `x` is exactly `dist` single-parent links down. The direct entry it ends on is Gitiles'
answer for such a commit, so it is longer than `dist`, and its slice from `dist` is Gitiles' answer
for `x` cut to `100 - dist ≥ min` commits.
-/

namespace Luci.Milo.Git

open Memcache

variable {R : Repo} {codec : Codec} {l : LogReq} {m : Store} {x : Commit}

theorem LogReq.LoopReach.names_ancestor (hv : Valid R codec l.host l.project m)
    (hs : gitHash l.commitish = true) (hx : R.denote l.commitish = some x) {e : Item} {dist : UInt8}
    (h : l.LoopReach codec m.get e dist) :
    ∃ s y, e.key = cacheKey l.host l.project s ∧ gitHash s = true ∧ R.denote s = some y ∧
      R.Reach y dist.toNat x := by
  induction h with
  | start => exact ⟨l.commitish, x, l.commitishEntry_key, hs, hx, .refl x⟩
  | next hr hstep ih =>
    obtain ⟨s, y, hk, hs, hy, hreach⟩ := ih
    obtain ⟨data, meta, hget, hm, hm', rfl, -, hsum, -⟩ :=
      LogReq.readCacheStep_eq_next hr.dist_le hstep
    rw [Store.get_eq_found, hk] at hget
    obtain ⟨z, hz, hzy⟩ := (hv s y _ hs hy hget data meta rfl).2 hm hm'
    obtain ⟨hlen, hden⟩ := R.commit_hex hz
    exact ⟨hexEncode data, z, rfl, (gitHash_hexEncode data).mpr hlen, hden, hsum ▸ hzy.trans hreach⟩

theorem LogReq.LoopReach.direct_entry (hv : Valid R codec l.host l.project m)
    (hs : gitHash l.commitish = true) (hx : R.denote l.commitish = some x) {e : Item} {dist : UInt8}
    (h : l.LoopReach codec m.get e dist) {data : Bytes} {decoded : LogResponse}
    (hget : m.get e.key = .found (data ++ [0])) (hdec : codec.unmarshal data = some decoded) :
    dist.toNat < decoded.log.length ∧
      decoded.log.drop dist.toNat = (R.remoteLog x).take (100 - dist.toNat) := by
  obtain ⟨s, y, hk, hs, hy, hreach⟩ := h.names_ancestor hv hs hx
  rw [Store.get_eq_found, hk] at hget
  obtain rfl : decoded = ⟨R.remoteLog y⟩ :=
    Option.some.inj (hdec.symm.trans ((hv s y _ hs hy hget data 0 rfl).1 rfl))
  have hdrop := hreach.remoteLog_drop (R.denote_commit hy)
  have hd := byte_le_iff.mp h.dist_le
  have := l.maxDist_le
  have hx0 : 0 < (R.remoteLog x).length :=
    List.length_pos.mpr fun h => by simpa [h] using R.remoteLog_head x
  have hlen := congrArg List.length hdrop
  rw [List.length_drop, List.length_take] at hlen
  exact ⟨by dsimp only; omega, hdrop⟩

theorem readCache_hit_prefix (R : Repo) (codec : Codec) (l : LogReq) (m : Store) {x : Commit}
    (hv : Valid R codec l.host l.project m) (hs : gitHash l.commitish = true)
    (hx : R.denote l.commitish = some x) :
    (∀ e dist data decoded, l.LoopReach codec m.get e dist →
      m.get e.key = .found (data ++ [0]) → codec.unmarshal data = some decoded →
        dist.toNat < decoded.log.length) ∧
    (∀ msg, l.readCache codec m.get ≠ .panic msg) ∧
    ∀ res commits, l.readCache codec m.get = .done ⟨res, commits, true⟩ →
      commits <+: R.remoteLog x ∧ commits.head? = some x ∧
        min l.min (R.remoteLog x).length ≤ commits.length := by
  have hfin := (LogReq.readCache_terminates l codec m.get).2.2.1
  have hmax := l.maxDist_toNat
  have := l.min_pos
  obtain ⟨e, dist, hr, heq⟩ : ∃ e dist, l.LoopReach codec m.get e dist ∧
      l.readCache codec m.get = l.readCacheStep codec dist (m.get e.key) := by
    rcases LogReq.readCacheLoop_result (101 - l.min)
      (LogReq.LoopReach.start : l.LoopReach codec m.get _ _) with ⟨e, d, hn⟩ | h
    · exact absurd hn (hfin e d)
    · exact h
  have hd := byte_le_iff.mp hr.dist_le
  refine ⟨fun e dist data decoded hr hget hdec => (hr.direct_entry hv hs hx hget hdec).1, ?_⟩
  rw [heq]
  rcases l.readCacheStep_cases codec dist (m.get e.key) with
    ⟨_, _, -, -, -, -, hs'⟩ | ⟨data, decoded, hget, hdec, -, hs'⟩ |
      ⟨data, decoded, hget, hdec, hlt, -⟩ | ⟨_, hs'⟩
  · -- a pointer to follow: the loop has not ended there
    rw [hs']; exact ⟨fun _ => nofun, nofun⟩
  · -- a direct entry long enough: the hit
    rw [hs']
    refine ⟨fun _ => nofun, fun res commits hhit => ?_⟩
    simp only [LogReq.Iteration.done.injEq, LogReq.ReadResult.mk.injEq] at hhit
    rw [← hhit.2.1, (hr.direct_entry hv hs hx hget hdec).2]
    refine ⟨List.take_prefix _ _, ?_, ?_⟩
    · rw [List.head?_take, if_neg (by omega), R.remoteLog_head]
    · have := l.min_le
      rw [List.length_take]; omega
  · -- a direct entry too short to slice, which a valid cache never holds
    exact absurd (hr.direct_entry hv hs hx hget hdec).1 (by omega)
  · -- a miss
    rw [hs']; exact ⟨fun _ => nofun, nofun⟩

end Luci.Milo.Git
