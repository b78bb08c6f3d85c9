import Luci.Milo.Concurrent
import Luci.Milo.CachedAnswers

/-!
# What one fetch warms

After `writeCache` for a ref, or for the lowercase hash of the first commit of Gitiles' answer,
`Log` for the commitish is a hit with the whole answer, and `Log` for an ancestor that received a
pointer is a hit with the answer from that ancestor on, as long as its `min` fits in what is left
of the 100 commits.

`writeCache` adds a direct entry under the hash of the first commit only when the commitish is not
a hash, assuming that a hash commitish is already that key. A commitish can match `gitHash` and
still differ from the lowercase hex of the first commit's id: an upper-case spelling, or the hash
of an annotated tag. Then the pointers written for the ancestors lead to a key the batch never
wrote, and a request for an ancestor right after the fetch misses.
-/

namespace Luci.Milo.Git

open Memcache

namespace LogReq

variable {l : LogReq} {codec : Codec} {get : String → GetResult}

theorem readCache_of_direct {data : Bytes} {decoded : LogResponse}
    (hget : get (cacheKey l.host l.project l.commitish) = .found (data ++ [0]))
    (hdec : codec.unmarshal data = some decoded) :
    l.readCache codec get = .done ⟨cacheHit, decoded.log, true⟩ := by
  obtain ⟨k, hk⟩ : ∃ k, 101 - l.min = k + 1 := ⟨100 - l.min, by have := l.min_le; omega⟩
  rw [readCache, hk, readCacheLoop_succ, commitishEntry_key, hget,
    readCacheStep_direct _ _ hdec (Nat.zero_le _)]
  rfl

theorem readCache_of_pointer {id data : Bytes} {d : UInt8} {decoded : LogResponse}
    (hget : get (cacheKey l.host l.project l.commitish) = .found (id ++ [d]))
    (hd1 : 1 ≤ d.toNat) (hdmax : d.toNat ≤ 100 - l.min)
    (hnext : get (cacheKey l.host l.project (hexEncode id)) = .found (data ++ [0]))
    (hdec : codec.unmarshal data = some decoded) (hlen : d.toNat ≤ decoded.log.length) :
    l.readCache codec get = .done ⟨cacheHit, decoded.log.drop d.toNat, true⟩ := by
  have := l.min_pos
  have h0 : d ≠ 0 := fun h => absurd (byte_eq_iff.mp h ▸ hd1) (by decide)
  have hdm : 0 + d ≤ l.maxDist := by rw [byte_zero_add, byte_le_iff, maxDist_toNat]; exact hdmax
  obtain ⟨k, hk⟩ : ∃ k, 101 - l.min = k + 2 := ⟨99 - l.min, by omega⟩
  rw [readCache, hk, readCacheLoop_succ, commitishEntry_key, hget,
    readCacheStep_pointer _ _ h0 (by omega) hdm]
  dsimp only
  rw [readCacheLoop_succ, mkCache_key, hnext, byte_zero_add, readCacheStep_direct _ _ hdec hlen]

end LogReq

section Warm

variable {l : LogReq} {log : List Commit} {c : Commit} {t : List Commit}

theorem hexKey_index (hids : (log.map Commit.id).Nodup) {i k : Nat} {x y : Commit}
    (hx : log[i]? = some x) (hy : log[k]? = some y) {host project : String}
    (h : cacheKey host project (hexEncode x.id) = cacheKey host project (hexEncode y.id)) :
    i = k := by
  have hid := hexEncode_injective (cacheKey_inj h)
  have hi : i < (log.map Commit.id).length := by
    rw [List.length_map]; exact (List.getElem?_eq_some_iff.mp hx).1
  refine List.getElem?_inj hi hids ?_
  rw [List.getElem?_map, List.getElem?_map, hx, hy, Option.map_some', Option.map_some', hid]

theorem commitish_ne_hex (hkey : l.commitishIsHash = false) {x : Commit} (hx : x.id.length = 20) :
    l.commitish ≠ hexEncode x.id := fun h => by
  rw [LogReq.commitishIsHash, h, (gitHash_hexEncode _).mpr hx] at hkey
  cases hkey

variable (hlog : log = c :: t) (hids : (log.map Commit.id).Nodup)
  (hlen : ∀ x ∈ log, x.id.length = 20)
  (hkey : l.commitishIsHash = false ∨ l.commitish = hexEncode c.id)
include hlog hids hlen hkey

theorem writeBatch_hex_value {b : Bytes} {results : List GetResult} {f : Item}
    (hf : f ∈ l.writeBatch b log results) {i : Nat} {x : Commit} (hx : log[i]? = some x)
    (hk : f.key = cacheKey l.host l.project (hexEncode x.id)) :
    f.value = if i = 0 then b ++ [0] else LogReq.pointerValue c.id (UInt8.ofNat i) := by
  have hc : log[0]? = some c := by rw [hlog, List.getElem?_cons_zero]
  have hxl := hlen x (List.getElem?_mem hx)
  rcases l.mem_writeBatch hf with ⟨hval, hk' | ⟨-, c', rest, hcr, hk'⟩⟩ |
    ⟨c', rest, hcr, j, d, r, hd, -, -, hk', hval⟩
  · rcases hkey with hkey | hkey
    · exact absurd (cacheKey_inj (hk'.symm.trans hk)) (commitish_ne_hex hkey hxl)
    · rw [hkey] at hk'
      rw [hexKey_index hids hx hc (hk.symm.trans hk'), if_pos rfl, hval]
  · obtain rfl : c' = c := (List.cons.inj (hcr.symm.trans hlog)).1
    rw [hexKey_index hids hx hc (hk.symm.trans hk'), if_pos rfl, hval]
  · obtain rfl : c' = c := (List.cons.inj (hcr.symm.trans hlog)).1
    obtain rfl := hexKey_index hids hx (LogReq.singleParentRun_getElem? hd) (hk.symm.trans hk')
    rw [if_neg (Nat.succ_ne_zero j), hval]

theorem writeBatch_commitish_value {b : Bytes} {results : List GetResult} {f : Item}
    (hf : f ∈ l.writeBatch b log results) (hk : f.key = cacheKey l.host l.project l.commitish) :
    f.value = b ++ [0] := by
  rcases hkey with hkey' | hkey'
  · rcases l.mem_writeBatch hf with ⟨hval, -⟩ | ⟨c', rest, -, j, d, r, hd, -, -, hk', -⟩
    · exact hval
    · have hdl := hlen d (List.getElem?_mem (LogReq.singleParentRun_getElem? hd))
      exact absurd (cacheKey_inj (hk.symm.trans hk')) (commitish_ne_hex hkey' hdl)
  · have hc : log[0]? = some c := by rw [hlog, List.getElem?_cons_zero]
    rw [hkey'] at hk
    simpa using writeBatch_hex_value hlog hids hlen (.inr hkey') hf hc hk

end Warm

theorem writeCache_warms (codec : Codec) (l : LogReq) (m : Store) {res : LogResponse} {b : Bytes}
    {c : Commit} {t : List Commit} (hlog : res.log = c :: t) (hb : codec.marshal res = some b)
    (hids : (res.log.map Commit.id).Nodup) (hlen : ∀ x ∈ res.log, x.id.length = 20)
    (hsize : res.log.length ≤ 100)
    (hkey : l.commitishIsHash = false ∨ l.commitish = hexEncode c.id) :
    (∀ mm (h1 : 1 ≤ mm) (h100 : mm ≤ 100),
      (LogReq.mk l.host l.project l.commitish mm h1 h100).readCache codec
        (l.writeCache codec res m).get = .done ⟨cacheHit, res.log, true⟩) ∧
    ∀ e ∈ l.writeBatch b res.log ((l.ancestorCaches res.log).map fun e => m.get e.key),
      ∀ i x, res.log[i]? = some x → 1 ≤ i → e.key = cacheKey l.host l.project (hexEncode x.id) →
      ∀ mm (h1 : 1 ≤ mm) (h100 : mm ≤ 100), mm ≤ 100 - i →
        (LogReq.mk l.host l.project (hexEncode x.id) mm h1 h100).readCache codec
          (l.writeCache codec res m).get = .done ⟨cacheHit, res.log.drop i, true⟩ := by
  set batch := l.writeBatch b res.log ((l.ancestorCaches res.log).map fun e => m.get e.key)
  have hm : l.writeCache codec res m = m.set batch := by simp only [LogReq.writeCache, hb, batch]
  have hdec := codec.unmarshal_marshal hb
  have hc0 : res.log[0]? = some c := by rw [hlog, List.getElem?_cons_zero]
  have hcom : (l.writeCache codec res m) (cacheKey l.host l.project l.commitish) =
      some (b ++ [0]) := by
    have hmem : l.commitishEntry.setValue (b ++ [0]) ∈ batch := by
      simp only [batch, LogReq.writeBatch, hlog, LogReq.directCaches, List.cons_append,
        List.mem_cons, true_or]
    rw [hm]
    simpa using Store.set_of_agree m hmem fun f hf hk =>
      writeBatch_commitish_value hlog hids hlen hkey hf (by simpa using hk)
  have hhead : (l.writeCache codec res m) (cacheKey l.host l.project (hexEncode c.id)) =
      some (b ++ [0]) := by
    rcases hkey with hkey' | hkey'
    · have hmem : (l.mkCache (hexEncode c.id)).setValue (b ++ [0]) ∈ batch := by
        simp [batch, LogReq.writeBatch, hlog, LogReq.directCaches, hkey']
      rw [hm]
      simpa using Store.set_of_agree m hmem fun f hf hk => by
        simpa using writeBatch_hex_value hlog hids hlen (.inl hkey') hf hc0 (by simpa using hk)
    · rw [← hkey']; exact hcom
  refine ⟨fun mm h1 h100 => LogReq.readCache_of_direct (Store.get_of_some hcom) hdec,
    fun e he i x hx hi hk mm h1 h100 hmm => ?_⟩
  have hil : i < res.log.length := (List.getElem?_eq_some_iff.mp hx).1
  have hi' : (UInt8.ofNat i).toNat = i := by rw [byte_ofNat_toNat]; omega
  have hptr : (l.writeCache codec res m) (cacheKey l.host l.project (hexEncode x.id)) =
      some (LogReq.pointerValue c.id (UInt8.ofNat i)) := by
    have hval := writeBatch_hex_value hlog hids hlen hkey he hx hk
    rw [if_neg (by omega)] at hval
    rw [hm, ← hk, ← hval]
    exact Store.set_of_agree m he fun f hf hfk => by
      rw [writeBatch_hex_value hlog hids hlen hkey hf hx (hfk.trans hk), if_neg (by omega), hval]
  have := @LogReq.readCache_of_pointer ⟨l.host, l.project, hexEncode x.id, mm, h1, h100⟩ codec _ _ _
    _ _ (Store.get_of_some hptr) (by omega) (by show (UInt8.ofNat i).toNat ≤ 100 - mm; omega)
    (Store.get_of_some hhead) hdec (by omega)
  rwa [hi'] at this

theorem writeCache_warms_ref :
    tipLog.log = tipCommit :: [parentCommit] ∧ tipCodec.marshal tipLog = some [7] ∧
    (tipLog.log.map Commit.id).Nodup ∧ (∀ x ∈ tipLog.log, x.id.length = 20) ∧
    tipLog.log.length ≤ 100 ∧ refReq.commitishIsHash = false ∧
    (∀ mm (h1 : 1 ≤ mm) (h100 : mm ≤ 100),
      (LogReq.mk refReq.host refReq.project refReq.commitish mm h1 h100).readCache tipCodec
        (refReq.writeCache tipCodec tipLog Store.empty).get = .done ⟨cacheHit, tipLog.log, true⟩) ∧
    ∀ e ∈ refReq.writeBatch [7] tipLog.log
        ((refReq.ancestorCaches tipLog.log).map fun e => Store.empty.get e.key),
      ∀ i x, tipLog.log[i]? = some x → 1 ≤ i →
      e.key = cacheKey refReq.host refReq.project (hexEncode x.id) →
      ∀ mm (h1 : 1 ≤ mm) (h100 : mm ≤ 100), mm ≤ 100 - i →
        (LogReq.mk refReq.host refReq.project (hexEncode x.id) mm h1 h100).readCache tipCodec
          (refReq.writeCache tipCodec tipLog Store.empty).get =
          .done ⟨cacheHit, tipLog.log.drop i, true⟩ :=
  ⟨rfl, by decide, by decide, by decide, by decide, by decide,
    writeCache_warms tipCodec refReq Store.empty rfl (by decide) (by decide) (by decide) (by decide)
      (.inl (by decide))⟩

def upperReq : LogReq :=
  ⟨"host", "proj", "ABABABABABABABABABABABABABABABABABABABAB", 1, le_refl 1, by decide⟩

def parentReq : LogReq := ⟨"host", "proj", hexEncode parentCommit.id, 1, le_refl 1, by decide⟩

def tipClient : String → Except String (LogRequest → Except String LogResponse) :=
  fun _ => .ok fun _ => .ok ⟨[tipCommit, parentCommit]⟩

def upperWarmed : Store :=
  (log tipCodec tipClient "host" "proj" upperReq.commitish 1 Store.empty).2

theorem upper_hash_pointer_dangles :
    gitHash upperReq.commitish = true ∧
    (log tipCodec tipClient "host" "proj" upperReq.commitish 1 Store.empty).1 =
      .ok [tipCommit, parentCommit] ∧
    upperWarmed (cacheKey "host" "proj" (hexEncode parentCommit.id)) =
      some (LogReq.pointerValue tipCommit.id 1) ∧
    upperWarmed (cacheKey "host" "proj" (hexEncode tipCommit.id)) = none ∧
    parentReq.readCache tipCodec upperWarmed.get = .done ⟨cacheMiss, [], false⟩ := by
  decide

theorem refFetched_valid : Valid tipRepo tipCodec "host" "proj" refFetched :=
  (valid_empty _ _ _ _).set (writeBatch_valid rfl rfl (by decide) tipRepo_answers_ref _)

theorem readCache_hit_prefix_through_pointer :
    refFetched (cacheKey "host" "proj" parentReq.commitish) =
      some (LogReq.pointerValue tipCommit.id 1) ∧
    Valid tipRepo tipCodec parentReq.host parentReq.project refFetched ∧
    gitHash parentReq.commitish = true ∧ tipRepo.denote parentReq.commitish = some parentCommit ∧
    parentReq.readCache tipCodec refFetched.get = .done ⟨cacheHit, [parentCommit], true⟩ ∧
    (∀ e dist data decoded, parentReq.LoopReach tipCodec refFetched.get e dist →
      refFetched.get e.key = .found (data ++ [0]) → tipCodec.unmarshal data = some decoded →
        dist.toNat < decoded.log.length) ∧
    (∀ msg, parentReq.readCache tipCodec refFetched.get ≠ .panic msg) ∧
    ∀ res commits, parentReq.readCache tipCodec refFetched.get = .done ⟨res, commits, true⟩ →
      commits <+: tipRepo.remoteLog parentCommit ∧ commits.head? = some parentCommit ∧
        min parentReq.min (tipRepo.remoteLog parentCommit).length ≤ commits.length :=
  ⟨by decide, refFetched_valid, by decide, by decide, by decide,
    readCache_hit_prefix tipRepo tipCodec parentReq refFetched refFetched_valid (by decide)
      (by decide)⟩

end Luci.Milo.Git
