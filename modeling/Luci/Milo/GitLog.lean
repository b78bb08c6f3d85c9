import Luci.Milo.Memcache

/-!
# `milo/git/log.go`: the cached Gitiles log

`Log` asks Gitiles for up to 100 commits from a commitish and caches the answer under
`host|project|commitish`. The last byte of a cache value says how to read the rest: `0`, a
marshalled `LogResponse`; `1..99`, the id of a descendant commit from which the key's commit is that
many single-parent links away; `100..255`, reserved. `readCache` follows such pointers while the
summed distance stays within `100 - min`, and `writeCache` stores the answer under the commitish,
under the hash of the first commit when the commitish is a ref, and as pointers under each ancestor
reached by single-parent links.

This module is the code read as functions. One pass of the `for` loop of `readCache` is
`readCacheStep`; the loop is `readCacheLoop`, run for `101 - min` passes, which is enough
(`ReadCacheBounds`). `writeCache` is split at its two cache operations, the probing `Get` and the
batched `Set`, so that the concurrent model in `Concurrent` can interleave them.
-/

namespace Luci.Milo.Git

open Memcache

/-- `gitpb.Commit`: the id and the parent ids are the fields `log.go` reads. -/
structure Commit where
  id : Bytes
  parents : List Bytes
  deriving DecidableEq, Repr

/-- `gitilespb.LogResponse`. -/
structure LogResponse where
  log : List Commit
  deriving DecidableEq, Repr

/-- `gitilespb.LogRequest`. -/
structure LogRequest where
  project : String
  treeish : String
  pageSize : Nat
  deriving DecidableEq, Repr

/-- `proto.Marshal` and `proto.Unmarshal` of a `LogResponse`, with the two facts of the protobuf
encoding that the cache relies on: decoding inverts encoding, and no bytes decode to the empty
message. -/
structure Codec where
  marshal : LogResponse → Option Bytes
  unmarshal : Bytes → Option LogResponse
  unmarshal_marshal : ∀ {r b}, marshal r = some b → unmarshal b = some r
  unmarshal_nil : unmarshal [] = some ⟨[]⟩

/-- How a Go call ends: it returns a value, returns an error, or panics. -/
inductive Outcome (α : Type)
  | ok (a : α)
  | error (msg : String)
  | panic (msg : String)
  deriving DecidableEq, Repr

/-- The values of the `result` field of the `logCounter` metric. -/
def cacheHit : String := "hit"
def cacheMiss : String := "miss"
def cacheFailure : String := "failure-cache"
def decodingFailure : String := "failure-decoding"

/-- The key `mkCache` formats: `host|project|commitish`. -/
def cacheKey (host project commitish : String) : String :=
  host ++ "|" ++ project ++ "|" ++ commitish

theorem cacheKey_inj {host project s s' : String}
    (h : cacheKey host project s = cacheKey host project s') : s = s' :=
  String.ext (List.append_cancel_left (congrArg String.data h))

/-- `logReq`. `min` must be in `[1..100]`, which `Log` ensures. -/
structure LogReq where
  host : String
  project : String
  commitish : String
  min : Nat
  min_pos : 1 ≤ min
  min_le : min ≤ 100

namespace LogReq

variable (l : LogReq)

def commitishIsHash : Bool := gitHash l.commitish

/-- `mkCache`: the item for `commitish`, kept for 12 hours. -/
def mkCache (commitish : String) : Item :=
  ⟨cacheKey l.host l.project commitish, [], 12 * 60 * 60⟩

/-- `commitishEntry` as `call` sets it: a ref may move, so its entry expires after 30 seconds. -/
def commitishEntry : Item :=
  if l.commitishIsHash then l.mkCache l.commitish
  else { l.mkCache l.commitish with expiration := 30 }

@[simp] theorem mkCache_value (s : String) : (l.mkCache s).value = [] := rfl

@[simp] theorem mkCache_key (s : String) : (l.mkCache s).key = cacheKey l.host l.project s := rfl

@[simp] theorem commitishEntry_key :
    l.commitishEntry.key = cacheKey l.host l.project l.commitish := by
  unfold commitishEntry; split <;> rfl

/-- `maxDist := byte(100 - l.min)`. -/
def maxDist : UInt8 := UInt8.ofNat (100 - l.min)

theorem maxDist_toNat : l.maxDist.toNat = 100 - l.min := by
  rw [maxDist, byte_ofNat_toNat, Nat.mod_eq_of_lt (by omega)]

/-- The named results of `readCache`. -/
structure ReadResult where
  cacheResult : String
  commits : List Commit
  ok : Bool
  deriving DecidableEq, Repr

/-- How one pass of the `for` loop of `readCache` ends: it recurses into another entry, returns, or
panics. -/
inductive Iteration
  | next (e : Item) (dist : UInt8)
  | done (r : ReadResult)
  | panic (msg : String)
  deriving DecidableEq, Repr

/-- One pass of the `for` loop of `readCache`: the `switch` on what `memcache.Get` of the current
entry reported, with `dist` the distance accumulated so far. -/
def readCacheStep (codec : Codec) (dist : UInt8) : GetResult → Iteration
  | .cacheMiss => .done ⟨cacheMiss, [], false⟩
  | .failure => .done ⟨cacheFailure, [], false⟩
  | .found v =>
    match v.getLast? with
    | none => .done ⟨decodingFailure, [], false⟩
    | some meta =>
      let data := v.dropLast
      if meta = 0 then
        match codec.unmarshal data with
        | none => .done ⟨decodingFailure, [], false⟩
        | some decoded =>
          match sliceFrom decoded.log dist.toNat with
          | some commits => .done ⟨cacheHit, commits, true⟩
          | none => .panic "runtime error: slice bounds out of range"
      else if 100 ≤ meta then .done ⟨decodingFailure, [], false⟩
      else if dist + meta ≤ l.maxDist then .next (l.mkCache (hexEncode data)) (dist + meta)
      else .done ⟨cacheMiss, [], false⟩

/-- The `for` loop of `readCache`, for at most `fuel` passes; it answers `.next` only when the
passes run out. `get` is what `memcache.Get` reports for a key. -/
def readCacheLoop (codec : Codec) (get : String → GetResult) : Nat → Item → UInt8 → Iteration
  | 0, e, dist => .next e dist
  | fuel + 1, e, dist =>
    match l.readCacheStep codec dist (get e.key) with
    | .next e' dist' => readCacheLoop codec get fuel e' dist'
    | r => r

/-- `readCache`, run for `101 - min` passes of its loop. -/
def readCache (codec : Codec) (get : String → GetResult) : Iteration :=
  l.readCacheLoop codec get (101 - l.min) l.commitishEntry 0

theorem readCacheStep_direct (codec : Codec) {dist : UInt8} {data : Bytes} {decoded : LogResponse}
    (hd : codec.unmarshal data = some decoded) (hl : dist.toNat ≤ decoded.log.length) :
    l.readCacheStep codec dist (.found (data ++ [0])) =
      .done ⟨cacheHit, decoded.log.drop dist.toNat, true⟩ := by
  simp only [readCacheStep, List.getLast?_concat, List.dropLast_concat, if_true, hd,
    sliceFrom_of_le hl]

theorem readCacheStep_short (codec : Codec) {dist : UInt8} {data : Bytes} {decoded : LogResponse}
    (hd : codec.unmarshal data = some decoded) (hl : decoded.log.length < dist.toNat) :
    l.readCacheStep codec dist (.found (data ++ [0])) =
      .panic "runtime error: slice bounds out of range" := by
  simp only [readCacheStep, List.getLast?_concat, List.dropLast_concat, if_true, hd,
    sliceFrom_eq_none.mpr hl]

theorem readCacheStep_pointer (codec : Codec) {dist meta : UInt8} {data : Bytes} (h0 : meta ≠ 0)
    (h100 : meta.toNat < 100) (hd : dist + meta ≤ l.maxDist) :
    l.readCacheStep codec dist (.found (data ++ [meta])) =
      .next (l.mkCache (hexEncode data)) (dist + meta) := by
  have h100' : ¬ 100 ≤ meta := fun h => by
    change 100 ≤ meta.toNat at h
    omega
  simp only [readCacheStep, List.getLast?_concat, List.dropLast_concat, h0, h100', hd, if_false,
    if_true]

theorem readCacheStep_cases (codec : Codec) (dist : UInt8) (r : GetResult) :
    (∃ data meta, r = .found (data ++ [meta]) ∧ meta ≠ 0 ∧ meta.toNat < 100 ∧
      dist + meta ≤ l.maxDist ∧
      l.readCacheStep codec dist r = .next (l.mkCache (hexEncode data)) (dist + meta)) ∨
    (∃ data decoded, r = .found (data ++ [0]) ∧ codec.unmarshal data = some decoded ∧
      dist.toNat ≤ decoded.log.length ∧
      l.readCacheStep codec dist r = .done ⟨cacheHit, decoded.log.drop dist.toNat, true⟩) ∨
    (∃ data decoded, r = .found (data ++ [0]) ∧ codec.unmarshal data = some decoded ∧
      decoded.log.length < dist.toNat ∧
      l.readCacheStep codec dist r = .panic "runtime error: slice bounds out of range") ∨
    (∃ res, l.readCacheStep codec dist r = .done ⟨res, [], false⟩) := by
  rcases r with v | _ | _
  · rcases List.eq_nil_or_concat v with rfl | ⟨data, meta, rfl⟩
    · exact .inr (.inr (.inr ⟨decodingFailure, rfl⟩))
    rw [List.concat_eq_append]
    by_cases h0 : meta = 0
    · subst h0
      rcases hd : codec.unmarshal data with _ | decoded
      · exact .inr (.inr (.inr ⟨decodingFailure, by simp [readCacheStep, hd]⟩))
      by_cases hl : dist.toNat ≤ decoded.log.length
      · exact .inr (.inl ⟨data, decoded, rfl, hd, hl, l.readCacheStep_direct codec hd hl⟩)
      · have hl' : decoded.log.length < dist.toNat := by omega
        exact .inr (.inr (.inl ⟨data, decoded, rfl, hd, hl', l.readCacheStep_short codec hd hl'⟩))
    by_cases h100 : 100 ≤ meta
    · exact .inr (.inr (.inr ⟨decodingFailure, by simp [readCacheStep, h0, h100]⟩))
    have h100' : meta.toNat < 100 := by simpa [byte_le_iff] using h100
    by_cases hd : dist + meta ≤ l.maxDist
    · exact .inl ⟨data, meta, rfl, h0, h100', hd, l.readCacheStep_pointer codec h0 h100' hd⟩
    · exact .inr (.inr (.inr ⟨cacheMiss, by simp [readCacheStep, h0, h100, hd]⟩))
  · exact .inr (.inr (.inr ⟨_, rfl⟩))
  · exact .inr (.inr (.inr ⟨_, rfl⟩))

@[simp] theorem readCacheLoop_zero (codec : Codec) (get : String → GetResult) (e : Item)
    (dist : UInt8) : l.readCacheLoop codec get 0 e dist = .next e dist := rfl

theorem readCacheLoop_succ (codec : Codec) (get : String → GetResult) (fuel : Nat) (e : Item)
    (dist : UInt8) : l.readCacheLoop codec get (fuel + 1) e dist =
      match l.readCacheStep codec dist (get e.key) with
      | .next e' dist' => l.readCacheLoop codec get fuel e' dist'
      | r => r := rfl

/-- The direct entries of `writeCache`: the commitish, and the hash of the first commit when the
commitish is not itself a hash. -/
def directCaches (value : Bytes) : List Commit → List Item
  | c :: _ =>
    l.commitishEntry.setValue value ::
      (if l.commitishIsHash then [] else [(l.mkCache (hexEncode c.id)).setValue value])
  | [] => [l.commitishEntry.setValue value]

/-- `res.Log[1:k]`, where `k` is where the loop of `writeCache` stops: at the end of the log, or
after the first commit that does not have exactly one parent. -/
def singleParentRun : List Commit → List Commit
  | c :: d :: rest => if c.parents.length = 1 then d :: singleParentRun (d :: rest) else []
  | _ => []

/-- `ancestorCaches` before the probe. -/
def ancestorCaches (log : List Commit) : List Item :=
  (singleParentRun log).map fun c => l.mkCache (hexEncode c.id)

/-- An item's value after the probing `Get`: what was found, or nothing after a miss or an error. -/
def probedValue : GetResult → Bytes
  | .found v => v
  | _ => []

/-- The ancestor items with the values the probe left in them. -/
def probed (items : List Item) (results : List GetResult) : List Item :=
  List.zipWith (fun e r => e.setValue (probedValue r)) items results

/-- A pointer value: the id of `res.Log[0]`, then the distance. -/
def pointerValue (id : Bytes) (dist : UInt8) : Bytes := id ++ [dist]

/-- Whether a probed value is "not worse than what we can offer": it ends in a distance `≤ dist`. -/
def notWorse (v : Bytes) (dist : UInt8) : Bool :=
  match v.getLast? with
  | some b => decide (b ≤ dist)
  | none => false

/-- The pointer loop of `writeCache` from index `i`: item `i` gets distance `byte(i + 1)`. -/
def pointerCaches (head : Bytes) : Nat → List Item → List Item
  | _, [] => []
  | i, e :: rest =>
    if notWorse e.value (UInt8.ofNat (i + 1)) then pointerCaches head (i + 1) rest
    else e.setValue (pointerValue head (UInt8.ofNat (i + 1))) :: pointerCaches head (i + 1) rest

/-- The batch `writeCache` sets, from the marshalled answer and what the probe reported. -/
def writeBatch (marshalled : Bytes) (log : List Commit) (probe : List GetResult) : List Item :=
  l.directCaches (marshalled ++ [0]) log ++
    match log with
    | c :: _ => pointerCaches c.id 0 (probed (l.ancestorCaches log) probe)
    | [] => []

/-- `writeCache` run alone: the probe reads the store and the batched `Set` succeeds. -/
def writeCache (codec : Codec) (res : LogResponse) (m : Store) : Store :=
  match codec.marshal res with
  | none => m
  | some marshalled =>
    m.set (l.writeBatch marshalled res.log ((l.ancestorCaches res.log).map fun e => m.get e.key))

/-- The request `call` sends to Gitiles. -/
def logRequest : LogRequest := ⟨l.project, l.commitish, 100⟩

/-- `call` run alone. `client host` is `Client(c, host)`: an error when no factory is installed,
and otherwise the client's `Log` method. -/
def call (codec : Codec) (client : String → Except String (LogRequest → Except String LogResponse))
    (m : Store) : Outcome (List Commit) × Store :=
  match l.readCache codec m.get with
  | .done ⟨_, commits, true⟩ => (.ok commits, m)
  | .panic msg => (.panic msg, m)
  | _ =>
    match client l.host with
    | .error err => (.error err, m)
    | .ok g =>
      match g l.logRequest with
      | .error err => (.error ("gitiles.Log: " ++ err), m)
      | .ok res => (.ok res.log, l.writeCache codec res m)

end LogReq

/-- `Log`: a `min` of at most 0 means 50, and a `min` above 100 panics. -/
def log (codec : Codec) (client : String → Except String (LogRequest → Except String LogResponse))
    (host project commitish : String) (min : Int) (m : Store) : Outcome (List Commit) × Store :=
  if h : min ≤ 0 then
    (LogReq.mk host project commitish 50 (by omega) (by omega)).call codec client m
  else if h' : 100 < min then (.panic "min cannot be > 100", m)
  else (LogReq.mk host project commitish min.toNat (by omega) (by omega)).call codec client m

end Luci.Milo.Git
