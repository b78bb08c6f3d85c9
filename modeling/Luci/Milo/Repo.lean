import Luci.Milo.ReadCacheBounds

/-!
# The repository behind Gitiles, and what a valid cache holds

The commit graph is immutable. Gitiles answers a log request for commit `c` with the first 100
commits of `walk c`, the newest-first history from `c`, which goes on from a commit with exactly
one parent to that parent. Commit ids are SHA-1 digests: the lowercase hex of an id is a commit
hash naming that commit, and so may be an upper-case spelling or the hash of an annotated tag.

A cache is valid for the repository when, under every key `host|project|s` with `s` a commit hash
naming commit `x`, a direct entry decodes to exactly Gitiles' answer for `x`, and a pointer of
distance `d` names a commit from which `x` is `d` single-parent links down.
-/

namespace Luci.Milo.Git

open Memcache

structure Repo where
  commit : Bytes → Option Commit
  denote : String → Option Commit
  walk : Commit → List Commit
  commit_id : ∀ {i c}, commit i = some c → c.id = i
  commit_hex : ∀ {i c}, commit i = some c → i.length = 20 ∧ denote (hexEncode i) = some c
  denote_commit : ∀ {s c}, denote s = some c → commit c.id = some c
  walk_head : ∀ c, ∃ t, walk c = c :: t
  walk_parent : ∀ {c p}, commit c.id = some c → c.parents = [p] →
    ∃ pc, commit p = some pc ∧ walk c = c :: walk pc

namespace Repo

variable (R : Repo)

/-- Gitiles' answer to `Log(c)` with `PageSize: 100`. -/
def remoteLog (c : Commit) : List Commit := (R.walk c).take 100

inductive Reach : Commit → Nat → Commit → Prop
  | refl (c : Commit) : Reach c 0 c
  | parent {c : Commit} {p : Bytes} {pc x : Commit} {d : Nat} :
      c.parents = [p] → R.commit p = some pc → Reach pc d x → Reach c (d + 1) x

variable {R}

theorem Reach.trans {z y x : Commit} {a b : Nat} (h₁ : R.Reach z a y) (h₂ : R.Reach y b x) :
    R.Reach z (b + a) x := by
  induction h₁ with
  | refl => exact h₂
  | parent hp hc _ ih => exact .parent hp hc (ih h₂)

theorem Reach.walk_drop {z x : Commit} {d : Nat} (h : R.Reach z d x) (hz : R.commit z.id = some z) :
    (R.walk z).drop d = R.walk x := by
  induction h with
  | refl => rfl
  | @parent c p pc x d hp hc _ ih =>
    obtain ⟨pc', hc', hw⟩ := R.walk_parent hz hp
    obtain rfl : pc' = pc := Option.some.inj (hc'.symm.trans hc)
    rw [hw, List.drop_succ_cons, ih (by rw [R.commit_id hc]; exact hc)]

theorem Reach.remoteLog_drop {z x : Commit} {d : Nat} (h : R.Reach z d x)
    (hz : R.commit z.id = some z) : (R.remoteLog z).drop d = (R.remoteLog x).take (100 - d) := by
  rw [remoteLog, remoteLog, List.drop_take, h.walk_drop hz, List.take_take,
    Nat.min_eq_left (Nat.sub_le 100 d)]

theorem remoteLog_head (c : Commit) : (R.remoteLog c).head? = some c := by
  obtain ⟨t, ht⟩ := R.walk_head c
  simp [remoteLog, ht]

end Repo

variable (R : Repo) (codec : Codec)

def ValidValue (x : Commit) (v : Bytes) : Prop :=
  ∀ data meta, v = data ++ [meta] →
    (meta = 0 → codec.unmarshal data = some ⟨R.remoteLog x⟩) ∧
    (1 ≤ meta.toNat → meta.toNat ≤ 99 → ∃ z, R.commit data = some z ∧ R.Reach z meta.toNat x)

def Valid (host project : String) (m : Store) : Prop :=
  ∀ s x v, gitHash s = true → R.denote s = some x → m (cacheKey host project s) = some v →
    ValidValue R codec x v

theorem valid_empty (host project : String) : Valid R codec host project Store.empty :=
  fun _ _ _ _ _ h => Option.noConfusion h

def Codec.single (r : LogResponse) (b : Bytes) (hb : b ≠ []) : Codec where
  marshal r' := if r' = ⟨[]⟩ then some [] else if r' = r then some b else none
  unmarshal b' := if b' = [] then some ⟨[]⟩ else if b' = b then some r else none
  unmarshal_marshal := by
    intro r' b' h
    dsimp only at h ⊢
    split_ifs at h with h1 h2 <;> cases h
    · simp [h1]
    · simp [hb, h2]
  unmarshal_nil := rfl

def tipCommit : Commit := ⟨List.replicate 20 0xab, [List.replicate 20 0xcd]⟩

def parentCommit : Commit := ⟨List.replicate 20 0xcd, []⟩

def tipCodec : Codec := Codec.single ⟨[tipCommit, parentCommit]⟩ [7] (List.cons_ne_nil 7 [])

def refReq : LogReq := ⟨"host", "proj", "refs/heads/main", 1, le_refl 1, by decide⟩

def tipLog : LogResponse := ⟨[tipCommit, parentCommit]⟩

def tipRepo : Repo where
  commit i := if i = tipCommit.id then some tipCommit
    else if i = parentCommit.id then some parentCommit else none
  denote s := if s = hexEncode tipCommit.id then some tipCommit
    else if s = hexEncode parentCommit.id then some parentCommit else none
  walk c := if c = tipCommit then [tipCommit, parentCommit] else [c]
  commit_id := by
    intro i c h
    dsimp only at h
    split_ifs at h with h1 h2 <;> cases h
    · exact h1.symm
    · exact h2.symm
  commit_hex := by
    intro i c h
    dsimp only at h ⊢
    split_ifs at h with h1 h2 <;> cases h <;> subst_vars
    · exact ⟨rfl, if_pos rfl⟩
    · exact ⟨rfl, by decide⟩
  denote_commit := by
    intro s c h
    dsimp only at h ⊢
    split_ifs at h <;> cases h
    · exact if_pos rfl
    · decide
  walk_head c := by
    dsimp only
    split_ifs with h
    · exact ⟨[parentCommit], by rw [h]⟩
    · exact ⟨[], rfl⟩
  walk_parent := by
    intro c p hc hp
    dsimp only at hc ⊢
    split_ifs at hc <;> cases hc
    · obtain rfl : p = parentCommit.id := (List.singleton_inj.mp hp).symm
      exact ⟨parentCommit, by decide, by decide⟩
    · cases hp

end Luci.Milo.Git
