import Luci.Milo.Encoding

/-!
# The memcache namespace of `git.Log`

The store is a map from keys to byte values. Every operation `log.go` issues is one of these: a
`Get` of one item, a batched `Get`, and a batched `Set` that writes its items in order. Expiration
and eviction are not driven by a clock here: an entry may disappear at any point, which the
concurrent model lets happen between any two steps.
-/

namespace Luci.Memcache

/-- `memcache.Item`: key, value and expiration (seconds). -/
structure Item where
  key : String
  value : Bytes
  expiration : Nat
  deriving DecidableEq, Repr

/-- `Item.SetValue`. -/
def Item.setValue (e : Item) (v : Bytes) : Item := { e with value := v }

@[simp] theorem Item.setValue_key (e : Item) (v : Bytes) : (e.setValue v).key = e.key := rfl

@[simp] theorem Item.setValue_value (e : Item) (v : Bytes) : (e.setValue v).value = v := rfl

end Luci.Memcache

namespace Luci

open Memcache

/-- The values the memcache namespace holds. -/
def Store := String → Option Bytes

/-- What `memcache.Get` reports for one item. -/
inductive GetResult
  | found (value : Bytes)
  | cacheMiss
  | failure
  deriving DecidableEq, Repr

namespace Store

def empty : Store := fun _ => none

/-- `memcache.Get` against the store, with no transport error. -/
def get (m : Store) (key : String) : GetResult :=
  match m key with
  | some v => .found v
  | none => .cacheMiss

theorem get_eq_found {m : Store} {key : String} {v : Bytes} :
    m.get key = .found v ↔ m key = some v := by
  unfold get; split <;> simp_all

theorem get_of_some {m : Store} {key : String} {v : Bytes} (h : m key = some v) :
    m.get key = .found v :=
  get_eq_found.mpr h

def store (m : Store) (e : Item) : Store := fun k => if k = e.key then some e.value else m k

/-- `memcache.Set` of a batch: the items are written in order, so the last one for a key wins. -/
def set (m : Store) : List Item → Store
  | [] => m
  | e :: es => (m.store e).set es

/-- An entry expires or is evicted. -/
def evict (m : Store) (key : String) : Store := fun k => if k = key then none else m k

@[simp] theorem store_self (m : Store) (e : Item) : m.store e e.key = some e.value := if_pos rfl

theorem store_other (m : Store) (e : Item) {k : String} (h : k ≠ e.key) : m.store e k = m k :=
  if_neg h

@[simp] theorem set_nil (m : Store) : m.set [] = m := rfl

@[simp] theorem set_cons (m : Store) (e : Item) (es : List Item) :
    m.set (e :: es) = (m.store e).set es := rfl

theorem set_append (m : Store) (es fs : List Item) : m.set (es ++ fs) = (m.set es).set fs := by
  induction es generalizing m with
  | nil => rfl
  | cons e es ih => exact ih _

theorem set_other (m : Store) {es : List Item} {k : String} (h : ∀ e ∈ es, e.key ≠ k) :
    m.set es k = m k := by
  induction es generalizing m with
  | nil => rfl
  | cons e es ih =>
    rw [set_cons, ih _ fun f hf => h f (List.mem_cons_of_mem e hf),
      store_other _ _ (h e (List.mem_cons_self e es)).symm]

theorem set_cases (m : Store) (es : List Item) (k : String) :
    (∃ e ∈ es, e.key = k ∧ m.set es k = some e.value) ∨
      ((∀ e ∈ es, e.key ≠ k) ∧ m.set es k = m k) := by
  induction es generalizing m with
  | nil => exact .inr ⟨by simp, rfl⟩
  | cons e es ih =>
    rcases ih (m.store e) with ⟨f, hf, hk, hv⟩ | ⟨hn, hv⟩
    · exact .inl ⟨f, List.mem_cons_of_mem e hf, hk, hv⟩
    · by_cases he : e.key = k
      · exact .inl ⟨e, List.mem_cons_self e es, he, by rw [set_cons, hv, ← he, store_self]⟩
      · refine .inr ⟨?_, by rw [set_cons, hv, store_other _ _ (Ne.symm he)]⟩
        simpa [he] using hn

theorem set_of_agree (m : Store) {es : List Item} {e : Item} (he : e ∈ es)
    (hagree : ∀ f ∈ es, f.key = e.key → f.value = e.value) : m.set es e.key = some e.value := by
  rcases set_cases m es e.key with ⟨f, hf, hk, hv⟩ | ⟨hn, -⟩
  · rw [hv, hagree f hf hk]
  · exact absurd rfl (hn e he)

theorem evict_self (m : Store) (k : String) : m.evict k k = none := if_pos rfl

theorem evict_other (m : Store) {k k' : String} (h : k' ≠ k) : m.evict k k' = m k' := if_neg h

end Store

end Luci
