import Mathlib.Data.List.Basic

/-!
# Bytes, hex digests and commit hashes

A Go `[]byte` is a list of `UInt8` and a Go `byte` is a `UInt8`, so `dist + meta` in `readCache`
wraps modulo 256 exactly as it does in Go. `hexEncode` is `hex.EncodeToString`, `gitHash` the
regular expression `^[0-9a-fA-F]{40}$` of `milo/git/log.go`, and `sliceFrom` Go's `s[i:]`, which
panics when `i` is past the end of `s`.
-/

namespace Luci

abbrev Bytes := List UInt8

theorem byte_le_iff {a b : UInt8} : a ≤ b ↔ a.toNat ≤ b.toNat := Iff.rfl

theorem byte_lt_iff {a b : UInt8} : a < b ↔ a.toNat < b.toNat := Iff.rfl

theorem byte_eq_iff {a b : UInt8} : a = b ↔ a.toNat = b.toNat :=
  ⟨fun h => h ▸ rfl, UInt8.toNat.inj⟩

theorem byte_add_toNat {a b : UInt8} (h : a.toNat + b.toNat < 256) :
    (a + b).toNat = a.toNat + b.toNat :=
  Nat.mod_eq_of_lt h

theorem byte_toNat_lt (v : UInt8) : v.toNat < 256 := v.toNat_lt_size

@[simp] theorem byte_zero_add (v : UInt8) : 0 + v = v :=
  byte_eq_iff.mpr ((byte_add_toNat (by simpa using byte_toNat_lt v)).trans (by simp))

theorem byte_ofNat_toNat (n : Nat) : (UInt8.ofNat n).toNat = n % 256 := by
  simp [UInt8.ofNat, UInt8.toNat, Fin.ofNat]

/-- `hextable` of `encoding/hex`. -/
def hextable : List Char := "0123456789abcdef".toList

def hexByte (v : UInt8) : List Char :=
  [hextable.getD (v.toNat / 16) '0', hextable.getD (v.toNat % 16) '0']

/-- `hex.EncodeToString`: two lowercase digits per byte, high nibble first. -/
def hexEncode (src : Bytes) : String := ⟨src.flatMap hexByte⟩

def isHexDigit (c : Char) : Bool :=
  ('0' ≤ c && c ≤ '9') || ('a' ≤ c && c ≤ 'f') || ('A' ≤ c && c ≤ 'F')

/-- `gitHash.MatchString`: exactly forty hex digits, of either case. -/
def gitHash (s : String) : Bool := s.length == 40 && s.toList.all isHexDigit

/-- Go's `s[i:]`; `none` is the runtime panic "slice bounds out of range". -/
def sliceFrom {α : Type} (s : List α) (i : Nat) : Option (List α) :=
  if i ≤ s.length then some (s.drop i) else none

theorem sliceFrom_of_le {α : Type} {s : List α} {i : Nat} (h : i ≤ s.length) :
    sliceFrom s i = some (s.drop i) := if_pos h

theorem sliceFrom_eq_none {α : Type} {s : List α} {i : Nat} :
    sliceFrom s i = none ↔ s.length < i := by
  unfold sliceFrom
  split <;> simp only [reduceCtorEq, true_iff, false_iff] <;> omega

theorem hextable_digit : ∀ n : Fin 16, isHexDigit (hextable.getD n '0') = true := by decide

theorem hextable_injective :
    ∀ n m : Fin 16, hextable.getD n '0' = hextable.getD m '0' → n = m := by decide

theorem length_hexByte (v : UInt8) : (hexByte v).length = 2 := rfl

theorem hexByte_injective {v w : UInt8} (h : hexByte v = hexByte w) : v = w := by
  have hv := byte_toNat_lt v
  have hw := byte_toNat_lt w
  simp only [hexByte, List.cons.injEq, and_true] at h
  have hi := hextable_injective ⟨v.toNat / 16, by omega⟩ ⟨w.toNat / 16, by omega⟩ h.1
  have hj := hextable_injective ⟨v.toNat % 16, by omega⟩ ⟨w.toNat % 16, by omega⟩ h.2
  simp only [Fin.mk.injEq] at hi hj
  exact byte_eq_iff.mpr (by omega)

@[simp] theorem length_hexEncode (src : Bytes) : (hexEncode src).length = 2 * src.length := by
  induction src with
  | nil => rfl
  | cons v src ih =>
    change (hexByte v ++ (hexEncode src).toList).length = _
    simp only [List.length_append, length_hexByte, List.length_cons]
    change 2 + (hexEncode src).length = _
    omega

theorem hexEncode_digits (src : Bytes) : ∀ c ∈ (hexEncode src).toList, isHexDigit c = true := by
  intro c hc
  obtain ⟨v, -, hv⟩ := List.mem_flatMap.mp hc
  have hs := byte_toNat_lt v
  simp only [hexByte, List.mem_cons, List.not_mem_nil, or_false] at hv
  rcases hv with rfl | rfl
  · exact hextable_digit ⟨v.toNat / 16, by omega⟩
  · exact hextable_digit ⟨v.toNat % 16, by omega⟩

theorem gitHash_hexEncode (src : Bytes) : gitHash (hexEncode src) = true ↔ src.length = 20 := by
  simp only [gitHash, length_hexEncode, Bool.and_eq_true, beq_iff_eq,
    List.all_eq_true.mpr (hexEncode_digits src), and_true]
  omega

theorem hexEncode_injective {a b : Bytes} (h : hexEncode a = hexEncode b) : a = b := by
  induction a generalizing b with
  | nil =>
    have := congrArg String.length h
    simp only [length_hexEncode, List.length_nil] at this
    exact (List.length_eq_zero.mp (by omega)).symm
  | cons v a ih =>
    cases b with
    | nil =>
      exact absurd (congrArg String.length h)
        (by simp only [length_hexEncode, List.length_cons, List.length_nil]; omega)
    | cons w b =>
      have hl : hexByte v ++ (hexEncode a).toList = hexByte w ++ (hexEncode b).toList :=
        congrArg String.toList h
      obtain ⟨hvw, hab⟩ := List.append_inj hl rfl
      rw [hexByte_injective hvw, ih (String.ext hab)]

end Luci
