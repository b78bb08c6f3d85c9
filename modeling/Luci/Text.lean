import Mathlib.Data.List.Basic

/-!
# Numbers and fields in text

`strconv.FormatInt(x, 10)` and the verb `%d` write a number in decimal, most significant digit
first, with a minus sign before a negative one, as `toString` does on `Nat` and `Int`. Reading the
digits back gives the number, so the writing is injective: names and keys that end in a number
are distinct for distinct numbers. Keys joined with a separator that their fields do not hold are
cut back into the same fields.
-/

namespace Luci

def readDigits (acc : Nat) (cs : List Char) : Nat :=
  cs.foldl (fun acc c => 10 * acc + (c.toNat - 48)) acc

theorem digitChar_toNat :
    ∀ k < 10, (Nat.digitChar k).toNat - 48 = k ∧ 48 ≤ (Nat.digitChar k).toNat := by
  decide

theorem readDigits_toDigitsCore (fuel : Nat) : ∀ n ds, n < fuel →
    readDigits 0 (Nat.toDigitsCore 10 fuel n ds) = readDigits n ds ∧
      ∀ c ∈ Nat.toDigitsCore 10 fuel n ds, c ∈ ds ∨ 48 ≤ c.toNat := by
  induction fuel with
  | zero => intro n ds h; omega
  | succ fuel ih =>
    intro n ds hn
    have hd := digitChar_toNat (n % 10) (Nat.mod_lt _ (by decide))
    dsimp only [Nat.toDigitsCore]
    split_ifs with h0
    · refine ⟨?_, fun c hc => ?_⟩
      · simp only [readDigits, List.foldl_cons, hd.1, Nat.mul_zero, Nat.zero_add]
        rw [Nat.mod_eq_of_lt (by omega)]
      · rcases List.mem_cons.mp hc with rfl | hc
        · exact .inr hd.2
        · exact .inl hc
    · obtain ⟨hread, hmem⟩ := ih (n / 10) _ (by omega)
      refine ⟨?_, fun c hc => ?_⟩
      · rw [hread]
        simp only [readDigits, List.foldl_cons, hd.1]
        rw [Nat.div_add_mod]
      · rcases hmem c hc with hc | hc
        · rcases List.mem_cons.mp hc with rfl | hc
          · exact .inr hd.2
          · exact .inl hc
        · exact .inr hc

theorem readDigits_repr (n : Nat) :
    readDigits 0 (Nat.repr n).data = n ∧ ∀ c ∈ (Nat.repr n).data, 48 ≤ c.toNat := by
  obtain ⟨hread, hmem⟩ := readDigits_toDigitsCore (n + 1) n [] (Nat.lt_succ_self n)
  exact ⟨hread, fun c hc => (hmem c hc).resolve_left (List.not_mem_nil c)⟩

theorem repr_injective : Function.Injective Nat.repr := fun m k h => by
  have := congrArg (fun s : String => readDigits 0 s.data) h
  simpa only [(readDigits_repr _).1] using this

theorem toString_int_ofNat (m : Nat) : (toString (Int.ofNat m)).data = (Nat.repr m).data := rfl

theorem toString_int_negSucc (m : Nat) :
    (toString (Int.negSucc m)).data = '-' :: (Nat.repr (m + 1)).data := rfl

theorem toString_int_injective : Function.Injective (toString : Int → String) := by
  have minus : ∀ n rest, (Nat.repr n).data ≠ '-' :: rest := fun n rest h =>
    absurd ((readDigits_repr n).2 '-' (h ▸ List.mem_cons_self _ _)) (by decide)
  intro x y h
  replace h := congrArg String.data h
  cases x with
  | ofNat m =>
    cases y with
    | ofNat k =>
      rw [toString_int_ofNat, toString_int_ofNat] at h
      exact congrArg _ (repr_injective (String.ext h))
    | negSucc k => exact absurd (h.trans (toString_int_negSucc k)) (minus m _)
  | negSucc m =>
    cases y with
    | ofNat k => exact absurd (h.symm.trans (toString_int_negSucc m)) (minus k _)
    | negSucc k =>
      rw [toString_int_negSucc, toString_int_negSucc] at h
      rw [Nat.succ.inj (repr_injective (String.ext (List.cons.inj h).2))]

theorem eq_of_append_cons_eq {α : Type} {c : α} {x₁ x₂ z₁ z₂ : List α} (h₁ : c ∉ x₁)
    (h₂ : c ∉ x₂) (h : x₁ ++ c :: z₁ = x₂ ++ c :: z₂) : x₁ = x₂ ∧ z₁ = z₂ := by
  induction x₁ generalizing x₂ with
  | nil =>
    cases x₂ with
    | nil => exact ⟨rfl, (List.cons.inj h).2⟩
    | cons a x₂ => exact absurd ((List.cons.inj h).1 ▸ List.mem_cons_self _ _) h₂
  | cons a x₁ ih =>
    cases x₂ with
    | nil => exact absurd ((List.cons.inj h).1 ▸ List.mem_cons_self _ _) h₁
    | cons b x₂ =>
      obtain ⟨rfl, h'⟩ := List.cons.inj h
      obtain ⟨rfl, rfl⟩ := ih (fun hc => h₁ (List.mem_cons_of_mem _ hc))
        (fun hc => h₂ (List.mem_cons_of_mem _ hc)) h'
      exact ⟨rfl, rfl⟩

end Luci
