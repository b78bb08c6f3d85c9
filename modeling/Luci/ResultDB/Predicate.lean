import Luci.ResultDB.CreateInvocation

/-!
# Predicates of ResultDB queries

`ValidateTestResultPredicate` and `ValidateTestExonerationPredicate` check a predicate field by
field and annotate the error of the first field that fails with the field's path. A variant
predicate must say whether it matches the variant exactly or by containment.

A predicate passes exactly when it is valid: each field passes its own validator, and a variant
predicate, when there is one, has its case set. Every error starts with the path of the field it
rejects.
-/

namespace Luci.ResultDB

/-- The validators `predicate.go` calls outside the file: `syntax.Parse(re, syntax.Perl)`,
`ValidateVariant`, `ValidateEnum` over `TestResultPredicate_Expectancy_name`, and the text of
`unspecified()`. -/
structure PredicateDeps (V : Type) where
  parseRegexp : String → Option String
  validateVariant : V → Option String
  validateExpectancy : Int → Option String
  unspecified : String

/-- `pb.VariantPredicate`, by the case of its `Predicate` oneof. -/
inductive VariantPredicate (V : Type)
  | exact (v : V)
  | contains (v : V)
  | unset

/-- `testObjectPredicate`: the fields `pb.TestResultPredicate` and `pb.TestExonerationPredicate`
share. A `pb.TestExonerationPredicate` has these fields only. -/
structure TestObjectPredicate (V : Type) where
  testPathRegexp : String
  variant : Option (VariantPredicate V)

/-- `pb.TestResultPredicate`. -/
structure TestResultPredicate (V : Type) extends TestObjectPredicate V where
  expectancy : Int

/-- `errors.Annotate(err, reason).Err()`, which leaves nil as it is. -/
def annotate (reason : String) (err : Option String) : Option String :=
  err.map (reason ++ ": " ++ ·)

section Validate

variable {V : Type} (D : PredicateDeps V)

/-- `validateRegexp`. -/
def validateRegexp (re : String) : Option String := D.parseRegexp re

/-- `ValidateVariantPredicate`. -/
def validateVariantPredicate : VariantPredicate V → Option String
  | .exact v => annotate "exact" (D.validateVariant v)
  | .contains v => annotate "contains" (D.validateVariant v)
  | .unset => some D.unspecified

/-- `validateTestObjectPredicate`. -/
def validateTestObjectPredicate (p : TestObjectPredicate V) : Option String :=
  match validateRegexp D p.testPathRegexp with
  | some err => annotate "test_path_regexp" (some err)
  | none =>
    match p.variant with
    | some v => annotate "variant" (validateVariantPredicate D v)
    | none => none

/-- `ValidateTestResultPredicate`. -/
def validateTestResultPredicate (p : TestResultPredicate V) : Option String :=
  match D.validateExpectancy p.expectancy with
  | some err => annotate "expectancy" (some err)
  | none => validateTestObjectPredicate D p.toTestObjectPredicate

/-- `ValidateTestExonerationPredicate`. -/
def validateTestExonerationPredicate (p : TestObjectPredicate V) : Option String :=
  validateTestObjectPredicate D p

def VariantPredicate.Valid : VariantPredicate V → Prop
  | .exact v => D.validateVariant v = none
  | .contains v => D.validateVariant v = none
  | .unset => False

def TestObjectPredicate.Valid (p : TestObjectPredicate V) : Prop :=
  D.parseRegexp p.testPathRegexp = none ∧ ∀ v ∈ p.variant, v.Valid D

def TestResultPredicate.Valid (p : TestResultPredicate V) : Prop :=
  D.validateExpectancy p.expectancy = none ∧ p.toTestObjectPredicate.Valid D

variable {D}

@[simp] theorem annotate_eq_none {reason : String} {err : Option String} :
    annotate reason err = none ↔ err = none :=
  Option.map_eq_none'

theorem validateVariantPredicate_eq_none {v : VariantPredicate V} :
    validateVariantPredicate D v = none ↔ v.Valid D := by
  cases v <;> simp [validateVariantPredicate, VariantPredicate.Valid]

theorem validateTestObjectPredicate_eq_none {p : TestObjectPredicate V} :
    validateTestObjectPredicate D p = none ↔ p.Valid D := by
  unfold validateTestObjectPredicate TestObjectPredicate.Valid validateRegexp
  rcases p with ⟨re, _ | v⟩ <;> cases D.parseRegexp re <;>
    simp [validateVariantPredicate_eq_none]

theorem validateTestResultPredicate_eq_none {p : TestResultPredicate V} :
    validateTestResultPredicate D p = none ↔ p.Valid D := by
  unfold validateTestResultPredicate TestResultPredicate.Valid
  cases D.validateExpectancy p.expectancy <;> simp [validateTestObjectPredicate_eq_none]

def predicateFields : List String :=
  ["expectancy: ", "test_path_regexp: ", "variant: exact: ", "variant: contains: ",
    "variant: "]

theorem validateTestResultPredicate_names_field {p : TestResultPredicate V} {err : String}
    (h : validateTestResultPredicate D p = some err) :
    ∃ field ∈ predicateFields, hasPrefix err field = true := by
  have named : ∀ field ∈ predicateFields, ∀ s, field ++ s = err →
      ∃ field ∈ predicateFields, hasPrefix err field = true :=
    fun field hf s hs => ⟨field, hf, hs ▸ hasPrefix_append field s⟩
  unfold validateTestResultPredicate validateTestObjectPredicate at h
  split at h
  · exact named "expectancy: " (by decide) _ (by simpa [annotate] using h)
  split at h
  · exact named "test_path_regexp: " (by decide) _ (by simpa [annotate] using h)
  split at h
  · rename_i v _
    cases v <;> simp only [validateVariantPredicate, annotate, Option.map_map, Option.map_some',
      Option.map_eq_some', Function.comp_def, Option.some.injEq] at h
    · obtain ⟨e, -, rfl⟩ := h
      exact named "variant: exact: " (by decide) e (by rw [← String.append_assoc]; rfl)
    · obtain ⟨e, -, rfl⟩ := h
      exact named "variant: contains: " (by decide) e (by rw [← String.append_assoc]; rfl)
    · exact named "variant: " (by decide) _ h
  · cases h

end Validate

end Luci.ResultDB
