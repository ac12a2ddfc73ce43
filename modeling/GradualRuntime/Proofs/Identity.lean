import GradualRuntime.Proofs.Binary64
import GradualRuntime.Value

/-!
# Identity and its keys

Values that are identical have one key, and values with one key are identical; only numbers that are
none stand apart, since they are identical to nothing and are filed under their words
(`Value.identityKey_eq_iff`). The two sides are defined apart: identity compares two doubles as
numbers and converts a double before it compares it with an integer, while a key converts every
double that denotes an integer and keeps the word of any other.

`Value.identityByKey` collects what follows: which doubles share the key of an integer, and that
identity is symmetric and transitive, and reflexive but for numbers that are none.
-/

set_option autoImplicit false

namespace GradualRuntime

namespace Value

/-- Whether a value is a double that is not a number. -/
def isNaN : Value → Bool
  | float number => number.isNaN
  | _ => false

section Doubles

variable {left right number : Binary64}

theorem identityKey_float_of_some {exact : Int64} (h : number.exactInteger? = some exact) :
    (float number).identityKey = .integer exact := by
  simp [identityKey, h]

theorem identityKey_float_of_none (h : number.exactInteger? = none) :
    (float number).identityKey = .float number := by
  simp [identityKey, h]

theorem identityKey_float_of_isNaN (h : number.isNaN = true) :
    (float number).identityKey = .float number :=
  identityKey_float_of_none (Binary64.exactInteger?_of_isNaN h)

theorem identityKey_float_eq_integer_iff_some (number : Binary64) (integer : Int64) :
    (float number).identityKey = .integer integer ↔ number.exactInteger? = some integer := by
  cases h : number.exactInteger? with
  | none => simp [identityKey_float_of_none h]
  | some exact => simp [identityKey_float_of_some h]

/-- The doubles with the key of an integer are those that denote it. -/
theorem identityKey_float_eq_integer_iff (number : Binary64) (integer : Int64) :
    (float number).identityKey = .integer integer ↔
      number.isFinite = true ∧ number.value = (integer.toInt : ℚ) :=
  (identityKey_float_eq_integer_iff_some number integer).trans
    (number.exactInteger?_eq_some_iff integer)

/-- A double that denotes an integer has the key of one exactly when 64 bits reach that integer. -/
theorem exists_identityKey_float_eq_integer_iff {denoted : Int} (hfinite : number.isFinite = true)
    (hvalue : number.value = denoted) :
    (∃ integer, (float number).identityKey = .integer integer) ↔
      -(2 ^ 63) ≤ denoted ∧ denoted < 2 ^ 63 := by
  simp only [identityKey_float_eq_integer_iff_some,
    Binary64.exactInteger?_of_value_eq hfinite hvalue, ← fitsInt64_iff]
  split
  · simp_all
  · simp_all

/-- Doubles that are numbers are compared alike by their keys and as numbers. -/
theorem identityKey_float_eq_iff (hleft : left.isNaN = false) (hright : right.isNaN = false) :
    (float left).identityKey = (float right).identityKey ↔
      left.numericallyEqual right = true := by
  rw [Binary64.numericallyEqual_iff]
  simp only [hleft, hright, true_and]
  constructor
  · intro h
    cases hexact : left.exactInteger? with
    | some exact =>
      -- both denote the integer of the key
      rw [identityKey_float_of_some hexact] at h
      obtain ⟨hfiniteLeft, hvalueLeft⟩ := (left.exactInteger?_eq_some_iff exact).1 hexact
      obtain ⟨hfiniteRight, hvalueRight⟩ := (identityKey_float_eq_integer_iff right exact).1 h.symm
      exact .inr ⟨hfiniteLeft, hfiniteRight, hvalueLeft.trans hvalueRight.symm⟩
    | none =>
      rw [identityKey_float_of_none hexact] at h
      cases hother : right.exactInteger? with
      | some exact => simp [identityKey_float_of_some hother] at h
      | none =>
        rw [identityKey_float_of_none hother] at h
        exact .inl (IdentityKey.float.inj h)
  · rintro (rfl | ⟨hfiniteLeft, hfiniteRight, hvalue⟩)
    · rfl
    · have hsame := Binary64.exactInteger?_congr hfiniteLeft hfiniteRight hvalue
      cases hexact : left.exactInteger? with
      | some exact =>
        rw [identityKey_float_of_some hexact, identityKey_float_of_some (hsame ▸ hexact)]
      | none =>
        -- a zero would have an exact integer, so one number is one word here
        rcases (Binary64.signedUnits_eq_iff left right).1
          ((Binary64.value_eq_value_iff left right).1 hvalue) with rfl | ⟨hzero, -⟩
        · rfl
        · simp [Binary64.exactInteger?_of_isZero hzero] at hexact

/-- The key of a double that is not a number is the key of no other value. -/
theorem eq_of_identityKey_float_eq (h : left.isNaN = true)
    (hkey : (float left).identityKey = (float right).identityKey) : left = right := by
  rw [identityKey_float_of_isNaN h] at hkey
  cases hexact : right.exactInteger? with
  | some exact => simp [identityKey_float_of_some hexact] at hkey
  | none =>
    rw [identityKey_float_of_none hexact] at hkey
    exact IdentityKey.float.inj hkey

theorem identical_float_of_isNaN (h : left.isNaN = true) (other : Value) :
    (float left).identical other = false := by
  cases other with
  | float number => simp [identical, Binary64.numericallyEqual, h]
  | integer number => simp [identical, Binary64.exactInteger?_of_isNaN h]
  | _ => rfl

/-- The key of a double is the key of an integer or of a double. -/
theorem identityKey_float_cases (number : Binary64) :
    (∃ exact, (float number).identityKey = .integer exact) ∨
      (float number).identityKey = .float number := by
  cases h : number.exactInteger? with
  | some exact => exact .inl ⟨exact, identityKey_float_of_some h⟩
  | none => exact .inr (identityKey_float_of_none h)

end Doubles

/-- Identity does not depend on the order of the values. -/
theorem identical_comm (left right : Value) : left.identical right = right.identical left := by
  cases left <;> cases right <;> simp only [identical, Bool.beq_comm]
  case float.float left right =>
    rw [Bool.eq_iff_iff, Binary64.numericallyEqual_iff, Binary64.numericallyEqual_iff]
    constructor
    · rintro ⟨hleft, hright, h⟩
      refine ⟨hright, hleft, h.imp Eq.symm ?_⟩
      exact fun ⟨hfinite, hother, hvalue⟩ ↦ ⟨hother, hfinite, hvalue.symm⟩
    · rintro ⟨hright, hleft, h⟩
      refine ⟨hleft, hright, h.imp Eq.symm ?_⟩
      exact fun ⟨hfinite, hother, hvalue⟩ ↦ ⟨hother, hfinite, hvalue.symm⟩

/-- A double and another value have one key exactly when they are identical. -/
theorem identityKey_float_eq_iff_identical {number : Binary64} {other : Value}
    (h : ¬(number.isNaN = true ∧ other.isNaN = true)) :
    (float number).identityKey = other.identityKey ↔ (float number).identical other = true := by
  cases other with
  | float right =>
    by_cases hleft : number.isNaN = true
    · simp only [identical_float_of_isNaN hleft, Bool.false_eq_true, iff_false]
      intro hkey
      obtain rfl := eq_of_identityKey_float_eq hleft hkey
      exact h ⟨hleft, hleft⟩
    · by_cases hright : right.isNaN = true
      · rw [identical_comm, identical_float_of_isNaN hright]
        simp only [Bool.false_eq_true, iff_false]
        intro hkey
        obtain rfl := eq_of_identityKey_float_eq hright hkey.symm
        exact hleft hright
      · exact identityKey_float_eq_iff (by simpa using hleft) (by simpa using hright)
  | integer right =>
    refine (identityKey_float_eq_integer_iff_some number right).trans ?_
    simp [identical]
  | _ =>
    rcases identityKey_float_cases number with ⟨exact, hkey⟩ | hkey <;> rw [hkey] <;>
      simp [identityKey, identical]

/-- Values have one key exactly when they are identical, as long as not both are doubles that are
not numbers. -/
theorem identityKey_eq_iff {left right : Value} (h : ¬(left.isNaN = true ∧ right.isNaN = true)) :
    left.identityKey = right.identityKey ↔ left.identical right = true := by
  cases left with
  | float number => exact identityKey_float_eq_iff_identical h
  | _ =>
    cases right with
    | float number =>
      rw [eq_comm, identical_comm]
      exact identityKey_float_eq_iff_identical fun ⟨hright, hleft⟩ ↦ h ⟨hleft, hright⟩
    | _ => simp [identityKey, identical]

/-- Only doubles that are not numbers are not identical to themselves. -/
theorem identical_self_iff (value : Value) :
    value.identical value = true ↔ value.isNaN = false := by
  cases value with
  | float number => simp [identical, isNaN, Binary64.numericallyEqual]
  | _ => simp [identical, isNaN]

/-- What is identical to something is a number if it is a double. -/
theorem isNaN_of_identical {left right : Value} (h : left.identical right = true) :
    left.isNaN = false := by
  cases left with
  | float number =>
    by_contra hnumber
    simp [identical_float_of_isNaN (by simpa [isNaN] using hnumber)] at h
  | _ => rfl

theorem identical_trans {first second third : Value} (h : first.identical second = true)
    (hnext : second.identical third = true) : first.identical third = true := by
  have hfirst : ∀ other : Value, ¬(first.isNaN = true ∧ other.isNaN = true) := fun other ↦ by
    simp [isNaN_of_identical h]
  have hsecond : ¬(second.isNaN = true ∧ third.isNaN = true) := by
    simp [isNaN_of_identical hnext]
  rw [← identityKey_eq_iff (hfirst second)] at h
  rw [← identityKey_eq_iff hsecond] at hnext
  exact (identityKey_eq_iff (hfirst third)).1 (h.trans hnext)

/-- How identity and keys go together. -/
structure IdentityByKey : Prop where
  /-- One key means identity and identity means one key, for any two values that are not both
  doubles that are not numbers. -/
  key_eq_iff : ∀ left right : Value, ¬(left.isNaN = true ∧ right.isNaN = true) →
    (left.identityKey = right.identityKey ↔ left.identical right = true)
  /-- Doubles that are not numbers are never identical, and have one key when they are one word. -/
  notNumbers : ∀ left right : Binary64, left.isNaN = true → right.isNaN = true →
    (float left).identical (float right) = false ∧
      ((float left).identityKey = (float right).identityKey ↔ left.bits = right.bits)
  /-- A double has the key of a 64-bit integer exactly when it denotes that integer. -/
  integer_key_iff : ∀ (number : Binary64) (integer : Int64),
    (float number).identityKey = (Value.integer integer).identityKey ↔
      number.isFinite = true ∧ number.value = (integer.toInt : ℚ)
  /-- A double that denotes an integer has the key of an integer exactly when 64 bits reach it,
  from `-2 ^ 63` on and below `2 ^ 63`. -/
  integer_key_range : ∀ (number : Binary64) (denoted : Int), number.isFinite = true →
    number.value = denoted →
      ((∃ integer : Int64, (float number).identityKey = (Value.integer integer).identityKey) ↔
        -(2 ^ 63) ≤ denoted ∧ denoted < 2 ^ 63)
  /-- Any other double is filed under its own word. -/
  word_key : ∀ number : Binary64,
    (∀ integer : Int64, (float number).identityKey ≠ (Value.integer integer).identityKey) →
      (float number).identityKey = .float number
  /-- Doubles are identical when they are numbers and either one word or finite with one value. -/
  float_identical_iff : ∀ left right : Binary64, (float left).identical (float right) = true ↔
    left.isNaN = false ∧ right.isNaN = false ∧
      (left = right ∨
        (left.isFinite = true ∧ right.isFinite = true ∧ left.value = right.value))
  symmetric : ∀ left right : Value, left.identical right = true → right.identical left = true
  transitive : ∀ first second third : Value, first.identical second = true →
    second.identical third = true → first.identical third = true
  reflexive_iff : ∀ value : Value, value.identical value = true ↔ value.isNaN = false

/-- The key of a value decides identity, but for doubles that are not numbers. -/
theorem identityByKey : IdentityByKey where
  key_eq_iff _ _ h := identityKey_eq_iff h
  notNumbers left right hleft hright := by
    refine ⟨identical_float_of_isNaN hleft _, ?_⟩
    rw [identityKey_float_of_isNaN hleft, identityKey_float_of_isNaN hright]
    cases left
    cases right
    simp
  integer_key_iff := identityKey_float_eq_integer_iff
  integer_key_range _ _ := exists_identityKey_float_eq_integer_iff
  word_key number h := by
    rcases identityKey_float_cases number with ⟨exact, hkey⟩ | hkey
    · exact absurd hkey (h exact)
    · exact hkey
  float_identical_iff := Binary64.numericallyEqual_iff
  symmetric left right h := by rw [identical_comm, h]
  transitive _ _ _ := identical_trans
  reflexive_iff := identical_self_iff

/-- Negative zero has the key of zero, and of the two bounds only the lower one is an integer. -/
example : (float ⟨0x8000000000000000⟩).identityKey = .integer 0 ∧
    (float ⟨0xC3E0000000000000⟩).identityKey = .integer Int64.minValue ∧
    (float ⟨0x43E0000000000000⟩).identityKey = .float ⟨0x43E0000000000000⟩ := by
  decide +kernel

end Value

end GradualRuntime
