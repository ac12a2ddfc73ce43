import GradualRuntime.Binary64
import Mathlib.Algebra.Field.Rat
import Mathlib.Data.Rat.Cast.Order
import Mathlib.Tactic.Ring

/-!
# The numbers that words denote

A finite word denotes a rational number, `Binary64.value`. Two finite words denote the same number
only when they are the same word or both zeros: the magnitude in units determines the exponent and
the fraction (`units_injective`), because a larger exponent leaves no room below it.

The two comparisons of the library are read against this meaning. `numericallyEqual_iff` says that
comparison as numbers compares the numbers denoted, and `exactInteger?_eq_some_iff` that the exact
integer of a word is the number it denotes.
-/

set_option autoImplicit false

namespace GradualRuntime

theorem twoTo_eq (exponent : Nat) : twoTo exponent = 2 ^ exponent := rfl

theorem twoTo_pos (exponent : Nat) : 0 < twoTo exponent := Nat.two_pow_pos exponent

theorem fitsInt64_iff (value : Int) : fitsInt64 value ↔ -(2 ^ 63) ≤ value ∧ value < 2 ^ 63 := by
  simp only [fitsInt64, twoTo_eq]
  norm_cast

/-- A 64-bit integer is kept by the conversion of its value. -/
theorem toInt_ofInt_of_fits {value : Int} (h : fitsInt64 value) :
    (Int64.ofInt value).toInt = value := by
  obtain ⟨hlower, hupper⟩ := (fitsInt64_iff value).1 h
  exact Int64.toInt_ofInt_of_le hlower hupper

theorem fitsInt64_toInt (number : Int64) : fitsInt64 number.toInt :=
  (fitsInt64_iff _).2 ⟨number.le_toInt, number.toInt_lt⟩

namespace Binary64

/-- The number of units that a finite word denotes, with its sign. -/
def signedUnits (number : Binary64) : Int :=
  if number.isNegative then -(number.units : Int) else number.units

/-- The number that a finite word denotes. -/
def value (number : Binary64) : ℚ := number.signedUnits / unitsPerOne

section Fields

theorem code_lt (number : Binary64) : number.code < 2 ^ 64 := number.bits.toNat_lt

theorem fraction_lt (number : Binary64) : number.fraction < 2 ^ 52 :=
  Nat.mod_lt _ (twoTo_pos 52)

/-- A word is made of its sign, its exponent and its fraction. -/
theorem code_eq (number : Binary64) :
    number.code =
      (if number.isNegative then 2 ^ 63 else 0) + number.exponentField * 2 ^ 52 +
        number.fraction := by
  have hcode := number.code_lt
  by_cases hsign : 2 ^ 63 ≤ number.code
  · simp only [isNegative, exponentField, fraction, twoTo_eq, hsign, decide_true, if_true]
    omega
  · simp only [isNegative, exponentField, fraction, twoTo_eq, hsign, decide_false,
      Bool.false_eq_true, if_false]
    omega

theorem eq_of_fields {left right : Binary64} (hsign : left.isNegative = right.isNegative)
    (hexponent : left.exponentField = right.exponentField)
    (hfraction : left.fraction = right.fraction) : left = right := by
  have hcode : left.code = right.code := by
    rw [left.code_eq, right.code_eq, hsign, hexponent, hfraction]
  have hbits : left.bits = right.bits := UInt64.toNat_inj.1 hcode
  cases left
  cases right
  simpa using hbits

theorem significand_lt (number : Binary64) : number.significand < 2 ^ 53 := by
  have hfraction := number.fraction_lt
  simp only [significand, twoTo_eq]
  split <;> omega

theorem le_significand {number : Binary64} (h : number.exponentField ≠ 0) :
    2 ^ 52 ≤ number.significand := by
  simp only [significand, h, if_false, twoTo_eq]
  omega

/-- A larger exponent leaves no room for the magnitudes below it. -/
theorem units_lt_of_exponentField_lt {left right : Binary64}
    (h : left.exponentField < right.exponentField) : left.units < right.units := by
  have hright : 2 ^ 52 ≤ right.significand := le_significand (by omega)
  have hscale : left.scale ≤ right.scale := by
    simp only [scale]
    omega
  by_cases hzero : left.exponentField = 0
  · -- a subnormal number has no leading bit, so no room is needed for a larger scale
    have hleft : left.units < 2 ^ 52 := by
      simpa [units, significand, scale, hzero, twoTo_eq] using left.fraction_lt
    calc left.units < 2 ^ 52 * 1 := by omega
      _ ≤ right.significand * twoTo right.scale := Nat.mul_le_mul hright (twoTo_pos right.scale)
  · have hnext : left.scale + 1 ≤ right.scale := by
      simp only [scale]
      omega
    calc left.units < 2 ^ 53 * twoTo left.scale :=
          Nat.mul_lt_mul_of_pos_right left.significand_lt (twoTo_pos left.scale)
      _ = 2 ^ 52 * twoTo (left.scale + 1) := by
          simp only [twoTo_eq, Nat.pow_succ]
          omega
      _ ≤ right.significand * twoTo right.scale :=
          Nat.mul_le_mul hright (Nat.pow_le_pow_right Nat.two_pos hnext)

/-- The magnitude determines the exponent and the fraction. -/
theorem units_injective {left right : Binary64} (h : left.units = right.units) :
    left.exponentField = right.exponentField ∧ left.fraction = right.fraction := by
  have hexponent : left.exponentField = right.exponentField := by
    rcases Nat.lt_trichotomy left.exponentField right.exponentField with hlt | heq | hgt
    · exact absurd h (Nat.ne_of_lt (units_lt_of_exponentField_lt hlt))
    · exact heq
    · exact absurd h.symm (Nat.ne_of_lt (units_lt_of_exponentField_lt hgt))
  refine ⟨hexponent, ?_⟩
  have hsignificand : left.significand = right.significand := by
    simp only [units, scale, hexponent] at h
    exact Nat.eq_of_mul_eq_mul_right (twoTo_pos _) h
  simp only [significand, hexponent] at hsignificand
  split at hsignificand <;> omega

theorem isZero_iff {number : Binary64} : number.isZero = true ↔ number.units = 0 := by
  have hscale : twoTo number.scale ≠ 0 := Nat.ne_of_gt (twoTo_pos number.scale)
  simp only [isZero, decide_eq_true_eq, units, Nat.mul_eq_zero, hscale, or_false, significand]
  split
  · simp_all
  · simp only [twoTo_eq]
    omega

theorem isFinite_of_isZero {number : Binary64} (h : number.isZero = true) :
    number.isFinite = true := by
  simp only [isZero, decide_eq_true_eq] at h
  simp [isFinite, h.1]

theorem isFinite_eq_false_of_isNaN {number : Binary64} (h : number.isNaN = true) :
    number.isFinite = false := by
  simp only [isNaN, decide_eq_true_eq] at h
  simp [isFinite, h.1]

theorem isNaN_of_isFinite {number : Binary64} (h : number.isFinite = true) :
    number.isNaN = false := by
  by_contra hnumber
  rw [isFinite_eq_false_of_isNaN (Bool.not_eq_false _ ▸ hnumber)] at h
  cases h

end Fields

section Meaning

theorem unitsPerOne_pos : 0 < unitsPerOne := twoTo_pos 1074

theorem value_eq_intCast_iff (number : Binary64) (integer : Int) :
    number.value = integer ↔ number.signedUnits = integer * unitsPerOne := by
  have hpos : (unitsPerOne : ℚ) ≠ 0 := by exact_mod_cast Nat.ne_of_gt unitsPerOne_pos
  rw [value, div_eq_iff hpos]
  exact_mod_cast Iff.rfl

theorem value_eq_value_iff (left right : Binary64) :
    left.value = right.value ↔ left.signedUnits = right.signedUnits := by
  have hpos : (unitsPerOne : ℚ) ≠ 0 := by exact_mod_cast Nat.ne_of_gt unitsPerOne_pos
  rw [value, value, div_left_inj' hpos]
  exact_mod_cast Iff.rfl

/-- Two words with one number of units are the same word, or both are zeros. -/
theorem signedUnits_eq_iff (left right : Binary64) :
    left.signedUnits = right.signedUnits ↔
      left = right ∨ (left.isZero = true ∧ right.isZero = true) := by
  simp only [isZero_iff]
  constructor
  · intro h
    by_cases hzero : left.units = 0
    · refine .inr ⟨hzero, ?_⟩
      simp only [signedUnits, hzero] at h
      split at h <;> split at h <;> omega
    · left
      have hsign : left.isNegative = right.isNegative := by
        simp only [signedUnits] at h
        split at h <;> split at h <;> simp_all
      have hunits : left.units = right.units := by
        simp only [signedUnits, hsign] at h
        split at h <;> omega
      obtain ⟨hexponent, hfraction⟩ := units_injective hunits
      exact eq_of_fields hsign hexponent hfraction
  · rintro (rfl | ⟨hleft, hright⟩)
    · rfl
    · simp [signedUnits, hleft, hright]

/-- The zeros are the words that denote zero. -/
theorem isZero_iff_value_eq_zero (number : Binary64) : number.isZero = true ↔ number.value = 0 := by
  have hzero := number.value_eq_intCast_iff 0
  rw [Int.cast_zero, Int.zero_mul] at hzero
  rw [hzero, isZero_iff, signedUnits]
  split <;> omega

/-- Comparison as numbers: of finite words it compares the numbers that they denote, an infinity
equals itself only, and a word that is not a number equals nothing. -/
theorem numericallyEqual_iff (left right : Binary64) :
    left.numericallyEqual right = true ↔
      left.isNaN = false ∧ right.isNaN = false ∧
        (left = right ∨
          (left.isFinite = true ∧ right.isFinite = true ∧ left.value = right.value)) := by
  simp only [numericallyEqual, Bool.and_eq_true, Bool.not_eq_true', Bool.or_eq_true, beq_iff_eq,
    and_assoc, value_eq_value_iff, signedUnits_eq_iff]
  refine and_congr_right fun _ ↦ and_congr_right fun _ ↦ ⟨?_, ?_⟩
  · rintro (heq | ⟨hleft, hright⟩)
    · exact .inl heq
    · exact .inr ⟨isFinite_of_isZero hleft, isFinite_of_isZero hright, .inr ⟨hleft, hright⟩⟩
  · rintro (heq | ⟨-, -, heq | hzeros⟩)
    · exact .inl heq
    · exact .inl heq
    · exact .inr hzeros

theorem units_eq (number : Binary64) :
    (number.units : Int) =
      if number.isNegative then -number.signedUnits else number.signedUnits := by
  simp only [signedUnits]
  split <;> simp

/-- The exact integer of a word that denotes an integer is that integer, when 64 bits reach it. -/
theorem exactInteger?_of_value_eq {number : Binary64} {denoted : Int}
    (hfinite : number.isFinite = true) (h : number.value = denoted) :
    number.exactInteger? = if fitsInt64 denoted then some (Int64.ofInt denoted) else none := by
  have hne : (unitsPerOne : Int) ≠ 0 := by exact_mod_cast Nat.ne_of_gt unitsPerOne_pos
  -- the magnitude is a number of ones, and the sign gives back the integer denoted
  have hunits : (number.units : Int) =
      (if number.isNegative then -denoted else denoted) * unitsPerOne := by
    rw [units_eq, (value_eq_intCast_iff number denoted).1 h]
    split <;> ring
  have hwhole : number.units % unitsPerOne = 0 := by
    have hmod : (number.units : Int) % unitsPerOne = 0 := by rw [hunits, Int.mul_emod_left]
    exact_mod_cast hmod
  have hquotient : ((number.units / unitsPerOne : Nat) : Int) =
      if number.isNegative then -denoted else denoted := by
    rw [Int.natCast_ediv, hunits, Int.mul_ediv_cancel _ hne]
  have hdenoted : (if number.isNegative then -((number.units / unitsPerOne : Nat) : Int)
      else (number.units / unitsPerOne : Nat)) = denoted := by
    rw [hquotient]
    split <;> simp
  simp only [exactInteger?, hfinite, hwhole, and_self, if_true, hdenoted]

/-- The exact integer of a word is the number that it denotes, as far as 64 bits reach. -/
theorem exactInteger?_eq_some_iff (number : Binary64) (integer : Int64) :
    number.exactInteger? = some integer ↔
      number.isFinite = true ∧ number.value = (integer.toInt : ℚ) := by
  constructor
  · intro h
    by_cases hwhole : number.isFinite = true ∧ number.units % unitsPerOne = 0
    · obtain ⟨hfinite, hmod⟩ := hwhole
      obtain ⟨ones, hones⟩ := Nat.dvd_of_mod_eq_zero hmod
      obtain ⟨denoted, hvalue⟩ : ∃ denoted : Int, number.value = denoted := by
        refine ⟨if number.isNegative then -ones else ones, ?_⟩
        rw [value_eq_intCast_iff, signedUnits, hones]
        split <;> push_cast <;> ring
      rw [exactInteger?_of_value_eq hfinite hvalue] at h
      by_cases hfits : fitsInt64 denoted
      · rw [if_pos hfits, Option.some.injEq] at h
        exact ⟨hfinite, by rw [hvalue, ← h, toInt_ofInt_of_fits hfits]⟩
      · simp [hfits] at h
    · simp [exactInteger?, hwhole] at h
  · rintro ⟨hfinite, hvalue⟩
    rw [exactInteger?_of_value_eq hfinite hvalue, if_pos (fitsInt64_toInt integer),
      Int64.ofInt_toInt]

/-- Both zeros have an exact integer. -/
theorem exactInteger?_of_isZero {number : Binary64} (h : number.isZero = true) :
    number.exactInteger? = some 0 := by
  rw [exactInteger?_eq_some_iff, value_eq_intCast_iff]
  have hsigned : number.signedUnits = 0 := by
    rw [signedUnits, isZero_iff.1 h]
    split <;> rfl
  have hzero : (0 : Int64).toInt = 0 := rfl
  exact ⟨isFinite_of_isZero h, by rw [hsigned, hzero, Int.zero_mul]⟩

/-- Finite words that denote one number have one exact integer. -/
theorem exactInteger?_congr {left right : Binary64} (hleft : left.isFinite = true)
    (hright : right.isFinite = true) (h : left.value = right.value) :
    left.exactInteger? = right.exactInteger? := by
  refine Option.ext fun integer ↦ ?_
  rw [exactInteger?_eq_some_iff, exactInteger?_eq_some_iff, hleft, hright, h]

theorem exactInteger?_of_isNaN {number : Binary64} (h : number.isNaN = true) :
    number.exactInteger? = none := by
  simp [exactInteger?, isFinite_eq_false_of_isNaN h]

end Meaning

end Binary64

end GradualRuntime
