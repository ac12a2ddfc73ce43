import GradualRuntime.Proofs.Equality
import GradualRuntime.Proofs.GenericLifecycle

/-!
# Identical values are interchangeable

Identity crosses the two representations of numbers: an integer is identical to the double that
denotes it, and the two zeros are identical. Every other value is identical to itself alone. So
identical values are one value, or two numbers that denote one rational (`Value.identical_iff`).

Truth, primitive kinds, the lookup of members, the keys of linked maps and those of generic types
classify values each by a case analysis of its own. `Value.Interchangeable` lists what the runtime
decides by them for two values, and `Value.interchange` says that it decides alike for any two that
are identical.
-/

set_option autoImplicit false

namespace GradualRuntime

namespace Value

section Numbers

/-- The rational that a number denotes, in either representation. Infinities denote none. -/
def denoted? : Value → Option ℚ
  | integer number => some number.toInt
  | float number => if number.isFinite then some number.value else none
  | _ => none

variable {left right value : Value} {denoted : ℚ}

theorem denoted?_float_eq_some_iff {number : Binary64} :
    (float number).denoted? = some denoted ↔ number.isFinite = true ∧ number.value = denoted := by
  simp [denoted?]

/-- A value that denotes a rational is an integer or a finite double. -/
theorem number_of_denoted (h : value.denoted? = some denoted) :
    (∃ number : Int64, value = integer number ∧ (number.toInt : ℚ) = denoted) ∨
      ∃ number : Binary64, value = float number ∧ number.isFinite = true ∧
        number.value = denoted := by
  cases value with
  | integer number => exact .inl ⟨number, rfl, Option.some.inj h⟩
  | float number => exact .inr ⟨number, rfl, denoted?_float_eq_some_iff.1 h⟩
  | _ => cases h

/-- Identity of numbers compares the rationals that they denote. -/
theorem identical_of_denoted (hleft : left.denoted? = some denoted)
    (hright : right.denoted? = some denoted) : left.identical right = true := by
  rcases number_of_denoted hleft with ⟨integer, rfl, hinteger⟩ | ⟨number, rfl, hfinite, hnumber⟩ <;>
    rcases number_of_denoted hright with ⟨other, rfl, hother⟩ | ⟨other, rfl, hfinite', hother⟩
  · have hsame : integer.toInt = other.toInt := by exact_mod_cast hinteger.trans hother.symm
    simp [identical, Int64.toInt_inj.1 hsame]
  · have hexact := (other.exactInteger?_eq_some_iff integer).2
      ⟨hfinite', hother.trans hinteger.symm⟩
    simp [identical, hexact]
  · have hexact := (number.exactInteger?_eq_some_iff other).2 ⟨hfinite, hnumber.trans hother.symm⟩
    simp [identical, hexact]
  · exact (Binary64.numericallyEqual_iff number other).2 ⟨Binary64.isNaN_of_isFinite hfinite,
      Binary64.isNaN_of_isFinite hfinite', .inr ⟨hfinite, hfinite', hnumber.trans hother.symm⟩⟩

/-- Identical values are one value, other than a double that is no number, or two numbers that
denote one rational. -/
theorem identical_iff : left.identical right = true ↔
    (left = right ∧ left.isNaN = false) ∨
      ∃ denoted, left.denoted? = some denoted ∧ right.denoted? = some denoted := by
  constructor
  · intro h
    have hnumber := isNaN_of_identical h
    cases left <;> cases right <;> simp only [identical, Bool.false_eq_true, beq_iff_eq] at h
    case integer.float integer number =>
      exact .inr ⟨integer.toInt, rfl,
        denoted?_float_eq_some_iff.2 ((number.exactInteger?_eq_some_iff integer).1 h)⟩
    case float.integer number integer =>
      exact .inr ⟨integer.toInt,
        denoted?_float_eq_some_iff.2 ((number.exactInteger?_eq_some_iff integer).1 h), rfl⟩
    case float.float number other =>
      obtain ⟨-, -, rfl | ⟨hleft, hright, hvalue⟩⟩ :=
        (Binary64.numericallyEqual_iff number other).1 h
      · exact .inl ⟨rfl, hnumber⟩
      · exact .inr ⟨number.value, denoted?_float_eq_some_iff.2 ⟨hleft, rfl⟩,
          denoted?_float_eq_some_iff.2 ⟨hright, hvalue.symm⟩⟩
    all_goals exact .inl ⟨by simp [h], rfl⟩
  · rintro (⟨rfl, hnumber⟩ | ⟨denoted, hleft, hright⟩)
    · exact (identical_self_iff left).2 hnumber
    · exact identical_of_denoted hleft hright

/-- A number is true as a condition when it denotes anything but zero. -/
theorem isTruthy_of_denoted (h : value.denoted? = some denoted) :
    value.isTruthy = decide (denoted ≠ 0) := by
  rcases number_of_denoted h with ⟨number, rfl, rfl⟩ | ⟨number, rfl, hfinite, rfl⟩
  · have hzero : number = 0 ↔ (number.toInt : ℚ) = 0 := by
      rw [← Int64.toInt_inj]
      exact_mod_cast Iff.rfl
    rw [isTruthy, Bool.eq_iff_iff, bne_iff_ne, decide_eq_true_eq, ne_eq, ne_eq, hzero]
  · have hzero := number.isZero_iff_value_eq_zero
    simp [isTruthy, Binary64.isNaN_of_isFinite hfinite, ← hzero]

/-- What gives one answer for all numbers that denote one rational does not tell identical values
apart. -/
theorem congr_of_identical {α : Sort*} {classify : Value → α} (h : left.identical right = true)
    (hnumbers : ∀ {denoted}, left.denoted? = some denoted → right.denoted? = some denoted →
      classify left = classify right) : classify left = classify right := by
  rcases identical_iff.1 h with ⟨rfl, -⟩ | ⟨denoted, hleft, hright⟩
  · rfl
  · exact hnumbers hleft hright

end Numbers

section Decisions

variable {left right value : Value} {denoted : ℚ}

theorem isNullish_of_denoted (h : value.denoted? = some denoted) : value.isNullish = false := by
  rcases number_of_denoted h with ⟨number, rfl, -⟩ | ⟨number, rfl, -⟩ <;> rfl

theorem primitiveKind?_of_denoted (h : value.denoted? = some denoted) :
    value.primitiveKind? = some .number := by
  rcases number_of_denoted h with ⟨number, rfl, -⟩ | ⟨number, rfl, -⟩ <;> rfl

/-- The members of a number are looked up on the prototype for numbers. -/
theorem holder?_of_denoted (h : value.denoted? = some denoted) (realm : Realm) (heap : Heap) :
    realm.holder? heap value = realm.primitivePrototypes.find? .number :=
  Dispatch.holder?_of_primitiveKind (primitiveKind?_of_denoted h)

variable (h : left.identical right = true)

include h

theorem isTruthy_congr : left.isTruthy = right.isTruthy :=
  congr_of_identical h fun hleft hright ↦
    (isTruthy_of_denoted hleft).trans (isTruthy_of_denoted hright).symm

theorem isNullish_congr : left.isNullish = right.isNullish :=
  congr_of_identical h fun hleft hright ↦
    (isNullish_of_denoted hleft).trans (isNullish_of_denoted hright).symm

theorem primitiveKind?_congr : left.primitiveKind? = right.primitiveKind? :=
  congr_of_identical h fun hleft hright ↦
    (primitiveKind?_of_denoted hleft).trans (primitiveKind?_of_denoted hright).symm

theorem holder?_congr (realm : Realm) (heap : Heap) :
    realm.holder? heap left = realm.holder? heap right :=
  congr_of_identical h fun hleft hright ↦
    (holder?_of_denoted hleft realm heap).trans (holder?_of_denoted hright realm heap).symm

theorem identityKey_congr : left.identityKey = right.identityKey := by
  refine (identityKey_eq_iff fun ⟨hleft, _⟩ ↦ ?_).2 h
  simp [isNaN_of_identical h] at hleft

/-- Arguments that differ in identical values have one key. -/
theorem key_congr (before after : List Value) :
    GenericType.key (before ++ left :: after) = GenericType.key (before ++ right :: after) := by
  simp [GenericType.key, identityKey_congr h]

theorem hasMember_congr (realm : RealmId) (name : String) :
    Dispatch.hasMember realm left name = Dispatch.hasMember realm right name := by
  funext state
  simp [Dispatch.hasMember, holder?_congr h]

theorem slot?_congr (realm : RealmId) (name : String) (state : State) :
    Dispatch.slot? realm left name state = Dispatch.slot? realm right name state := by
  rw [Dispatch.slot?, Dispatch.slot?, holder?_congr h]

end Decisions

section Tables

variable {left right : Value} (h : left.identical right = true)

include h

theorem lookUp_congr (table : TableId) (arguments : List Value) :
    LinkedMap.lookUp table (left :: arguments) = LinkedMap.lookUp table (right :: arguments) := by
  funext state
  simp [LinkedMap.lookUp, LinkedMap.required, identityKey_congr h]

theorem containsKey_congr (table : TableId) (arguments : List Value) :
    LinkedMap.containsKey table (left :: arguments) =
      LinkedMap.containsKey table (right :: arguments) := by
  funext state
  simp [LinkedMap.containsKey, LinkedMap.required, identityKey_congr h]

/-- A write under one of the keys leaves nothing of a write under the other. -/
theorem writeEntry_congr (heap : Heap) (table : TableId) (first second : Value) :
    (heap.writeEntry table left first).writeEntry table right second =
      heap.writeEntry table right second := by
  simp [Heap.writeEntry, Arena.modify_modify, identityKey_congr h, OrderedMap.insert_insert_self]

/-- What is written under one of the keys is found under the other. -/
theorem lookUp_of_written {state : State} {table : TableId}
    (htable : table.index < state.heap.tables.size) (value : Value) (arguments : List Value) :
    let written : State := { state with heap := state.heap.writeEntry table left value }
    LinkedMap.lookUp table (right :: arguments) written = .ended (.ok value) written := by
  obtain ⟨contents, hcontents⟩ := Option.isSome_iff_exists.1 (Arena.isSome_get?_of_lt htable)
  rw [← lookUp_congr h]
  simp [LinkedMap.lookUp, LinkedMap.required, Heap.table, Heap.writeEntry, hcontents]

/-- A type given for some arguments is given again, at once, when one of them is replaced. -/
theorem instantiate_congr {generic : GenericId} {before after : List Value} {state last : State}
    {result : Value}
    (hends : (GenericType.instantiate generic (before ++ left :: after) state).EndsWith
      (.ok result) last) :
    GenericType.instantiate generic (before ++ right :: after) last =
      .ended (.ok result)
        (last.record (.instantiated generic (before ++ right :: after) result)) := by
  obtain ⟨⟨entry, hentry, rfl⟩, -⟩ := GenericType.returned_of_instantiate hends
  rw [key_congr h] at hentry
  exact GenericType.instantiate_of_filed hentry

end Tables

section Requirements

variable {left right : Value} {state : State}

/-- The two values pass a requirement alike: each is let through as it is, or both are refused with
one fault. -/
def RequiredAlike (left right : Value) : Prop :=
  ∀ state, Dispatch.notNull left state = .ended (.ok left) state ∧
      Dispatch.notNull right state = .ended (.ok right) state ∨
    ∃ fault, Dispatch.notNull left state = .ended (.error fault) state ∧
      Dispatch.notNull right state = .ended (.error fault) state

theorem requiredAlike_of_identical (h : left.identical right = true) :
    RequiredAlike left right := by
  intro state
  have hnullish := isNullish_congr h
  cases hright : right.isNullish with
  | false => exact .inl ⟨by simp [Dispatch.notNull, hnullish, hright],
      by simp [Dispatch.notNull, hright]⟩
  | true => exact .inr ⟨_, by simp [Dispatch.notNull, hnullish, hright]; rfl,
      by simp [Dispatch.notNull, hright]⟩

end Requirements

/-- Everything that the runtime decides by the value alone is decided alike for two values. -/
structure Interchangeable (left right : Value) : Prop where
  truthy : left.isTruthy = right.isTruthy
  nullish : left.isNullish = right.isNullish
  /-- An assertion of the one is an assertion of the other. -/
  asserted : Dispatch.assertTruthy left = Dispatch.assertTruthy right
  /-- As values that must not be sentinels, both get through or both are refused. -/
  required : RequiredAlike left right
  kind : left.primitiveKind? = right.primitiveKind?
  /-- In any realm their members are looked up on one object. -/
  holder : ∀ (realm : Realm) heap, realm.holder? heap left = realm.holder? heap right
  member : ∀ realm name,
    Dispatch.hasMember realm left name = Dispatch.hasMember realm right name
  /-- A member is found in one slot of one holder. -/
  slot : ∀ realm name state,
    Dispatch.slot? realm left name state = Dispatch.slot? realm right name state
  identityKey : left.identityKey = right.identityKey
  /-- A linked map finds one entry under both. -/
  found : ∀ table arguments, LinkedMap.lookUp table (left :: arguments) =
    LinkedMap.lookUp table (right :: arguments)
  contained : ∀ table arguments, LinkedMap.containsKey table (left :: arguments) =
    LinkedMap.containsKey table (right :: arguments)
  /-- An entry written under the one is found under the other. -/
  written : ∀ (state : State) table value arguments, table.index < state.heap.tables.size →
    let written : State := { state with heap := state.heap.writeEntry table left value }
    LinkedMap.lookUp table (right :: arguments) written = .ended (.ok value) written
  /-- An entry written under the one is replaced by a write under the other. -/
  overwritten : ∀ (heap : Heap) table first second,
    (heap.writeEntry table left first).writeEntry table right second =
      heap.writeEntry table right second
  /-- As an argument of a generic type at any place, they make one key. -/
  typeKey : ∀ before after,
    GenericType.key (before ++ left :: after) = GenericType.key (before ++ right :: after)
  /-- A type that has been given for the one is given for the other, and nothing is called. -/
  instantiated : ∀ generic before after state result last,
    (GenericType.instantiate generic (before ++ left :: after) state).EndsWith
        (.ok result) last →
      GenericType.instantiate generic (before ++ right :: after) last =
        .ended (.ok result)
          (last.record (.instantiated generic (before ++ right :: after) result))
  /-- Unless an equality function takes part, they are equal. -/
  equal : ∀ realm state result, Dispatch.ComparedByIdentity realm state left →
    (Dispatch.Answers realm left right state result ↔ result = true)

/-- Identity, and what it leaves undecided between two values. -/
structure Interchange : Prop where
  /-- Identical values are one value, other than a double that is no number, or an integer and a
  double, two integers or two doubles that denote one rational. -/
  identical_iff : ∀ left right : Value, left.identical right = true ↔
    (left = right ∧ left.isNaN = false) ∨
      ∃ denoted, left.denoted? = some denoted ∧ right.denoted? = some denoted
  interchangeable : ∀ left right : Value, left.identical right = true →
    Interchangeable left right

/-- No decision of the runtime tells identical values apart. -/
theorem interchange : Interchange where
  identical_iff _ _ := identical_iff
  interchangeable left right h :=
    { truthy := isTruthy_congr h
      nullish := isNullish_congr h
      asserted := by rw [Dispatch.assertTruthy, Dispatch.assertTruthy, isTruthy_congr h]
      required := requiredAlike_of_identical h
      kind := primitiveKind?_congr h
      holder := holder?_congr h
      member := hasMember_congr h
      slot := slot?_congr h
      identityKey := identityKey_congr h
      found := lookUp_congr h
      contained := containsKey_congr h
      written := fun _ _ value arguments htable ↦ lookUp_of_written h htable value arguments
      overwritten := writeEntry_congr h
      typeKey := key_congr h
      instantiated := fun _ _ _ _ _ _ hends ↦ instantiate_congr h hends
      equal := fun _ _ _ hleft ↦ by rw [hleft.answers_iff, h] }

/-- Negative zero, as a double, is identical to the integer zero, and five to five. -/
example : (integer 0).identical (float ⟨0x8000000000000000⟩) = true ∧
    (float ⟨0x4014000000000000⟩).identical (integer 5) = true := by
  decide +kernel

end Value

end GradualRuntime
