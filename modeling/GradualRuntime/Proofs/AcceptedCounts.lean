import GradualRuntime.Arity
import Mathlib.Data.List.DropRight
import Mathlib.Data.List.Induction

/-!
# Accepted counts of arguments

There are two tests for a number of arguments. A call is let through by position (`acceptsCount`):
the arguments fill the formals from the left, and no formal that is left over may be required. The
declared bounds (`Arity.ofFormals`) only count the required formals, wherever they stand.

Both accept an interval of counts that ends with the number of formals. That of the positional test
begins after the last required formal (`leastCount`), that of the bounds with the number of required
formals, which is never greater (`requiredCount_le_leastCount`). The two begin together exactly when
no required formal comes after an optional one (`leastCount_eq_requiredCount_iff`).
`acceptedCounts` puts this together: a call that is let through is within the bounds, and the two
tests are the same test for the lists that follow the convention and for no others.

What is said of the last required formal is proved by induction from the end of the list.
-/

set_option autoImplicit false

namespace GradualRuntime

/-- The fewest arguments that the positional test accepts: the number of formals up to the last
required one. -/
def leastCount (mark : String) (formals : List String) : Nat :=
  (formals.rdropWhile (isOptionalFormal mark)).length

/-- The convention for lists of formals: no required formal comes after an optional one. -/
def OptionalsLast (mark : String) (formals : List String) : Prop :=
  formals.Pairwise fun earlier later ↦
    isOptionalFormal mark earlier = true → isOptionalFormal mark later = true

instance (mark : String) (formals : List String) : Decidable (OptionalsLast mark formals) :=
  inferInstanceAs (Decidable (formals.Pairwise _))

variable {mark : String} {formals : List String} {formal : String} {count position : Nat}

section LastRequired

theorem leastCount_concat_of_optional (formals : List String)
    (h : isOptionalFormal mark formal = true) :
    leastCount mark (formals ++ [formal]) = leastCount mark formals := by
  rw [leastCount, List.rdropWhile_concat_pos _ _ _ h, leastCount]

theorem leastCount_concat_of_required (formals : List String)
    (h : isOptionalFormal mark formal = false) :
    leastCount mark (formals ++ [formal]) = formals.length + 1 := by
  rw [leastCount, List.rdropWhile_concat_neg _ _ _ (by simp [h]), List.length_append,
    List.length_singleton]

theorem leastCount_le_length (mark : String) (formals : List String) :
    leastCount mark formals ≤ formals.length :=
  (List.rdropWhile_prefix _ formals).length_le

/-- The formals from some place on are all optional when the last required one comes before it. -/
theorem all_drop_iff :
    (formals.drop count).all (isOptionalFormal mark) = true ↔ leastCount mark formals ≤ count := by
  induction formals using List.reverseRecOn with
  | nil => simp [leastCount]
  | append_singleton formals formal ih =>
    rw [List.drop_append, List.all_append, Bool.and_eq_true, ih]
    cases h : isOptionalFormal mark formal with
    | true =>
      have hlast : ([formal].drop (count - formals.length)).all (isOptionalFormal mark) = true :=
        List.all_eq_true.2 fun other hother ↦
          List.mem_singleton.1 (List.mem_of_mem_drop hother) ▸ h
      simp [leastCount_concat_of_optional formals h, hlast]
    | false =>
      have hbound := leastCount_le_length mark formals
      rw [leastCount_concat_of_required formals h]
      rcases Nat.lt_or_ge formals.length count with hpast | hwithin
      · have hnone : [formal].drop (count - formals.length) = [] :=
          List.drop_eq_nil_of_le (Nat.sub_pos_of_lt hpast)
        simp only [hnone, List.all_nil, and_true]
        omega
      · simp only [Nat.sub_eq_zero_of_le hwithin, List.drop_zero, List.all_cons, h,
          Bool.false_and, Bool.false_eq_true, and_false, false_iff]
        omega

/-- The same said by the places of the formals. -/
theorem leastCount_le_iff :
    leastCount mark formals ≤ count ↔
      ∀ position formal, count ≤ position → formals[position]? = some formal →
        isOptionalFormal mark formal = true := by
  rw [← all_drop_iff, List.all_eq_true]
  constructor
  · intro h position formal hposition hformal
    refine h formal (List.mem_iff_getElem?.2 ⟨position - count, ?_⟩)
    rw [List.getElem?_drop, Nat.add_sub_cancel' hposition, hformal]
  · intro h formal hformal
    obtain ⟨offset, hoffset⟩ := List.mem_iff_getElem?.1 hformal
    rw [List.getElem?_drop] at hoffset
    exact h _ formal (Nat.le_add_right count offset) hoffset

/-- When there is a last required formal, the fewest arguments are those that reach it. -/
theorem leastCount_eq_succ (hformal : formals[position]? = some formal)
    (hrequired : isOptionalFormal mark formal = false)
    (hlast : ∀ later other, position < later → formals[later]? = some other →
      isOptionalFormal mark other = true) :
    leastCount mark formals = position + 1 := by
  refine Nat.le_antisymm (leastCount_le_iff.2 hlast) (Nat.lt_of_not_le fun hle ↦ ?_)
  rw [leastCount_le_iff.1 hle position formal (Nat.le_refl position) hformal] at hrequired
  cases hrequired

end LastRequired

section Counting

theorem accepts_ofFormals_iff :
    (Arity.ofFormals mark formals).accepts count = true ↔
      requiredCount mark formals ≤ count ∧ count ≤ formals.length := by
  rw [Arity.accepts, Bool.and_eq_true, decide_eq_true_eq, decide_eq_true_eq]
  by_cases hall : requiredCount mark formals = formals.length
  · simp [Arity.ofFormals, hall, Arity.least, Arity.most]
  · simp [Arity.ofFormals, hall, Arity.least, Arity.most]

/-- Arguments that reach the last required formal are as many as there are required formals. -/
theorem requiredCount_le_leastCount (mark : String) (formals : List String) :
    requiredCount mark formals ≤ leastCount mark formals := by
  have hrest : (formals.drop (leastCount mark formals)).countP
      (fun formal ↦ !isOptionalFormal mark formal) = 0 := by
    refine List.countP_eq_zero.2 fun formal hformal ↦ ?_
    simp [List.all_eq_true.1 (all_drop_iff.2 (Nat.le_refl _)) formal hformal]
  calc requiredCount mark formals
      = (formals.take (leastCount mark formals)).countP
          (fun formal ↦ !isOptionalFormal mark formal) := by
        rw [requiredCount, ← List.take_append_drop (leastCount mark formals) formals,
          List.countP_append, hrest, List.take_append_drop, Nat.add_zero]
    _ ≤ (formals.take (leastCount mark formals)).length := List.countP_le_length
    _ ≤ leastCount mark formals := List.length_take_le _ _

/-- The positional test accepts the counts from the last required formal to all of them. -/
theorem acceptsCount_iff :
    acceptsCount mark formals count = true ↔
      leastCount mark formals ≤ count ∧ count ≤ formals.length := by
  have hrequired := requiredCount_le_leastCount mark formals
  simp only [acceptsCount, Bool.and_eq_true, decide_eq_true_eq, all_drop_iff]
  omega

theorem optionalsLast_concat_iff :
    OptionalsLast mark (formals ++ [formal]) ↔
      OptionalsLast mark formals ∧ ∀ earlier ∈ formals, isOptionalFormal mark earlier = true →
        isOptionalFormal mark formal = true := by
  simp [OptionalsLast, List.pairwise_append]

/-- As many arguments as there are required formals reach the last of them exactly when no optional
formal comes before it. -/
theorem leastCount_eq_requiredCount_iff :
    leastCount mark formals = requiredCount mark formals ↔ OptionalsLast mark formals := by
  induction formals using List.reverseRecOn with
  | nil => simp [leastCount, requiredCount, OptionalsLast]
  | append_singleton formals formal ih =>
    have hcount : requiredCount mark (formals ++ [formal]) =
        requiredCount mark formals + requiredCount mark [formal] := List.countP_append
    rw [optionalsLast_concat_iff, ← ih, hcount]
    cases h : isOptionalFormal mark formal with
    | true => simp [leastCount_concat_of_optional formals h, requiredCount, h]
    | false =>
      have hone : requiredCount mark [formal] = 1 := by simp [requiredCount, h]
      rw [leastCount_concat_of_required formals h, hone, Nat.add_right_cancel_iff]
      constructor
      · -- no formal before the last one is optional, so the formals before it are all counted
        intro hlength
        have hall : ∀ earlier ∈ formals, isOptionalFormal mark earlier = false := by
          simpa using List.countP_eq_length.1 hlength.symm
        have hleast := leastCount_le_length mark formals
        have hrequired := requiredCount_le_leastCount mark formals
        refine ⟨by omega, fun earlier hearlier hoptional ↦ ?_⟩
        rw [hall earlier hearlier] at hoptional
        exact hoptional
      · rintro ⟨-, hall⟩
        refine (List.countP_eq_length.2 fun earlier hearlier ↦ ?_).symm
        simpa using hall earlier hearlier

end Counting

/-- The counts of arguments that a list of formals takes, by the positional test and by the bounds
that it declares. -/
structure AcceptedCounts (mark : String) (formals : List String) : Prop where
  /-- The positional test: no argument lacks a formal, and every formal without an argument is
  optional. -/
  positional : ∀ count, acceptsCount mark formals count = true ↔
    count ≤ formals.length ∧ ∀ position formal, count ≤ position →
      formals[position]? = some formal → isOptionalFormal mark formal = true
  /-- It accepts an interval that ends with the number of formals. -/
  interval : ∀ count, acceptsCount mark formals count = true ↔
    leastCount mark formals ≤ count ∧ count ≤ formals.length
  /-- The interval begins after the last required formal, -/
  least_of_required : ∀ position formal, formals[position]? = some formal →
    isOptionalFormal mark formal = false →
      (∀ later other, position < later → formals[later]? = some other →
        isOptionalFormal mark other = true) →
      leastCount mark formals = position + 1
  /-- or with no arguments when no formal is required. -/
  least_of_optional : (∀ formal ∈ formals, isOptionalFormal mark formal = true) →
    leastCount mark formals = 0
  /-- The interval is not empty. -/
  full : acceptsCount mark formals formals.length = true
  /-- A count that it accepts is within the declared bounds. -/
  within : ∀ count, acceptsCount mark formals count = true →
    (Arity.ofFormals mark formals).accepts count = true
  /-- The bounds accept the same counts exactly when no required formal follows an optional one. -/
  agree_iff : (∀ count,
      acceptsCount mark formals count = (Arity.ofFormals mark formals).accepts count) ↔
    OptionalsLast mark formals

/-- The two tests are the same exactly for the lists that follow the convention. -/
theorem forall_acceptsCount_eq_iff :
    (∀ count, acceptsCount mark formals count = (Arity.ofFormals mark formals).accepts count) ↔
      OptionalsLast mark formals := by
  have hrequired := requiredCount_le_leastCount mark formals
  have hleast := leastCount_le_length mark formals
  rw [← leastCount_eq_requiredCount_iff]
  constructor
  · -- the bounds accept as many arguments as there are required formals
    intro hagree
    have hbounds : (Arity.ofFormals mark formals).accepts (requiredCount mark formals) = true :=
      accepts_ofFormals_iff.2 ⟨Nat.le_refl _, Nat.le_trans hrequired hleast⟩
    rw [← hagree, acceptsCount_iff] at hbounds
    exact Nat.le_antisymm hbounds.1 hrequired
  · intro heq count
    rw [Bool.eq_iff_iff, acceptsCount_iff, accepts_ofFormals_iff, heq]

/-- For every list of formals and every mark, the positional test accepts the counts from the last
required formal on, within the bounds, and the bounds say the same exactly under the convention. -/
theorem acceptedCounts (mark : String) (formals : List String) : AcceptedCounts mark formals where
  positional count := by rw [acceptsCount_iff, leastCount_le_iff, and_comm]
  interval _ := acceptsCount_iff
  least_of_required _ _ hformal hrequired hlast := leastCount_eq_succ hformal hrequired hlast
  least_of_optional hall :=
    Nat.le_zero.1 (leastCount_le_iff.2 fun _ _ _ hformal ↦ hall _ (List.mem_of_getElem? hformal))
  full := acceptsCount_iff.2 ⟨leastCount_le_length mark formals, Nat.le_refl _⟩
  within count haccepts := by
    obtain ⟨hleast, hlength⟩ := acceptsCount_iff.1 haccepts
    exact accepts_ofFormals_iff.2
      ⟨Nat.le_trans (requiredCount_le_leastCount mark formals) hleast, hlength⟩
  agree_iff := forall_acceptsCount_eq_iff

/-- An optional formal before a required one: the call needs both arguments, the bounds only one. -/
example : acceptsCount "opt$" ["opt$first", "second"] 1 = false ∧
    (Arity.ofFormals "opt$" ["opt$first", "second"]).accepts 1 = true := by decide +kernel

end GradualRuntime
