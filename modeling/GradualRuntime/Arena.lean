/-!
# Append-only stores

An `Arena` holds records under consecutive numbers. A new record takes the next number, a record
can be changed in place, and none is ever removed, so a number once valid stays valid
(`isSome_get?_of_lt`, `size_modify`, `size_push`). References to functions, objects, classes and
the like are numbers of such stores; the order of the numbers is the order of creation.
-/

set_option autoImplicit false

namespace GradualRuntime

/-- Records numbered in the order of their creation. -/
structure Arena (α : Type) where
  records : Array α
  deriving DecidableEq

namespace Arena

variable {α : Type}

/-- The store without records. -/
def empty : Arena α := ⟨#[]⟩

instance : EmptyCollection (Arena α) := ⟨empty⟩

instance : Inhabited (Arena α) := ⟨empty⟩

/-- The number of records, which is also the number the next record takes. -/
def size (arena : Arena α) : Nat := arena.records.size

/-- The record with a given number. -/
def get? (arena : Arena α) (index : Nat) : Option α := arena.records[index]?

/-- Adds a record under the number `arena.size`. -/
def push (arena : Arena α) (record : α) : Arena α := ⟨arena.records.push record⟩

/-- Changes the record with a given number; a number not in use changes nothing. -/
def modify (arena : Arena α) (index : Nat) (change : α → α) : Arena α :=
  ⟨arena.records.modify index change⟩

@[simp]
theorem size_push (arena : Arena α) (record : α) : (arena.push record).size = arena.size + 1 := by
  simp [size, push]

@[simp]
theorem size_modify (arena : Arena α) (index : Nat) (change : α → α) :
    (arena.modify index change).size = arena.size := by
  simp [size, modify]

theorem isSome_get?_of_lt {arena : Arena α} {index : Nat} (h : index < arena.size) :
    (arena.get? index).isSome := by
  have hsize : index < arena.records.size := h
  simp [get?, hsize]

theorem lt_of_get?_eq_some {arena : Arena α} {index : Nat} {record : α}
    (h : arena.get? index = some record) : index < arena.size :=
  (Array.getElem?_eq_some_iff.1 h).1

@[simp]
theorem get?_push_size (arena : Arena α) (record : α) :
    (arena.push record).get? arena.size = some record := by
  simp [get?, push, size]

theorem get?_push_of_lt {arena : Arena α} {index : Nat} (h : index < arena.size) (record : α) :
    (arena.push record).get? index = arena.get? index := by
  have hsize : index < arena.records.size := h
  simp [get?, push, Array.getElem?_push, Nat.ne_of_lt hsize]

/-- Records that are there stay when one is added. -/
theorem get?_push_of_some {arena : Arena α} {index : Nat} {kept : α}
    (h : arena.get? index = some kept) (record : α) :
    (arena.push record).get? index = some kept :=
  (get?_push_of_lt (lt_of_get?_eq_some h) record).trans h

/-- A record that is found after one has been added was there before, or is the new one. -/
theorem eq_of_get?_push {arena : Arena α} {index : Nat} {record found : α}
    (h : (arena.push record).get? index = some found) :
    arena.get? index = some found ∨ found = record := by
  by_cases hlt : index < arena.size
  · rw [get?_push_of_lt hlt] at h
    exact .inl h
  · have hself : index = arena.size := by
      have hbound := lt_of_get?_eq_some h
      rw [size_push] at hbound
      omega
    rw [hself, get?_push_size] at h
    exact .inr (Option.some.inj h).symm

@[simp]
theorem get?_modify_self (arena : Arena α) (index : Nat) (change : α → α) :
    (arena.modify index change).get? index = (arena.get? index).map change := by
  simp [get?, modify, Array.getElem?_modify]

theorem get?_modify_of_ne {arena : Arena α} {index other : Nat} (h : other ≠ index)
    (change : α → α) : (arena.modify index change).get? other = arena.get? other := by
  simp [get?, modify, Array.getElem?_modify, Ne.symm h]

/-- Changing the latest record. -/
theorem modify_push_size (arena : Arena α) (record : α) (change : α → α) :
    (arena.push record).modify arena.size change = arena.push (change record) := by
  refine congrArg Arena.mk (Array.ext_getElem? fun other ↦ ?_)
  by_cases h : other = arena.records.size <;>
    simp [push, size, Array.getElem?_modify, Array.getElem_modify, Array.getElem?_push, h, Ne.symm]

/-- A change that leaves the record as it is leaves the store as it is. -/
theorem modify_eq_self {arena : Arena α} {index : Nat} {change : α → α}
    (h : ∀ record, arena.get? index = some record → change record = record) :
    arena.modify index change = arena := by
  refine congrArg Arena.mk (Array.ext_getElem? fun other ↦ ?_)
  by_cases hother : index = other
  · subst hother
    cases hrecord : arena.records[index]? with
    | none => simp [Array.getElem?_modify, hrecord]
    | some record => simp [Array.getElem?_modify, hrecord, h record hrecord]
  · simp [Array.getElem?_modify, hother]

theorem modify_modify (arena : Arena α) (index : Nat) (first second : α → α) :
    (arena.modify index first).modify index second =
      arena.modify index fun record ↦ second (first record) := by
  refine congrArg Arena.mk (Array.ext_getElem? fun other ↦ ?_)
  by_cases h : index = other <;> simp [modify, Array.getElem?_modify, h, Function.comp_def]

end Arena

end GradualRuntime
