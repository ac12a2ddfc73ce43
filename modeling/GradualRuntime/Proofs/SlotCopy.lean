import GradualRuntime.Proofs.Access
import GradualRuntime.Proofs.Overlay

/-!
# Copying slots

To copy the slots of one object onto another is to unite two ordered maps: the target keeps its
names where they stand, the names that only the source has follow, and the source wins where both
have a name. What is copied are descriptors, so accessors are not called and lazy bindings keep
their cells. Nothing but the slots of the target changes.

The laws of unions hold for copies with one exception. Two copies one after another can be combined
in a new object first, unless the second source is the target itself: its slots are then read when
they have already been overwritten by the first source, while the combination puts them above those
of the first source (`Heap.slots_copyBoth_eq_iff`).
-/

set_option autoImplicit false

namespace GradualRuntime

namespace Heap

/-- Copies the slots of two sources onto a target, one after the other. -/
def copyBoth (target first second : ObjectId) (heap : Heap) : Heap :=
  (heap.copySlots target first).copySlots target second

/-- Copies the slots of two sources onto a new object, and those of the new object onto a target. -/
def copyCombined (prototype : Option ObjectId) (tag : Option String)
    (target first second : ObjectId) (heap : Heap) : Heap :=
  ((heap.addObject ⟨prototype, tag, .empty⟩).copyBoth heap.nextObject first second).copySlots
    target heap.nextObject

variable {heap : Heap} {target source first second : ObjectId} {prototype : Option ObjectId}
  {tag : Option String}

section Unchanged

/-- A copy that brings nothing new changes nothing. -/
theorem copySlots_eq_self
    (h : (heap.slots target).union (heap.slots source) = heap.slots target) :
    heap.copySlots target source = heap := by
  have hobjects : heap.objects.modify target.index (fun record ↦
      { record with slots := record.slots.insertAll (heap.slots source).entries }) =
        heap.objects := by
    refine Arena.modify_eq_self fun record hrecord ↦ ?_
    have hslots : heap.slots target = record.slots := by simp [slots, hrecord]
    rw [hslots] at h
    exact congrArg (fun slots ↦ { record with slots := slots }) h
  rw [copySlots_eq_defineAll, defineAll_eq_modify, hobjects]

theorem copySlots_self (heap : Heap) (target : ObjectId) : heap.copySlots target target = heap :=
  copySlots_eq_self (OrderedMap.union_self _)

theorem slots_copySlots_of_ne (h : source ≠ target) (first : ObjectId) :
    (heap.copySlots target first).slots source = heap.slots source :=
  (edits_copySlots target first heap).slots_eq h

/-- A second copy from the same source changes nothing. -/
theorem copyBoth_same (htarget : target.index < heap.objects.size) (source : ObjectId) :
    heap.copyBoth target source source = heap.copySlots target source := by
  by_cases hsource : source = target
  · rw [copyBoth, hsource, copySlots_self]
  · refine copySlots_eq_self ?_
    rw [slots_copySlots htarget, slots_copySlots_of_ne hsource, OrderedMap.union_union_self]

end Unchanged

section Combination

theorem slots_copyBoth (htarget : target.index < heap.objects.size) (first second : ObjectId) :
    (heap.copyBoth target first second).slots target =
      ((heap.slots target).union (heap.slots first)).union
        ((heap.copySlots target first).slots second) := by
  have hexists : target.index < (heap.copySlots target first).objects.size := by
    rw [(edits_copySlots target first heap).size]
    exact htarget
  rw [copyBoth, slots_copySlots hexists, slots_copySlots htarget]

/-- Combined in a new object, both sources win over the target and the second over the first. -/
theorem slots_copyCombined (htarget : target.index < heap.objects.size)
    (hfirst : first.index < heap.objects.size) (hsecond : second.index < heap.objects.size) :
    (heap.copyCombined prototype tag target first second).slots target =
      ((heap.slots target).union (heap.slots first)).union (heap.slots second) := by
  let added := heap.addObject ⟨prototype, tag, .empty⟩
  have hold : ∀ {object : ObjectId}, object.index < heap.objects.size →
      object ≠ heap.nextObject := fun hobject heq ↦
    Nat.lt_irrefl _ (congrArg ObjectId.index heq ▸ hobject)
  have hslots : ∀ {object : ObjectId}, object.index < heap.objects.size →
      added.slots object = heap.slots object := (heap.preserved_addObject _).slots_eq
  have hnew : heap.nextObject.index < added.objects.size := by simp [added, addObject, nextObject]
  have hempty : added.slots heap.nextObject = .empty := by
    simp [added, slots, addObject, nextObject]
  have hcopied := edits_copySlots heap.nextObject first added
  have hboth := hcopied.trans (edits_copySlots heap.nextObject second _)
  have htable : (added.copyBoth heap.nextObject first second).slots heap.nextObject =
      (heap.slots first).union (heap.slots second) := by
    rw [slots_copyBoth hnew, hempty, OrderedMap.empty_union, hcopied.slots_eq (hold hsecond),
      hslots hfirst, hslots hsecond]
  have hexists : target.index < (added.copyBoth heap.nextObject first second).objects.size := by
    have hgrown : added.objects.size = heap.objects.size + 1 := by simp [added, addObject]
    rw [copyBoth, hboth.size, hgrown]
    exact Nat.lt_succ_of_lt htarget
  have hkept : (added.copyBoth heap.nextObject first second).slots target = heap.slots target :=
    (hboth.slots_eq (hold htarget)).trans (hslots htarget)
  rw [copyCombined, slots_copySlots hexists, htable, hkept, OrderedMap.union_assoc]

/-- To combine two sources first comes to the same as to copy one after the other, unless the second
is the target and the first has another descriptor for one of its names. -/
theorem slots_copyBoth_eq_iff (htarget : target.index < heap.objects.size)
    (hfirst : first.index < heap.objects.size) (hsecond : second.index < heap.objects.size) :
    (heap.copyBoth target first second).slots target =
        (heap.copyCombined prototype tag target first second).slots target ↔
      (second = target → ∀ name written own, heap.own? first name = some written →
        heap.own? target name = some own → written = own) := by
  rw [slots_copyCombined htarget hfirst hsecond]
  by_cases hsame : second = target
  · subst hsame
    rw [copyBoth, copySlots_self, slots_copySlots htarget, eq_comm, OrderedMap.union_eq_left_iff]
    constructor
    · intro h _ name written own hwritten hown
      have hboth := h name own hown
      rw [OrderedMap.find?_union, show (heap.slots first).find? name = some written from hwritten,
        Option.some_or] at hboth
      exact Option.some.inj hboth
    · intro h name own hown
      rw [OrderedMap.find?_union]
      cases hwritten : (heap.slots first).find? name with
      | none => rw [Option.none_or, hown]
      | some written => rw [Option.some_or, h rfl name written own hwritten hown]
  · rw [slots_copyBoth htarget, slots_copySlots_of_ne hsame]
    simp [hsame]

end Combination

section Order

/-- Sources without common names can be copied in either order, up to the order of the names. -/
theorem own?_copyBoth_comm (htarget : target.index < heap.objects.size)
    (h : ∀ name ∈ heap.ownNames first, name ∉ heap.ownNames second) (name : String) :
    (heap.copyBoth target first second).own? target name =
      (heap.copyBoth target second first).own? target name := by
  by_cases hfirst : first = target
  · rw [hfirst, copyBoth, copySlots_self, copyBoth, copySlots_self]
  by_cases hsecond : second = target
  · rw [hsecond, copyBoth, copySlots_self, copyBoth, copySlots_self]
  rw [own?, own?, slots_copyBoth htarget, slots_copyBoth htarget, slots_copySlots_of_ne hsecond,
    slots_copySlots_of_ne hfirst]
  exact OrderedMap.find?_union_union_comm h name

end Order

end Heap

/-- What copying slots onto an object does, for any source. -/
structure SlotCopy (place : RealmId) (state : State) (target : ObjectId) : Prop where
  /-- The operation calls nothing, and answers with the target. -/
  ends : ∀ source, source.index < state.heap.objects.size →
    Operation.execute place (.object .copySlots) [.object target, .object source] state =
      .ended (.ok (.value (.object target)))
        { state with heap := state.heap.copySlots target source }
  /-- The target keeps its names in their order; those that only the source has follow in its. -/
  names : ∀ source, (state.heap.copySlots target source).ownNames target =
    state.heap.ownNames target ++
      (state.heap.ownNames source).filter fun name ↦ name ∉ state.heap.ownNames target
  /-- What the source owns is copied as it is. -/
  copied : ∀ source name property, state.heap.own? source name = some property →
    (state.heap.copySlots target source).own? target name = some property
  /-- Under every other name the target has what it had. -/
  kept : ∀ source name, state.heap.own? source name = none →
    (state.heap.copySlots target source).own? target name = state.heap.own? target name
  /-- Of the target only the slots change. -/
  changed : ∀ source record, state.heap.objects.get? target.index = some record →
    (state.heap.copySlots target source).objects.get? target.index =
      some { record with slots := record.slots.union (state.heap.slots source) }
  /-- No other object changes, nor a cell nor anything else in the heap. -/
  unchanged : ∀ source, Heap.Edits target state.heap (state.heap.copySlots target source)
  /-- A copy of an object onto itself changes nothing. -/
  self : state.heap.copySlots target target = state.heap
  /-- Neither does a second copy from the same source. -/
  twice : ∀ source,
    state.heap.copyBoth target source source = state.heap.copySlots target source
  /-- Two sources can be combined in a new object first; when the second one is the target itself,
  exactly if it has the same descriptors as the first under their common names. -/
  combined_iff : ∀ first second prototype tag, first.index < state.heap.objects.size →
    second.index < state.heap.objects.size →
      ((state.heap.copyBoth target first second).slots target =
          (state.heap.copyCombined prototype tag target first second).slots target ↔
        (second = target → ∀ name written own, state.heap.own? first name = some written →
          state.heap.own? target name = some own → written = own))
  /-- Two sources without common names give the same entries in either order, up to the order. -/
  commute : ∀ first second,
    (∀ name ∈ state.heap.ownNames first, name ∉ state.heap.ownNames second) →
      ((state.heap.copyBoth target first second).slots target).entries.Perm
        ((state.heap.copyBoth target second first).slots target).entries

/-- Assumes: the target exists.

Copying slots is the union of ordered maps in which the source wins. -/
theorem slotCopy (place : RealmId) (state : State) (target : ObjectId)
    (htarget : target.index < state.heap.objects.size) : SlotCopy place state target where
  ends source hsource := by
    have hknown : [Value.object target, .object source].all state.heap.knows = true := by
      simp [Heap.knows, htarget, hsource]
    rw [Operation.execute_of_known hknown]
    rfl
  names source := by
    rw [Heap.ownNames, Heap.slots_copySlots htarget, OrderedMap.keys_union]
    rfl
  copied source name property howned := by
    rw [Heap.own?_copySlots htarget, howned, Option.some_or]
  kept source name habsent := by
    rw [Heap.own?_copySlots htarget, habsent, Option.none_or]
  changed source record hrecord := by
    rw [Heap.copySlots_eq_defineAll, Heap.defineAll_eq_modify, Arena.get?_modify_self, hrecord]
    rfl
  unchanged source := Heap.edits_copySlots target source state.heap
  self := Heap.copySlots_self state.heap target
  twice := Heap.copyBoth_same htarget
  combined_iff _ _ _ _ hfirst hsecond := Heap.slots_copyBoth_eq_iff htarget hfirst hsecond
  commute _ _ h := OrderedMap.entries_perm_of_find? (Heap.own?_copyBoth_comm htarget h)

namespace SlotCopy

/-- Two objects that have different values under one name, and a name of their own each. -/
def state : State :=
  let first := Heap.empty.addObject
    ⟨none, none, OrderedMap.empty.insertAll
      [("x", .ordinary (.integer 1)), ("y", .ordinary (.integer 3))]⟩
  { State.fresh .standard with
    heap := first.addObject
      ⟨some ⟨0⟩, none, OrderedMap.empty.insertAll
        [("z", .ordinary (.integer 4)), ("x", .ordinary (.integer 2))]⟩ }

/-- A copy from an heir overwrites in place and appends what is new. -/
theorem slotCopy_heir :
    (state.heap.copySlots ⟨0⟩ ⟨1⟩).ownNames ⟨0⟩ = ["x", "y", "z"] ∧
      (state.heap.copySlots ⟨0⟩ ⟨1⟩).own? ⟨0⟩ "x" = some (.ordinary (.integer 2)) ∧
      (state.heap.copySlots ⟨0⟩ ⟨1⟩).own? ⟨0⟩ "y" = some (.ordinary (.integer 3)) := by
  have hcopy := slotCopy ⟨0⟩ state ⟨0⟩ (by decide)
  refine ⟨?_, hcopy.copied ⟨1⟩ "x" _ (by decide), ?_⟩
  · rw [hcopy.names]
    decide
  · rw [hcopy.kept ⟨1⟩ "y" (by decide)]
    decide

/-- Combining the sources first gives another table when the second source is the target itself and
the first one overwrites a name of it. -/
theorem copyBoth_ne_copyCombined :
    ¬∀ (heap : Heap) (target first second : ObjectId), target.index < heap.objects.size →
      first.index < heap.objects.size → second.index < heap.objects.size →
        (heap.copyBoth target first second).slots target =
          (heap.copyCombined none none target first second).slots target := by
  intro hcombined
  have hsame := hcombined state.heap ⟨0⟩ ⟨1⟩ ⟨0⟩ (by decide) (by decide) (by decide)
  exact absurd hsame (by decide)

end SlotCopy

end GradualRuntime
