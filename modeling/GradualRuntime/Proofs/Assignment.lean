import GradualRuntime.Proofs.NameGrowth

/-!
# Assignment to a member

A write goes by the nearest owner of the name on the prototype chain, and where it finds a writable
data slot, or no slot at all, it stores into the object that was written to and nowhere else. The
flags of the slot that it leaves depend on where the owner is: an own slot keeps its place and its
enumerable flag, and an inherited one is shadowed by a new slot at the end, which is enumerable. In
all of these cases the write is over at once, so no code has run. A slot that rejects writes
(`Heap.Rejects`) makes the write fail with nothing changed, wherever its owner is.

What the write can be seen by is a matter of the prototype chains. The new slot is found from the
objects whose chain comes to the object before any owner of the name (`Heap.Exposes`), and every
other lookup finds what it found before (`Heap.exposes_of_lookup_define_ne`). `Member.Assigned` is
the account of a write that has stored, and `Member.assignment` says when a write stores and when it
is rejected.
-/

set_option autoImplicit false

namespace GradualRuntime

namespace Heap

/-- The chain of an object comes to another one before any owner of the name; that one may own the
name itself. -/
def Exposes (heap : Heap) (object : ObjectId) (name : String) (start : ObjectId) : Prop :=
  ∃ nearer farther, heap.chain start = nearer ++ object :: farther ∧
    ∀ other ∈ nearer, heap.own? other name = none

/-- The descriptors that reject writes: data slots that are not writable, accessors without a setter
and lazy bindings that are not mutable. -/
inductive Rejects (heap : Heap) : Property → Prop where
  | constant (value : Value) (enumerable : Bool) : Rejects heap (.data value false enumerable)
  | noSetter (getter : Option FunctionId) (enumerable : Bool) :
    Rejects heap (.accessor getter none enumerable)
  | binding {cell : CellId} {record : LazyCell} (present : heap.cell? cell = some record)
    (immutable : record.isMutable = false) : Rejects heap (.binding cell)

variable {heap : Heap} {object start : ObjectId} {name other : String}

section Lookup

/-- A slot is found from where nothing nearer owns the name. -/
theorem firstOwner_define_of_nearer (hexists : object.index < heap.objects.size)
    (property : Property) {nearer : List ObjectId}
    (hnearer : ∀ other ∈ nearer, heap.own? other name = none) (farther : List ObjectId) :
    (heap.define object name property).firstOwner name (nearer ++ object :: farther) =
      some (object, property) := by
  induction nearer with
  | nil => simp [firstOwner, own?_define_self hexists]
  | cons first rest ih =>
    by_cases hfirst : first = object
    · subst hfirst
      simp [firstOwner, own?_define_self hexists]
    · have hnone : (heap.define object name property).own? first name = none :=
        (heap.own?_define_of_ne hfirst name name property).trans
          (hnearer first List.mem_cons_self)
      rw [List.cons_append, firstOwner, hnone]
      exact ih fun other hother ↦ hnearer other (List.mem_cons_of_mem first hother)

/-- A slot changes what is found only where nothing nearer owns the name. -/
theorem exists_nearer_of_firstOwner_define_ne {property : Property} {objects : List ObjectId}
    (h : (heap.define object name property).firstOwner other objects ≠
      heap.firstOwner other objects) :
    other = name ∧ ∃ nearer farther, objects = nearer ++ object :: farther ∧
      ∀ owner ∈ nearer, heap.own? owner name = none := by
  induction objects with
  | nil => exact absurd rfl h
  | cons first rest ih =>
    by_cases hname : other = name
    · subst hname
      by_cases hfirst : first = object
      · subst hfirst
        exact ⟨rfl, [], rest, rfl, List.forall_mem_nil _⟩
      · have hsame := heap.own?_define_of_ne hfirst other other property
        cases hown : heap.own? first other with
        | some found => simp [firstOwner, hsame, hown] at h
        | none =>
          simp only [firstOwner, hsame, hown] at h
          obtain ⟨-, nearer, farther, rfl, hnearer⟩ := ih h
          exact ⟨rfl, first :: nearer, farther, rfl, List.forall_mem_cons.2 ⟨hown, hnearer⟩⟩
    · have hsame := heap.own?_define_of_name_ne object first hname property
      cases hown : heap.own? first other with
      | some found => simp [firstOwner, hsame, hown] at h
      | none =>
        simp only [firstOwner, hsame, hown] at h
        exact absurd (ih h).1 hname

theorem lookup_define_of_exposes (hexists : object.index < heap.objects.size)
    (property : Property) (h : heap.Exposes object name start) :
    (heap.define object name property).lookup start name = some (object, property) := by
  obtain ⟨nearer, farther, hchain, hnearer⟩ := h
  rw [lookup, chain_define, hchain, firstOwner_define_of_nearer hexists property hnearer]

theorem exposes_of_lookup_define_ne {property : Property}
    (h : (heap.define object name property).lookup start other ≠ heap.lookup start other) :
    other = name ∧ heap.Exposes object name start := by
  rw [lookup, chain_define, lookup] at h
  exact exists_nearer_of_firstOwner_define_ne h

/-- What is not found on a chain is not owned by the object itself. -/
theorem own?_eq_none_of_lookup_eq_none (h : heap.lookup object name = none) :
    heap.own? object name = none := by
  cases hown : heap.own? object name with
  | none => rfl
  | some found => cases h.symm.trans (lookup_of_own?_eq_some hown)

theorem tag?_define (heap : Heap) (object other : ObjectId) (name : String) (property : Property) :
    (heap.define object name property).tag? other = heap.tag? other := by
  by_cases h : other.index = object.index
  · cases hrecord : heap.objects.get? object.index <;> simp [tag?, define, h, hrecord]
  · simp [tag?, define, Arena.get?_modify_of_ne h]

end Lookup

end Heap

namespace Member

variable {state : State} {object : ObjectId} {name : String}

/-- A state after a value has been stored in a slot of an object, compared with the state before. -/
structure Assigned (object : ObjectId) (name : String) (value : Value) (enumerable : Bool)
    (before after : State) : Prop where
  /-- The object itself owns the slot, which is writable. -/
  own : after.heap.own? object name = some (.data value true enumerable)
  /-- A read of the member gives the value, and is over at once. -/
  reads : get object name after = .ended (.ok value) after
  /-- Every other slot of every object is what it was. -/
  slots : ∀ other otherName, other ≠ object ∨ otherName ≠ name →
    after.heap.own? other otherName = before.heap.own? other otherName
  /-- The heap differs in the slots of this object only: the other objects and all cells, generic
  types, tables, classes and functions are the same. -/
  edits : Heap.Edits object before.heap after.heap
  tag : after.heap.tag? object = before.heap.tag? object
  /-- Nothing but the heap has changed. -/
  outside : after = { before with heap := after.heap }
  /-- The slot is found from every object whose chain comes to this one before an owner. -/
  exposed : ∀ start, before.heap.Exposes object name start →
    after.heap.lookup start name = some (object, .data value true enumerable)
  /-- No other lookup has changed. -/
  changed : ∀ start otherName,
    after.heap.lookup start otherName ≠ before.heap.lookup start otherName →
      otherName = name ∧ before.heap.Exposes object name start

theorem assigned_define (hexists : object.index < state.heap.objects.size) (value : Value)
    (enumerable : Bool) :
    Assigned object name value enumerable state
      { state with heap := state.heap.define object name (.data value true enumerable) } := by
  have hown := Heap.own?_define_self hexists name (.data value true enumerable)
  exact {
    own := hown
    reads := get_of_own hown
    slots := by
      rintro other otherName (hother | hname)
      · exact Heap.own?_define_of_ne _ hother name otherName _
      · exact Heap.own?_define_of_name_ne _ object other hname _
    edits := Heap.edits_define object state.heap name _
    tag := Heap.tag?_define _ object object name _
    outside := rfl
    exposed := fun _ ↦ Heap.lookup_define_of_exposes hexists _
    changed := fun _ _ ↦ Heap.exposes_of_lookup_define_ne }

theorem set_of_rejects {holder : ObjectId} {property : Property}
    (h : state.heap.lookup object name = some (holder, property))
    (hrejects : state.heap.Rejects property) (value : Value) :
    set object name value state = .ended (.error (.readOnly name)) state := by
  cases hrejects with
  | constant kept enumerable => exact set_of_constant h value
  | noSetter getter enumerable => simp [set, h]
  | binding present immutable =>
    simp [set, h, LazyBinding.write, LazyBinding.cell, present, immutable]

/-- What a write of a value to a member of an object does, by what the name is found to be. -/
structure Assignment (state : State) (object : ObjectId) (name : String) (value : Value) :
    Prop where
  /-- Nobody on the chain owns the name: it becomes the last slot of the object. -/
  absent : state.heap.lookup object name = none →
    ∃ after, set object name value state = .ended (.ok ()) after ∧
      Assigned object name value true state after ∧
      after.heap.ownNames object = state.heap.ownNames object ++ [name]
  /-- The object itself has a writable slot: it keeps its place and its enumerable flag. -/
  own : ∀ {current enumerable},
    state.heap.lookup object name = some (object, .data current true enumerable) →
      ∃ after, set object name value state = .ended (.ok ()) after ∧
        Assigned object name value enumerable state after ∧
        after.heap.ownNames object = state.heap.ownNames object
  /-- The object inherits a writable slot: it is shadowed by an enumerable one, which comes last. -/
  inherited : ∀ {holder current enumerable}, holder ≠ object →
    state.heap.lookup object name = some (holder, .data current true enumerable) →
      ∃ after, set object name value state = .ended (.ok ()) after ∧
        Assigned object name value true state after ∧
        after.heap.ownNames object = state.heap.ownNames object ++ [name]
  /-- The slot, own or inherited, rejects writes: the write fails at once and changes nothing. -/
  rejected : ∀ {holder property}, state.heap.lookup object name = some (holder, property) →
    state.heap.Rejects property →
      set object name value state = .ended (.error (.readOnly name)) state

/-- Assumes: the object exists.

A write that finds no slot, or a writable data slot, stores into the object itself and can be seen
only from the objects that come to it before an owner of the name; a write that finds a slot that
rejects writes fails and changes nothing. -/
theorem assignment (hexists : object.index < state.heap.objects.size) (value : Value) :
    Assignment state object name value where
  absent h := by
    refine ⟨_, set_of_absent h value, assigned_define hexists value true, ?_⟩
    have hnew : state.heap.hasOwn object name = false := by
      rw [Heap.hasOwn_eq_isSome, Heap.own?_eq_none_of_lookup_eq_none h, Option.isSome_none]
    exact (Heap.ownNames_define _ hexists name _ object).trans (if_pos ⟨rfl, hnew⟩)
  own {current enumerable} h := by
    have hset := set_of_writable h value
    rw [bne_self_eq_false, Bool.or_false] at hset
    refine ⟨_, hset, assigned_define hexists value enumerable, ?_⟩
    have hold : state.heap.hasOwn object name = true := by
      rw [Heap.hasOwn_eq_isSome, Heap.own?_of_lookup h, Option.isSome_some]
    exact (Heap.ownNames_define _ hexists name _ object).trans (if_neg (by simp [hold]))
  inherited {holder current enumerable} hne h := by
    have hset := set_of_writable h value
    rw [bne_iff_ne.2 hne, Bool.or_true] at hset
    refine ⟨_, hset, assigned_define hexists value true, ?_⟩
    have hnew : state.heap.hasOwn object name = false := by
      rw [Heap.hasOwn_eq_isSome, Heap.own?_eq_none_of_lookup h hne, Option.isSome_none]
    exact (Heap.ownNames_define _ hexists name _ object).trans (if_pos ⟨rfl, hnew⟩)
  rejected h hrejects := set_of_rejects h hrejects value

/-- An object with a slot that is not enumerable, an heir and an heir of the heir. -/
def generationsState : State :=
  let elder := (Heap.empty.addObject ⟨none, none, .empty⟩).define ⟨0⟩ "field"
    (.data (.integer 1) true false)
  let heirs := (elder.addObject ⟨some ⟨0⟩, none, .empty⟩).addObject ⟨some ⟨1⟩, none, .empty⟩
  { State.fresh .standard with heap := heirs }

/-- A write to the heir shadows the slot there, which its own heir sees and the first object does
not. -/
theorem assignment_generations :
    ∃ after, set ⟨1⟩ "field" (.integer 5) generationsState = .ended (.ok ()) after ∧
      after.heap.own? ⟨1⟩ "field" = some (.data (.integer 5) true true) ∧
      after.heap.own? ⟨0⟩ "field" = some (.data (.integer 1) true false) ∧
      after.heap.lookup ⟨2⟩ "field" = some (⟨1⟩, .data (.integer 5) true true) ∧
      after.heap.lookup ⟨0⟩ "field" = some (⟨0⟩, .data (.integer 1) true false) := by
  have hexists : (⟨1⟩ : ObjectId).index < generationsState.heap.objects.size := by decide
  have hfound : generationsState.heap.lookup ⟨1⟩ "field" =
      some (⟨0⟩, .data (.integer 1) true false) := by decide
  have hshown : generationsState.heap.Exposes ⟨1⟩ "field" ⟨2⟩ :=
    ⟨[⟨2⟩], [⟨0⟩], by decide, by decide⟩
  have hassignment : Assignment generationsState ⟨1⟩ "field" (.integer 5) :=
    assignment hexists (.integer 5)
  obtain ⟨after, hset, hassigned, -⟩ := hassignment.inherited (by decide) hfound
  have hkept : after.heap.own? ⟨0⟩ "field" = some (.data (.integer 1) true false) :=
    (hassigned.slots ⟨0⟩ "field" (.inl (by decide))).trans (by decide)
  exact ⟨after, hset, hassigned.own, hkept, hassigned.exposed ⟨2⟩ hshown,
    Heap.lookup_of_own?_eq_some hkept⟩

end Member

end GradualRuntime
