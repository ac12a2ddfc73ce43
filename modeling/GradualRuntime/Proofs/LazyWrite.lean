import GradualRuntime.Proofs.Access

/-!
# Writing to a lazy binding before and after it is read

A write through an object that finds a lazy binding stores the value in the object that holds the
binding; once the binding has been read there is an ordinary slot in its place, and the same write
stores the value in the object that was written to. The two agree exactly when the binding is held
by that object itself (`Member.set_agrees_iff`). Otherwise a write that comes before every read is
seen through all the objects that inherit the binding.
-/

set_option autoImplicit false

namespace GradualRuntime

namespace Member

variable {state forced : State} {object holder : ObjectId} {name : String} {reference : CellId}
  {record : LazyCell} {initial value : Value}

/-- A write that finds a writable slot puts an own slot on the object written to. -/
theorem endsWith_set_of_writable {enumerable : Bool} {current : Value}
    (h : state.heap.lookup object name = some (holder, .data current true enumerable)) :
    (set object name value state).EndsWith (.ok ())
      { state with
        heap := state.heap.define object name
          (.data value true (enumerable || holder != object)) } := by
  rw [set_of_writable h]
  exact .ended _ _

/-- A write through any object that finds a mutable binding stores the value in the holder. -/
theorem endsWith_set_of_binding
    (hlookup : state.heap.lookup object name = some (holder, .binding reference))
    (hrecord : state.heap.cell? reference = some record) (hmutable : record.isMutable = true)
    (hforce : (LazyBinding.force reference state).EndsWith (.ok initial) forced) :
    (set object name value state).EndsWith (.ok ())
      { forced with heap := forced.heap.define holder name (.data value true true) } := by
  rw [set_of_binding hlookup]
  simpa [LazyCell.materialized, hmutable] using
    LazyBinding.endsWith_write hrecord hmutable hforce

/-- A read through any object that finds a mutable binding leaves a writable slot in the holder. -/
theorem endsWith_get_of_binding
    (hlookup : state.heap.lookup object name = some (holder, .binding reference))
    (hrecord : state.heap.cell? reference = some record) (hmutable : record.isMutable = true)
    (hforce : (LazyBinding.force reference state).EndsWith (.ok initial) forced) :
    (get object name state).EndsWith (.ok initial)
      { forced with heap := forced.heap.define holder name (.data initial true true) } := by
  rw [get, read_of_binding hlookup]
  simpa [LazyCell.materialized, hmutable] using LazyBinding.endsWith_read hrecord hforce

/-- Assumes: the lookup finds a mutable lazy binding, a force of its cell returns a value, and the
force changes no object that exists.

A write leaves the same heap as a read followed by the same write exactly when the object itself
holds the binding. When it inherits the binding, the write alone stores the value in the holder, and
every object that inherits the binding reads it from there; the write after the read stores the
value in the object that was written to, and the holder keeps the initial value. -/
theorem set_agrees_iff
    (hlookup : state.heap.lookup object name = some (holder, .binding reference))
    (hrecord : state.heap.cell? reference = some record) (hmutable : record.isMutable = true)
    (hforce : (LazyBinding.force reference state).EndsWith (.ok initial) forced)
    (huntouched : ∀ index < state.heap.objects.size,
      forced.heap.objects.get? index = state.heap.objects.get? index) (value : Value) :
    ∃ written read both,
      (set object name value state).EndsWith (.ok ()) written ∧
      (get object name state).EndsWith (.ok initial) read ∧
      (set object name value read).EndsWith (.ok ()) both ∧
      (written.heap = both.heap ↔ holder = object) ∧
      (holder ≠ object →
        written.heap.own? holder name = some (.data value true true) ∧
        written.heap.own? object name = none ∧
        (∀ other, state.heap.lookup other name = some (holder, .binding reference) →
          get other name written = .ended (.ok value) written) ∧
        both.heap.own? holder name = some (.data initial true true) ∧
        both.heap.own? object name = some (.data value true true)) := by
  have hforced : ∀ {other : ObjectId},
      state.heap.lookup other name = some (holder, .binding reference) →
        forced.heap.lookup other name = some (holder, .binding reference) :=
    Heap.lookup_of_agree huntouched
  have hholder := Heap.exists_of_own?_eq_some (Heap.own?_of_lookup (hforced hlookup))
  -- After the read the lookup still finds the holder, which now has an ordinary slot.
  let read : State :=
    { forced with heap := forced.heap.define holder name (.data initial true true) }
  have hread : read.heap.lookup object name = some (holder, .data initial true true) :=
    Heap.lookup_define_holder (hforced hlookup) (.data initial true true)
  have hobject : object.index < read.heap.objects.size := Heap.exists_of_lookup hread
  have hwritten : holder ≠ object →
      (forced.heap.define holder name (.data value true true)).own? object name = none := by
    intro hne
    rw [Heap.own?_define_of_ne _ (Ne.symm hne)]
    exact Heap.own?_eq_none_of_lookup (hforced hlookup) hne
  have hboth : (read.heap.define object name (.data value true (true || holder != object))).own?
      object name = some (.data value true true) := Heap.own?_define_self hobject name _
  refine ⟨_, read, _, endsWith_set_of_binding hlookup hrecord hmutable hforce,
    endsWith_get_of_binding hlookup hrecord hmutable hforce,
    endsWith_set_of_writable hread, ⟨fun heq ↦ ?_, ?_⟩, fun hne ↦ ⟨?_, hwritten hne, ?_, ?_, hboth⟩⟩
  · by_contra hne
    have hsame := congrArg (fun heap : Heap ↦ heap.own? object name) heq
    cases (hwritten hne).symm.trans (hsame.trans hboth)
  · rintro rfl
    exact (forced.heap.define_define_self holder name _ _).symm
  · exact Heap.own?_define_self hholder name _
  · intro other hother
    have hfound : (forced.heap.define holder name (.data value true true)).lookup other name =
        some (holder, .data value true true) :=
      Heap.lookup_define_holder (hforced hother) (.data value true true)
    simp [get, Member.read, hfound]
  · exact (Heap.own?_define_of_ne _ hne name name _).trans (Heap.own?_define_self hholder name _)

/-- An object that inherits a mutable binding, whose initializer returns one. -/
def inheritingState : State :=
  let functions := Heap.empty.addFunction ⟨"one", []⟩
  let parent := (functions.addObject ⟨none, none, .empty⟩).bindLazily ⟨0⟩ "field" ⟨0⟩ true
  { State.fresh .standard with
    heap := parent.addObject ⟨some ⟨0⟩, none, .empty⟩
    procedures := Arena.empty.push
      (.native fun _ _ ↦ .finish (.ok (.value (.integer 1)))) }

/-- A write through the inheriting object and a write after a read leave different heaps. -/
theorem set_disagrees_inheriting :
    ∃ written read both,
      (set ⟨1⟩ "field" (.integer 5) inheritingState).EndsWith (.ok ()) written ∧
      (get ⟨1⟩ "field" inheritingState).EndsWith (.ok (.integer 1)) read ∧
      (set ⟨1⟩ "field" (.integer 5) read).EndsWith (.ok ()) both ∧
      written.heap ≠ both.heap ∧
      written.heap.own? ⟨0⟩ "field" = some (.data (.integer 5) true true) := by
  have hlookup : inheritingState.heap.lookup ⟨1⟩ "field" = some (⟨0⟩, .binding ⟨0⟩) := by decide
  have hrecord : inheritingState.heap.cell? ⟨0⟩ = some ⟨"field", true, .uninitialized ⟨0⟩⟩ := rfl
  have hcallee : (Machine.enter ⟨⟨0⟩, .undefined, [], .initializing ⟨0⟩⟩
      (inheritingState.startCell ⟨0⟩ "field")).EndsWith (.ok (.value (.integer 1))) _ :=
    Machine.endsWith_enter rfl (Body.endsWith_finish _ _)
  obtain ⟨written, read, both, hset, hget, hboth, hiff, hinherited⟩ :=
    set_agrees_iff hlookup hrecord rfl (LazyBinding.endsWith_force hrecord rfl hcallee)
      (fun _ _ ↦ rfl) (.integer 5)
  have hne : (⟨0⟩ : ObjectId) ≠ ⟨1⟩ := by decide
  exact ⟨written, read, both, hset, hget, hboth, fun heq ↦ hne (hiff.1 heq), (hinherited hne).1⟩

end Member

end GradualRuntime
