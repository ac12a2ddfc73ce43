import GradualRuntime.Proofs.Access
import GradualRuntime.Proofs.Overlay

/-!
# Mixin application

What applying a mixin leaves, in terms of the heap in which it is applied. `Mixin.Composed`
describes the class that is made: its prototype owns the overlay of the sources' own slots and
chains to the prototype of the base, its statics own nothing and chain to the statics of the base.
Every application to classes that exist makes such a class at once, without a call, and leaves
everything that exists as it is (`Mixin.compose_of_known`).

`Overlapping` is a program with two sources that own a member of the same name.
-/

set_option autoImplicit false

namespace GradualRuntime

/-- The prototypes of classes, in order. -/
def Heap.prototypesOf (heap : Heap) (references : List ClassId) : List ObjectId :=
  (references.filterMap heap.class?).map Class.prototype

namespace Mixin

/-- The class `record` in `after` is what the application of a mixin in `before` has made. -/
structure Composed (before after : Heap) (base : ClassId) (sources : List ClassId)
    (derived : ClassId) (baseRecord record : Class) : Prop where
  known : before.class? base = some baseRecord
  made : after.class? derived = some record
  superclass : record.superclass = some base
  composition : record.composition = some ⟨base, sources⟩
  /-- The prototype is a new object. -/
  fresh : record.prototype = before.nextObject
  prototype_lt : record.prototype.index < after.objects.size
  statics_lt : record.statics.index < after.objects.size
  link : after.prototype? record.prototype = some baseRecord.prototype
  staticsLink : after.prototype? record.statics = some baseRecord.statics
  /-- The prototype owns the names that the sources' prototypes own, in the order in which they
  first occur. -/
  names : after.ownNames record.prototype =
    ((before.prototypesOf sources).flatMap before.ownNames).eraseDups
  /-- Every name has the descriptor of the last source that owns it. -/
  entries : ∀ name,
    after.own? record.prototype name = before.lastOwned (before.prototypesOf sources) name
  /-- The statics own nothing. -/
  statics : ∀ name, after.own? record.statics name = none

/-- Everything that exists is left as it is: a mixin application adds objects and a class, reports
the class, and calls nothing. -/
structure Undisturbed (before after : State) (record : Class) : Prop where
  preserved : before.heap.Preserved after.heap
  heap : after.heap = { before.heap with
    objects := after.heap.objects
    classes := after.heap.classes }
  state : after = { before with heap := after.heap, trace := after.trace }
  trace : after.trace =
    .emitted (.mixinComposed record.name (after.heap.ownNames record.prototype).length) ::
      before.trace

variable {before after later : Heap} {base derived : ClassId} {sources : List ClassId}
  {baseRecord record : Class}

namespace Composed

/-- A lookup through the prototype finds what the last source owns, or else what a lookup through
the base's prototype finds. -/
theorem lookup_eq (h : Composed before after base sources derived baseRecord record)
    (hwell : after.WellFormed) (name : String) :
    after.lookup record.prototype name =
      ((before.lastOwned (before.prototypesOf sources) name).map fun property ↦
        (record.prototype, property)).or (after.lookup baseRecord.prototype name) := by
  rw [hwell.lookup_eq_or h.link, h.entries]

/-- A lookup through the statics is a lookup through the statics of the base. -/
theorem lookup_statics (h : Composed before after base sources derived baseRecord record)
    (hwell : after.WellFormed) (name : String) :
    after.lookup record.statics name = after.lookup baseRecord.statics name := by
  rw [hwell.lookup_eq_or h.staticsLink, h.statics]
  rfl

end Composed

section Stages

variable {heap : Heap} {owners : List ObjectId} {object : ObjectId}

/-- The heap with an object for the prototype of a mixin application. -/
def withPrototype (heap : Heap) (baseRecord : Class) : Heap :=
  heap.addObject ⟨some baseRecord.prototype, none, .empty⟩

/-- The heap in which that object has its slots. -/
def overlaid (heap : Heap) (baseRecord : Class) (owners : List ObjectId) : Heap :=
  overlay heap.nextObject owners (withPrototype heap baseRecord)

/-- The heap with an object for the statics as well. -/
def furnished (heap : Heap) (baseRecord : Class) (owners : List ObjectId) : Heap :=
  (overlaid heap baseRecord owners).addObject ⟨some baseRecord.statics, none, .empty⟩

/-- The class that an application makes of these. -/
def composedRecord (heap : Heap) (base : ClassId) (baseRecord : Class) (sources : List ClassId) :
    Class where
  name := name baseRecord.name ((sources.filterMap heap.class?).map Class.name)
  superclass := some base
  ownConstructor := none
  prototype := heap.nextObject
  statics := (overlaid heap baseRecord (heap.prototypesOf sources)).nextObject
  composition := some ⟨base, sources⟩

theorem ne_nextObject (h : object.index < heap.objects.size) : object ≠ heap.nextObject := by
  rintro rfl
  exact Nat.lt_irrefl _ h

theorem index_lt_of_mem_prototypesOf (hwell : heap.WellFormed) {references : List ClassId}
    (h : object ∈ heap.prototypesOf references) : object.index < heap.objects.size := by
  obtain ⟨record, hrecord, rfl⟩ := List.mem_map.1 h
  obtain ⟨reference, -, hreference⟩ := List.mem_filterMap.1 hrecord
  exact (hwell.classes reference record hreference).prototype

/-- An object that has just been made owns nothing. -/
theorem slots_addObject_self (heap : Heap) (prototype : Option ObjectId) :
    (heap.addObject ⟨prototype, none, .empty⟩).slots heap.nextObject = .empty := by
  simp [Heap.slots, Heap.addObject, Heap.nextObject]

theorem preserved_withPrototype (heap : Heap) (baseRecord : Class) :
    heap.Preserved (withPrototype heap baseRecord) := heap.preserved_addObject _

theorem size_withPrototype (heap : Heap) (baseRecord : Class) :
    (withPrototype heap baseRecord).objects.size = heap.objects.size + 1 := by
  rw [withPrototype, Heap.addObject, Arena.size_push]

theorem edits_overlaid (heap : Heap) (baseRecord : Class) (owners : List ObjectId) :
    Heap.Edits heap.nextObject (withPrototype heap baseRecord)
      (overlaid heap baseRecord owners) :=
  Heap.edits_overlay _ _ _

theorem size_overlaid (heap : Heap) (baseRecord : Class) (owners : List ObjectId) :
    (overlaid heap baseRecord owners).objects.size = heap.objects.size + 1 := by
  rw [(edits_overlaid heap baseRecord owners).size, size_withPrototype]

theorem nextObject_lt_overlaid (heap : Heap) (baseRecord : Class) (owners : List ObjectId) :
    heap.nextObject.index < (overlaid heap baseRecord owners).objects.size := by
  rw [size_overlaid]
  exact Nat.lt_succ_self _

theorem prototype?_overlaid (heap : Heap) (baseRecord : Class) (owners : List ObjectId) :
    (overlaid heap baseRecord owners).prototype? heap.nextObject = some baseRecord.prototype :=
  (edits_overlaid heap baseRecord owners).link.trans (heap.prototype?_addObject_self _)

/-- What existed is as it was. -/
theorem preserved_overlaid (heap : Heap) (baseRecord : Class) (owners : List ObjectId) :
    heap.Preserved (overlaid heap baseRecord owners) := by
  have hedits := edits_overlaid heap baseRecord owners
  have hmade := preserved_withPrototype heap baseRecord
  refine ⟨?_, fun object hobject ↦ ?_, fun reference record hrecord ↦ ?_⟩
  · rw [size_overlaid]
    exact Nat.le_succ _
  · exact (hedits.others object (ne_nextObject hobject)).trans (hmade.objects object hobject)
  · rw [hedits.rest]
    exact hmade.classes reference record hrecord

section Slots

variable (howners : ∀ owner ∈ owners, owner.index < heap.objects.size)

include howners

theorem own?_overlaid (name : String) :
    (overlaid heap baseRecord owners).own? heap.nextObject name = heap.lastOwned owners name := by
  have hne : ∀ owner ∈ owners, owner ≠ heap.nextObject :=
    fun owner howner ↦ ne_nextObject (howners owner howner)
  have hexists : heap.nextObject.index < (withPrototype heap baseRecord).objects.size := by
    rw [size_withPrototype]
    exact Nat.lt_succ_self _
  have hempty : (withPrototype heap baseRecord).own? heap.nextObject name = none := by
    rw [Heap.own?, withPrototype, slots_addObject_self, OrderedMap.find?_empty]
  have hmade := preserved_withPrototype heap baseRecord
  rw [overlaid, Heap.own?_overlay hne hexists, hempty, Option.or_none,
    Heap.lastOwned_congr fun owner howner ↦ hmade.own?_eq (howners owner howner) name]

theorem ownNames_overlaid :
    (overlaid heap baseRecord owners).ownNames heap.nextObject =
      (owners.flatMap heap.ownNames).eraseDups := by
  have hne : ∀ owner ∈ owners, owner ≠ heap.nextObject :=
    fun owner howner ↦ ne_nextObject (howners owner howner)
  have hexists : heap.nextObject.index < (withPrototype heap baseRecord).objects.size := by
    rw [size_withPrototype]
    exact Nat.lt_succ_self _
  have hempty : (withPrototype heap baseRecord).ownNames heap.nextObject = [] := by
    rw [Heap.ownNames, withPrototype, slots_addObject_self]
    rfl
  have hmade := preserved_withPrototype heap baseRecord
  have hnames : owners.flatMap (withPrototype heap baseRecord).ownNames =
      owners.flatMap heap.ownNames :=
    List.flatMap_congr fun owner howner ↦
      congrArg OrderedMap.keys (hmade.slots_eq (howners owner howner))
  rw [overlaid, Heap.ownNames_overlay hne hexists, hempty, hnames, foldl_includeName]

end Slots

end Stages

section Application

variable {heap : Heap} {state : State}

/-- The heap after an application. -/
def applied (heap : Heap) (base : ClassId) (baseRecord : Class) (sources : List ClassId) : Heap :=
  (furnished heap baseRecord (heap.prototypesOf sources)).addClass
    (composedRecord heap base baseRecord sources)

theorem preserved_applied (heap : Heap) (base : ClassId) (baseRecord : Class)
    (sources : List ClassId) :
    (overlaid heap baseRecord (heap.prototypesOf sources)).Preserved
      (applied heap base baseRecord sources) :=
  (Heap.preserved_addObject _ _).trans (Heap.preserved_addClass _ _)

theorem nextClass_furnished (heap : Heap) (baseRecord : Class) (owners : List ObjectId) :
    (furnished heap baseRecord owners).nextClass = heap.nextClass := by
  rw [furnished, Heap.addObject, (edits_overlaid heap baseRecord owners).rest]
  rfl

/-- The class that an application makes is as described. -/
theorem composed_applied (sources : List ClassId) (hwell : heap.WellFormed)
    (hbase : heap.class? base = some baseRecord) :
    Composed heap (applied heap base baseRecord sources) base sources heap.nextClass baseRecord
      (composedRecord heap base baseRecord sources) := by
  have howners : ∀ owner ∈ heap.prototypesOf sources, owner.index < heap.objects.size :=
    fun owner howner ↦ index_lt_of_mem_prototypesOf hwell howner
  have hkeep := preserved_applied heap base baseRecord sources
  have hexists := nextObject_lt_overlaid heap baseRecord (heap.prototypesOf sources)
  refine
    { known := hbase
      made := ?_
      superclass := rfl
      composition := rfl
      fresh := rfl
      prototype_lt := Nat.lt_of_lt_of_le hexists hkeep.size
      statics_lt := ?_
      link := (hkeep.prototype?_eq hexists).trans (prototype?_overlaid _ _ _)
      staticsLink := Heap.prototype?_addObject_self _ _
      names := ?_
      entries := fun name ↦ (hkeep.own?_eq hexists name).trans (own?_overlaid howners name)
      statics := fun name ↦ ?_ }
  · rw [← nextClass_furnished heap baseRecord (heap.prototypesOf sources)]
    exact Heap.class?_addClass_self _ _
  · rw [applied, Heap.addClass, furnished, Heap.addObject, Arena.size_push]
    exact Nat.lt_succ_self _
  · calc (applied heap base baseRecord sources).ownNames heap.nextObject
        = (overlaid heap baseRecord (heap.prototypesOf sources)).ownNames heap.nextObject :=
          congrArg OrderedMap.keys (hkeep.slots_eq hexists)
      _ = ((heap.prototypesOf sources).flatMap heap.ownNames).eraseDups :=
          ownNames_overlaid howners
  · have hslots : (applied heap base baseRecord sources).slots
        (composedRecord heap base baseRecord sources).statics = .empty :=
      slots_addObject_self _ _
    rw [Heap.own?, hslots, OrderedMap.find?_empty]

/-- The state after an application: it differs in the heap and in the report of the class. -/
def appliedState (state : State) (base : ClassId) (baseRecord : Class) (sources : List ClassId) :
    State :=
  { state with
    heap := applied state.heap base baseRecord sources
    trace := .emitted (.mixinComposed (composedRecord state.heap base baseRecord sources).name
      ((applied state.heap base baseRecord sources).ownNames state.heap.nextObject).length) ::
        state.trace }

theorem undisturbed_appliedState (state : State) (base : ClassId) (baseRecord : Class)
    (sources : List ClassId) :
    Undisturbed state (appliedState state base baseRecord sources)
      (composedRecord state.heap base baseRecord sources) where
  preserved := (preserved_overlaid _ _ _).trans (preserved_applied _ _ _ _)
  heap := by
    have hedits := edits_overlaid state.heap baseRecord (state.heap.prototypesOf sources)
    rw [appliedState, applied, furnished, Heap.addClass, Heap.addObject, hedits.rest]
    rfl
  state := rfl
  trace := rfl

theorem allocate_of_lt {prototype : ObjectId} (h : prototype.index < state.heap.objects.size) :
    Run.allocate (some prototype) none state =
      .ended (.ok state.heap.nextObject)
        { state with heap := state.heap.addObject ⟨some prototype, none, .empty⟩ } := by
  have hknown : ((some prototype).all fun parent ↦ state.heap.knows (.object parent)) = true := by
    simpa [Heap.knows] using h
  exact Run.allocate_of_known hknown none

/-- The state in which the slots of the prototype have been reported. -/
def reportedState (state : State) (base : ClassId) (baseRecord : Class) (sources : List ClassId) :
    State :=
  let heap := overlaid state.heap baseRecord (state.heap.prototypesOf sources)
  { state with heap := heap }.record
    (.emitted (.mixinComposed (composedRecord state.heap base baseRecord sources).name
      (heap.ownNames state.heap.nextObject).length))

/-- Applying a mixin to classes that exist makes the class at once. -/
theorem compose_of_known (hwell : state.heap.WellFormed)
    (hbase : state.heap.class? base = some baseRecord)
    (hsources : ∀ source ∈ sources, source.index < state.heap.classes.size) :
    compose base sources state =
      .ended (.ok state.heap.nextClass) (appliedState state base baseRecord sources) := by
  have hfits := hwell.classes base baseRecord hbase
  rw [compose, Run.bind_of_ok (Run.classRecord_of_some hbase),
    Run.bind_of_ok (Run.classRecords_of_known hsources),
    Run.bind_of_ok (allocate_of_lt hfits.prototype), Run.bind_of_ok (Run.changeHeap_apply _ _),
    Run.bind_of_ok (Run.heap_apply _), Run.bind_of_ok (Run.emit_apply _ _)]
  have hstatics : baseRecord.statics.index <
      (reportedState state base baseRecord sources).heap.objects.size :=
    Nat.lt_of_lt_of_le hfits.statics (preserved_overlaid _ _ _).size
  have hcount : (applied state.heap base baseRecord sources).ownNames state.heap.nextObject =
      (overlaid state.heap baseRecord (state.heap.prototypesOf sources)).ownNames
        state.heap.nextObject :=
    congrArg OrderedMap.keys
      ((preserved_applied state.heap base baseRecord sources).slots_eq (nextObject_lt_overlaid ..))
  refine (Run.bind_of_ok (allocate_of_lt hstatics) _).trans ?_
  rw [Run.create_apply, appliedState, hcount,
    ← nextClass_furnished state.heap baseRecord (state.heap.prototypesOf sources)]
  rfl

end Application

end Mixin

/-- Makes a class without constructor that has some ordinary members. -/
def Operation.buildPlain (members : Nat) : Operation :=
  .type (.build false false 0 (List.replicate members .ordinary) [])

/-! A program with a base class and two sources that both have a member `m`. -/

namespace Overlapping

def baseOperands : List Value := [.string "Base", .string "b", .integer 0]

def firstOperands : List Value :=
  [.string "First", .string "m", .integer 1, .string "one", .integer 1]

def secondOperands : List Value := [.string "Second", .string "m", .integer 2]

/-- Applies the mixin of the base with both sources. -/
def application : Body :=
  .perform ⟨0⟩ (.type .mixin) (.type ⟨0⟩ :: [⟨1⟩, ⟨2⟩].map .type) .finish

/-- Makes the classes and applies the mixin. -/
def program : Body :=
  .perform ⟨0⟩ (.buildPlain 1) baseOperands fun _ ↦
  .perform ⟨0⟩ (.buildPlain 2) firstOperands fun _ ↦
  .perform ⟨0⟩ (.buildPlain 1) secondOperands fun _ ↦
  application

/-- The state with the base class. -/
def baseState : State :=
  ((Operation.buildPlain 1).execute ⟨0⟩ baseOperands (.fresh .standard)).state

/-- The state with the base class and the first source. -/
def firstState : State := ((Operation.buildPlain 2).execute ⟨0⟩ firstOperands baseState).state

/-- The state with all classes, in which the mixin is applied. -/
def state : State := ((Operation.buildPlain 1).execute ⟨0⟩ secondOperands firstState).state

theorem moment_program :
    (Session.moment [program] (.fresh .standard) 4).configuration =
      ⟨[], application.run state⟩ := by
  have hstart : (Session.moment [program] (.fresh .standard) 1).configuration =
      ⟨[], program.run (.fresh .standard)⟩ := rfl
  have hbase : (Operation.buildPlain 1).execute ⟨0⟩ baseOperands (.fresh .standard) =
      .ended (.ok (.value (.type ⟨0⟩))) baseState := rfl
  have hfirst : (Operation.buildPlain 2).execute ⟨0⟩ firstOperands baseState =
      .ended (.ok (.value (.type ⟨1⟩))) firstState := rfl
  have hsecond : (Operation.buildPlain 1).execute ⟨0⟩ secondOperands firstState =
      .ended (.ok (.value (.type ⟨2⟩))) state := rfl
  have hone := Session.configuration_of_perform hstart hbase
  have htwo := Session.configuration_of_perform hone hfirst
  exact Session.configuration_of_perform htwo hsecond

end Overlapping

end GradualRuntime
