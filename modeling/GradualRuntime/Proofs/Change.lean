import GradualRuntime.LazyBinding
import GradualRuntime.LinkedMap
import GradualRuntime.Construction
import GradualRuntime.GenericType
import Mathlib.Logic.Relation

/-!
# Changes of a state

Everything that the runtime does to a state by itself, without calling a function and without moving
a lazy cell, is a sequence of the changes listed here. `Heap.Change` lists the changes of the heap,
`State.Change` those of a whole state. Each change makes one thing or stores one property into a
slot of an object that exists; what may be stored is a parameter (`Heap.Permission`). A class is
made together with its prototype and its statics (`Heap.declare`), and a linked map together with
its table and its four functions (`State.addMap`), so what links them holds from the start.

What is added refers only to what is there: an object to a prototype, a class to its superclass, its
parts and the classes that it is composed of. An entry goes into the cache of a generic type
together with the success that it is made for.

The three steps of a lazy cell are functions of their own: `State.startCell` and `State.settleCell`.
Entering a call is one as well (`State.enter`), which files the entry of a linked map when the
function of the call does.
-/

set_option autoImplicit false

namespace GradualRuntime

namespace Event

/-- The cell that an event is about, if it is about the initializer of one. -/
def cell? : Event → Option CellId
  | initializerStarted cell _ | initializerFailed cell _ _ => some cell
  | _ => none

end Event

/-- Everything that a class refers to is below given numbers of objects and classes. -/
structure Class.Fits (record : Class) (objects classes : Nat) : Prop where
  prototype : record.prototype.index < objects
  statics : record.statics.index < objects
  superclass : ∀ parent, record.superclass = some parent → parent.index < classes
  composition : ∀ composition, record.composition = some composition →
    composition.base.index < classes ∧ ∀ source ∈ composition.sources, source.index < classes

/-- What fits keeps fitting when more objects are made. -/
theorem Class.Fits.mono {record : Class} {objects more classes : Nat}
    (h : record.Fits objects classes) (hmore : objects ≤ more) : record.Fits more classes :=
  ⟨Nat.lt_of_lt_of_le h.prototype hmore, Nat.lt_of_lt_of_le h.statics hmore, h.superclass,
    h.composition⟩

namespace Heap

section Permissions

/-- What may be stored into the slots of the objects of a heap. -/
abbrev Permission : Type := Heap → ObjectId → String → Property → Prop

/-- Everything may be stored. -/
def Permission.anything : Permission := fun _ _ _ _ ↦ True

/-- A slot that holds a lazy binding may get the value of the binding, once there is one. -/
inductive Materializes (heap : Heap) (object : ObjectId) (name : String) : Property → Prop where
  | intro {cell : CellId} {record : LazyCell} {value : Value}
    (held : heap.own? object name = some (.binding cell))
    (present : heap.cell? cell = some record) (done : record.state = .initialized value) :
    Materializes heap object name (record.materialized value)

/-- Some slots may get anything, and all others the values of their bindings. -/
def Permission.storing (slots : ObjectId → String → Prop) : Permission :=
  fun heap object name property ↦ slots object name ∨ heap.Materializes object name property

end Permissions

section NewObjects

variable (heap : Heap) (prototype : Option ObjectId) (tag : Option String)

/-- Defining a slot of the latest object. -/
theorem define_addObject (slots : OrderedMap String Property) (name : String)
    (property : Property) :
    (heap.addObject ⟨prototype, tag, slots⟩).define heap.nextObject name property =
      heap.addObject ⟨prototype, tag, slots.insert name property⟩ := by
  simp [define, addObject, nextObject, Arena.modify_push_size]

theorem defineAll_addObject (slots : OrderedMap String Property)
    (entries : List (String × Property)) :
    (heap.addObject ⟨prototype, tag, slots⟩).defineAll heap.nextObject entries =
      heap.addObject ⟨prototype, tag, slots.insertAll entries⟩ := by
  induction entries generalizing slots with
  | nil => rfl
  | cons entry rest ih =>
    rw [defineAll, List.foldl_cons, define_addObject]
    exact ih (slots.insert entry.1 entry.2)

/-- Copying slots onto the latest object gives it slots. -/
theorem exists_copyNames_addObject (slots : OrderedMap String Property) (source : ObjectId)
    (names : List String) :
    ∃ copied, (heap.addObject ⟨prototype, tag, slots⟩).copyNames heap.nextObject source names =
      heap.addObject ⟨prototype, tag, copied⟩ := by
  induction names generalizing slots with
  | nil => exact ⟨slots, rfl⟩
  | cons name rest ih =>
    rw [copyNames, List.foldl_cons]
    cases (heap.addObject ⟨prototype, tag, slots⟩).own? source name with
    | none => exact ih slots
    | some property =>
      dsimp only
      rw [define_addObject]
      exact ih _

theorem exists_overlay_addObject (slots : OrderedMap String Property) (sources : List ObjectId) :
    ∃ overlaid, Mixin.overlay heap.nextObject sources (heap.addObject ⟨prototype, tag, slots⟩) =
      heap.addObject ⟨prototype, tag, overlaid⟩ := by
  induction sources generalizing slots with
  | nil => exact ⟨slots, rfl⟩
  | cons source rest ih =>
    obtain ⟨copied, hcopied⟩ := heap.exists_copyNames_addObject prototype tag slots source
      ((heap.addObject ⟨prototype, tag, slots⟩).ownNames source)
    rw [Mixin.overlay, List.foldl_cons, copySlots, hcopied]
    exact ih copied

end NewObjects

section Changes

/-- The record of the superclass of a class, if it has one. -/
def parent? (heap : Heap) (record : Class) : Option Class := record.superclass.bind heap.class?

/-- Adds a class with its prototype and its statics, which chain to those of its superclass. -/
def declare (heap : Heap) (record : Class) (members statics : OrderedMap String Property) : Heap :=
  ((heap.addObject ⟨(heap.parent? record).map Class.prototype, none, members⟩).addObject
    ⟨(heap.parent? record).map Class.statics, none, statics⟩).addClass record

/-- One change of the heap. A cell that is added has not been accessed yet, and a generic type that
is added has an empty cache. -/
inductive Change (may : Permission) : Heap → Heap → Prop where
  | define (heap : Heap) (object : ObjectId) (name : String) (property : Property)
    (allowed : may heap object name property) :
    Change may heap (heap.define object name property)
  | addObject (heap : Heap) (object : Object)
    (known : ∀ parent, object.prototype = some parent → parent.index < heap.objects.size) :
    Change may heap (heap.addObject object)
  | addCell (heap : Heap) (name : String) (isMutable : Bool) (initializer : FunctionId) :
    Change may heap (heap.addCell ⟨name, isMutable, .uninitialized initializer⟩)
  | declare (heap : Heap) (record : Class) (members statics : OrderedMap String Property)
    (fits : record.Fits (heap.objects.size + 2) heap.classes.size)
    (ofPrototype : record.prototype = heap.nextObject)
    (ofStatics : record.statics = ⟨heap.objects.size + 1⟩)
    (known : ∀ parent, heap.parent? record = some parent →
      parent.prototype.index < heap.objects.size ∧ parent.statics.index < heap.objects.size + 1) :
    Change may heap (heap.declare record members statics)
  | addGeneric (heap : Heap) (constructorFunction : FunctionId) :
    Change may heap (heap.addGeneric ⟨constructorFunction, .empty⟩)

variable {may wider : Permission}

/-- A change of the heap moves no cell; it may add one that has not been accessed. -/
theorem Change.cell? {before after : Heap} (h : Change may before after) (cell : CellId) :
    after.cell? cell = before.cell? cell ∨
      before.cell? cell = none ∧ ∃ name isMutable initializer,
        after.cell? cell = some ⟨name, isMutable, .uninitialized initializer⟩ := by
  cases h with
  | addCell name isMutable initializer =>
    rcases before.cell?_addCell ⟨name, isMutable, .uninitialized initializer⟩ cell with
      hsame | ⟨hnone, hsome⟩
    · exact .inl hsame
    · exact .inr ⟨hnone, name, isMutable, initializer, hsome⟩
  | _ => exact .inl rfl

theorem Change.mono (hmay : ∀ heap object name property, may heap object name property →
    wider heap object name property) {before after : Heap} (h : Change may before after) :
    Change wider before after := by
  cases h with
  | define object name property allowed => exact .define _ _ _ _ (hmay _ _ _ _ allowed)
  | addObject object known => exact .addObject _ _ known
  | addCell name isMutable initializer => exact .addCell _ _ _ _
  | declare record members statics fits ofPrototype ofStatics known =>
    exact .declare _ _ _ _ fits ofPrototype ofStatics known
  | addGeneric constructorFunction => exact .addGeneric _ _

/-- A sequence of changes of the heap. -/
abbrev Changes (may : Permission) : Heap → Heap → Prop := Relation.ReflTransGen (Change may)

/-- The target may get whatever the source owns under some names. -/
theorem changes_copyNames {target source : ObjectId} {names : List String}
    (hmay : ∀ name ∈ names, ∀ heap property, may heap target name property) (heap : Heap) :
    Changes may heap (heap.copyNames target source names) := by
  induction names generalizing heap with
  | nil => exact .refl
  | cons name rest ih =>
    have hrest := ih fun other hother ↦ hmay other (List.mem_cons_of_mem name hother)
    rw [copyNames, List.foldl_cons]
    cases heap.own? source name with
    | none => exact hrest heap
    | some property =>
      exact .head (.define heap target name property (hmay name List.mem_cons_self heap property))
        (hrest _)

theorem changes_bindLazily {target : ObjectId} {name : String}
    (hmay : ∀ heap property, may heap target name property) (heap : Heap)
    (initializer : FunctionId) (isMutable : Bool) :
    Changes may heap (heap.bindLazily target name initializer isMutable) :=
  .head (.addCell heap name isMutable initializer)
    (.single (.define _ target name _ (hmay _ _)))

/-- The target may get bindings under the names that have initializers to contribute, which are the
same when their turn comes. -/
theorem changes_bindNames {target source : ObjectId} {initial : Heap} {names : List String}
    (hnodup : names.Nodup)
    (hmay : ∀ name ∈ names.takeWhile fun name ↦
      ((initial.own? source name).bind Property.initializer?).isSome,
      ∀ heap property, may heap target name property)
    (heap : Heap) (hsame : ∀ name ∈ names, heap.own? source name = initial.own? source name) :
    Changes may heap (bindNames target source names heap).2 := by
  induction names generalizing heap with
  | nil => exact .refl
  | cons name rest ih =>
    obtain ⟨hname, hrest⟩ := List.nodup_cons.1 hnodup
    rw [bindNames, hsame name List.mem_cons_self]
    cases hfirst : (initial.own? source name).bind Property.initializer? with
    | none => exact .refl
    | some pair =>
      simp only [List.takeWhile_cons, hfirst, Option.isSome_some, if_true] at hmay
      refine (changes_bindLazily (hmay name List.mem_cons_self) heap pair.1 pair.2).trans
        (ih hrest (fun other hother ↦ hmay other (List.mem_cons_of_mem name hother)) _
          fun other hother ↦ ?_)
      have hne : other ≠ name := fun heq ↦ hname (heq ▸ hother)
      exact (own?_define_of_name_ne _ target source hne _).trans
        (hsame other (List.mem_cons_of_mem name hother))

end Changes

end Heap

section Maps

/-- The own slots of the map whose first function has a given number. -/
def LinkedMap.slots (first : Nat) : OrderedMap String Property :=
  OrderedMap.empty.insertAll
    [("get", .method ⟨first⟩), ("set", .method ⟨first + 1⟩), ("containsKey", .method ⟨first + 2⟩),
      ("length", .ofGetter ⟨first + 3⟩)]

/-- Adds a linked map: its table, its functions and the object that offers them. -/
def State.addMap (state : State) (contents : LinkedTable) : State :=
  { state with
    heap :=
      { state.heap with
        tables := state.heap.tables.push contents
        objects := state.heap.objects.push
          ⟨none, some LinkedMap.tag, LinkedMap.slots state.heap.functions.size⟩
        functions := (((state.heap.functions.push ⟨"get", ["key"]⟩).push
          ⟨"set", ["key", "value"]⟩).push ⟨"containsKey", ["key"]⟩).push ⟨"length", []⟩ }
    procedures := (((state.procedures.push (.tableGet state.heap.nextTable)).push
      (.tableSet state.heap.nextTable)).push (.tableContains state.heap.nextTable)).push
        (.tableSize state.heap.nextTable) }

/-- Making a linked map adds it. -/
theorem LinkedMap.make_apply (contents : LinkedTable) (state : State) :
    make contents state = .ended (.ok state.heap.nextObject) (state.addMap contents) := by
  let added := { state with heap := state.heap.addTable contents }
  have hallocate : Run.allocate none (some tag) added =
      .ended (.ok added.heap.nextObject)
        { added with heap := added.heap.addObject ⟨none, some tag, .empty⟩ } :=
    Run.allocate_of_known rfl (some tag)
  simp only [make]
  rw [Run.bind_of_ok (Run.create_apply _ _ state), Run.bind_of_ok hallocate]
  simp only [Run.bind_apply, Run.makeFunction, Run.modifyGet_apply, Progress.andThen_ended,
    Run.onward_ok, Run.define_apply, Run.pure_apply, Heap.nextFunction, Heap.addFunction,
    Heap.define, Heap.addObject, Heap.nextObject, Arena.size_push, Arena.modify_push_size]
  rfl

end Maps

namespace State

/-- The state after a generic type has stored a new type and given it. -/
def construct (state : State) (generic : GenericId) (arguments : List Value) (result : Value) :
    State :=
  { state with
    heap := state.heap.storeInstantiation generic (GenericType.key arguments)
      ⟨arguments, result⟩ }.record (.instantiated generic arguments result)

@[simp]
theorem heap_construct (state : State) (generic : GenericId) (arguments : List Value)
    (result : Value) :
    (state.construct generic arguments result).heap =
      state.heap.storeInstantiation generic (GenericType.key arguments) ⟨arguments, result⟩ := rfl

/-- One change of a state that is neither a call nor a step of a lazy cell. The function that writes
to the table of a linked map is made with the map only. -/
inductive Change (may : Heap.Permission) : State → State → Prop where
  | heap {state : State} {after : Heap} (change : Heap.Change may state.heap after) :
    Change may state { state with heap := after }
  | function (state : State) (signature : Signature) (procedure : Procedure)
    (ordinary : ∀ table, procedure ≠ .tableSet table) :
    Change may state
      { state with
        heap := state.heap.addFunction signature
        procedures := state.procedures.push procedure }
  | addMap (state : State) (contents : LinkedTable) : Change may state (state.addMap contents)
  | addRealm (state : State) (config : Config) (oracle : TypeOracle) :
    Change may state
      { state with
        realms := state.realms.push (.new config oracle)
        current := ⟨state.realms.size⟩ }
  | setPrimitivePrototype (state : State) (reference : RealmId) (kind : PrimitiveKind)
    (prototype : ObjectId) :
    Change may state
      { state with
        realms := state.realms.modify reference.index fun record ↦
          { record with
            primitivePrototypes := record.primitivePrototypes.insert kind prototype } }
  | names (state : State) (globals : OrderedMap String Value)
    (cellNames : OrderedMap String CellId) (genericNames : OrderedMap String GenericId) :
    Change may state
      { state with globals := globals, cellNames := cellNames, genericNames := genericNames }
  | reused {state : State} {generic : GenericId} {arguments : List Value} {entry : Instantiation}
    (present : (state.heap.instantiations generic).find? (GenericType.key arguments) = some entry) :
    Change may state (state.record (.instantiated generic arguments entry.result))
  | constructed {state : State} {generic : GenericId} {record : Generic} {arguments : List Value}
    (made : state.heap.generic? generic = some record)
    (fresh : record.cache.find? (GenericType.key arguments) = none) (result : Value) :
    Change may state (state.construct generic arguments result)
  | logged (state : State) (value : Value) : Change may state (state.record (.logged value))
  | emitted (state : State) (event : Event) (quiet : event.cell? = none) :
    Change may state (state.record (.emitted event))

variable {may wider : Heap.Permission}

theorem Change.cell? {before after : State} (h : Change may before after) (cell : CellId) :
    after.heap.cell? cell = before.heap.cell? cell ∨
      before.heap.cell? cell = none ∧ ∃ name isMutable initializer,
        after.heap.cell? cell = some ⟨name, isMutable, .uninitialized initializer⟩ := by
  cases h with
  | heap change => exact change.cell? cell
  | _ => exact .inl rfl

/-- A realm that exists stays, with its configuration. -/
theorem Change.realm {before after : State} (h : Change may before after) {reference : RealmId}
    (hexists : reference.index < before.realms.size) :
    reference.index < after.realms.size ∧
      (after.realm reference).config = (before.realm reference).config := by
  cases h with
  | addRealm config oracle =>
    refine ⟨?_, ?_⟩
    · simpa using Nat.lt_succ_of_lt hexists
    · rw [State.realm, Arena.get?_push_of_lt hexists, State.realm]
  | setPrimitivePrototype changed kind prototype =>
    refine ⟨by simpa using hexists, ?_⟩
    by_cases hsame : reference.index = changed.index
    · rw [State.realm, State.realm, hsame, Arena.get?_modify_self]
      cases before.realms.get? changed.index <;> rfl
    · rw [State.realm, Arena.get?_modify_of_ne hsame, State.realm]
  | _ => exact ⟨hexists, rfl⟩

theorem Change.mono (hmay : ∀ heap object name property, may heap object name property →
    wider heap object name property) {before after : State} (h : Change may before after) :
    Change wider before after := by
  cases h with
  | heap change => exact .heap (change.mono hmay)
  | function signature procedure ordinary => exact .function _ _ _ ordinary
  | addMap contents => exact .addMap _ _
  | addRealm config oracle => exact .addRealm _ _ _
  | setPrimitivePrototype reference kind prototype => exact .setPrimitivePrototype _ _ _ _
  | names globals cellNames genericNames => exact .names _ _ _ _
  | reused present => exact .reused present
  | constructed made fresh result => exact .constructed made fresh result
  | logged value => exact .logged _ _
  | emitted event quiet => exact .emitted _ _ quiet

/-- A sequence of changes of a state. -/
abbrev Changes (may : Heap.Permission) : State → State → Prop := Relation.ReflTransGen (Change may)

theorem Changes.mono (hmay : ∀ heap object name property, may heap object name property →
    wider heap object name property) {before after : State} (h : Changes may before after) :
    Changes wider before after :=
  Relation.ReflTransGen.mono (fun _ _ change ↦ Change.mono hmay change) before after h

theorem changes_heap {state : State} {after : Heap} (h : Heap.Changes may state.heap after) :
    Changes may state { state with heap := after } := by
  induction h with
  | refl => exact .refl
  | tail _ hlast ih => exact ih.tail (.heap hlast)

/-- The tables when a call has been entered: the function that writes to the table of a linked map
has then filed its arguments as an entry. -/
def filed (state : State) (call : Call) : Arena LinkedTable :=
  match state.procedures.get? call.function.index, call.arguments with
  | some (.tableSet table), key :: value :: _ => (state.heap.writeEntry table key value).tables
  | _, _ => state.heap.tables

/-- The state in which a call has been entered. -/
def enter (state : State) (call : Call) : State :=
  { state.record (.entered call) with heap := { state.heap with tables := state.filed call } }

/-- The state in which the initializer of a cell is about to be called. -/
def startCell (state : State) (cell : CellId) (name : String) : State :=
  { state with heap := state.heap.setCellState cell .inProgress }.record
    (.emitted (.initializerStarted cell name))

/-- The state after the initializer of a cell has given its outcome: a value is kept, a fault is
reported and leaves the cell in progress. -/
def settleCell (state : State) (cell : CellId) (name : String) : Except Fault Value → State
  | .ok value => { state with heap := state.heap.setCellState cell (.initialized value) }
  | .error fault =>
    state.record (.emitted (.initializerFailed cell name (fault.message state.heap)))

end State

end GradualRuntime
