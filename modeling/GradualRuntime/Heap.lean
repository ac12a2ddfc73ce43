import GradualRuntime.Arena
import GradualRuntime.OrderedMap
import GradualRuntime.Property

/-!
# The heap

Everything that programs can share and change: functions (their names and formals; bodies are kept
apart), objects, the cells of lazy bindings, classes, memoized generic types and the tables of
linked maps. Each kind lives in a store of its own, and references are numbers of that store.

An object has a prototype, fixed when it is allocated, and its own slots in order. Since an object
can only be allocated on a prototype that already exists, prototypes have smaller numbers and the
chain of an object (`Heap.chain`) is finite. The lookup rule is `Heap.lookup`: the first object of
the chain that owns the name, with the descriptor it owns. Classes form chains in the same way
(`Heap.lineage`). Defining a slot is an insertion into the slots of that one object
(`slots_define_self`, `slots_define_of_ne`) and changes no chain (`chain_define`).

Reading through a reference that was never given out finds an object without slots.
-/

set_option autoImplicit false

namespace GradualRuntime

/-- What the runtime knows of a function besides its body. -/
structure Signature where
  name : String
  /-- Formal parameter names in order. -/
  formals : List String
  deriving DecidableEq

/-- An object: its prototype and tag never change, its slots do. -/
structure Object where
  prototype : Option ObjectId
  /-- The class name that diagnostics show for instances. -/
  tag : Option String
  slots : OrderedMap String Property
  deriving DecidableEq

/-- The three states of a lazy binding, which it passes through in this order. -/
inductive CellState where
  | uninitialized (initializer : FunctionId)
  | inProgress
  | initialized (value : Value)
  deriving DecidableEq

/-- The cell behind a lazy binding. -/
structure LazyCell where
  name : String
  /-- Whether the binding may be written. -/
  isMutable : Bool
  state : CellState
  deriving DecidableEq

/-- The base class and the behaviour sources of a mixin application. -/
structure Composition where
  base : ClassId
  sources : List ClassId
  deriving DecidableEq

/-- A class. Nothing in it changes after it is made; its prototype and statics are objects. -/
structure Class where
  name : String
  superclass : Option ClassId
  ownConstructor : Option FunctionId
  /-- The object on which instances are allocated. -/
  prototype : ObjectId
  /-- The object that holds the members of the class itself. -/
  statics : ObjectId
  composition : Option Composition
  deriving DecidableEq

/-- One entry of a memoized generic type: the arguments of the call that made it and its result. -/
structure Instantiation where
  arguments : List Value
  result : Value
  deriving DecidableEq

/-- A generic type constructor with the instantiations made so far. -/
structure Generic where
  constructorFunction : FunctionId
  cache : OrderedMap (List IdentityKey) Instantiation
  deriving DecidableEq

/-- The contents of a linked map: keys by identity, each with the key and value last written. -/
abbrev LinkedTable := OrderedMap IdentityKey (Value × Value)

/-- The shared mutable state of a program, apart from the bodies of its functions. -/
structure Heap where
  functions : Arena Signature
  objects : Arena Object
  cells : Arena LazyCell
  classes : Arena Class
  generics : Arena Generic
  tables : Arena LinkedTable
  deriving DecidableEq

namespace Heap

/-- The heap in which nothing has been made. -/
def empty : Heap := ⟨.empty, .empty, .empty, .empty, .empty, .empty⟩

instance : EmptyCollection Heap := ⟨empty⟩

instance : Inhabited Heap := ⟨empty⟩

/-- Whether a value refers only to what the heap holds. -/
def knows (heap : Heap) : Value → Bool
  | .function reference => decide (reference.index < heap.functions.size)
  | .object reference => decide (reference.index < heap.objects.size)
  | .type reference => decide (reference.index < heap.classes.size)
  | _ => true

section Functions

/-- The name of a function. -/
def functionName (heap : Heap) (function : FunctionId) : String :=
  ((heap.functions.get? function.index).map Signature.name).getD ""

/-- The formal parameter names of a function. -/
def formals (heap : Heap) (function : FunctionId) : List String :=
  ((heap.functions.get? function.index).map Signature.formals).getD []

/-- The reference of the next function. -/
def nextFunction (heap : Heap) : FunctionId := ⟨heap.functions.size⟩

/-- Adds a function; its reference is `heap.nextFunction`. -/
def addFunction (heap : Heap) (signature : Signature) : Heap :=
  { heap with functions := heap.functions.push signature }

end Functions

section Objects

/-- The prototype of an object, if it has one. -/
def prototype? (heap : Heap) (object : ObjectId) : Option ObjectId :=
  (heap.objects.get? object.index).bind Object.prototype

/-- The tag of an object, if it has one. -/
def tag? (heap : Heap) (object : ObjectId) : Option String :=
  (heap.objects.get? object.index).bind Object.tag

/-- The own slots of an object. -/
def slots (heap : Heap) (object : ObjectId) : OrderedMap String Property :=
  ((heap.objects.get? object.index).map Object.slots).getD .empty

/-- The descriptor that an object itself owns under a name. -/
def own? (heap : Heap) (object : ObjectId) (name : String) : Option Property :=
  (heap.slots object).find? name

/-- The names that an object owns, in the order of their first definition. -/
def ownNames (heap : Heap) (object : ObjectId) : List String := (heap.slots object).keys

/-- Whether an object itself owns a name. -/
def hasOwn (heap : Heap) (object : ObjectId) (name : String) : Bool :=
  (heap.slots object).contains name

/-- The reference of the next object. -/
def nextObject (heap : Heap) : ObjectId := ⟨heap.objects.size⟩

/-- Adds an object; its reference is `heap.nextObject`. -/
def addObject (heap : Heap) (object : Object) : Heap :=
  { heap with objects := heap.objects.push object }

/-- Defines or replaces a slot. A replaced slot keeps its place in the order. -/
def define (heap : Heap) (object : ObjectId) (name : String) (property : Property) : Heap :=
  { heap with
    objects := heap.objects.modify object.index fun record ↦
      { record with slots := record.slots.insert name property } }

/-- The first `bound` objects of the prototype chain of an object, itself first. -/
def chainWithin (heap : Heap) : Nat → ObjectId → List ObjectId
  | 0, _ => []
  | bound + 1, object =>
    object :: match heap.prototype? object with
      | none => []
      | some prototype => heap.chainWithin bound prototype

/-- The prototype chain of an object, itself first. Prototypes have smaller numbers than the objects
made on them, so the number of the object bounds the length. -/
def chain (heap : Heap) (object : ObjectId) : List ObjectId :=
  heap.chainWithin (object.index + 1) object

/-- The nearest owner of a name among some objects, with the descriptor it owns. -/
def firstOwner (heap : Heap) (name : String) : List ObjectId → Option (ObjectId × Property)
  | [] => none
  | object :: rest =>
    match heap.own? object name with
    | some property => some (object, property)
    | none => heap.firstOwner name rest

/-- The nearest owner of a name on the prototype chain of an object, with the descriptor it owns. -/
def lookup (heap : Heap) (object : ObjectId) (name : String) : Option (ObjectId × Property) :=
  heap.firstOwner name (heap.chain object)

/-- Whether some object of the prototype chain owns a name. -/
def has (heap : Heap) (object : ObjectId) (name : String) : Bool := (heap.lookup object name).isSome

theorem prototype?_define (heap : Heap) (object other : ObjectId) (name : String)
    (property : Property) :
    (heap.define object name property).prototype? other = heap.prototype? other := by
  by_cases h : other.index = object.index
  · cases hrecord : heap.objects.get? object.index <;> simp [prototype?, define, h, hrecord]
  · simp [prototype?, define, Arena.get?_modify_of_ne h]

/-- Defining a slot of an object that exists is an insertion into its slots. -/
theorem slots_define_self {heap : Heap} {object : ObjectId}
    (h : object.index < heap.objects.size) (name : String) (property : Property) :
    (heap.define object name property).slots object =
      (heap.slots object).insert name property := by
  obtain ⟨record, hrecord⟩ := Option.isSome_iff_exists.1 (Arena.isSome_get?_of_lt h)
  simp [slots, define, hrecord]

theorem slots_define_of_ne (heap : Heap) {object other : ObjectId} (h : other ≠ object)
    (name : String) (property : Property) :
    (heap.define object name property).slots other = heap.slots other := by
  have hindex : other.index ≠ object.index := fun heq ↦ h (by cases other; cases object; simp_all)
  simp [slots, define, Arena.get?_modify_of_ne hindex]

/-- A slot of the object itself comes before everything on its prototype chain. -/
theorem lookup_of_own?_eq_some {heap : Heap} {object : ObjectId} {name : String}
    {property : Property} (h : heap.own? object name = some property) :
    heap.lookup object name = some (object, property) := by
  simp [lookup, chain, chainWithin, firstOwner, h]

@[simp]
theorem size_objects_define (heap : Heap) (object : ObjectId) (name : String)
    (property : Property) :
    (heap.define object name property).objects.size = heap.objects.size := by
  simp [define]

theorem own?_define_self {heap : Heap} {object : ObjectId} (h : object.index < heap.objects.size)
    (name : String) (property : Property) :
    (heap.define object name property).own? object name = some property := by
  rw [own?, slots_define_self h, OrderedMap.find?_insert_self]

theorem own?_define_of_name_ne (heap : Heap) (object other : ObjectId) {name otherName : String}
    (h : otherName ≠ name) (property : Property) :
    (heap.define object name property).own? other otherName = heap.own? other otherName := by
  by_cases hobject : other = object
  · subst hobject
    by_cases hexists : other.index < heap.objects.size
    · rw [own?, slots_define_self hexists, OrderedMap.find?_insert_of_ne _ h, own?]
    · have hnone : heap.objects.get? other.index = none := by
        simpa [Arena.get?, Arena.size] using hexists
      simp [own?, slots, define, hnone]
  · rw [own?, slots_define_of_ne heap hobject, own?]

theorem own?_define_of_ne (heap : Heap) {object other : ObjectId} (h : other ≠ object)
    (name otherName : String) (property : Property) :
    (heap.define object name property).own? other otherName = heap.own? other otherName := by
  rw [own?, slots_define_of_ne heap h, own?]

/-- A second definition of a slot leaves nothing of the first. -/
theorem define_define_self (heap : Heap) (object : ObjectId) (name : String)
    (first second : Property) :
    (heap.define object name first).define object name second =
      heap.define object name second := by
  simp [define, Arena.modify_modify, OrderedMap.insert_insert_self]

/-- Defining a slot changes no prototype chain. -/
theorem chain_define (heap : Heap) (object other : ObjectId) (name : String)
    (property : Property) :
    (heap.define object name property).chain other = heap.chain other := by
  have hwithin : ∀ (bound : Nat) (start : ObjectId),
      (heap.define object name property).chainWithin bound start =
        heap.chainWithin bound start := by
    intro bound
    induction bound with
    | zero =>
      intro start
      rfl
    | succ bound ih =>
      intro start
      simp only [chainWithin, prototype?_define, ih]
  exact hwithin (other.index + 1) other

theorem exists_of_own?_eq_some {heap : Heap} {object : ObjectId} {name : String}
    {property : Property} (h : heap.own? object name = some property) :
    object.index < heap.objects.size := by
  cases hrecord : heap.objects.get? object.index with
  | none => simp [own?, slots, hrecord] at h
  | some record => exact Arena.lt_of_get?_eq_some hrecord

theorem exists_of_prototype?_eq_some {heap : Heap} {object prototype : ObjectId}
    (h : heap.prototype? object = some prototype) : object.index < heap.objects.size := by
  cases hrecord : heap.objects.get? object.index with
  | none => simp [prototype?, hrecord] at h
  | some record => exact Arena.lt_of_get?_eq_some hrecord

/-- What a chain of objects owns is owned by one of them. -/
theorem own?_of_firstOwner {heap : Heap} {name : String} {objects : List ObjectId}
    {holder : ObjectId} {property : Property}
    (h : heap.firstOwner name objects = some (holder, property)) :
    heap.own? holder name = some property := by
  induction objects with
  | nil => simp [firstOwner] at h
  | cons object rest ih =>
    cases hown : heap.own? object name with
    | none =>
      simp only [firstOwner, hown] at h
      exact ih h
    | some found =>
      simp only [firstOwner, hown, Option.some.injEq, Prod.mk.injEq] at h
      obtain ⟨rfl, rfl⟩ := h
      exact hown

theorem own?_of_lookup {heap : Heap} {object holder : ObjectId} {name : String}
    {property : Property} (h : heap.lookup object name = some (holder, property)) :
    heap.own? holder name = some property := own?_of_firstOwner h

/-- An object that is not the holder of a name does not own it. -/
theorem own?_eq_none_of_lookup {heap : Heap} {object holder : ObjectId} {name : String}
    {property : Property} (h : heap.lookup object name = some (holder, property))
    (hne : holder ≠ object) : heap.own? object name = none := by
  cases hown : heap.own? object name with
  | none => rfl
  | some found =>
    rw [lookup_of_own?_eq_some hown, Option.some.injEq, Prod.mk.injEq] at h
    exact absurd h.1.symm hne

/-- An object through which something is found exists. -/
theorem exists_of_lookup {heap : Heap} {object : ObjectId} {name : String}
    {found : ObjectId × Property} (h : heap.lookup object name = some found) :
    object.index < heap.objects.size := by
  cases hown : heap.own? object name with
  | some property => exact exists_of_own?_eq_some hown
  | none =>
    cases hparent : heap.prototype? object with
    | some parent => exact exists_of_prototype?_eq_some hparent
    | none => simp [lookup, chain, chainWithin, firstOwner, hown, hparent] at h

/-- A lookup that finds something finds it in every heap with the same objects and maybe more. -/
theorem lookup_of_agree {heap other : Heap}
    (hagree : ∀ index < heap.objects.size, other.objects.get? index = heap.objects.get? index)
    {object : ObjectId} {name : String} {found : ObjectId × Property}
    (h : heap.lookup object name = some found) : other.lookup object name = some found := by
  have hown : ∀ {owner : ObjectId}, owner.index < heap.objects.size →
      other.own? owner name = heap.own? owner name := by
    intro owner hexists
    simp [own?, slots, hagree owner.index hexists]
  unfold lookup chain at h ⊢
  -- Only the objects up to the holder matter, and all of these exist; further up the chain there
  -- may be links that the larger heap continues.
  generalize object.index + 1 = bound at h
  induction bound generalizing object with
  | zero => simp [chainWithin, firstOwner] at h
  | succ bound ih =>
    cases hfirst : heap.own? object name with
    | some property =>
      have hsame := (hown (exists_of_own?_eq_some hfirst)).trans hfirst
      simpa [chainWithin, firstOwner, hfirst, hsame] using h
    | none =>
      cases hparent : heap.prototype? object with
      | none => simp [chainWithin, firstOwner, hfirst, hparent] at h
      | some parent =>
        have hexists := exists_of_prototype?_eq_some hparent
        have hsame := (hown hexists).trans hfirst
        have hlink : other.prototype? object = some parent := by
          rw [← hparent, prototype?, prototype?, hagree object.index hexists]
        simp only [chainWithin, firstOwner, hfirst, hparent] at h
        simp only [chainWithin, firstOwner, hsame, hlink]
        exact ih h

/-- Replacing the slot that a lookup finds changes what it finds. -/
theorem lookup_define_holder {heap : Heap} {object holder : ObjectId} {name : String}
    {property : Property} (h : heap.lookup object name = some (holder, property))
    (replacement : Property) :
    (heap.define holder name replacement).lookup object name = some (holder, replacement) := by
  have hexists := exists_of_own?_eq_some (own?_of_lookup h)
  unfold lookup at h ⊢
  rw [chain_define]
  generalize heap.chain object = objects at h
  induction objects with
  | nil => simp [firstOwner] at h
  | cons first rest ih =>
    by_cases hfirst : first = holder
    · subst hfirst
      simp [firstOwner, own?_define_self hexists]
    · have hsame := heap.own?_define_of_ne hfirst name name replacement
      cases hown : heap.own? first name with
      | none =>
        simp only [firstOwner, hown] at h
        simp only [firstOwner, hsame, hown]
        exact ih h
      | some found =>
        simp only [firstOwner, hown, Option.some.injEq, Prod.mk.injEq] at h
        exact absurd h.1 hfirst

end Objects

section Cells

/-- The cell behind a lazy binding. -/
def cell? (heap : Heap) (cell : CellId) : Option LazyCell := heap.cells.get? cell.index

/-- The reference of the next cell. -/
def nextCell (heap : Heap) : CellId := ⟨heap.cells.size⟩

/-- Adds a cell; its reference is `heap.nextCell`. -/
def addCell (heap : Heap) (cell : LazyCell) : Heap := { heap with cells := heap.cells.push cell }

/-- Moves a cell to another state. -/
def setCellState (heap : Heap) (cell : CellId) (state : CellState) : Heap :=
  { heap with cells := heap.cells.modify cell.index fun record ↦ { record with state := state } }

theorem cell?_setCellState_self {heap : Heap} {cell : CellId} {record : LazyCell}
    (h : heap.cell? cell = some record) (state : CellState) :
    (heap.setCellState cell state).cell? cell = some { record with state := state } := by
  unfold cell? at h
  simp [cell?, setCellState, h]

/-- A cell that has been moved to a state is in it. -/
theorem state_of_cell?_setCellState {heap : Heap} {cell : CellId} {record : LazyCell}
    {state : CellState} (h : (heap.setCellState cell state).cell? cell = some record) :
    record.state = state := by
  cases hcell : heap.cell? cell with
  | none =>
    unfold cell? at hcell
    simp [cell?, setCellState, hcell] at h
  | some moved =>
    rw [cell?_setCellState_self hcell] at h
    obtain rfl := Option.some.inj h
    rfl

theorem cell?_setCellState_of_ne (heap : Heap) {cell other : CellId} (h : other ≠ cell)
    (state : CellState) : (heap.setCellState cell state).cell? other = heap.cell? other := by
  have hindex : other.index ≠ cell.index := fun heq ↦ h (by cases other; cases cell; simp_all)
  simp [cell?, setCellState, Arena.get?_modify_of_ne hindex]

/-- The cells after one is added: that one is new, and the others are what they were. -/
theorem cell?_addCell (heap : Heap) (added : LazyCell) (cell : CellId) :
    (heap.addCell added).cell? cell = heap.cell? cell ∨
      heap.cell? cell = none ∧ (heap.addCell added).cell? cell = some added := by
  rcases Nat.lt_trichotomy cell.index heap.cells.size with hlt | heq | hgt
  · exact .inl (Arena.get?_push_of_lt hlt added)
  · refine .inr ⟨?_, ?_⟩
    · simp [cell?, heq, Arena.get?, Arena.size]
    · simp [cell?, addCell, heq]
  · have hpast : heap.cells.records.size < cell.index := hgt
    refine .inl ?_
    simp [cell?, addCell, Arena.get?, Arena.push, Array.getElem?_push, Nat.ne_of_gt hpast]

end Cells

section Classes

/-- The record of a class. -/
def class? (heap : Heap) (reference : ClassId) : Option Class :=
  heap.classes.get? reference.index

theorem lt_of_class?_eq_some {heap : Heap} {reference : ClassId} {record : Class}
    (h : heap.class? reference = some record) : reference.index < heap.classes.size :=
  Arena.lt_of_get?_eq_some h

theorem exists_class?_of_lt {heap : Heap} {reference : ClassId}
    (h : reference.index < heap.classes.size) : ∃ record, heap.class? reference = some record :=
  Option.isSome_iff_exists.1 (Arena.isSome_get?_of_lt h)

theorem class?_eq_none {heap : Heap} {reference : ClassId}
    (h : ¬reference.index < heap.classes.size) : heap.class? reference = none := by
  cases hrecord : heap.class? reference with
  | none => rfl
  | some record => exact absurd (lt_of_class?_eq_some hrecord) h

/-- The name of a class. -/
def className (heap : Heap) (reference : ClassId) : String :=
  ((heap.class? reference).map Class.name).getD ""

/-- The superclass of a class, if it has one. -/
def superclass? (heap : Heap) (reference : ClassId) : Option ClassId :=
  (heap.class? reference).bind Class.superclass

/-- The reference of the next class. -/
def nextClass (heap : Heap) : ClassId := ⟨heap.classes.size⟩

/-- Adds a class; its reference is `heap.nextClass`. -/
def addClass (heap : Heap) (record : Class) : Heap :=
  { heap with classes := heap.classes.push record }

/-- The first `bound` classes on the way up from a class, itself first. -/
def lineageWithin (heap : Heap) : Nat → ClassId → List ClassId
  | 0, _ => []
  | bound + 1, reference =>
    reference :: match heap.superclass? reference with
      | none => []
      | some superclass => heap.lineageWithin bound superclass

/-- A class and its superclasses, nearest first. -/
def lineage (heap : Heap) (reference : ClassId) : List ClassId :=
  heap.lineageWithin (reference.index + 1) reference

/-- Whether a class is another one or inherits from it. -/
def isSubclass (heap : Heap) (reference other : ClassId) : Bool :=
  decide (other ∈ heap.lineage reference)

end Classes

section Generics

/-- The record of a generic type. -/
def generic? (heap : Heap) (reference : GenericId) : Option Generic :=
  heap.generics.get? reference.index

/-- The instantiations of a generic type made so far. -/
def instantiations (heap : Heap) (reference : GenericId) :
    OrderedMap (List IdentityKey) Instantiation :=
  ((heap.generic? reference).map Generic.cache).getD .empty

/-- The reference of the next generic type. -/
def nextGeneric (heap : Heap) : GenericId := ⟨heap.generics.size⟩

/-- Adds a generic type; its reference is `heap.nextGeneric`. -/
def addGeneric (heap : Heap) (record : Generic) : Heap :=
  { heap with generics := heap.generics.push record }

/-- Files an instantiation under its key. -/
def storeInstantiation (heap : Heap) (reference : GenericId) (key : List IdentityKey)
    (entry : Instantiation) : Heap :=
  { heap with
    generics := heap.generics.modify reference.index fun record ↦
      { record with cache := record.cache.insert key entry } }

end Generics

section Tables

/-- The contents of a linked map. -/
def table (heap : Heap) (reference : TableId) : LinkedTable :=
  (heap.tables.get? reference.index).getD .empty

/-- The reference of the next table. -/
def nextTable (heap : Heap) : TableId := ⟨heap.tables.size⟩

/-- Adds a table; its reference is `heap.nextTable`. -/
def addTable (heap : Heap) (contents : LinkedTable) : Heap :=
  { heap with tables := heap.tables.push contents }

/-- Writes one entry of a linked map. -/
def writeEntry (heap : Heap) (reference : TableId) (key value : Value) : Heap :=
  { heap with
    tables := heap.tables.modify reference.index fun contents ↦
      contents.insert key.identityKey (key, value) }

end Tables

end Heap

end GradualRuntime
