import GradualRuntime.Operation.Execution

/-!
# The slots that operations store into

The operations that a program asks for in order to change slots: definitions, copies, the
installation of lazy bindings and named constructors, and writes. `Operation.Stores` says which
slots an operation stores into, from the heap in which it starts and from how it ends. An operation
that fails stores nothing, apart from the installation of several bindings, which keeps those that
came before the property that stopped it.

Materializing a lazy binding is no such store: it happens in reads of every kind, and puts into a
slot only what the binding of the slot stands for.
-/

set_option autoImplicit false

namespace GradualRuntime

/-- The object into whose slot a write to a member stores, if it does: the object itself, or the
holder of a lazy binding. A setter stores nothing by itself. -/
def Member.target? (heap : Heap) (object : ObjectId) (name : String) : Option ObjectId :=
  match heap.lookup object name with
  | none | some (_, .data _ _ _) => some object
  | some (holder, .binding _) => some holder
  | some (_, .accessor _ _ _) => none

/-- The names that get a lazy binding from an object: its own names up to the first one whose slot
has no initializer to contribute. -/
def LazyBinding.installed (heap : Heap) (source : ObjectId) : List String :=
  (heap.ownNames source).takeWhile fun name ↦
    ((heap.own? source name).bind Property.initializer?).isSome

/-- An operation that starts in a heap and ends with an outcome has stored into a slot. -/
inductive Operation.Stores (heap : Heap) :
    Operation → List Value → Except Fault Answer → ObjectId → String → Prop where
  | define (object : ObjectId) (name : String) (form : PropertyForm) (parts : List Value)
    (answer : Answer) :
    Stores heap (.object (.define form)) (.object object :: .string name :: parts) (.ok answer)
      object name
  | set {receiver object : ObjectId} {name : String} (value : Value) (answer : Answer)
    (target : Member.target? heap receiver name = some object) :
    Stores heap (.object .set) [.object receiver, .string name, value] (.ok answer) object name
  | copyOwn {source : ObjectId} (object : ObjectId) {sourceName : String} (name : String)
    (answer : Answer) (owned : heap.hasOwn source sourceName = true) :
    Stores heap (.object .copyOwn)
      [.object source, .object object, .string sourceName, .string name] (.ok answer) object name
  | copySlots {source : ObjectId} (object : ObjectId) {name : String} (answer : Answer)
    (owned : heap.hasOwn source name = true) :
    Stores heap (.object .copySlots) [.object object, .object source] (.ok answer) object name
  | bind (object : ObjectId) (name : String) (isMutable : Bool) (initializer : FunctionId)
    (answer : Answer) :
    Stores heap (.binding (.bind isMutable)) [.object object, .string name, .function initializer]
      (.ok answer) object name
  | bindAll {source : ObjectId} (object : ObjectId) {name : String}
    (outcome : Except Fault Answer) (installed : name ∈ LazyBinding.installed heap source) :
    Stores heap (.binding .bindAll) [.object object, .object source] outcome object name
  | nameConstructor {reference : ClassId} {record : Class} (name : String) (answer : Answer)
    (made : heap.class? reference = some record) :
    Stores heap (.type .namedConstructor) [.type reference, .string name] (.ok answer)
      record.statics name

end GradualRuntime
