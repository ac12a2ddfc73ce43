import GradualRuntime.Operation

/-!
# Function bodies

A function body is given as its interaction with the runtime: either it has finished, or it asks for
something and goes on with the answer. A failed operation does not end a body; the body receives the
fault and decides, which is how it lets faults pass or catches them. `close` makes a new function
whose body is another interaction, so bodies are ordinary data and functions are first-class.

Bodies see references only as numbers and may not make them up: the runtime refuses an operation on
a reference that it has never given out.
-/

set_option autoImplicit false

namespace GradualRuntime

/-- A function body as an interaction with the runtime. -/
inductive Body where
  | finish (outcome : Except Fault Answer)
  /-- Asks which realm is current. -/
  | withRealm (next : RealmId → Body)
  /-- Asks for an operation on some values, in a realm. -/
  | perform (realm : RealmId) (operation : Operation) (operands : List Value)
      (next : Except Fault Answer → Body)
  /-- Makes a function; its body is given `this` and the arguments. -/
  | close (name : String) (formals : List String) (body : Value → List Value → Body)
      (next : FunctionId → Body)

/-- What a function does when it is called. -/
inductive Procedure where
  /-- A body supplied by the program. -/
  | native (body : Value → List Value → Body)
  /-- Allocates an instance on a prototype, runs an initializer on it and returns it. -/
  | namedConstructor (prototype : ObjectId) (tag : String) (initializer : FunctionId)
  /-- Instantiates a generic type through its cache. -/
  | instantiation (generic : GenericId)
  /-- The value filed under a key of a linked map. -/
  | tableGet (table : TableId)
  /-- Files a value under a key of a linked map. -/
  | tableSet (table : TableId)
  /-- Whether a linked map has a key. -/
  | tableContains (table : TableId)
  /-- The number of keys of a linked map. -/
  | tableSize (table : TableId)

end GradualRuntime
