import GradualRuntime.Body
import GradualRuntime.Event
import GradualRuntime.Text.Display

/-!
# States

The whole state of a program is the heap, the bodies of its functions, its realms, the names it has
bound and a trace of what happened. The trace holds the log, the events, every call with its outcome
and every instantiation of a generic type; a call also says what it is made for, so that the calls
of initializers can be told apart from the calls that a program makes of the same functions.
-/

set_option autoImplicit false

namespace GradualRuntime

/-- The setting in which operations are carried out: a configuration, a type oracle, and the
prototypes on which the members of primitive values are looked up. -/
structure Realm where
  config : Config
  oracle : TypeOracle
  primitivePrototypes : OrderedMap PrimitiveKind ObjectId
  deriving DecidableEq

namespace Realm

/-- A realm without primitive prototypes. -/
def new (config : Config) (oracle : TypeOracle) : Realm := ⟨config, oracle, .empty⟩

/-- The realm that programs start in. -/
def standard : Realm := new .standard .unchecked

end Realm

/-- What a function is called for. -/
inductive Purpose where
  /-- A call on behalf of a body or of an operation that a body asked for. -/
  | plain
  /-- The function is the initializer of a lazy binding, and the cell waits for its value. -/
  | initializing (cell : CellId)
  deriving DecidableEq

/-- A call of a function. -/
structure Call where
  function : FunctionId
  this : Value
  arguments : List Value
  purpose : Purpose
  deriving DecidableEq

/-- One thing that happened. -/
inductive TraceEntry where
  | logged (value : Value)
  | emitted (event : Event)
  /-- A function was entered. -/
  | entered (call : Call)
  /-- A function returned or failed. -/
  | returned (call : Call) (outcome : Except Fault Value)
  /-- A generic type gave its type for some arguments. -/
  | instantiated (generic : GenericId) (arguments : List Value) (result : Value)

/-- The state of a program. -/
structure State where
  heap : Heap
  /-- The bodies of the functions, under the numbers of their signatures. -/
  procedures : Arena Procedure
  realms : Arena Realm
  current : RealmId
  globals : OrderedMap String Value
  cellNames : OrderedMap String CellId
  genericNames : OrderedMap String GenericId
  /-- What happened so far, the latest entry first. -/
  trace : List TraceEntry

namespace State

/-- A fresh state, whose only realm is a given one. -/
def fresh (realm : Realm) : State where
  heap := .empty
  procedures := .empty
  realms := Arena.empty.push realm
  current := ⟨0⟩
  globals := .empty
  cellNames := .empty
  genericNames := .empty
  trace := []

/-- The realm behind a reference. -/
def realm (state : State) (reference : RealmId) : Realm :=
  (state.realms.get? reference.index).getD .standard

/-- Adds an entry to the trace. -/
def record (state : State) (entry : TraceEntry) : State :=
  { state with trace := entry :: state.trace }

@[simp]
theorem heap_record (state : State) (entry : TraceEntry) :
    (state.record entry).heap = state.heap := rfl

end State

end GradualRuntime
