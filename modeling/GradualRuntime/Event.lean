import GradualRuntime.Value

/-!
# Events

What the runtime reports about its own work. Each event has a level, a message and named fields;
counts are numbers and everything else is text. The references inside an event say which cell,
class or generic type it is about and are not part of the report.
-/

set_option autoImplicit false

namespace GradualRuntime

/-- How urgent an event is. -/
inductive Level where
  | trace
  | debug
  | warn
  deriving DecidableEq, Repr

/-- The value of a field of an event. -/
inductive FieldValue where
  | text (value : String)
  | count (value : Nat)
  deriving DecidableEq, Repr

/-- Something the runtime did. -/
inductive Event where
  /-- A dispatch found its callee and is about to enter it. -/
  | dispatched (receiverType member callee : String) (argumentCount : Nat)
  /-- The initializer of a lazy binding is about to run. -/
  | initializerStarted (cell : CellId) (field : String)
  /-- The initializer of a lazy binding failed. -/
  | initializerFailed (cell : CellId) (field message : String)
  /-- A mixin application fixed its table of members. -/
  | mixinComposed (name : String) (memberCount : Nat)
  /-- A generic type stored a new instantiation. -/
  | typeInstantiated (generic : GenericId) (name : String) (argumentCount : Nat)
  deriving DecidableEq

namespace Level

/-- The name of a level. -/
def name : Level → String
  | trace => "TRACE"
  | debug => "DEBUG"
  | warn => "WARN"

end Level

namespace Event

/-- The level of an event. -/
def level : Event → Level
  | dispatched .. => .trace
  | initializerStarted .. => .debug
  | initializerFailed .. => .warn
  | mixinComposed .. => .debug
  | typeInstantiated .. => .debug

/-- The message of an event. -/
def message : Event → String
  | dispatched .. => "dynamic dispatch"
  | initializerStarted .. => "running lazy initializer"
  | initializerFailed .. => "lazy initializer failed"
  | mixinComposed .. => "composed mixin behavior table"
  | typeInstantiated .. => "instantiated generic type"

/-- The named fields of an event, in order. -/
def fields : Event → List (String × FieldValue)
  | dispatched receiverType member callee argumentCount =>
    [("receiver", .text receiverType), ("member", .text member), ("callee", .text callee),
      ("argc", .count argumentCount)]
  | initializerStarted _ field => [("field", .text field)]
  | initializerFailed _ field message => [("field", .text field), ("error", .text message)]
  | mixinComposed name memberCount => [("mixin", .text name), ("members", .count memberCount)]
  | typeInstantiated _ name argumentCount =>
    [("generic", .text name), ("arguments", .count argumentCount)]

end Event

end GradualRuntime
