import GradualRuntime.Binary64.Shortest
import GradualRuntime.Fault
import GradualRuntime.Heap

/-!
# Text for readers of diagnostics

How values and faults are written in messages. Text stands between double quotes without escapes, a
function shows its name, an instance the class it is tagged with, and a class its name. Numbers are
written positionally with the fewest digits that read back. The text of a fault is
`Fault.message`; names and tags never change, so neither does the text.
-/

set_option autoImplicit false

namespace GradualRuntime

/-- Texts joined by a comma and a blank. -/
def commaSeparated (texts : List String) : String := ", ".intercalate texts

namespace Value

/-- The text of a value in messages. -/
def display (heap : Heap) : Value → String
  | undefined => "undefined"
  | null => "null"
  | boolean true => "true"
  | boolean false => "false"
  | integer number => number.toInt.repr
  | float number => number.text
  | string text => "\"" ++ text ++ "\""
  | function reference => "#<function " ++ heap.functionName reference ++ ">"
  | object reference =>
    match heap.tag? reference with
    | some tag => "Instance of '" ++ tag ++ "'"
    | none => "#<object>"
  | type reference => heap.className reference

/-- The text of a value as a part of a longer text: text stands for itself. -/
def fragment (heap : Heap) : Value → String
  | string text => text
  | other => other.display heap

end Value

namespace MissingCause

/-- What a cause adds to the report. -/
def explanation (heap : Heap) : MissingCause → String
  | absent => ""
  | notCallable found => ": found " ++ found.display heap ++ " which is not callable"
  | arityMismatch expected actual =>
    ": expected " ++ expected.text ++ " arguments, got " ++ actual.repr

end MissingCause

namespace Fault

/-- The message of a fault. -/
def message (heap : Heap) : Fault → String
  | missingMember report =>
    "NoSuchMethodError: '" ++ report.member ++ "' on " ++ report.receiver.display heap ++
      " with arguments (" ++ commaSeparated (report.arguments.map (Value.display heap)) ++ ")" ++
      report.cause.explanation heap
  | circularInitialization name => "circular initialization for field " ++ name
  | unsupported capability => "unimplemented: " ++ capability
  | invariantViolation text => text
  | readOnly member => "cannot assign to read-only member '" ++ member ++ "'"
  | thrown value => "uncaught exception: " ++ value.display heap

end Fault

end GradualRuntime
