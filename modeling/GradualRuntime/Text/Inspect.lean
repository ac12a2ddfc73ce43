import GradualRuntime.Text.Display

/-!
# Text for inspection

A one-line structural form of values, descriptors and lazy bindings: the kind, then the fields by
name between braces. Text is quoted with escapes (`quoted`), optional fields are written `Some(…)`
or `None`, and lists stand between square brackets. The form is shallow: an object shows its tag
and the names it owns, a class its name and the name of its superclass.
-/

set_option autoImplicit false

namespace GradualRuntime

namespace Inspect

/-- The escaped form of one character between quotes. Beyond the ASCII control characters every
character stands for itself. -/
def escaped (character : Char) : String :=
  match character with
  | '"' => "\\\""
  | '\\' => "\\\\"
  | '\n' => "\\n"
  | '\r' => "\\r"
  | '\t' => "\\t"
  | other =>
    if other.toNat = 0 then "\\0"
    else if other.toNat < 32 ∨ other.toNat = 127 then
      "\\u\x7b" ++ String.ofList (Nat.toDigits 16 other.toNat) ++ "\x7d"
    else other.toString

/-- Text between double quotes, with escapes. -/
def quoted (text : String) : String := "\"" ++ String.join (text.toList.map escaped) ++ "\""

/-- A truth value. -/
def truth (value : Bool) : String := if value then "true" else "false"

/-- A list between square brackets. -/
def bracketed (texts : List String) : String := "[" ++ commaSeparated texts ++ "]"

/-- An optional field. -/
def optional (text : Option String) : String :=
  match text with
  | some present => "Some(" ++ present ++ ")"
  | none => "None"

/-- A kind with its fields by name. -/
def fields (kind : String) (entries : List (String × String)) : String :=
  kind ++ " \x7b " ++ commaSeparated (entries.map fun entry ↦ entry.1 ++ ": " ++ entry.2) ++ " \x7d"

end Inspect

open Inspect

namespace Value

/-- The structural form of a value. -/
def inspect (heap : Heap) : Value → String
  | undefined => "Undefined"
  | null => "Null"
  | boolean value => "Boolean(" ++ truth value ++ ")"
  | integer number => "Integer(" ++ number.toInt.repr ++ ")"
  | float number => "Float(" ++ number.text ++ ")"
  | string text => "String(" ++ quoted text ++ ")"
  | function reference =>
    fields "Function" [("name", quoted (heap.functionName reference)),
      ("params", bracketed ((heap.formals reference).map quoted))]
  | object reference =>
    fields "Object" [("tag", optional ((heap.tag? reference).map quoted)),
      ("keys", bracketed ((heap.ownNames reference).map quoted))]
  | type reference =>
    fields "Class" [("name", quoted (heap.className reference)),
      ("superclass",
        optional ((heap.superclass? reference).map fun superclass ↦
          quoted (heap.className superclass))),
      ("mixin", truth ((heap.class? reference).any fun record ↦ record.composition.isSome))]

end Value

namespace CellState

/-- The name of a state. -/
def name : CellState → String
  | uninitialized _ => "uninitialized"
  | inProgress => "in-progress"
  | initialized _ => "initialized"

end CellState

namespace LazyCell

/-- The structural form of a cell. -/
def inspect (cell : LazyCell) : String :=
  fields "LazyCell" [("name", quoted cell.name), ("mutable", truth cell.isMutable),
    ("state", quoted cell.state.name)]

end LazyCell

namespace Property

/-- The structural form of a descriptor. An accessor shows the names of its functions. -/
def inspect (heap : Heap) : Property → String
  | data value writable enumerable =>
    fields "Data" [("value", value.inspect heap), ("writable", truth writable),
      ("enumerable", truth enumerable)]
  | accessor getter setter enumerable =>
    fields "Accessor" [
      ("get", optional (getter.map fun function ↦ quoted (heap.functionName function))),
      ("set", optional (setter.map fun function ↦ quoted (heap.functionName function))),
      ("enumerable", truth enumerable)]
  | binding cell =>
    "Lazy(" ++ ((heap.cell? cell).map LazyCell.inspect).getD "" ++ ")"

end Property

end GradualRuntime
