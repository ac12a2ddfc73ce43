/-!
# TOML values and statements

The values of a TOML document and the statements of which a document consists. A table remembers how
it came about, because that decides what later statements may add to it: `inline` tables are
complete, tables made by dotted keys take further dotted keys, and a table that a header has only
passed through can still get a header of its own.
-/

set_option autoImplicit false

namespace GradualRuntime.Toml

/-- How a table came about. -/
inductive Origin where
  /-- Written between braces. -/
  | inline
  /-- By a dotted key. -/
  | dotted
  /-- Passed through by the header of another table. -/
  | implicit
  /-- By a header of its own; the root table counts as one. -/
  | header
  deriving DecidableEq, Repr

/-- A TOML value. Numbers that are no integers and dates keep their text. -/
inductive Value where
  | string (text : String)
  | integer (number : Int)
  | float (literal : String)
  | boolean (truth : Bool)
  | dateTime (literal : String)
  | array (items : List Value)
  | table (origin : Origin) (entries : List (String × Value))
  /-- The tables of an array of tables, one for each of its headers. -/
  | tables (items : List (List (String × Value)))

/-- The entries of a table. -/
abbrev Entries := List (String × Value)

/-- A parser gives the root table of a document, if the document is well formed. -/
abbrev Parser := String → Option Entries

/-- A statement of a document. -/
inductive Statement where
  | assign (path : List String) (value : Value)
  | header (path : List String)
  | arrayHeader (path : List String)

/-- A reader takes a value off the front of a text. -/
abbrev Reader (α : Type) := List Char → Option (α × List Char)

end GradualRuntime.Toml
