import GradualRuntime.Toml.Assembly
import GradualRuntime.Toml.Lexeme
import GradualRuntime.Toml.Number

/-!
# The grammar of TOML documents

Values, statements and documents. Arrays may spread over lines and may end in a comma; inline tables
stand on one line and may not. The main definition is `read?`, which gives the root table of a
document, or nothing when the document is not well formed.
-/

set_option autoImplicit false

namespace GradualRuntime.Toml

/-- The items of an array, up to its closing bracket. At most `bound` items are read. -/
def arrayItems (item : Reader Value) : Nat → Reader (List Value)
  | 0, _ => none
  | bound + 1, text => do
    match ← skipSpace text with
    | ']' :: rest => return ([], rest)
    | start => do
      let (value, afterValue) ← item start
      match ← skipSpace afterValue with
      | ',' :: rest => do
        let (values, afterValues) ← arrayItems item bound rest
        return (value :: values, afterValues)
      | ']' :: rest => return ([value], rest)
      | _ => none

/-- An assignment. -/
def assignment (item : Reader Value) (text : List Char) :
    Option ((List String × Value) × List Char) := do
  let (path, afterKey) ← key text
  let rest ← expect '=' afterKey
  let (value, afterValue) ← item (skipBlanks rest)
  return ((path, value), afterValue)

/-- The assignments of an inline table that is not empty, up to its closing brace. At most `bound`
of them are read. -/
def inlineAssignments (item : Reader Value) : Nat → Reader (List (List String × Value))
  | 0, _ => none
  | bound + 1, text => do
    let (entry, afterEntry) ← assignment item text
    match skipBlanks afterEntry with
    | ',' :: rest => do
      let (entries, afterEntries) ← inlineAssignments item bound rest
      return (entry :: entries, afterEntries)
    | '\x7d' :: rest => return ([entry], rest)
    | _ => none

/-- A value in which arrays and inline tables nest at most `depth` deep. -/
def value : Nat → Reader Value
  | depth, text =>
    match text with
    | '[' :: rest =>
      match depth with
      | 0 => none
      | inner + 1 => do
        let (items, afterItems) ← arrayItems (value inner) (rest.length + 1) rest
        return (.array items, afterItems)
    | '\x7b' :: rest =>
      match depth with
      | 0 => none
      | inner + 1 =>
        match skipBlanks rest with
        | '\x7d' :: afterTable => return (.table .inline [], afterTable)
        | start => do
          let (entries, afterTable) ← inlineAssignments (value inner) (start.length + 1) start
          return (← inlineTable entries, afterTable)
    | 't' :: 'r' :: 'u' :: 'e' :: rest => return (.boolean true, rest)
    | 'f' :: 'a' :: 'l' :: 's' :: 'e' :: rest => return (.boolean false, rest)
    | '"' :: _ => (string text).map fun result ↦ (.string result.1, result.2)
    | '\x27' :: _ => (string text).map fun result ↦ (.string result.1, result.2)
    | _ => number text

/-- The statements of a document, at most one for each character. -/
def statements : Nat → List Char → Option (List Statement)
  | 0, text => if text.isEmpty then some [] else none
  | bound + 1, text =>
    match skipBlanks text with
    | [] => some []
    | '\n' :: rest => statements bound rest
    | '\r' :: '\n' :: rest => statements bound rest
    | '#' :: rest => (skipComment rest).bind (statements bound)
    | '[' :: '[' :: rest => do
      let (path, afterKey) ← key rest
      let next ← skipLineEnd (← expect ']' (← expect ']' afterKey))
      return .arrayHeader path :: (← statements bound next)
    | '[' :: rest => do
      let (path, afterKey) ← key rest
      let next ← skipLineEnd (← expect ']' afterKey)
      return .header path :: (← statements bound next)
    | start => do
      let ((path, assigned), afterValue) ← assignment (value nestingLimit) start
      let next ← skipLineEnd afterValue
      return .assign path assigned :: (← statements bound next)

/-- Drops a byte order mark at the front. -/
def skipByteOrderMark : List Char → List Char
  | '\ufeff' :: rest => rest
  | text => text

/-- The root table of a document. -/
def read? (document : String) : Option Entries := do
  let text := skipByteOrderMark document.toList
  assemble (← statements (text.length + 1) text) [] []

end GradualRuntime.Toml
