import GradualRuntime.Toml.Syntax

/-!
# Blanks, strings and keys of TOML

The lexical level: blanks and comments, the four kinds of strings with their escapes, and keys. Line
ends are a line feed, alone or after a carriage return, and count as one line feed inside strings.
Control characters other than the tab are refused everywhere.
-/

set_option autoImplicit false

namespace GradualRuntime.Toml

/-- A blank within a line. -/
def isBlank (character : Char) : Bool := character = ' ' || character = '\t'

/-- A character that comments and strings may hold as it is: no control character but the tab. -/
def isPlain (character : Char) : Bool :=
  character = '\t' || (32 ≤ character.toNat && character.toNat ≠ 127)

/-- A character of a bare key. -/
def isBareKey (character : Char) : Bool :=
  character.isAlphanum || character = '_' || character = '-'

/-- Drops the blanks at the front. -/
def skipBlanks (text : List Char) : List Char := text.dropWhile isBlank

/-- Drops a comment whose mark has been read, up to its line end. -/
def skipComment (text : List Char) : Option (List Char) :=
  match text.dropWhile isPlain with
  | [] => some []
  | '\n' :: rest => some ('\n' :: rest)
  | '\r' :: '\n' :: rest => some ('\n' :: rest)
  | _ => none

/-- Drops what may follow a statement on its line: blanks, a comment, and the line end. -/
def skipLineEnd (text : List Char) : Option (List Char) :=
  match skipBlanks text with
  | [] => some []
  | '\n' :: rest => some rest
  | '\r' :: '\n' :: rest => some rest
  | '#' :: rest => (skipComment rest).map (List.drop 1)
  | _ => none

/-- Drops blanks, line ends and comments, at most `bound` of the latter two. -/
def skipLines : Nat → List Char → Option (List Char)
  | 0, text => some text
  | bound + 1, text =>
    match skipBlanks text with
    | '\n' :: rest => skipLines bound rest
    | '\r' :: '\n' :: rest => skipLines bound rest
    | '#' :: rest => (skipComment rest).bind (skipLines bound)
    | rest => some rest

/-- Drops blanks, line ends and comments. -/
def skipSpace (text : List Char) : Option (List Char) := skipLines (text.length + 1) text

/-- The value of a hexadecimal digit. -/
def hexDigit? (character : Char) : Option Nat :=
  if character.isDigit then some (character.toNat - 48)
  else if 'a' ≤ character ∧ character ≤ 'f' then some (character.toNat - 87)
  else if 'A' ≤ character ∧ character ≤ 'F' then some (character.toNat - 55)
  else none

/-- The character with a code given by hexadecimal digits, if it is a code of a character. -/
def characterOfHex? (digits : List Char) : Option Char := do
  let code ← digits.foldlM (fun value digit ↦ (hexDigit? digit).map (value * 16 + ·)) 0
  if code < 0xD800 ∨ (0xE000 ≤ code ∧ code < 0x110000) then some (Char.ofNat code) else none

/-- Puts a character before a text that has been read. -/
def Reader.before (character : Char) : Option (List Char × List Char) →
    Option (List Char × List Char) :=
  Option.map fun result ↦ (character :: result.1, result.2)

/-- The rest of a basic string. -/
def basicString : Reader (List Char)
  | '"' :: rest => some ([], rest)
  | '\\' :: 'b' :: rest => Reader.before '\x08' (basicString rest)
  | '\\' :: 't' :: rest => Reader.before '\t' (basicString rest)
  | '\\' :: 'n' :: rest => Reader.before '\n' (basicString rest)
  | '\\' :: 'f' :: rest => Reader.before '\x0c' (basicString rest)
  | '\\' :: 'r' :: rest => Reader.before '\r' (basicString rest)
  | '\\' :: '"' :: rest => Reader.before '"' (basicString rest)
  | '\\' :: '\\' :: rest => Reader.before '\\' (basicString rest)
  | '\\' :: 'u' :: h1 :: h2 :: h3 :: h4 :: rest =>
    match characterOfHex? [h1, h2, h3, h4] with
    | some character => Reader.before character (basicString rest)
    | none => none
  | '\\' :: 'U' :: h1 :: h2 :: h3 :: h4 :: h5 :: h6 :: h7 :: h8 :: rest =>
    match characterOfHex? [h1, h2, h3, h4, h5, h6, h7, h8] with
    | some character => Reader.before character (basicString rest)
    | none => none
  | '\\' :: _ => none
  | character :: rest =>
    if isPlain character then Reader.before character (basicString rest) else none
  | [] => none

/-- Where a reader of a basic string of several lines stands. -/
inductive LineState where
  | within
  /-- Behind a backslash, before the line end that must follow. -/
  | beforeBreak
  /-- Behind an escaped line end, where blanks and line ends are dropped. -/
  | afterBreak
  deriving DecidableEq

/-- The rest of a basic string of several lines. Up to two quotes may stand before the closing
three. -/
def longBasicString : LineState → Reader (List Char)
  | .beforeBreak, '\n' :: rest => longBasicString .afterBreak rest
  | .beforeBreak, '\r' :: '\n' :: rest => longBasicString .afterBreak rest
  | .beforeBreak, character :: rest =>
    if isBlank character then longBasicString .beforeBreak rest else none
  | .beforeBreak, [] => none
  | .afterBreak, '\n' :: rest => longBasicString .afterBreak rest
  | .afterBreak, '\r' :: '\n' :: rest => longBasicString .afterBreak rest
  | .afterBreak, ' ' :: rest => longBasicString .afterBreak rest
  | .afterBreak, '\t' :: rest => longBasicString .afterBreak rest
  | _, '"' :: '"' :: '"' :: '"' :: '"' :: rest => some (['"', '"'], rest)
  | _, '"' :: '"' :: '"' :: '"' :: rest => some (['"'], rest)
  | _, '"' :: '"' :: '"' :: rest => some ([], rest)
  | _, '\\' :: 'b' :: rest => Reader.before '\x08' (longBasicString .within rest)
  | _, '\\' :: 't' :: rest => Reader.before '\t' (longBasicString .within rest)
  | _, '\\' :: 'n' :: rest => Reader.before '\n' (longBasicString .within rest)
  | _, '\\' :: 'f' :: rest => Reader.before '\x0c' (longBasicString .within rest)
  | _, '\\' :: 'r' :: rest => Reader.before '\r' (longBasicString .within rest)
  | _, '\\' :: '"' :: rest => Reader.before '"' (longBasicString .within rest)
  | _, '\\' :: '\\' :: rest => Reader.before '\\' (longBasicString .within rest)
  | _, '\\' :: 'u' :: h1 :: h2 :: h3 :: h4 :: rest =>
    match characterOfHex? [h1, h2, h3, h4] with
    | some character => Reader.before character (longBasicString .within rest)
    | none => none
  | _, '\\' :: 'U' :: h1 :: h2 :: h3 :: h4 :: h5 :: h6 :: h7 :: h8 :: rest =>
    match characterOfHex? [h1, h2, h3, h4, h5, h6, h7, h8] with
    | some character => Reader.before character (longBasicString .within rest)
    | none => none
  | _, '\\' :: rest => longBasicString .beforeBreak rest
  | _, '\n' :: rest => Reader.before '\n' (longBasicString .within rest)
  | _, '\r' :: '\n' :: rest => Reader.before '\n' (longBasicString .within rest)
  | _, character :: rest =>
    if isPlain character then Reader.before character (longBasicString .within rest) else none
  | _, [] => none

/-- The rest of a literal string. -/
def literalString : Reader (List Char)
  | '\x27' :: rest => some ([], rest)
  | character :: rest =>
    if isPlain character then Reader.before character (literalString rest) else none
  | [] => none

/-- The rest of a literal string of several lines. -/
def longLiteralString : Reader (List Char)
  | '\x27' :: '\x27' :: '\x27' :: '\x27' :: '\x27' :: rest => some (['\x27', '\x27'], rest)
  | '\x27' :: '\x27' :: '\x27' :: '\x27' :: rest => some (['\x27'], rest)
  | '\x27' :: '\x27' :: '\x27' :: rest => some ([], rest)
  | '\n' :: rest => Reader.before '\n' (longLiteralString rest)
  | '\r' :: '\n' :: rest => Reader.before '\n' (longLiteralString rest)
  | character :: rest =>
    if isPlain character then Reader.before character (longLiteralString rest) else none
  | [] => none

/-- Drops a line end right after the opening quotes of a string of several lines. -/
def skipFirstBreak : List Char → List Char
  | '\n' :: rest => rest
  | '\r' :: '\n' :: rest => rest
  | text => text

/-- A string that stands as a key, on one line. -/
def quotedKey : Reader String
  | '"' :: rest => (basicString rest).map fun result ↦ (String.ofList result.1, result.2)
  | '\x27' :: rest => (literalString rest).map fun result ↦ (String.ofList result.1, result.2)
  | _ => none

/-- A string value. -/
def string : Reader String
  | '"' :: '"' :: '"' :: rest =>
    (longBasicString .within (skipFirstBreak rest)).map fun result ↦
      (String.ofList result.1, result.2)
  | '\x27' :: '\x27' :: '\x27' :: rest =>
    (longLiteralString (skipFirstBreak rest)).map fun result ↦
      (String.ofList result.1, result.2)
  | text => quotedKey text

/-- One part of a key. -/
def simpleKey (text : List Char) : Option (String × List Char) :=
  match quotedKey text with
  | some result => some result
  | none =>
    match text.takeWhile isBareKey with
    | [] => none
    | name => some (String.ofList name, text.dropWhile isBareKey)

/-- The parts of a key, at most `bound`, with blanks around the dots between them. -/
def keyParts : Nat → Reader (List String)
  | 0, _ => none
  | bound + 1, text => do
    let (part, afterPart) ← simpleKey (skipBlanks text)
    match skipBlanks afterPart with
    | '.' :: rest => do
      let (parts, afterParts) ← keyParts bound rest
      return (part :: parts, afterParts)
    | rest => return ([part], rest)

/-- How deep keys and values may nest. -/
def nestingLimit : Nat := 79

/-- A key with the blanks around it. -/
def key : Reader (List String) := keyParts nestingLimit

end GradualRuntime.Toml
