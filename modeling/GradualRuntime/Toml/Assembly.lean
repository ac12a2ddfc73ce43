import GradualRuntime.Toml.Syntax

/-!
# Assembly of TOML tables

Statements are put together into one table. A key may be assigned once, and a table may be defined
once: a header defines its table and makes the tables it passes through implicit, a dotted key makes
the tables it passes through dotted. A dotted key neither adds to a table that has a header nor ends
in one that was only passed through by headers, and nothing adds to an inline table.
-/

set_option autoImplicit false

namespace GradualRuntime.Toml

/-- The value of a key. -/
def Entries.find? (entries : Entries) (key : String) : Option Value :=
  (List.find? (fun entry ↦ entry.1 = key) entries).map Prod.snd

/-- Replaces the value of a key that is present. -/
def Entries.replace (entries : Entries) (key : String) (value : Value) : Entries :=
  List.map (fun entry ↦ if entry.1 = key then (key, value) else entry) entries

/-- Changes the last element of a list. -/
def changeLast {α : Type} (change : α → Option α) : List α → Option (List α)
  | [] => none
  | [last] => (change last).map fun changed ↦ [changed]
  | first :: rest => (changeLast change rest).map (first :: ·)

/-- Follows a path of tables and changes the entries at its end. Tables that are missing are made
with the origin `making`; on a path of dotted keys a table with a header is no way through. The
change learns the origin of the table that it works on. -/
def descend (making : Origin) (change : Origin → Entries → Option Entries) :
    List String → Origin → Entries → Option Entries
  | [], origin, entries => change origin entries
  | key :: path, _, entries =>
    match entries.find? key with
    | none => do
      let made ← descend making change path making []
      return entries ++ [(key, .table making made)]
    | some (.table origin children) =>
      if origin = .inline ∨ (making = .dotted ∧ origin = .header) then none
      else do
        let changed ← descend making change path origin children
        return entries.replace key (.table origin changed)
    | some (.tables items) => do
      let changed ← changeLast (descend making change path .header) items
      return entries.replace key (.tables changed)
    | some _ => none

/-- Adds a new key to a table. -/
def addKey (key : String) (value : Value) (entries : Entries) : Option Entries :=
  match entries.find? key with
  | some _ => none
  | none => some (entries ++ [(key, value)])

/-- Assigns a value to a dotted key. The table it ends in must have come about by dotted keys, or be
the table that the key starts from. -/
def assign (path : List String) (value : Value) (origin : Origin) (entries : Entries) :
    Option Entries :=
  match path.getLast? with
  | none => none
  | some key =>
    let tables := path.dropLast
    descend .dotted
      (fun reached children ↦
        if tables.isEmpty = false ∧ reached ≠ .dotted then none else addKey key value children)
      tables origin entries

/-- Gives a table its header. -/
def defineTable (key : String) (entries : Entries) : Option Entries :=
  match entries.find? key with
  | none => some (entries ++ [(key, .table .header [])])
  | some (.table .implicit children) => some (entries.replace key (.table .header children))
  | some _ => none

/-- Adds a table to an array of tables. -/
def addTable (key : String) (entries : Entries) : Option Entries :=
  match entries.find? key with
  | none => some (entries ++ [(key, .tables [[]])])
  | some (.tables items) => some (entries.replace key (.tables (items ++ [[]])))
  | some _ => none

/-- Changes the table that contains the last key of a header. -/
def atHeader (path : List String) (change : String → Entries → Option Entries)
    (entries : Entries) : Option Entries :=
  match path.getLast? with
  | none => none
  | some key => descend .implicit (fun _ ↦ change key) path.dropLast .header entries

/-- Carries out statements, starting in the table at `current`. -/
def assemble : List Statement → List String → Entries → Option Entries
  | [], _, entries => some entries
  | .assign path value :: rest, current, entries => do
    assemble rest current (← descend .implicit (assign path value) current .header entries)
  | .header path :: rest, _, entries => do
    assemble rest path (← atHeader path defineTable entries)
  | .arrayHeader path :: rest, _, entries => do
    assemble rest path (← atHeader path addTable entries)

/-- The table that the assignments between braces make. -/
def inlineTable (assignments : List (List String × Value)) : Option Value :=
  (assignments.foldlM (fun entries entry ↦ assign entry.1 entry.2 .inline entries) []).map
    (.table .inline)

end GradualRuntime.Toml
