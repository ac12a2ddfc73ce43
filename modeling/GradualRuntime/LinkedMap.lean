import GradualRuntime.Member

/-!
# Linked maps

An ordered table of keys and values, offered to programs as an object with the methods `get`, `set`
and `containsKey` and the getter `length`. Keys compare by identity. The contents are reachable only
through these four functions, so no write to the object changes them.
-/

set_option autoImplicit false

namespace GradualRuntime

namespace LinkedMap

/-- The tag of linked maps. -/
def tag : String := "LinkedHashMap"

/-- The table of alternating keys and values, first to last; a last key without a value is
ignored. -/
def tableOfPairs : LinkedTable → List Value → LinkedTable
  | table, key :: value :: rest => tableOfPairs (table.insert key.identityKey (key, value)) rest
  | table, _ => table

/-- Reads some properties of an object, one after another, and files each value under its name. -/
def readProperties (source : ObjectId) : List String → LinkedTable → Run LinkedTable
  | [], table => return table
  | name :: rest, table => do
    let value ← Member.get source name
    let key := Value.string name
    readProperties source rest (table.insert key.identityKey (key, value))

/-- Makes the object around a table. -/
def make (contents : LinkedTable) : Run ObjectId := do
  let table ← Run.create Heap.nextTable fun heap ↦ heap.addTable contents
  let map ← Run.allocate none (some tag)
  Run.define map "get" (.method (← Run.makeFunction "get" ["key"] (.tableGet table)))
  Run.define map "set" (.method (← Run.makeFunction "set" ["key", "value"] (.tableSet table)))
  Run.define map "containsKey"
    (.method (← Run.makeFunction "containsKey" ["key"] (.tableContains table)))
  Run.define map "length" (.ofGetter (← Run.makeFunction "length" [] (.tableSize table)))
  return map

/-- The map of alternating keys and values. -/
def ofPairs (values : List Value) : Run ObjectId := make (tableOfPairs .empty values)

/-- The map of the own properties of an object, keyed by name. -/
def ofObject (source : ObjectId) : Run ObjectId := do
  make (← readProperties source ((← Run.heap).ownNames source) .empty)

/-- An argument that a method cannot do without. -/
def required (method : String) (arguments : List Value) (index : Nat) : Run Value :=
  match arguments[index]? with
  | some value => return value
  | none =>
    Run.fail (.invariantViolation (method ++ ": missing argument " ++ (index + 1).repr))

/-- What `get` does: a key without a value gives null. -/
def lookUp (table : TableId) (arguments : List Value) : Run Value := do
  let key ← required "get" arguments 0
  return (((← Run.heap).table table).find? key.identityKey).elim .null Prod.snd

/-- What `set` does. -/
def store (table : TableId) (arguments : List Value) : Run Value := do
  let key ← required "set" arguments 0
  let value ← required "set" arguments 1
  Run.changeHeap fun heap ↦ heap.writeEntry table key value
  return .undefined

/-- What `containsKey` does. -/
def containsKey (table : TableId) (arguments : List Value) : Run Value := do
  let key ← required "containsKey" arguments 0
  return .boolean (((← Run.heap).table table).contains key.identityKey)

/-- What `length` does. -/
def length (table : TableId) : Run Value := do
  return .integer (Int64.ofNat ((← Run.heap).table table).size)

end LinkedMap

end GradualRuntime
