import GradualRuntime.Value

/-!
# Property descriptors

What a named slot of an object holds: a value with its two flags, a pair of accessor functions, or
a lazy binding. A lazy binding is only a reference to its cell, so copying the descriptor shares
the cell.
-/

set_option autoImplicit false

namespace GradualRuntime

/-- The descriptor of a named slot. -/
inductive Property where
  | data (value : Value) (writable enumerable : Bool)
  | accessor (getter setter : Option FunctionId) (enumerable : Bool)
  | binding (cell : CellId)
  deriving DecidableEq

namespace Property

/-- An ordinary slot, writable and enumerable. -/
def ordinary (value : Value) : Property := data value true true

/-- A slot that rejects writes. -/
def constant (value : Value) : Property := data value false true

/-- The slot of a method: writable, left out of enumeration. -/
def method (function : FunctionId) : Property := data (.function function) true false

/-- An accessor with a getter only. -/
def ofGetter (getter : FunctionId) : Property := accessor (some getter) none false

/-- An accessor left out of enumeration. -/
def ofAccessors (getter setter : Option FunctionId) : Property := accessor getter setter false

/-- Whether the slot is a lazy binding. -/
def isBinding : Property → Bool
  | binding _ => true
  | _ => false

end Property

end GradualRuntime
