import GradualRuntime.Run

/-!
# Operands

Small readings shared by the operations: named cells and generic types, descriptors whose parts are
operands, lists in which names alternate with values or functions. A list of operands that does not
fit its operation makes the operation unsupported.
-/

set_option autoImplicit false

namespace GradualRuntime

namespace Operands

/-- The failure of an operation whose operands do not fit. -/
def mismatch {α : Type} : Run α := Run.fail (.unsupported "operands")

/-- The cell known under a name. -/
def cellNamed (name : String) : Run CellId := do
  match (← get).cellNames.find? name with
  | some cell => return cell
  | none => Run.fail (.unsupported ("cell " ++ name))

/-- The generic type known under a name. -/
def genericNamed (name : String) : Run GenericId := do
  match (← get).genericNames.find? name with
  | some generic => return generic
  | none => Run.fail (.unsupported ("generic type " ++ name))

/-- Takes an announced function from the operands. -/
def takeFunction : Bool → List Value → Run (Option FunctionId × List Value)
  | false, operands => return (none, operands)
  | true, .function function :: rest => return (some function, rest)
  | true, _ => mismatch

/-- Takes an announced class from the operands. -/
def takeClass : Bool → List Value → Run (Option ClassId × List Value)
  | false, operands => return (none, operands)
  | true, .type reference :: rest => return (some reference, rest)
  | true, _ => mismatch

/-- Takes the parts of a descriptor from the operands. -/
def takeProperty : PropertyForm → List Value → Run (Property × List Value)
  | .ordinary, value :: rest => return (.ordinary value, rest)
  | .constant, value :: rest => return (.constant value, rest)
  | .method, .function function :: rest => return (.method function, rest)
  | .getter, .function function :: rest => return (.ofGetter function, rest)
  | .accessor hasGetter hasSetter enumerable, operands => do
    let (getter, afterGetter) ← takeFunction hasGetter operands
    let (setter, rest) ← takeFunction hasSetter afterGetter
    return (.accessor getter setter enumerable, rest)
  | .data writable enumerable, value :: rest => return (.data value writable enumerable, rest)
  | .binding cellName, operands => return (.binding (← cellNamed cellName), operands)
  | _, _ => mismatch

/-- Takes named slots from the operands, each a name followed by the parts of its descriptor. -/
def takeSlots :
    List PropertyForm → List Value → Run (List (String × Property) × List Value)
  | [], operands => return ([], operands)
  | form :: forms, .string name :: operands => do
    let (property, afterProperty) ← takeProperty form operands
    let (slots, rest) ← takeSlots forms afterProperty
    return ((name, property) :: slots, rest)
  | _, _ => mismatch

/-- Names alternating with values, as ordinary slots. -/
def entries : List Value → Run (List (String × Property))
  | [] => return []
  | .string name :: value :: rest => return (name, .ordinary value) :: (← entries rest)
  | _ => mismatch

/-- Operands that must all be classes. -/
def classes : List Value → Run (List ClassId)
  | [] => return []
  | .type reference :: rest => return reference :: (← classes rest)
  | _ => mismatch

end Operands

end GradualRuntime
