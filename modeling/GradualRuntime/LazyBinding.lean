import GradualRuntime.Run

/-!
# Lazy bindings

A lazy binding is a slot backed by a cell that moves one way only: uninitialized, in progress,
initialized. The first access runs the initializer (`LazyBinding.force`). An access to a cell in
progress is a circular initialization and fails each time; an initializer that fails leaves its
cell in progress for good, because there is no way back.

Once the cell has a value, the slot through which it was read becomes an ordinary slot holding that
value (`LazyBinding.read`). A write to a mutable binding runs the initializer first and then stores
the written value in that slot (`LazyBinding.write`). The cell keeps the initializer's value either
way, so other slots that share it still see that value.
-/

set_option autoImplicit false

namespace GradualRuntime

namespace LazyCell

/-- The descriptor that replaces a lazy binding once there is a value. -/
def materialized (cell : LazyCell) (value : Value) : Property := .data value cell.isMutable true

end LazyCell

namespace Heap

/-- Puts a lazy binding with a fresh cell into a slot. -/
def bindLazily (heap : Heap) (target : ObjectId) (name : String) (initializer : FunctionId)
    (isMutable : Bool) : Heap :=
  let cell := heap.nextCell
  (heap.addCell ⟨name, isMutable, .uninitialized initializer⟩).define target name (.binding cell)

end Heap

namespace Property

/-- The initializer that a descriptor contributes to a lazy binding, and whether the binding is
mutable: a getter, mutable when there is a setter too, or a function, immutable. -/
def initializer? : Property → Option (FunctionId × Bool)
  | accessor (some getter) setter _ => some (getter, setter.isSome)
  | data (.function function) _ _ => some (function, false)
  | _ => none

end Property

namespace Heap

/-- Puts lazy bindings on a target for some names of a source, up to the first name whose slot
contributes no initializer; that name is returned. -/
def bindNames (target source : ObjectId) : List String → Heap → Option String × Heap
  | [], heap => (none, heap)
  | name :: rest, heap =>
    match (heap.own? source name).bind Property.initializer? with
    | some (initializer, isMutable) =>
      bindNames target source rest (heap.bindLazily target name initializer isMutable)
    | none => (some name, heap)

end Heap

namespace LazyBinding

/-- The cell behind a reference. -/
def cell (reference : CellId) : Run LazyCell := do
  match (← Run.heap).cell? reference with
  | some cell => return cell
  | none => Run.fail (.unsupported "lazy cell")

/-- The value of a cell, which the first use computes. -/
def force (reference : CellId) : Run Value := do
  let cell ← cell reference
  match cell.state with
  | .initialized value => return value
  | .inProgress => Run.fail (.circularInitialization cell.name)
  | .uninitialized initializer =>
    Run.changeHeap fun heap ↦ heap.setCellState reference .inProgress
    Run.emit (.initializerStarted reference cell.name)
    let value ← Run.onFault (Run.callInitializer reference initializer) fun fault ↦ do
      Run.emit (.initializerFailed reference cell.name (fault.message (← Run.heap)))
    Run.changeHeap fun heap ↦ heap.setCellState reference (.initialized value)
    return value

/-- Reads a lazy binding found in a slot of `holder`. -/
def read (holder : ObjectId) (name : String) (reference : CellId) : Run Value := do
  let value ← force reference
  Run.define holder name ((← cell reference).materialized value)
  return value

/-- Writes a lazy binding found in a slot of `holder`. -/
def write (holder : ObjectId) (name : String) (reference : CellId) (value : Value) :
    Run Unit := do
  let cell ← cell reference
  if cell.isMutable then
    let _ ← force reference
    Run.define holder name (cell.materialized value)
  else
    Run.fail (.readOnly name)

/-- Puts a lazy binding with a fresh cell into a slot. -/
def install (target : ObjectId) (name : String) (initializer : FunctionId) (isMutable : Bool) :
    Run Unit :=
  Run.changeHeap fun heap ↦ heap.bindLazily target name initializer isMutable

/-- Puts a lazy binding on the target for every own property of the source. The first property that
has no initializer to contribute stops it; the bindings installed before stay. -/
def installAll (target source : ObjectId) : Run Unit := do
  let heap ← Run.heap
  let (offending, changed) := Heap.bindNames target source (heap.ownNames source) heap
  Run.changeHeap fun _ ↦ changed
  match offending with
  | none => return ()
  | some name =>
    Run.fail (.invariantViolation ("lazy property '" ++ name ++ "' has no initializer"))

end LazyBinding

end GradualRuntime
