import GradualRuntime.LazyBinding

/-!
# Reading and writing members of objects

Both rules start from the nearest owner of the name on the prototype chain (`Heap.lookup`).

A read takes the value of a data slot, calls a getter with the receiver as `this`, or forces a lazy
binding; a name that nobody owns, like an accessor without a getter, reads as undefined.

A write to a writable data slot always lands on the object written to: it replaces its own slot,
flags kept, and shadows an inherited one by a new enumerable slot. A setter is called with the
object as `this`. Slots that are not writable and accessors without a setter reject the write. A
name that nobody owns becomes an ordinary slot.
-/

set_option autoImplicit false

namespace GradualRuntime

namespace Member

/-- Reads a member, with `receiver` as the `this` of a getter. -/
def read (object : ObjectId) (name : String) (receiver : Value) : Run Value := do
  match ← Run.ask fun heap ↦ heap.lookup object name with
  | none => return .undefined
  | some (_, .data value _ _) => return value
  | some (_, .accessor (some getter) _ _) => Run.call getter receiver []
  | some (_, .accessor none _ _) => return .undefined
  | some (holder, .binding cell) => LazyBinding.read holder name cell

/-- Reads a member of an object on its own behalf. -/
def get (object : ObjectId) (name : String) : Run Value :=
  read object name (.object object)

/-- Writes a member. -/
def set (object : ObjectId) (name : String) (value : Value) : Run Unit := do
  match ← Run.ask fun heap ↦ heap.lookup object name with
  | none => Run.define object name (.ordinary value)
  | some (_, .data _ false _) => Run.fail (.readOnly name)
  | some (holder, .data _ true enumerable) =>
    Run.define object name (.data value true (enumerable || holder != object))
  | some (_, .accessor _ (some setter) _) =>
    let _ ← Run.call setter (.object object) [value]
  | some (_, .accessor _ none _) => Run.fail (.readOnly name)
  | some (holder, .binding cell) => LazyBinding.write holder name cell value

section Slots

variable {state : State} {object holder : ObjectId} {name : String} {held : Value}
  {writable enumerable : Bool}

/-- A slot that holds a value reads as the value. -/
theorem read_of_data
    (h : state.heap.lookup object name = some (holder, .data held writable enumerable))
    (receiver : Value) : read object name receiver state = .ended (.ok held) state := by
  simp [read, h]

theorem get_of_own (h : state.heap.own? object name = some (.data held writable enumerable)) :
    get object name state = .ended (.ok held) state :=
  read_of_data (Heap.lookup_of_own?_eq_some h) (.object object)

theorem set_of_absent (h : state.heap.lookup object name = none) (value : Value) :
    set object name value state =
      .ended (.ok ()) { state with heap := state.heap.define object name (.ordinary value) } := by
  simp [set, h]

/-- A write that finds a writable slot puts an own slot on the object written to. -/
theorem set_of_writable
    (h : state.heap.lookup object name = some (holder, .data held true enumerable))
    (value : Value) :
    set object name value state = .ended (.ok ()) { state with
      heap := state.heap.define object name
        (.data value true (enumerable || holder != object)) } := by
  simp [set, h]

/-- A write that finds a constant, own or inherited, is rejected at once. -/
theorem set_of_constant
    (h : state.heap.lookup object name = some (holder, .data held false enumerable))
    (value : Value) : set object name value state = .ended (.error (.readOnly name)) state := by
  simp [set, h]

end Slots

end Member

end GradualRuntime
