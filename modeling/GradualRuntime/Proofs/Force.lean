import GradualRuntime.Member
import GradualRuntime.Proofs.Change

/-!
# Forcing a cell

What `LazyBinding.force` does, by the state of the cell. An initialized cell gives its value and a
cell in progress fails, both at once (`force_of_initialized`, `force_of_inProgress`). Any other cell
is started, its initializer is called once, and the outcome of that call is the outcome of the force
(`force_of_uninitialized`).

Reads and writes of a lazy binding force its cell first. They fail at once while it is in progress,
whichever object and slot they go through (`Member.read_of_inProgress`, `Member.set_of_inProgress`).
-/

set_option autoImplicit false

namespace GradualRuntime

namespace LazyBinding

variable {state : State} {reference : CellId} {record : LazyCell}

theorem cell_apply (h : state.heap.cell? reference = some record) :
    cell reference state = .ended (.ok record) state := by
  simp [cell, h]

theorem force_of_initialized (h : state.heap.cell? reference = some record) {value : Value}
    (hstate : record.state = .initialized value) :
    force reference state = .ended (.ok value) state := by
  simp [force, cell_apply h, hstate]

theorem force_of_inProgress (h : state.heap.cell? reference = some record)
    (hstate : record.state = .inProgress) :
    force reference state = .ended (.error (.circularInitialization record.name)) state := by
  simp [force, cell_apply h, hstate]

theorem force_of_uninitialized (h : state.heap.cell? reference = some record)
    {initializer : FunctionId} (hstate : record.state = .uninitialized initializer) :
    force reference state =
      .calling ⟨initializer, .undefined, [], .initializing reference⟩
        (state.startCell reference record.name)
        fun outcome later ↦ .ended outcome (later.settleCell reference record.name outcome) := by
  simp only [force, Run.bind_apply, cell_apply h, Progress.andThen_ended, Run.onward_ok, hstate,
    Run.changeHeap_apply, Run.emit_apply, Run.onFault_apply, Run.callInitializer_apply,
    Progress.andThen_calling]
  congr 1
  funext outcome later
  cases outcome <;> rfl

end LazyBinding

namespace Member

variable {state : State} {object holder : ObjectId} {name : String} {reference : CellId}
  {record : LazyCell}

theorem read_of_binding (h : state.heap.lookup object name = some (holder, .binding reference))
    (receiver : Value) :
    read object name receiver state = LazyBinding.read holder name reference state := by
  simp [read, h]

theorem set_of_binding (h : state.heap.lookup object name = some (holder, .binding reference))
    (value : Value) :
    set object name value state = LazyBinding.write holder name reference value state := by
  simp [set, h]

theorem read_of_inProgress (h : state.heap.lookup object name = some (holder, .binding reference))
    (hrecord : state.heap.cell? reference = some record) (hstate : record.state = .inProgress)
    (receiver : Value) :
    read object name receiver state =
      .ended (.error (.circularInitialization record.name)) state := by
  simp [read_of_binding h, LazyBinding.read, LazyBinding.force_of_inProgress hrecord hstate]

theorem set_of_inProgress (h : state.heap.lookup object name = some (holder, .binding reference))
    (hrecord : state.heap.cell? reference = some record) (hstate : record.state = .inProgress)
    (hmutable : record.isMutable = true) (value : Value) :
    set object name value state =
      .ended (.error (.circularInitialization record.name)) state := by
  simp [set_of_binding h, LazyBinding.write, LazyBinding.cell_apply hrecord, hmutable,
    LazyBinding.force_of_inProgress hrecord hstate]

end Member

end GradualRuntime
