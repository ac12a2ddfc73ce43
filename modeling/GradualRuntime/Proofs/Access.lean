import GradualRuntime.Proofs.CellLifecycle

/-!
# Evaluating accesses

The evaluation of operations that a body asks for, of forces, and of the reads and writes of a
binding, each in terms of the evaluation of its parts. A force settles the cell with the outcome of
one call of the initializer (`LazyBinding.endsWith_force`); a read then replaces the slot by the
value, a write by the value written (`LazyBinding.endsWith_read`, `LazyBinding.endsWith_write`).
-/

set_option autoImplicit false

namespace GradualRuntime

section Bodies

variable {state middle last : State}

/-- A body has changed nothing when it first gives control away. -/
theorem Body.state_run (body : Body) (state : State) : (body.run state).state = state := by
  induction body with
  | finish outcome => rfl
  | withRealm next ih => exact ih state.current
  | perform realm operation operands next => rfl
  | close name formals body next => rfl

/-- A body ends as it goes on to from the outcome of the operation that it asks for. -/
theorem Body.endsWith_perform {realm : RealmId} {operation : Operation} {operands : List Value}
    {next : Except Fault Answer → Body} {outcome result : Except Fault Answer}
    (hoperation : (operation.execute realm operands state).EndsWith outcome middle)
    (hnext : ((next outcome).run middle).EndsWith result last) :
    ((Body.perform realm operation operands next).run state).EndsWith result last := by
  rw [run_perform]
  exact .paused (hoperation.andThen hnext)

theorem Body.endsWith_finish (outcome : Except Fault Answer) (state : State) :
    ((Body.finish outcome).run state).EndsWith outcome state := .ended outcome state

/-- A call of a function with a body of its own. -/
theorem Machine.endsWith_enter {call : Call} {body : Value → List Value → Body}
    {outcome : Except Fault Answer}
    (hcode : state.procedures.get? call.function.index = some (.native body))
    (hbody : ((body call.this call.arguments).run (state.record (.entered call))).EndsWith
      outcome last) :
    (Machine.enter call state).EndsWith outcome last := by
  have hentered : (state.record (.entered call)).procedures.get? call.function.index =
      some (.native body) := hcode
  simpa [Machine.enter, hentered, Procedure.run] using hbody

/-- Operations that are given only what the heap knows are carried out. -/
theorem Operation.execute_of_known {realm : RealmId} {operation : Operation}
    {operands : List Value} (h : operands.all state.heap.knows = true) :
    operation.execute realm operands state = operation.carryOut realm operands state := by
  simp [Operation.execute, h]

/-- The state at a moment at which a body goes on. -/
theorem Session.state_of_run {bodies : List Body} {start : State} {index : Nat}
    {frames : List PendingCall} {body : Body} {state : State}
    (h : (moment bodies start index).configuration = ⟨frames, body.run state⟩) :
    (moment bodies start index).state = state := by
  rw [Session.state, h]
  exact body.state_run state

/-- A body whose operation calls nothing has the outcome at the next moment. -/
theorem Session.configuration_of_perform {bodies : List Body} {start : State} {index : Nat}
    {frames : List PendingCall} {place : RealmId} {operation : Operation} {operands : List Value}
    {next : Except Fault Answer → Body} {before after : State} {outcome : Except Fault Answer}
    (h : (moment bodies start index).configuration =
      ⟨frames, (Body.perform place operation operands next).run before⟩)
    (hexecute : operation.execute place operands before = .ended outcome after) :
    (moment bodies start (index + 1)).configuration = ⟨frames, (next outcome).run after⟩ := by
  rw [Body.run_perform] at h
  rw [moment_succ, configuration_step_of_paused h, hexecute]
  rfl

end Bodies

namespace LazyBinding

variable {state after : State} {reference : CellId} {record : LazyCell} {holder : ObjectId}
  {name : String} {value : Value}

/-- A force of a cell that has not been accessed settles it with the outcome of one call. -/
theorem endsWith_force (h : state.heap.cell? reference = some record) {initializer : FunctionId}
    (hstate : record.state = .uninitialized initializer) {answer : Except Fault Answer}
    {back : State}
    (hcallee : (Machine.enter ⟨initializer, .undefined, [], .initializing reference⟩
      (state.startCell reference record.name)).EndsWith answer back) :
    (force reference state).EndsWith (answer.map Answer.toValue)
      ((back.record (.returned ⟨initializer, .undefined, [], .initializing reference⟩
        (answer.map Answer.toValue))).settleCell reference record.name
          (answer.map Answer.toValue)) := by
  rw [force_of_uninitialized h hstate]
  exact .calling hcallee (.ended _ _)

/-- A force keeps the name of the cell and its mutability. -/
theorem cell?_of_force (h : state.heap.cell? reference = some record)
    {outcome : Except Fault Value} (hforce : (force reference state).EndsWith outcome after) :
    ∃ moved, after.heap.cell? reference = some { record with state := moved } :=
  Ledger.Transitions.cell? (hforce.transitions (careful_force reference state).orderly []) h

/-- A read whose force fails fails with the same fault. -/
theorem endsWith_read_error {fault : Fault}
    (hforce : (force reference state).EndsWith (.error fault) after) :
    (read holder name reference state).EndsWith (.error fault) after :=
  hforce.andThen (.ended (.error fault) after)

/-- A read whose force returns replaces the slot by the value. -/
theorem endsWith_read (h : state.heap.cell? reference = some record)
    (hforce : (force reference state).EndsWith (.ok value) after) :
    (read holder name reference state).EndsWith (.ok value)
      { after with heap := after.heap.define holder name (record.materialized value) } := by
  obtain ⟨moved, hmoved⟩ := cell?_of_force h hforce
  refine hforce.andThen ?_
  simp [cell_apply hmoved, LazyCell.materialized]

/-- A write to a mutable binding whose force returns replaces the slot by the written value. -/
theorem endsWith_write (h : state.heap.cell? reference = some record)
    (hmutable : record.isMutable = true) {initial : Value}
    (hforce : (force reference state).EndsWith (.ok initial) after) :
    (write holder name reference value state).EndsWith (.ok ())
      { after with heap := after.heap.define holder name (record.materialized value) } := by
  simp only [write, Run.bind_apply, cell_apply h, Progress.andThen_ended, Run.onward_ok, hmutable,
    if_true]
  exact hforce.andThen (.ended (.ok ()) _)

end LazyBinding

end GradualRuntime
