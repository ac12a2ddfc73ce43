import GradualRuntime.State

/-!
# Runs

A `Run` is a computation over program states. It may stop with a fault, and the state reached by
then stays: nothing is rolled back.

A run does not carry out the calls that it makes. It goes as far as it can by itself and then asks
for a call, together with what it does with the outcome (`Progress`). This opens the recursion
between operations and function bodies: what an operation does is defined, and can be reasoned
about, for any behaviour of the functions that it calls. The machine carries the calls out.
-/

set_option autoImplicit false

namespace GradualRuntime

/-- How far a computation has come. -/
inductive Progress (α : Type) where
  /-- It has a result or a fault. -/
  | ended (outcome : Except Fault α) (state : State)
  /-- A function body has control and goes on from the same state. -/
  | paused (state : State) (resume : State → Progress α)
  /-- It asks for a call and goes on with the outcome. -/
  | calling (call : Call) (state : State) (resume : Except Fault Value → State → Progress α)

namespace Progress

/-- The state that a computation has reached. -/
def state {α : Type} : Progress α → State
  | ended _ state | paused state _ | calling _ state _ => state

/-- Goes on with the outcome of a computation, be it a result or a fault. -/
def andThen {α β : Type} (next : Except Fault α → State → Progress β) : Progress α → Progress β
  | ended outcome state => next outcome state
  | paused state resume => paused state fun later ↦ (resume later).andThen next
  | calling call state resume =>
    calling call state fun outcome later ↦ (resume outcome later).andThen next

variable {α β γ : Type}

@[simp]
theorem andThen_ended (next : Except Fault α → State → Progress β) (outcome : Except Fault α)
    (state : State) : (ended outcome state).andThen next = next outcome state := rfl

@[simp]
theorem andThen_paused (next : Except Fault α → State → Progress β) (state : State)
    (resume : State → Progress α) :
    (paused state resume).andThen next = paused state fun later ↦ (resume later).andThen next := rfl

@[simp]
theorem andThen_calling (next : Except Fault α → State → Progress β) (call : Call) (state : State)
    (resume : Except Fault Value → State → Progress α) :
    (calling call state resume).andThen next =
      calling call state fun outcome later ↦ (resume outcome later).andThen next := rfl

theorem andThen_assoc (progress : Progress α) (next : Except Fault α → State → Progress β)
    (last : Except Fault β → State → Progress γ) :
    (progress.andThen next).andThen last =
      progress.andThen fun outcome state ↦ (next outcome state).andThen last := by
  induction progress with
  | ended outcome state => rfl
  | paused state resume ih => simp only [andThen_paused, ih]
  | calling call state resume ih => simp only [andThen_calling, ih]

@[simp]
theorem andThen_ended_self (progress : Progress α) : progress.andThen ended = progress := by
  induction progress with
  | ended outcome state => rfl
  | paused state resume ih => simp only [andThen_paused, ih]
  | calling call state resume ih => simp only [andThen_calling, ih]

end Progress

/-- A computation over program states. -/
def Run (α : Type) : Type := State → Progress α

namespace Run

/-- Goes on with a result; a fault ends the run. -/
def onward {α β : Type} (next : α → Run β) : Except Fault α → State → Progress β
  | .ok result, state => next result state
  | .error fault, state => .ended (.error fault) state

/-- Goes on with a fault; a result ends the run. -/
def rescue {α : Type} (handle : Fault → Run α) : Except Fault α → State → Progress α
  | .ok result, state => .ended (.ok result) state
  | .error fault, state => handle fault state

instance : Monad Run where
  pure result := fun state ↦ .ended (.ok result) state
  bind action next := fun state ↦ (action state).andThen (onward next)

instance : MonadStateOf State Run where
  get := fun state ↦ .ended (.ok state) state
  set after := fun _ ↦ .ended (.ok ()) after
  modifyGet change := fun state ↦
    let (result, after) := change state
    .ended (.ok result) after

instance : MonadExceptOf Fault Run where
  throw fault := fun state ↦ .ended (.error fault) state
  tryCatch action handle := fun state ↦ (action state).andThen (rescue handle)

/-- Stops with a fault. -/
def fail {α : Type} (fault : Fault) : Run α := throw fault

/-- Asks for a call and gives its outcome. -/
def request (call : Call) : Run Value := fun state ↦ .calling call state .ended

/-- Calls a function with a `this` and arguments. -/
def call (function : FunctionId) (this : Value) (arguments : List Value) : Run Value :=
  request ⟨function, this, arguments, .plain⟩

/-- Calls the initializer of a lazy binding for its cell. -/
def callInitializer (cell : CellId) (function : FunctionId) : Run Value :=
  request ⟨function, .undefined, [], .initializing cell⟩

/-- Marks a point at which a function body has control. -/
def pause : Run Unit := fun state ↦ .paused state fun later ↦ .ended (.ok ()) later

/-- The heap as it is now. -/
def heap : Run Heap := do return (← get).heap

/-- The answer that the heap gives to a question now. -/
def ask {α : Type} (question : Heap → α) : Run α := do return question (← get).heap

/-- Changes the heap. -/
def changeHeap (change : Heap → Heap) : Run Unit :=
  modify fun state ↦ { state with heap := change state.heap }

/-- Adds something to the heap and gives the reference that was next for it. -/
def create {α : Type} (next : Heap → α) (add : Heap → Heap) : Run α :=
  modifyGet fun state ↦ (next state.heap, { state with heap := add state.heap })

/-- The realm behind a reference as it is now. -/
def realm (reference : RealmId) : Run Realm := do return (← get).realm reference

/-- Adds an entry to the trace. -/
def record (entry : TraceEntry) : Run Unit := modify fun state ↦ state.record entry

/-- Emits an event. -/
def emit (event : Event) : Run Unit := record (.emitted event)

/-- Runs an action when another one fails, and then fails with the same fault. -/
def onFault {α : Type} (action : Run α) (react : Fault → Run Unit) : Run α :=
  tryCatch action fun fault ↦ do
    react fault
    throw fault

/-- The outcome of an action, faults included. -/
def attempt {α : Type} (action : Run α) : Run (Except Fault α) :=
  fun state ↦ (action state).andThen fun outcome ↦ .ended (.ok outcome)

/-- The result of an outcome, or its fault. -/
def ofOutcome {α : Type} (outcome : Except Fault α) : Run α := fun state ↦ .ended outcome state

/-- Allocates an object without slots, on a prototype that exists if on any. -/
def allocate (prototype : Option ObjectId) (tag : Option String) : Run ObjectId := do
  if ← ask fun heap ↦ prototype.all fun parent ↦ heap.knows (.object parent) then
    create Heap.nextObject fun current ↦ current.addObject ⟨prototype, tag, .empty⟩
  else
    fail (.unsupported "unknown reference")

/-- Makes a function. -/
def makeFunction (name : String) (formals : List String) (procedure : Procedure) :
    Run FunctionId :=
  modifyGet fun state ↦
    (state.heap.nextFunction,
      { state with
        heap := state.heap.addFunction ⟨name, formals⟩
        procedures := state.procedures.push procedure })

/-- Defines or replaces a slot. -/
def define (object : ObjectId) (name : String) (property : Property) : Run Unit :=
  changeHeap fun current ↦ current.define object name property

section Evaluation

variable {α β : Type}

@[simp]
theorem onward_ok (next : α → Run β) (result : α) (state : State) :
    onward next (.ok result) state = next result state := rfl

@[simp]
theorem onward_error (next : α → Run β) (fault : Fault) (state : State) :
    onward next (.error fault) state = .ended (.error fault) state := rfl

@[simp]
theorem rescue_ok (handle : Fault → Run α) (result : α) (state : State) :
    rescue handle (.ok result) state = .ended (.ok result) state := rfl

@[simp]
theorem rescue_error (handle : Fault → Run α) (fault : Fault) (state : State) :
    rescue handle (.error fault) state = handle fault state := rfl

@[simp]
theorem pure_apply (result : α) (state : State) :
    (pure result : Run α) state = .ended (.ok result) state := rfl

@[simp]
theorem bind_apply (action : Run α) (next : α → Run β) (state : State) :
    (action >>= next) state = (action state).andThen (onward next) := rfl

@[simp]
theorem map_apply (change : α → β) (action : Run α) (state : State) :
    (change <$> action) state =
      (action state).andThen (onward fun result ↦ pure (change result)) := rfl

@[simp]
theorem get_apply (state : State) : (get : Run State) state = .ended (.ok state) state := rfl

@[simp]
theorem modify_apply (change : State → State) (state : State) :
    (modify change : Run Unit) state = .ended (.ok ()) (change state) := rfl

@[simp]
theorem modifyGet_apply (change : State → α × State) (state : State) :
    (modifyGet change : Run α) state = .ended (.ok (change state).1) (change state).2 := rfl

@[simp]
theorem throw_apply (fault : Fault) (state : State) :
    (throw fault : Run α) state = .ended (.error fault) state := rfl

@[simp]
theorem tryCatch_apply (action : Run α) (handle : Fault → Run α) (state : State) :
    (tryCatch action handle : Run α) state = (action state).andThen (rescue handle) := rfl

@[simp]
theorem fail_apply (fault : Fault) (state : State) :
    (fail fault : Run α) state = .ended (.error fault) state := rfl

@[simp]
theorem request_apply (call : Call) (state : State) :
    request call state = .calling call state .ended := rfl

@[simp]
theorem call_apply (function : FunctionId) (this : Value) (arguments : List Value)
    (state : State) :
    call function this arguments state =
      .calling ⟨function, this, arguments, .plain⟩ state .ended := rfl

@[simp]
theorem callInitializer_apply (cell : CellId) (function : FunctionId) (state : State) :
    callInitializer cell function state =
      .calling ⟨function, .undefined, [], .initializing cell⟩ state .ended := rfl

@[simp]
theorem pause_apply (state : State) :
    pause state = .paused state fun later ↦ .ended (.ok ()) later := rfl

@[simp]
theorem heap_apply (state : State) : heap state = .ended (.ok state.heap) state := rfl

@[simp]
theorem ask_apply (question : Heap → α) (state : State) :
    ask question state = .ended (.ok (question state.heap)) state := rfl

@[simp]
theorem changeHeap_apply (change : Heap → Heap) (state : State) :
    changeHeap change state = .ended (.ok ()) { state with heap := change state.heap } := rfl

@[simp]
theorem create_apply (next : Heap → α) (add : Heap → Heap) (state : State) :
    create next add state =
      .ended (.ok (next state.heap)) { state with heap := add state.heap } := rfl

@[simp]
theorem realm_apply (reference : RealmId) (state : State) :
    realm reference state = .ended (.ok (state.realm reference)) state := rfl

@[simp]
theorem record_apply (entry : TraceEntry) (state : State) :
    record entry state = .ended (.ok ()) (state.record entry) := rfl

@[simp]
theorem emit_apply (event : Event) (state : State) :
    emit event state = .ended (.ok ()) (state.record (.emitted event)) := rfl

@[simp]
theorem onFault_apply (action : Run α) (react : Fault → Run Unit) (state : State) :
    onFault action react state =
      (action state).andThen (rescue fun fault ↦ do react fault; throw fault) := rfl

@[simp]
theorem attempt_apply (action : Run α) (state : State) :
    attempt action state = (action state).andThen fun outcome ↦ .ended (.ok outcome) := rfl

@[simp]
theorem ofOutcome_apply (outcome : Except Fault α) (state : State) :
    ofOutcome outcome state = .ended outcome state := rfl

@[simp]
theorem define_apply (object : ObjectId) (name : String) (property : Property) (state : State) :
    define object name property state =
      .ended (.ok ()) { state with heap := state.heap.define object name property } := rfl

/-- A sequence goes on with the result of its first part. -/
theorem bind_of_ok {action : Run α} {state after : State} {result : α}
    (h : action state = .ended (.ok result) after) (next : α → Run β) :
    (action >>= next) state = next result after := by
  simp [h]

/-- A sequence fails with its first part. -/
theorem bind_of_error {action : Run α} {state after : State} {fault : Fault}
    (h : action state = .ended (.error fault) after) (next : α → Run β) :
    (action >>= next) state = .ended (.error fault) after := by
  simp [h]

/-- An object on a prototype that exists is allocated. -/
theorem allocate_of_known {prototype : Option ObjectId} {state : State}
    (h : (prototype.all fun parent ↦ state.heap.knows (.object parent)) = true)
    (tag : Option String) :
    allocate prototype tag state =
      .ended (.ok state.heap.nextObject)
        { state with heap := state.heap.addObject ⟨prototype, tag, .empty⟩ } := by
  simp [allocate, h]

theorem allocate_of_unknown {prototype : Option ObjectId} {state : State}
    (h : ¬(prototype.all fun parent ↦ state.heap.knows (.object parent)) = true)
    (tag : Option String) :
    allocate prototype tag state = .ended (.error (.unsupported "unknown reference")) state := by
  simp [allocate, h]

theorem onward_pure : onward (pure : α → Run α) = Progress.ended := by
  funext outcome state
  cases outcome <;> rfl

theorem id_map_run (action : Run α) : id <$> action = action := by
  funext state
  have hself : (onward fun result : α ↦ (pure (id result) : Run α)) = Progress.ended := onward_pure
  rw [map_apply, hself, Progress.andThen_ended_self]

theorem bind_assoc_run {γ : Type} (action : Run α) (next : α → Run β) (last : β → Run γ) :
    action >>= next >>= last = action >>= fun result ↦ next result >>= last := by
  funext state
  simp only [bind_apply, Progress.andThen_assoc]
  congr 1
  funext outcome later
  cases outcome <;> rfl

instance : LawfulMonad Run := .mk' Run id_map_run (fun _ _ ↦ rfl) bind_assoc_run

end Evaluation

end Run

end GradualRuntime
