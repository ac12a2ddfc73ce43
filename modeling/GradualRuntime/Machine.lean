import GradualRuntime.Operation.Execution

/-!
# The machine

This module closes the recursion between operations and function bodies. `Body.run` carries out the
interaction of a body, `Procedure.run` says what each kind of function does, and `Machine.enter`
enters the function of a call.

A `Configuration` is a stack of the calls that have not returned, each with what is done with its
outcome, and the progress of the innermost one. `Configuration.step` moves it on: to the next point
at which a body has control, into the call that is asked for, or back from a call that has ended.
-/

set_option autoImplicit false

namespace GradualRuntime

namespace Body

/-- Carries out a body. The body has control before each operation and before each function that it
makes; it receives every fault of an operation and goes on. -/
def run : Body → Run Answer
  | finish outcome => Run.ofOutcome outcome
  | withRealm next => do
    let current := (← get).current
    (next current).run
  | perform realm operation operands next => do
    Run.pause
    let outcome ← Run.attempt (operation.execute realm operands)
    (next outcome).run
  | close name formals body next => do
    Run.pause
    let function ← Run.makeFunction name formals (.native body)
    (next function).run

end Body

namespace Procedure

/-- What a function does when it is called. -/
def run (this : Value) (arguments : List Value) : Procedure → Run Answer
  | native body => (body this arguments).run
  | namedConstructor prototype tag initializer =>
    Answer.value <$> Construction.constructNamed prototype tag initializer arguments
  | instantiation generic => Answer.value <$> GenericType.instantiate generic arguments
  | tableGet table => Answer.value <$> LinkedMap.lookUp table arguments
  | tableSet table => Answer.value <$> LinkedMap.store table arguments
  | tableContains table => Answer.value <$> LinkedMap.containsKey table arguments
  | tableSize table => Answer.value <$> LinkedMap.length table

end Procedure

namespace Machine

/-- Enters the function of a call. -/
def enter (call : Call) : Run Answer := do
  Run.record (.entered call)
  match (← get).procedures.get? call.function.index with
  | some procedure => procedure.run call.this call.arguments
  | none => Run.fail (.unsupported "function")

end Machine

/-- A call that has not returned, with what is done with its outcome. -/
structure PendingCall where
  call : Call
  resume : Except Fault Value → State → Progress Answer

/-- A running body with the calls below it, the innermost first. -/
structure Configuration where
  frames : List PendingCall
  current : Progress Answer

namespace Configuration

/-- A body about to run outside of any call. -/
def start (body : Body) (state : State) : Configuration := ⟨[], body.run state⟩

/-- The state that has been reached. -/
def state (configuration : Configuration) : State := configuration.current.state

/-- The outcome, once nothing is left to do. -/
def outcome? : Configuration → Option (Except Fault Answer)
  | ⟨[], .ended outcome _⟩ => some outcome
  | _ => none

/-- Moves on. A configuration with an outcome stays as it is. -/
def step : Configuration → Configuration
  | ⟨frames, .paused state resume⟩ => ⟨frames, resume state⟩
  | ⟨frames, .calling call state resume⟩ => ⟨⟨call, resume⟩ :: frames, Machine.enter call state⟩
  | ⟨frame :: frames, .ended outcome state⟩ =>
    let result := outcome.map Answer.toValue
    ⟨frames, frame.resume result (state.record (.returned frame.call result))⟩
  | ⟨[], .ended outcome state⟩ => ⟨[], .ended outcome state⟩

/-- Moves on until there is an outcome, at most `bound` times. -/
def run : Nat → Configuration → Configuration
  | 0, configuration => configuration
  | bound + 1, configuration =>
    match configuration.outcome? with
    | some _ => configuration
    | none => run bound configuration.step

end Configuration

end GradualRuntime
