import GradualRuntime.Machine
import GradualRuntime.Script.Meaning

/-!
# Programs

A program is a list of expressions, its steps. The steps share one state, and a failing step does
not end the program. Each step reports its outcome, the values it logged and the events it caused,
in order (`Report`).
-/

set_option autoImplicit false

namespace GradualRuntime

/-- Why a step stopped without a result. -/
inductive Stop where
  | fault (fault : Fault)
  /-- It took more moves of the machine than allowed. -/
  | exhausted

/-- What one step of a program reports. -/
structure Report where
  outcome : Except Stop Answer
  logged : List Value
  events : List Event

namespace Report

/-- The report of an outcome and the entries that were added to the trace, in order. -/
def ofTrace (outcome : Except Stop Answer) (entries : List TraceEntry) : Report where
  outcome := outcome
  logged := entries.filterMap fun entry ↦
    match entry with
    | .logged value => some value
    | _ => none
  events := entries.filterMap fun entry ↦
    match entry with
    | .emitted event => some event
    | _ => none

end Report

namespace Program

/-- How many moves of the machine a step may take. A step that ends on its own stays far below; one
that does not ends here. -/
def moveLimit : Nat := 20000000

/-- The body of a step: outside of any call, `this` is undefined and there are no arguments. -/
def body (step : Expression) : Body := step.interaction ⟨.undefined, []⟩ .finish

/-- Carries out one step. -/
def runStep (state : State) (step : Expression) : Report × State :=
  let last := (Configuration.start (body step) state).run moveLimit
  let outcome : Except Stop Answer :=
    match last.outcome? with
    | some outcome => outcome.mapError .fault
    | none => .error .exhausted
  let added := last.state.trace.take (last.state.trace.length - state.trace.length)
  (Report.ofTrace outcome added.reverse, last.state)

/-- Carries out steps one after another, with the state after each. -/
def runSteps (state : State) : List Expression → List (Report × State)
  | [] => []
  | step :: rest =>
    let (report, after) := runStep state step
    (report, after) :: runSteps after rest

/-- Carries out a program from a fresh state. -/
def run (steps : List Expression) : List (Report × State) := runSteps (.fresh .standard) steps

end Program

end GradualRuntime
