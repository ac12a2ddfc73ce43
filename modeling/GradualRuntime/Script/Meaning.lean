import GradualRuntime.Script.Expression

/-!
# The meaning of expressions

An expression means a function body: the interaction with the runtime that evaluates it
(`Expression.interaction`). The interaction is built for a given continuation, which receives the
outcome; so evaluation order, failure and capture of failures are visible in the equations below.
Operands are evaluated from left to right, and the first failing one ends the operation with its
fault. An operation belongs to the realm that was current before its operands were evaluated.
-/

set_option autoImplicit false

namespace GradualRuntime

/-- The call in which an expression is evaluated. -/
structure Frame where
  this : Value
  arguments : List Value

/-- What is done with the outcome of an evaluation. -/
abbrev Continuation := Except Fault Answer → Body

namespace Continuation

/-- A continuation that passes faults on and uses the value of an answer. -/
def onValue (next : Continuation) (use : Value → Body) : Continuation
  | .ok answer => use answer.toValue
  | .error fault => next (.error fault)

/-- A continuation that passes on the plain value of an answer. -/
def ofValue (next : Continuation) : Continuation
  | .ok answer => next (.ok (.value answer.toValue))
  | .error fault => next (.error fault)

end Continuation

namespace Script

/-- Evaluates something `count` times and passes the last value on. -/
def iterate (evaluate : Continuation → Body) (next : Continuation) : Nat → Value → Body
  | 0, last => next (.ok (.value last))
  | count + 1, _ => evaluate (next.onValue (iterate evaluate next count))

/-- Asks the current realm for an operation. -/
def perform (operation : Operation) (operands : List Value) (next : Continuation) : Body :=
  .withRealm fun realm ↦ .perform realm operation operands next

/-- The outcome of comparing two outcomes that must both be faults. -/
def compareFaults : Except Fault Answer → Except Fault Answer → Except Fault Answer
  | .error left, .error right => .ok (.truth (left.agrees right))
  | _, _ => .error (.unsupported "fault comparison")

/-- Binds the value of an answer to a name; reports are not bound. -/
def bindAnswer (name : String) (next : Continuation) : Continuation
  | .ok (.value value) => perform (.control (.store name)) [value] next
  | outcome => next outcome

end Script

open Script

mutual

/-- The body that evaluates an expression in a call and hands the outcome on. -/
def Expression.interaction (frame : Frame) : Expression → Continuation → Body
  | .literal constant, next => next (.ok (.value constant.value))
  | .named name, next => perform (.control (.load name)) [] next
  | .this, next => next (.ok (.value frame.this))
  | .argument index, next => next (.ok (.value (frame.arguments[index]?.getD .undefined)))
  | .argumentCount, next =>
    next (.ok (.value (.integer (Int64.ofNat frame.arguments.length))))
  | .sequence steps, next =>
    Expression.interactions frame steps fun outcome ↦
      next (outcome.map fun values ↦ .value (values.getLast?.getD .undefined))
  | .conditional condition consequent alternative, next =>
    condition.interaction frame <| next.onValue fun value ↦
      if value.isTruthy then consequent.interaction frame next.ofValue
      else alternative.interaction frame next.ofValue
  | .repetition count body, next =>
    iterate (fun goOn ↦ body.interaction frame goOn) next count .undefined
  | .attempt body, next =>
    body.interaction frame fun outcome ↦
      match outcome with
      | .ok answer => next (.ok (.value answer.toValue))
      | .error fault => perform (.control (.message fault)) [] next
  | .faultsAgree left right, next =>
    left.interaction frame fun leftOutcome ↦
      right.interaction frame fun rightOutcome ↦ next (compareFaults leftOutcome rightOutcome)
  | .raise form operands, next =>
    Expression.interactions frame operands fun outcome ↦
      match outcome with
      | .ok values => next (.error ((form.fault? values).getD (.unsupported "operands")))
      | .error fault => next (.error fault)
  | .function name formals body, next =>
    name.interaction frame <| next.onValue fun value ↦
      match value with
      | .string text =>
        .close text formals
          (fun this arguments ↦ body.interaction ⟨this, arguments⟩ .finish)
          (fun function ↦ next (.ok (.value (.function function))))
      | _ => next (.error (.unsupported "operands"))
  | .operation request operands, next =>
    .withRealm fun realm ↦
      Expression.interactions frame operands fun outcome ↦
        match outcome with
        | .ok values => .perform realm request values next
        | .error fault => next (.error fault)
  | .bind name bound, next => bound.interaction frame (bindAnswer name next)

/-- The body that evaluates expressions from left to right and hands their values on. -/
def Expression.interactions (frame : Frame) :
    List Expression → (Except Fault (List Value) → Body) → Body
  | [], next => next (.ok [])
  | expression :: rest, next =>
    expression.interaction frame fun outcome ↦
      match outcome with
      | .ok answer =>
        Expression.interactions frame rest fun outcomes ↦
          next (outcomes.map (answer.toValue :: ·))
      | .error fault => next (.error fault)

end

end GradualRuntime
