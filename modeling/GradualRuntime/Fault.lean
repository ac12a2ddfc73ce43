import GradualRuntime.Arity
import GradualRuntime.Value

/-!
# Faults

The ways in which an operation of the runtime fails. Nothing in the runtime catches a fault; it
reaches the program unchanged, with the values it carries. Two faults agree (`Fault.agrees`) when
they are of one kind and their payloads agree, values being compared by `Value.identical`; so a
fault that carries a number that is none does not agree with itself.
-/

set_option autoImplicit false

namespace GradualRuntime

/-- Why a dynamic operation found nothing to call. -/
inductive MissingCause where
  | absent
  /-- The member is there and is neither a function nor a callable object. -/
  | notCallable (found : Value)
  /-- The callable takes another number of arguments. -/
  | arityMismatch (expected : Arity) (actual : Nat)
  deriving DecidableEq

/-- The report of a dynamic operation that found nothing to call. -/
structure MissingMember where
  receiver : Value
  /-- The member name, or the operator of a binary operation. -/
  member : String
  arguments : List Value
  cause : MissingCause
  deriving DecidableEq

/-- A failure of an operation. -/
inductive Fault where
  | missingMember (report : MissingMember)
  /-- A lazy binding was accessed while its initializer was running. -/
  | circularInitialization (name : String)
  /-- A capability that the runtime does not have. -/
  | unsupported (capability : String)
  /-- A check of the program failed. -/
  | invariantViolation (text : String)
  /-- A write to a slot that rejects writes. -/
  | readOnly (member : String)
  /-- A value thrown by a function body. -/
  | thrown (value : Value)
  deriving DecidableEq

namespace MissingCause

/-- Agreement of causes, values by identity. -/
def agrees : MissingCause → MissingCause → Bool
  | absent, absent => true
  | notCallable left, notCallable right => left.identical right
  | arityMismatch expected actual, arityMismatch otherExpected otherActual =>
    expected == otherExpected && actual == otherActual
  | _, _ => false

end MissingCause

namespace MissingMember

/-- Agreement of reports, values by identity. -/
def agrees (left right : MissingMember) : Bool :=
  left.receiver.identical right.receiver && left.member == right.member &&
    Value.identicalLists left.arguments right.arguments && left.cause.agrees right.cause

end MissingMember

namespace Fault

/-- Agreement of faults, values by identity. -/
def agrees : Fault → Fault → Bool
  | missingMember left, missingMember right => left.agrees right
  | circularInitialization left, circularInitialization right => left == right
  | unsupported left, unsupported right => left == right
  | invariantViolation left, invariantViolation right => left == right
  | readOnly left, readOnly right => left == right
  | thrown left, thrown right => left.identical right
  | _, _ => false

end Fault

end GradualRuntime
