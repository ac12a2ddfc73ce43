import GradualRuntime.Body

/-!
# Expressions

A small language in which function bodies and programs are written: literals, names, the parts of
the current call, sequences, conditions, loops, failure and its capture, functions, and operations
on the values of other expressions. A literal is never a reference, so a program gets references
only from the runtime.
-/

set_option autoImplicit false

namespace GradualRuntime

/-- A value that can be written down. -/
inductive Literal where
  | undefined
  | null
  | boolean (truth : Bool)
  | integer (number : Int64)
  | float (number : Binary64)
  | string (text : String)
  deriving DecidableEq

namespace Literal

/-- The value of a literal. -/
def value : Literal → Value
  | undefined => .undefined
  | null => .null
  | boolean truth => .boolean truth
  | integer number => .integer number
  | float number => .float number
  | string text => .string text

end Literal

/-- The fault that an expression raises, without the values in it. -/
inductive FaultForm where
  /-- Receiver and arguments are operands, followed by the value that is not callable if `cause` is
  `none`. -/
  | missingMember (member : String) (cause : Option MissingCause)
  | circularInitialization (name : String)
  | unsupported (capability : String)
  | invariantViolation (text : String)
  | readOnly (member : String)
  /-- The value is the operand. -/
  | thrown
  deriving DecidableEq

namespace FaultForm

/-- The fault for a form and its operands. -/
def fault? : FaultForm → List Value → Option Fault
  | missingMember member (some cause), receiver :: arguments =>
    some (.missingMember ⟨receiver, member, arguments, cause⟩)
  | missingMember member none, receiver :: operands =>
    operands.getLast?.map fun found ↦
      .missingMember ⟨receiver, member, operands.dropLast, .notCallable found⟩
  | circularInitialization name, [] => some (.circularInitialization name)
  | unsupported capability, [] => some (.unsupported capability)
  | invariantViolation text, [] => some (.invariantViolation text)
  | readOnly member, [] => some (.readOnly member)
  | thrown, [value] => some (.thrown value)
  | _, _ => none

end FaultForm

/-- An expression. -/
inductive Expression where
  | literal (literal : Literal)
  /-- The value bound to a name at this moment. -/
  | named (name : String)
  | this
  /-- An argument of the current call, undefined when there are fewer. -/
  | argument (index : Nat)
  | argumentCount
  /-- Expressions one after another; the value is the last one's. -/
  | sequence (steps : List Expression)
  | conditional (condition consequent alternative : Expression)
  | repetition (count : Nat) (body : Expression)
  /-- The value of an expression, or the message of the fault that ended it. -/
  | attempt (body : Expression)
  /-- Whether two expressions, which must fail, end with faults that agree. -/
  | faultsAgree (left right : Expression)
  | raise (form : FaultForm) (operands : List Expression)
  /-- A new function whose name is the value of an expression. -/
  | function (name : Expression) (formals : List String) (body : Expression)
  | operation (operation : Operation) (operands : List Expression)
  /-- Binds the value of an expression to a name. -/
  | bind (name : String) (bound : Expression)

end GradualRuntime
