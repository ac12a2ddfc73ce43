import GradualRuntime.Run

/-!
# Type tests

The runtime never decides by itself whether a value has a type. The realm's oracle does: without
one, casts let every value pass and tests are not supported; a consulted oracle is a function that
the program has bound to a name, looked up when the question is asked.
-/

set_option autoImplicit false

namespace GradualRuntime

namespace TypeTest

/-- Asks the function bound to a name. -/
def consult (name : String) (arguments : List Value) : Run Value := do
  match (← get).globals.find? name with
  | some (.function function) => Run.call function .undefined arguments
  | _ => Run.fail (.unsupported ("type oracle " ++ name))

/-- Whether a value is of a type. -/
def isInstance (realm : RealmId) (value type : Value) : Run Bool := do
  match (← Run.realm realm).oracle with
  | .unchecked => Run.fail (.unsupported "is")
  | .consulting name _ _ => return (← consult name [value, type]).isTruthy

/-- A value as a value of a type. -/
def cast (realm : RealmId) (value type : Value) : Run Value := do
  match (← Run.realm realm).oracle with
  | .unchecked => return value
  | .consulting _ name _ => consult name [value, type]

/-- Whether a type has no free parameters. -/
def isGroundType (realm : RealmId) (type : Value) : Run Bool := do
  match (← Run.realm realm).oracle with
  | .unchecked => Run.fail (.unsupported "isGroundType")
  | .consulting _ _ name => return (← consult name [type]).isTruthy

end TypeTest

end GradualRuntime
