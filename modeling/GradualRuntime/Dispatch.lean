import GradualRuntime.Member

/-!
# Dynamic dispatch

Members of any value are looked up on an object: the value itself when it is an object, the statics
of a class, the prototype registered for the kind of a primitive; sentinels have no members
(`Realm.holder?`).

Every dynamic call resolves a callable, checks the number of arguments and enters it
(`Dispatch.invoke`). The callable is the member that the call site names, or the receiver itself;
one that is neither a function nor nullish is called through its own `call` member, with itself as
`this`, one level deep. When there is nothing to call, or the count does not fit, the failure
reports the receiver, the name of the call site and the arguments, and nothing has been entered.
-/

set_option autoImplicit false

namespace GradualRuntime

namespace Realm

/-- The object on which the members of a value are looked up. -/
def holder? (realm : Realm) (heap : Heap) : Value → Option ObjectId
  | .object reference => some reference
  | .type reference => (heap.class? reference).map Class.statics
  | other => other.primitiveKind?.bind realm.primitivePrototypes.find?

end Realm

namespace CallSite

/-- The name that failures report. -/
def reportedName (members : MemberNames) : CallSite → String
  | call name => name
  | apply => members.call
  | indexGet => "[]"
  | indexSet => "[]="
  | binary name => name

/-- The member in which the callable is found; a call of the receiver itself has none. -/
def memberName? (members : MemberNames) : CallSite → Option String
  | call name => some name
  | apply => none
  | indexGet => some members.indexGet
  | indexSet => some members.indexSet
  | binary name => some name

/-- The `this` of the callee when it is a function. -/
def thisFor (receiver : Value) : CallSite → Value
  | apply => .undefined
  | _ => receiver

theorem thisFor_of_ne {site : CallSite} (h : site ≠ .apply) (receiver : Value) :
    site.thisFor receiver = receiver := by
  cases site with
  | apply => exact absurd rfl h
  | _ => rfl

end CallSite

namespace Dispatch

/-- Whether a value has a member; what the member holds does not matter. -/
def hasMember (realm : RealmId) (value : Value) (name : String) : Run Bool := do
  let heap ← Run.heap
  return ((← Run.realm realm).holder? heap value).any fun holder ↦ heap.has holder name

/-- Reads a member of a value, with the value as the `this` of a getter. An absent member reads as
undefined. -/
def getMember (realm : RealmId) (value : Value) (name : String) : Run Value := do
  match (← Run.realm realm).holder? (← Run.heap) value with
  | some holder => Member.read holder name value
  | none => return .undefined

/-- Reads a member that must be present. -/
def dynamicGet (realm : RealmId) (receiver : Value) (name : String) : Run Value := do
  if ← hasMember realm receiver name then
    getMember realm receiver name
  else
    Run.fail (.missingMember ⟨receiver, name, [], .absent⟩)

/-- What a call site would call, before it is known to be callable. -/
def resolve (realm : RealmId) (site : CallSite) (receiver : Value) : Run Value := do
  match site.memberName? (← Run.realm realm).config.members with
  | some name => getMember realm receiver name
  | none => return receiver

/-- The function to enter for a resolved value, with its `this`. A value that is not a function is
called through its `call` member. Failures report `receiver`, `member` and `arguments`. -/
def callable (realm : RealmId) (resolved this receiver : Value) (member : String)
    (arguments : List Value) : Run (FunctionId × Value) := do
  match resolved with
  | .function function => return (function, this)
  | other =>
    if other.isNullish then
      Run.fail (.missingMember ⟨receiver, member, arguments, .absent⟩)
    else
      match ← getMember realm other (← Run.realm realm).config.members.call with
      | .function function => return (function, other)
      | _ => Run.fail (.missingMember ⟨receiver, member, arguments, .notCallable other⟩)

/-- Resolves a call site on a receiver and enters what it finds. -/
def invoke (realm : RealmId) (receiver : Value) (site : CallSite) (arguments : List Value) :
    Run Value := do
  let config := (← Run.realm realm).config
  let member := site.reportedName config.members
  let resolved ← resolve realm site receiver
  let (callee, this) ←
    callable realm resolved (site.thisFor receiver) receiver member arguments
  let heap ← Run.heap
  let formals := heap.formals callee
  if acceptsCount config.optionalMark formals arguments.length then
    if config.traceDispatch then
      Run.emit (.dispatched receiver.typeName member (heap.functionName callee) arguments.length)
    Run.call callee this arguments
  else
    Run.fail (.missingMember
      { receiver := receiver
        member := member
        arguments := arguments
        cause := .arityMismatch (.ofFormals config.optionalMark formals) arguments.length })

/-- Equality as programs define it: the equality member of the left operand decides when it is a
function, whatever its formals, and identity otherwise. Sentinels are compared by identity. -/
def equals (realm : RealmId) (left right : Value) : Run Bool := do
  if left.isNullish || right.isNullish then
    return left.identical right
  else
    match ← getMember realm left (← Run.realm realm).config.members.equality with
    | .function equality => return (← Run.call equality left [right]).isTruthy
    | _ => return left.identical right

/-- A value that must not be a sentinel. -/
def notNull (value : Value) : Run Value :=
  if value.isNullish then Run.fail (.invariantViolation "expected not-null value")
  else return value

/-- A condition that must hold. -/
def assertTruthy (condition : Value) : Run Unit :=
  if condition.isTruthy then return ()
  else Run.fail (.invariantViolation "assertion failed")

/-- The arity of what a bare call of a value would enter. -/
def arity (realm : RealmId) (value : Value) : Run Arity := do
  let config := (← Run.realm realm).config
  let (callee, _) ← callable realm value .undefined value config.members.call []
  return .ofFormals config.optionalMark ((← Run.heap).formals callee)

end Dispatch

end GradualRuntime
