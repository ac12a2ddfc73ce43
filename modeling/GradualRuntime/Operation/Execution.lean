import GradualRuntime.Config.Document
import GradualRuntime.Construction
import GradualRuntime.Dispatch
import GradualRuntime.GenericType
import GradualRuntime.LinkedMap
import GradualRuntime.Operation.Operands
import GradualRuntime.Text.Inspect
import GradualRuntime.TypeTest

/-!
# Execution of operations

What each operation does with its operands. Every operation is carried out by one of the rules of
the library; this module only hands the operands over and wraps the result into an answer. Since
operands come from programs, `Operation.execute` first checks that they refer to nothing that was
never made.
-/

set_option autoImplicit false

namespace GradualRuntime

open Operands

namespace ValueOperation

/-- Questions about values. -/
def execute : ValueOperation → List Value → Run Answer
  | .isNullish, [value] => return .truth value.isNullish
  | .isTruthy, [value] => return .truth value.isTruthy
  | .typeName, [value] => return .text value.typeName
  | .display, [value] => return .text (value.display (← Run.heap))
  | .inspect, [value] => return .text (value.inspect (← Run.heap))
  | .identical, [left, right] => return .truth (left.identical right)
  | .keysAgree, [left, right] => return .truth (left.identityKey == right.identityKey)
  | .identityKey, [value] => return .identityKey value.identityKey
  | .primitiveKind, [value] =>
    return .value (value.primitiveKind?.elim .null fun kind ↦ .string kind.name)
  | .sameReference, [left, right] => return .truth (left.sameReference right)
  | _, _ => mismatch

end ValueOperation

namespace FunctionOperation

/-- Questions about functions, and the plain call. -/
def execute : FunctionOperation → List Value → Run Answer
  | .name, [.function function] => return .text ((← Run.heap).functionName function)
  | .formals, [.function function] => return .names ((← Run.heap).formals function)
  | .call, .function function :: this :: arguments =>
    return .value (← Run.call function this arguments)
  | .isOptionalFormal mark, [.string formal] =>
    return .truth (GradualRuntime.isOptionalFormal mark formal)
  | .arity mark, [.function function] =>
    return .declaredArity (.ofFormals mark ((← Run.heap).formals function))
  | .acceptsCount mark count, [.function function] =>
    return .truth (GradualRuntime.acceptsCount mark ((← Run.heap).formals function) count)
  | .arityAccepts bounds count, [] => return .truth (bounds.accepts count)
  | _, _ => mismatch

end FunctionOperation

namespace ObjectOperation

/-- Making, reading and changing objects. -/
def execute : ObjectOperation → List Value → Run Answer
  | .allocate false shownTag, _ => return .value (.object (← Run.allocate none shownTag))
  | .allocate true shownTag, .object parent :: _ =>
    return .value (.object (← Run.allocate (some parent) shownTag))
  | .ofEntries, operands => do
    let slots ← entries operands
    let object ← Run.allocate none none
    Run.changeHeap fun heap ↦ heap.defineAll object slots
    return .value (.object object)
  | .define form, .object object :: .string name :: operands => do
    let (property, _) ← takeProperty form operands
    Run.define object name property
    return .done
  | .own, [.object object, .string name] => return .property ((← Run.heap).own? object name)
  | .isBinding, [.object object, .string name] =>
    return .value (((← Run.heap).own? object name).elim .null fun property ↦
      .boolean property.isBinding)
  | .inspectOwn, [.object object, .string name] => do
    let heap ← Run.heap
    return .value ((heap.own? object name).elim .null fun property ↦
      .string (property.inspect heap))
  | .copyOwn, [.object source, .object target, .string name, .string targetName] => do
    match ← Run.ask fun heap ↦ heap.own? source name with
    | some property =>
      Run.define target targetName property
      return .truth true
    | none => return .truth false
  | .hasOwn, [.object object, .string name] => return .truth ((← Run.heap).hasOwn object name)
  | .has, [.object object, .string name] => return .truth ((← Run.heap).has object name)
  | .ownNames, [.object object] => return .names ((← Run.heap).ownNames object)
  | .lookup, [.object object, .string name] => return .owner ((← Run.heap).lookup object name)
  | .get, [.object object, .string name] => return .value (← Member.get object name)
  | .getWithReceiver, [.object object, .string name, receiver] =>
    return .value (← Member.read object name receiver)
  | .set, [.object object, .string name, value] => do
    Member.set object name value
    return .done
  | .prototype, [.object object] =>
    return .value (((← Run.heap).prototype? object).elim .null .object)
  | .tag, [.object object] => return .value (((← Run.heap).tag? object).elim .null .string)
  | .ownProperties, [.object object] => return .properties ((← Run.heap).slots object).entries
  | .copySlots, [.object target, .object source] => do
    Run.changeHeap (Heap.copySlots target source)
    return .value (.object target)
  | _, _ => mismatch

end ObjectOperation

namespace BindingOperation

/-- Lazy bindings and their cells. -/
def execute : BindingOperation → List Value → Run Answer
  | .bind isMutable, [.object object, .string name, .function initializer] => do
    LazyBinding.install object name initializer isMutable
    return .done
  | .bindAll, [.object target, .object source] => do
    LazyBinding.installAll target source
    return .done
  | .newCell cellName isMutable, [.string name, .function initializer] => do
    let cell ← Run.create Heap.nextCell fun heap ↦
      heap.addCell ⟨name, isMutable, .uninitialized initializer⟩
    modify fun state ↦ { state with cellNames := state.cellNames.insert cellName cell }
    return .done
  | .force cellName, [] => return .value (← LazyBinding.force (← cellNamed cellName))
  | .cell cellName, [] => return .cell (← LazyBinding.cell (← cellNamed cellName))
  | .inspectCell cellName, [] =>
    return .text (← LazyBinding.cell (← cellNamed cellName)).inspect
  | _, _ => mismatch

end BindingOperation

namespace ClassOperation

/-- Making classes, asking about them and constructing instances. -/
def execute : ClassOperation → List Value → Run Answer
  | .build hasSuperclass hasConstructor methodCount memberForms staticForms,
    .string className :: operands => do
    let (parent, afterSuperclass) ← takeClass hasSuperclass operands
    let (ownConstructor, afterConstructor) ← takeFunction hasConstructor afterSuperclass
    let (methodSlots, afterMethods) ←
      takeSlots (List.replicate methodCount .method) afterConstructor
    let (memberSlots, afterMembers) ← takeSlots memberForms afterMethods
    let (staticSlots, _) ← takeSlots staticForms afterMembers
    let definition : Definition :=
      { name := className
        superclass := parent
        ownConstructor := ownConstructor
        members := methodSlots ++ memberSlots
        statics := staticSlots }
    return .value (.type (← definition.make))
  | .name, [.type reference] => return .text ((← Run.heap).className reference)
  | .superclass, [.type reference] =>
    return .value (((← Run.heap).superclass? reference).elim .null .type)
  | .prototype, [.type reference] =>
    return .value (.object (← Run.classRecord reference).prototype)
  | .statics, [.type reference] => return .value (.object (← Run.classRecord reference).statics)
  | .composition, [.type reference] =>
    return .composition (← Run.classRecord reference).composition
  | .allocate, [.type reference] => return .value (.object (← Construction.allocate reference))
  | .construct, .type reference :: arguments =>
    return .value (.object (← Construction.construct reference arguments))
  | .constructOn, .type reference :: this :: arguments => do
    Construction.run reference this arguments
    return .done
  | .isSubclass, [.type reference, .type other] =>
    return .truth ((← Run.heap).isSubclass reference other)
  | .namedConstructor, [.type reference, .string member] =>
    return .value (.function (← Construction.nameConstructor reference member))
  | .mixin, .type base :: sources =>
    return .value (.type (← Mixin.compose base (← classes sources)))
  | _, _ => mismatch

end ClassOperation

namespace GenericOperation

/-- Memoized generic types. -/
def execute : GenericOperation → List Value → Run Answer
  | .declare genericName, [.function constructorFunction] => do
    let generic ← GenericType.make constructorFunction
    modify fun state ↦ { state with genericNames := state.genericNames.insert genericName generic }
    return .done
  | .name genericName, [] => do
    let generic ← GenericType.record (← genericNamed genericName)
    return .text ((← Run.heap).functionName generic.constructorFunction)
  | .size genericName, [] => do
    let generic ← GenericType.record (← genericNamed genericName)
    return .value (.integer (Int64.ofNat generic.cache.size))
  | .isEmpty genericName, [] => do
    let generic ← GenericType.record (← genericNamed genericName)
    return .truth (generic.cache.size == 0)
  | .toFunction genericName, [] =>
    return .value (.function (← GenericType.toFunction (← genericNamed genericName)))
  | .instantiate genericName, arguments =>
    return .value (← GenericType.instantiate (← genericNamed genericName) arguments)
  | .typeArguments genericName, [type] => do
    let generic ← genericNamed genericName
    return .arguments (GenericType.typeArguments? (← Run.heap) generic type)
  | .memoize, [.function constructorFunction] =>
    return .value (.function
      (← GenericType.toFunction (← GenericType.make constructorFunction)))
  | _, _ => mismatch

end GenericOperation

namespace MapOperation

/-- Making linked maps. -/
def execute : MapOperation → List Value → Run Answer
  | .ofPairs, operands => return .value (.object (← LinkedMap.ofPairs operands))
  | .ofObject, [.object source] => return .value (.object (← LinkedMap.ofObject source))
  | _, _ => mismatch

end MapOperation

namespace RealmOperation

/-- What is asked of a realm. -/
def execute (realm : RealmId) : RealmOperation → List Value → Run Answer
  | .checkConfig source, [] => return .config source.config
  | .install source oracle, [] => do
    match source.config with
    | .ok config =>
      modify fun state ↦
        { state with
          realms := state.realms.push (.new config oracle)
          current := ⟨state.realms.size⟩ }
    | .error _ => pure ()
    return .config source.config
  | .setPrimitivePrototype kind, [.object prototype] => do
    modify fun state ↦
      { state with
        realms := state.realms.modify realm.index fun record ↦
          { record with
            primitivePrototypes := record.primitivePrototypes.insert kind prototype } }
    return .done
  | .hasMember, [value, .string name] => return .truth (← Dispatch.hasMember realm value name)
  | .getMember, [value, .string name] =>
    return .value (← Dispatch.getMember realm value name)
  | .isInstance, [value, type] => return .truth (← TypeTest.isInstance realm value type)
  | .cast, [value, type] => return .value (← TypeTest.cast realm value type)
  | .isGroundType, [type] => return .truth (← TypeTest.isGroundType realm type)
  | .dynamicGet, [receiver, .string name] =>
    return .value (← Dispatch.dynamicGet realm receiver name)
  | .invoke kind, .string name :: receiver :: arguments =>
    return .value (← Dispatch.invoke realm receiver (kind.site name) arguments)
  | .dynamicCall, receiver :: .string name :: arguments =>
    return .value (← Dispatch.invoke realm receiver (.call name) arguments)
  | .dynamicApply, receiver :: arguments =>
    return .value (← Dispatch.invoke realm receiver .apply arguments)
  | .indexGet, [receiver, index] =>
    return .value (← Dispatch.invoke realm receiver .indexGet [index])
  | .indexSet, [receiver, index, value] =>
    return .value (← Dispatch.invoke realm receiver .indexSet [index, value])
  | .dynamicBinary, [left, .string name, right] =>
    return .value (← Dispatch.invoke realm left (.binary name) [right])
  | .reportedName kind, [.string name] =>
    return .text ((kind.site name).reportedName (← Run.realm realm).config.members)
  | .equals, [left, right] => return .truth (← Dispatch.equals realm left right)
  | .notNull, [value] => return .value (← Dispatch.notNull value)
  | .assert, [condition] => do
    Dispatch.assertTruthy condition
    return .done
  | .arity, [value] => return .arity (← Dispatch.arity realm value)
  | _, _ => mismatch

end RealmOperation

namespace ControlOperation

/-- Names, the log, arithmetic, text and faults. -/
def execute : ControlOperation → List Value → Run Answer
  | .evaluate, [value] => return .value value
  | .log, [value] => do
    Run.record (.logged value)
    return .value value
  | .load name, [] => do
    match (← get).globals.find? name with
    | some value => return .value value
    | none => Run.fail (.unsupported ("name " ++ name))
  | .store name, [value] => do
    modify fun state ↦ { state with globals := state.globals.insert name value }
    return .value value
  | .add, [.integer left, .integer right] => return .value (.integer (left + right))
  | .add, [_, _] => return .value .null
  | .concat, parts => do
    let heap ← Run.heap
    return .text (String.join (parts.map (Value.fragment heap)))
  | .message fault, [] => return .text (fault.message (← Run.heap))
  | _, _ => mismatch

end ControlOperation

namespace Operation

/-- Carries out an operation in a realm. -/
def carryOut (place : RealmId) : Operation → List Value → Run Answer
  | .value operation, operands => operation.execute operands
  | .function operation, operands => operation.execute operands
  | .object operation, operands => operation.execute operands
  | .binding operation, operands => operation.execute operands
  | .type operation, operands => operation.execute operands
  | .generic operation, operands => operation.execute operands
  | .map operation, operands => operation.execute operands
  | .realm operation, operands => operation.execute place operands
  | .control operation, operands => operation.execute operands

/-- Carries out an operation in a realm, unless an operand refers to something never made. -/
def execute (place : RealmId) (operation : Operation) (operands : List Value) : Run Answer := do
  if ← Run.ask fun heap ↦ operands.all heap.knows then
    operation.carryOut place operands
  else
    Run.fail (.unsupported "unknown reference")

end Operation

end GradualRuntime
