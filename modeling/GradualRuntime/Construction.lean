import GradualRuntime.Mixin
import GradualRuntime.Member

/-!
# Classes and construction

A class is made from a definition (`Definition.make`): its prototype chains to the prototype of its
superclass and its statics to those of its superclass.

Construction runs constructors on an instance (`Construction.run`). A mixin type constructs its base
with all arguments and then every source with none, in order. Any other class calls its own
constructor, or passes the arguments on to its superclass when it has none. What constructors return
is ignored, and the first failure ends construction. Base, sources and superclass are older than the
class itself, so the number of the class bounds the depth of this recursion.

`Construction.nameConstructor` turns a member of the prototype into a constructor on the statics.
-/

set_option autoImplicit false

namespace GradualRuntime

/-- What a class is made from. -/
structure Definition where
  name : String
  superclass : Option ClassId
  ownConstructor : Option FunctionId
  /-- Slots of the prototype, later ones replacing earlier ones. -/
  members : List (String × Property)
  /-- Slots of the class itself. -/
  statics : List (String × Property)

namespace Heap

/-- Defines slots one after another. -/
def defineAll (heap : Heap) (object : ObjectId) (entries : List (String × Property)) : Heap :=
  entries.foldl (fun current entry ↦ current.define object entry.1 entry.2) heap

end Heap

namespace Definition

/-- Makes a class. -/
def make (definition : Definition) : Run ClassId := do
  let superclass ← definition.superclass.mapM Run.classRecord
  let prototype ← Run.allocate (superclass.map Class.prototype) none
  Run.changeHeap fun heap ↦ heap.defineAll prototype definition.members
  let statics ← Run.allocate (superclass.map Class.statics) none
  Run.changeHeap fun heap ↦ heap.defineAll statics definition.statics
  Run.create Heap.nextClass fun heap ↦ heap.addClass
    { name := definition.name
      superclass := definition.superclass
      ownConstructor := definition.ownConstructor
      prototype := prototype
      statics := statics
      composition := none }

end Definition

namespace Construction

/-- Runs the constructors of a class on `this`, descending at most `bound` classes. -/
def runWithin : Nat → ClassId → Value → List Value → Run Unit
  | 0, _, _, _ => return ()
  | bound + 1, reference, this, arguments => do
    let record ← Run.classRecord reference
    match record.composition with
    | some composition =>
      runWithin bound composition.base this arguments
      composition.sources.forM fun source ↦ runWithin bound source this []
    | none =>
      match record.ownConstructor, record.superclass with
      | some constructorFunction, _ =>
        let _ ← Run.call constructorFunction this arguments
      | none, some superclass => runWithin bound superclass this arguments
      | none, none => return ()

/-- Runs the constructors of a class on an existing `this`. -/
def run (reference : ClassId) (this : Value) (arguments : List Value) : Run Unit :=
  runWithin (reference.index + 1) reference this arguments

/-- Allocates an instance without running constructors. -/
def allocate (reference : ClassId) : Run ObjectId := do
  let record ← Run.classRecord reference
  Run.allocate (some record.prototype) (some record.name)

/-- Allocates an instance and runs the constructors on it. -/
def construct (reference : ClassId) (arguments : List Value) : Run ObjectId := do
  let instance_ ← allocate reference
  run reference (.object instance_) arguments
  return instance_

/-- What a named constructor does: it allocates an instance, runs the initializer on it and returns
the instance. -/
def constructNamed (prototype : ObjectId) (tag : String) (initializer : FunctionId)
    (arguments : List Value) : Run Value := do
  let instance_ ← Run.allocate (some prototype) (some tag)
  let _ ← Run.call initializer (.object instance_) arguments
  return .object instance_

/-- Exposes a function of the prototype as a constructor on the statics. The constructor takes the
formals of that function. -/
def nameConstructor (reference : ClassId) (name : String) : Run FunctionId := do
  let record ← Run.classRecord reference
  match ← Member.get record.prototype name with
  | .function initializer =>
    let function ← Run.makeFunction (record.name ++ "." ++ name)
      ((← Run.heap).formals initializer)
      (.namedConstructor record.prototype record.name initializer)
    Run.define record.statics name (.method function)
    return function
  | other =>
    Run.fail (.missingMember
      { receiver := .type reference
        member := name
        arguments := []
        cause := if other.isNullish then .absent else .notCallable other })

end Construction

end GradualRuntime
