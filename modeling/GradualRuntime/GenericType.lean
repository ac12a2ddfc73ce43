import GradualRuntime.Run

/-!
# Memoized generic types

A generic type is a constructor function with a cache. Instantiating it twice with arguments of the
same identity gives the very same result; the key of the cache is the list of the arguments'
identity keys. The constructor may instantiate the same generic type again while it runs, so the
cache is consulted again when it returns and an entry made meanwhile wins. Entries are never changed
or removed, and a constructor that fails leaves none.
-/

set_option autoImplicit false

namespace GradualRuntime

namespace GenericType

/-- The record of a generic type. -/
def record (reference : GenericId) : Run Generic := do
  match (← Run.heap).generic? reference with
  | some generic => return generic
  | none => Run.fail (.unsupported "generic type")

/-- The key under which an instantiation is filed. -/
def key (arguments : List Value) : List IdentityKey := arguments.map Value.identityKey

/-- The type for some arguments, which the first use constructs. -/
def obtain (reference : GenericId) (arguments : List Value) : Run Value := do
  let generic ← record reference
  match generic.cache.find? (key arguments) with
  | some entry => return entry.result
  | none =>
    let result ← Run.call generic.constructorFunction .undefined arguments
    let current ← record reference
    match current.cache.find? (key arguments) with
    | some entry => return entry.result
    | none =>
      Run.emit (.typeInstantiated reference
        ((← Run.heap).functionName generic.constructorFunction) arguments.length)
      Run.changeHeap fun heap ↦
        heap.storeInstantiation reference (key arguments) ⟨arguments, result⟩
      return result

/-- Instantiates a generic type. Each success goes into the trace. -/
def instantiate (reference : GenericId) (arguments : List Value) : Run Value := do
  let result ← obtain reference arguments
  Run.record (.instantiated reference arguments result)
  return result

/-- The arguments of the first instantiation whose result is identical to a value. -/
def typeArguments? (heap : Heap) (reference : GenericId) (type : Value) : Option (List Value) :=
  ((heap.instantiations reference).entries.find? fun entry ↦ entry.2.result.identical type).map
    fun entry ↦ entry.2.arguments

/-- Makes a generic type with an empty cache. -/
def make (constructorFunction : FunctionId) : Run GenericId :=
  Run.create Heap.nextGeneric fun heap ↦ heap.addGeneric ⟨constructorFunction, .empty⟩

/-- A new function with the constructor's name and formals that instantiates through the cache. -/
def toFunction (reference : GenericId) : Run FunctionId := do
  let generic ← record reference
  let heap ← Run.heap
  Run.makeFunction (heap.functionName generic.constructorFunction)
    (heap.formals generic.constructorFunction) (.instantiation reference)

end GenericType

end GradualRuntime
