import GradualRuntime.Proofs.Change

/-!
# Instantiating a generic type

What `GenericType.instantiate` does, by what the cache holds. A type that is there is given at once
(`instantiate_of_present`). Otherwise the constructor is called, once, and the cache is consulted
again when it returns (`instantiate_of_absent`): what has been filed under the key in the meantime
is given, and only if there is still nothing, the new type is filed and given
(`GenericType.conclude`).
-/

set_option autoImplicit false

namespace GradualRuntime

namespace GenericType

variable {state : State} {reference : GenericId} {generic : Generic} {arguments : List Value}

/-- What is done with the outcome of the constructor of a generic type. -/
def conclude (reference : GenericId) (arguments : List Value) (constructorFunction : FunctionId) :
    Except Fault Value → State → Progress Value
  | .error fault, state => .ended (.error fault) state
  | .ok result, state =>
    match state.heap.generic? reference with
    | none => .ended (.error (.unsupported "generic type")) state
    | some generic =>
      match generic.cache.find? (key arguments) with
      | some entry =>
        .ended (.ok entry.result)
          (state.record (.instantiated reference arguments entry.result))
      | none =>
        .ended (.ok result)
          ((state.record (.emitted (.typeInstantiated reference
            (state.heap.functionName constructorFunction) arguments.length))).construct
              reference arguments result)

theorem record_of_some (h : state.heap.generic? reference = some generic) :
    record reference state = .ended (.ok generic) state := by
  simp [record, h]

theorem record_of_none (h : state.heap.generic? reference = none) :
    record reference state = .ended (.error (.unsupported "generic type")) state := by
  simp [record, h]

theorem instantiate_of_none (h : state.heap.generic? reference = none) :
    instantiate reference arguments state =
      .ended (.error (.unsupported "generic type")) state := by
  simp [instantiate, obtain, record_of_none h]

theorem instantiate_of_present (h : state.heap.generic? reference = some generic)
    {entry : Instantiation} (hfind : generic.cache.find? (key arguments) = some entry) :
    instantiate reference arguments state =
      .ended (.ok entry.result)
        (state.record (.instantiated reference arguments entry.result)) := by
  simp [instantiate, obtain, record_of_some h, hfind]

theorem instantiate_of_absent (h : state.heap.generic? reference = some generic)
    (hfind : generic.cache.find? (key arguments) = none) :
    instantiate reference arguments state =
      .calling ⟨generic.constructorFunction, .undefined, arguments, .plain⟩ state
        (conclude reference arguments generic.constructorFunction) := by
  simp only [instantiate, obtain, Run.bind_apply, record_of_some h, Progress.andThen_ended,
    Run.onward_ok, hfind, Run.call_apply, Progress.andThen_calling]
  congr 1
  funext outcome later
  cases outcome with
  | error fault => rfl
  | ok result =>
    cases hlater : later.heap.generic? reference with
    | none => simp [conclude, record_of_none hlater, hlater]
    | some current =>
      cases hagain : current.cache.find? (key arguments) with
      | some entry => simp [conclude, record_of_some hlater, hlater, hagain]
      | none =>
        simp [conclude, record_of_some hlater, hlater, hagain, State.construct, State.record]

end GenericType

end GradualRuntime
