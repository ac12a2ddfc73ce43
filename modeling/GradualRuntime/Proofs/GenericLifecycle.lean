import GradualRuntime.Proofs.Memoization
import Mathlib.Data.List.Forall2

/-!
# The lifecycle of a generic type

What a generic type goes through in a session. Instantiations happen in two places: a body asks for
one, or a function that stands for the generic type is called (`Configuration.Instantiates`). Either
way the session carries out `GenericType.instantiate` and goes on with its outcome.

`genericLifecycle` is the main statement. It says which arguments have one key (`keyed`), what one
instantiation does, whatever the constructor does while it runs (`hit`, `miss`, `returned`,
`failed`), that sessions carry instantiations out in this way (`begun`, `carried`), what is then
true of the cache at every moment (`kept`, `filed`, `agree`, `size`, `reported`), and that the
functions made for a generic type go through its cache (`wrapped`, `memoized`, `lasting`).
-/

set_option autoImplicit false

namespace GradualRuntime

namespace GenericType

/-- Lists of arguments with one key have one length and agree place by place. -/
theorem key_eq_iff {first second : List Value} :
    key first = key second ↔
      List.Forall₂ (fun left right ↦ left.identityKey = right.identityKey) first second := by
  rw [key, key, ← List.forall₂_eq_eq_eq, List.forall₂_map_left_iff, List.forall₂_map_right_iff]

variable {state later after : State} {generic : GenericId} {record : Generic}
  {arguments : List Value}

theorem instantiate_of_filed {entry : Instantiation}
    (h : (state.heap.instantiations generic).find? (key arguments) = some entry) :
    instantiate generic arguments state =
      .ended (.ok entry.result) (state.record (.instantiated generic arguments entry.result)) := by
  cases hrecord : state.heap.generic? generic with
  | none => simp [Heap.instantiations_of_none hrecord] at h
  | some record =>
    rw [Heap.instantiations_of_some hrecord] at h
    exact instantiate_of_present hrecord h

section Conclusion

variable {function : FunctionId} {result : Value}

theorem conclude_of_filed {entry : Instantiation}
    (h : (later.heap.instantiations generic).find? (key arguments) = some entry) :
    conclude generic arguments function (.ok result) later =
      .ended (.ok entry.result) (later.record (.instantiated generic arguments entry.result)) := by
  cases hrecord : later.heap.generic? generic with
  | none => simp [Heap.instantiations_of_none hrecord] at h
  | some record =>
    rw [Heap.instantiations_of_some hrecord] at h
    simp only [conclude, hrecord, h]

theorem conclude_of_fresh (hrecord : later.heap.generic? generic = some record)
    (hfresh : (later.heap.instantiations generic).find? (key arguments) = none) :
    conclude generic arguments function (.ok result) later =
      .ended (.ok result)
        ((later.record (.emitted (.typeInstantiated generic
          (later.heap.functionName function) arguments.length))).construct
            generic arguments result) := by
  rw [Heap.instantiations_of_some hrecord] at hfresh
  simp only [conclude, hrecord, hfresh]

/-- What an instantiation concludes with is filed and on record. -/
theorem returned_of_conclude {outcome : Except Fault Value}
    (h : (conclude generic arguments function outcome later).EndsWith (.ok result) after) :
    (∃ entry, (after.heap.instantiations generic).find? (key arguments) = some entry ∧
        entry.result = result) ∧
      (arguments, result) ∈ after.successes generic := by
  cases outcome with
  | error fault => simp [conclude] at h
  | ok constructed =>
    cases hrecord : later.heap.generic? generic with
    | none => simp [conclude, hrecord] at h
    | some record =>
      cases hfind : (later.heap.instantiations generic).find? (key arguments) with
      | some entry =>
        rw [conclude_of_filed hfind] at h
        obtain ⟨hresult, rfl⟩ := Progress.endsWith_ended_iff.1 h
        cases hresult
        refine ⟨⟨entry, hfind, rfl⟩, ?_⟩
        rw [State.successes_record_instantiated]
        exact List.mem_cons_self
      | none =>
        rw [conclude_of_fresh hrecord hfind] at h
        obtain ⟨hresult, rfl⟩ := Progress.endsWith_ended_iff.1 h
        cases hresult
        refine ⟨⟨⟨arguments, result⟩, ?_, rfl⟩, ?_⟩
        · rw [State.heap_construct, State.heap_record,
            Heap.instantiations_storeInstantiation hrecord]
          exact OrderedMap.find?_insert_self _ _ _
        · rw [State.construct, State.successes_record_instantiated]
          exact List.mem_cons_self

/-- While the generic type exists, only the fault of its constructor makes an instantiation fail. -/
theorem failed_of_conclude {fault : Fault} {outcome : Except Fault Value}
    (hrecord : later.heap.generic? generic = some record)
    (h : (conclude generic arguments function outcome later).EndsWith (.error fault) after) :
    outcome = .error fault ∧ after = later := by
  cases outcome with
  | error raised =>
    obtain ⟨hfault, rfl⟩ := Progress.endsWith_ended_iff.1 h
    cases hfault
    exact ⟨rfl, rfl⟩
  | ok constructed =>
    cases hfind : (later.heap.instantiations generic).find? (key arguments) with
    | some entry =>
      rw [conclude_of_filed hfind] at h
      cases (Progress.endsWith_ended_iff.1 h).1
    | none =>
      rw [conclude_of_fresh hrecord hfind] at h
      cases (Progress.endsWith_ended_iff.1 h).1

end Conclusion

/-- An instantiation that gives a type leaves it filed under the key of the arguments. -/
theorem returned_of_instantiate {result : Value}
    (h : (instantiate generic arguments state).EndsWith (.ok result) after) :
    (∃ entry, (after.heap.instantiations generic).find? (key arguments) = some entry ∧
        entry.result = result) ∧
      (arguments, result) ∈ after.successes generic := by
  cases hrecord : state.heap.generic? generic with
  | none => simp [instantiate_of_none hrecord] at h
  | some record =>
    cases hfind : record.cache.find? (key arguments) with
    | some entry =>
      rw [instantiate_of_present hrecord hfind] at h
      obtain ⟨hresult, rfl⟩ := Progress.endsWith_ended_iff.1 h
      cases hresult
      refine ⟨⟨entry, ?_, rfl⟩, ?_⟩
      · rw [State.heap_record, Heap.instantiations_of_some hrecord]
        exact hfind
      · rw [State.successes_record_instantiated]
        exact List.mem_cons_self
    | none =>
      rw [instantiate_of_absent hrecord hfind] at h
      obtain ⟨answer, back, -, hrest⟩ := Progress.endsWith_calling_iff.1 h
      exact returned_of_conclude hrest

/-- The constructor call of an instantiation. -/
abbrev constructorCall (record : Generic) (arguments : List Value) : Call :=
  ⟨record.constructorFunction, .undefined, arguments, .plain⟩

/-- An instantiation fails only where its own constructor call has failed, with the same fault and
in the state that the call left. -/
theorem failed_of_instantiate {fault : Fault} (hrecord : state.heap.generic? generic = some record)
    (h : (instantiate generic arguments state).EndsWith (.error fault) after) :
    record.cache.find? (key arguments) = none ∧
      ∃ back, (Machine.enter (constructorCall record arguments) state).EndsWith
          (.error fault) back ∧
        after = back.record (.returned (constructorCall record arguments) (.error fault)) := by
  cases hfind : record.cache.find? (key arguments) with
  | some entry =>
    rw [instantiate_of_present hrecord hfind] at h
    cases (Progress.endsWith_ended_iff.1 h).1
  | none =>
    rw [instantiate_of_absent hrecord hfind] at h
    obtain ⟨answer, back, hcallee, hrest⟩ := Progress.endsWith_calling_iff.1 h
    -- the generic type is still there when its constructor returns
    have hentered : (state.record (.entered (constructorCall record arguments))).heap.generic?
        generic = some record := hrecord
    obtain ⟨grown, hgrown, -⟩ :=
      (hcallee.transitions (orderly_enter _ state) []).extends hentered
    have hreturned : (back.record (.returned (constructorCall record arguments)
        (answer.map Answer.toValue))).heap.generic? generic = some grown := hgrown
    obtain ⟨hanswer, rfl⟩ := failed_of_conclude hreturned hrest
    cases answer with
    | ok value => cases hanswer
    | error raised =>
      cases hanswer
      exact ⟨rfl, back, hcallee, rfl⟩

end GenericType

section Functions

/-- Every function has a procedure. -/
def State.Equipped (state : State) : Prop := state.procedures.size = state.heap.functions.size

theorem Heap.Change.functions_eq {may : Heap.Permission} {before after : Heap}
    (h : Heap.Change may before after) :
    after.functions = before.functions := by
  cases h <;> rfl

theorem State.Change.equipped {may : Heap.Permission} {before after : State}
    (h : State.Change may before after) (hequipped : before.Equipped) : after.Equipped := by
  cases h with
  | heap change =>
    rw [State.Equipped, change.functions_eq]
    exact hequipped
  | function signature procedure =>
    simp only [State.Equipped, Heap.addFunction, Arena.size_push]
    exact congrArg (· + 1) hequipped
  | addMap contents =>
    simp only [State.Equipped, State.addMap, Arena.size_push]
    exact congrArg (· + 4) hequipped
  | _ => exact hequipped

theorem State.Change.procedure {may : Heap.Permission} {before after : State}
    (h : State.Change may before after) {function : FunctionId} {procedure : Procedure}
    (hprocedure : before.procedures.get? function.index = some procedure) :
    after.procedures.get? function.index = some procedure := by
  cases h with
  | function signature added => exact Arena.get?_push_of_some hprocedure added
  | addMap contents =>
    iterate 4 refine Arena.get?_push_of_some ?_ _
    exact hprocedure
  | _ => exact hprocedure

namespace Ledger

variable {before after : Ledger}

theorem Transition.equipped (h : Transition before after) (hequipped : before.state.Equipped) :
    after.state.Equipped := by
  cases h with
  | change change => exact change.equipped hequipped
  | settle entered state outcome name purpose => cases outcome <;> exact hequipped
  | _ => exact hequipped

theorem Transitions.equipped (h : Transitions before after) (hequipped : before.state.Equipped) :
    after.state.Equipped := by
  induction h with
  | refl => exact hequipped
  | tail _ hlast ih => exact hlast.equipped ih

theorem Transition.procedure (h : Transition before after) {function : FunctionId}
    {procedure : Procedure}
    (hprocedure : before.state.procedures.get? function.index = some procedure) :
    after.state.procedures.get? function.index = some procedure := by
  cases h with
  | change change => exact change.procedure hprocedure
  | settle entered state outcome name purpose => cases outcome <;> exact hprocedure
  | _ => exact hprocedure

/-- What a function does when it is called never changes. -/
theorem Transitions.procedure (h : Transitions before after) {function : FunctionId}
    {procedure : Procedure}
    (hprocedure : before.state.procedures.get? function.index = some procedure) :
    after.state.procedures.get? function.index = some procedure := by
  induction h with
  | refl => exact hprocedure
  | tail _ hlast ih => exact hlast.procedure ih

end Ledger

/-- A new function does what it is made to do. -/
theorem State.Equipped.procedure_new {state : State} (h : state.Equipped) (procedure : Procedure) :
    (state.procedures.push procedure).get? state.heap.nextFunction.index = some procedure := by
  have hindex : state.heap.nextFunction.index = state.procedures.size := h.symm
  rw [hindex, Arena.get?_push_size]

theorem GenericType.toFunction_of_equipped {state : State} {generic : GenericId}
    {record : Generic} (hequipped : state.Equipped)
    (hrecord : state.heap.generic? generic = some record) :
    ∃ after, GenericType.toFunction generic state = .ended (.ok state.heap.nextFunction) after ∧
      after.procedures.get? state.heap.nextFunction.index = some (.instantiation generic) ∧
      after.heap.generic? generic = some record := by
  refine ⟨{ state with
    heap := state.heap.addFunction
      ⟨state.heap.functionName record.constructorFunction,
        state.heap.formals record.constructorFunction⟩
    procedures := state.procedures.push (.instantiation generic) }, ?_,
    hequipped.procedure_new (.instantiation generic), hrecord⟩
  simp only [toFunction, Run.bind_apply, record_of_some hrecord, Progress.andThen_ended,
    Run.onward_ok, Run.heap_apply]
  rfl

/-- The function that memoizes a constructor stands for a generic type of its own, which is new. -/
theorem GenericType.memoize_of_equipped {state : State} (hequipped : state.Equipped)
    (constructorFunction : FunctionId) :
    ∃ after, GenericOperation.execute .memoize [.function constructorFunction] state =
        .ended (.ok (.value (.function state.heap.nextFunction))) after ∧
      after.procedures.get? state.heap.nextFunction.index =
        some (.instantiation state.heap.nextGeneric) ∧
      after.heap.generic? state.heap.nextGeneric = some ⟨constructorFunction, .empty⟩ := by
  let made : State := { state with heap := state.heap.addGeneric ⟨constructorFunction, .empty⟩ }
  have hmake : GenericType.make constructorFunction state =
      .ended (.ok state.heap.nextGeneric) made := rfl
  have hrecord : made.heap.generic? state.heap.nextGeneric =
      some ⟨constructorFunction, .empty⟩ := Arena.get?_push_size _ _
  have hmade : made.Equipped := hequipped
  obtain ⟨after, hfunction, hprocedure, hafter⟩ := toFunction_of_equipped hmade hrecord
  refine ⟨after, ?_, hprocedure, hafter⟩
  have hmemoize : GenericOperation.execute .memoize [.function constructorFunction] =
      GenericType.make constructorFunction >>= fun generic ↦
        GenericType.toFunction generic >>= fun function ↦ pure (.value (.function function)) := rfl
  rw [hmemoize, Run.bind_of_ok hmake, Run.bind_of_ok hfunction]
  rfl

end Functions

section Sessions

/-- A configuration is about to instantiate a generic type, for a body or in a function that stands
for the generic type. What follows are the calls below the instantiation, the state in which it
starts and what is done with its outcome. -/
inductive Configuration.Instantiates (generic : GenericId) : List Value → Configuration →
    List PendingCall → State → (Except Fault Value → State → Progress Answer) → Prop where
  | operation (frames : List PendingCall) (place : RealmId) {name : String}
    {arguments : List Value} (next : Except Fault Answer → Body) {state : State}
    (named : state.genericNames.find? name = some generic)
    (known : arguments.all state.heap.knows = true) :
    Instantiates generic arguments
      ⟨frames, (Body.perform place (.generic (.instantiate name)) arguments next).run state⟩
      frames state fun outcome later ↦ (next (outcome.map .value)).run later
  | call (frames : List PendingCall) {call : Call} {state : State}
    (resume : Except Fault Value → State → Progress Answer)
    (code : state.procedures.get? call.function.index = some (.instantiation generic)) :
    Instantiates generic call.arguments ⟨frames, .calling call state resume⟩
      (⟨call, resume⟩ :: frames) (state.record (.entered call))
      fun outcome later ↦ .ended (outcome.map .value) later

variable {bodies : List Body} {realm : Realm} {generic : GenericId} {arguments : List Value}
  {configuration : Configuration} {frames : List PendingCall} {state after : State}
  {next : Except Fault Value → State → Progress Answer}

namespace Configuration.Instantiates

theorem orderly_next (h : Instantiates generic arguments configuration frames state next)
    (outcome : Except Fault Value) (later : State) :
    Progress.Orderly later (next outcome later) := by
  cases h with
  | operation place next named known => exact orderly_body _ later
  | call resume code => exact .ended .refl

/-- The machine carries the instantiation out and goes on with its outcome. -/
theorem step_eq (h : Instantiates generic arguments configuration frames state next)
    (session : Session) (hsession : session.configuration = configuration) :
    session.step.configuration =
      ⟨frames, (GenericType.instantiate generic arguments state).andThen next⟩ := by
  cases h with
  | @operation frames place name arguments rest state named known =>
    rw [Body.run_perform] at hsession
    rw [Session.configuration_step_of_paused hsession, Operation.execute_of_known known]
    have hnamed : Operands.genericNamed name state = .ended (.ok generic) state := by
      simp [Operands.genericNamed, named]
    have hexecute : (Operation.generic (.instantiate name)).carryOut place arguments =
        Operands.genericNamed name >>= fun generic ↦
          Answer.value <$> GenericType.instantiate generic arguments := rfl
    rw [hexecute, Run.bind_of_ok hnamed, Run.map_apply, Progress.andThen_assoc]
    congr 2
    funext outcome later
    cases outcome <;> rfl
  | @call frames call state resume code =>
    rw [Session.configuration_step_of_calling hsession]
    have hentered : Run.record (.entered call) state =
        .ended (.ok ()) (state.record (.entered call)) := rfl
    have hcode : (state.record (.entered call)).procedures.get? call.function.index =
        some (.instantiation generic) := code
    have henter : Machine.enter call state =
        (Answer.value <$> GenericType.instantiate generic call.arguments)
          (state.record (.entered call)) := by
      rw [Machine.enter, Run.bind_of_ok hentered, Run.bind_of_ok (Run.get_apply _), hcode]
      rfl
    rw [henter, Run.map_apply]
    congr 2
    funext outcome later
    cases outcome <;> rfl

end Configuration.Instantiates

/-- The account of a generic type in a session. -/
structure GenericLifecycle (bodies : List Body) (start : State) (generic : GenericId) : Prop where
  /-- Two lists of arguments have one key when they have one length and the arguments have the same
  identity keys, place by place. -/
  keyed : ∀ first second, GenericType.key first = GenericType.key second ↔
    List.Forall₂ (fun left right ↦ left.identityKey = right.identityKey) first second
  /-- An instantiation whose key is filed gives the filed type and calls nothing. -/
  hit : ∀ state arguments entry,
    (state.heap.instantiations generic).find? (GenericType.key arguments) = some entry →
      GenericType.instantiate generic arguments state =
        .ended (.ok entry.result) (state.record (.instantiated generic arguments entry.result))
  /-- An instantiation whose key is not filed calls the constructor itself, once. A fault is passed
  on and nothing is filed. Otherwise it gives what has been filed meanwhile, or else files the new
  type and gives it. -/
  miss : ∀ state record arguments, state.heap.generic? generic = some record →
    record.cache.find? (GenericType.key arguments) = none →
      ∃ conclude : Except Fault Value → State → Progress Value,
        GenericType.instantiate generic arguments state =
          .calling ⟨record.constructorFunction, .undefined, arguments, .plain⟩ state conclude ∧
        (∀ fault later, conclude (.error fault) later = .ended (.error fault) later) ∧
        (∀ type later entry,
          (later.heap.instantiations generic).find? (GenericType.key arguments) = some entry →
            conclude (.ok type) later =
              .ended (.ok entry.result)
                (later.record (.instantiated generic arguments entry.result))) ∧
        ∀ type later current, later.heap.generic? generic = some current →
          current.cache.find? (GenericType.key arguments) = none →
            ∃ after, conclude (.ok type) later = .ended (.ok type) after ∧
              after.heap = later.heap.storeInstantiation generic (GenericType.key arguments)
                ⟨arguments, type⟩
  /-- An instantiation that gives a type leaves it filed under the key of its arguments, and its
  success goes on record. -/
  returned : ∀ state arguments type after,
    (GenericType.instantiate generic arguments state).EndsWith (.ok type) after →
      (∃ entry, (after.heap.instantiations generic).find? (GenericType.key arguments) =
          some entry ∧ entry.result = type) ∧
        (arguments, type) ∈ after.successes generic
  /-- An instantiation fails only with the fault of its own constructor call, in the state that the
  call has left. -/
  failed : ∀ state record arguments fault after, state.heap.generic? generic = some record →
    (GenericType.instantiate generic arguments state).EndsWith (.error fault) after →
      record.cache.find? (GenericType.key arguments) = none ∧
        ∃ back, (Machine.enter (GenericType.constructorCall record arguments) state).EndsWith
            (.error fault) back ∧
          after = back.record (.returned (GenericType.constructorCall record arguments)
            (.error fault))
  /-- Where an instantiation comes next, the session carries it out. -/
  begun : ∀ index arguments frames state next,
    Configuration.Instantiates generic arguments
        (Session.moment bodies start index).configuration frames state next →
      (Session.moment bodies start (index + 1)).configuration =
        ⟨frames, (GenericType.instantiate generic arguments state).andThen next⟩
  /-- When it comes to an end, the session goes on with its outcome, and a success stays on
  record. -/
  carried : ∀ index arguments frames state next outcome after,
    Configuration.Instantiates generic arguments
        (Session.moment bodies start index).configuration frames state next →
      (GenericType.instantiate generic arguments state).EndsWith outcome after →
        ∃ reached, index < reached ∧
          (Session.moment bodies start reached).configuration = ⟨frames, next outcome after⟩ ∧
          ∀ later, reached ≤ later → ∀ type, outcome = .ok type →
            (arguments, type) ∈ (Session.moment bodies start later).state.successes generic
  /-- What is filed is never changed or removed. -/
  kept : ∀ earlier later key entry, earlier ≤ later →
    ((Session.moment bodies start earlier).state.heap.instantiations generic).find? key =
        some entry →
      ((Session.moment bodies start later).state.heap.instantiations generic).find? key =
        some entry
  /-- At every moment the type of every success is filed under the key of its arguments. -/
  filed : ∀ index arguments type,
    (arguments, type) ∈ (Session.moment bodies start index).state.successes generic →
      ∃ entry, ((Session.moment bodies start index).state.heap.instantiations generic).find?
          (GenericType.key arguments) = some entry ∧ entry.result = type
  /-- Two successes of a run whose arguments have the same identity keys gave the same type. -/
  agree : ∀ index first second,
    first ∈ (Session.moment bodies start index).state.successes generic →
      second ∈ (Session.moment bodies start index).state.successes generic →
        List.Forall₂ (fun left right ↦ left.identityKey = right.identityKey) first.1 second.1 →
          first.2 = second.2
  /-- Successes are only ever added to the record. -/
  history : ∀ earlier later, earlier ≤ later →
    (Session.moment bodies start earlier).state.successes generic <:+
      (Session.moment bodies start later).state.successes generic
  /-- The cache has one entry for each key for which an instantiation has succeeded. -/
  size : ∀ index,
    ((Session.moment bodies start index).state.heap.instantiations generic).size =
      ((Session.moment bodies start index).state.successKeys generic).card
  /-- A body that asks for the size of the cache is told the number of these keys. -/
  reported : ∀ index name record,
    let now := (Session.moment bodies start index).state
    now.genericNames.find? name = some generic → now.heap.generic? generic = some record →
      GenericOperation.execute (.size name) [] now =
        .ended (.ok (.value (.integer (Int64.ofNat (now.successKeys generic).card)))) now
  /-- A function made for the generic type instantiates it. -/
  wrapped : ∀ index record,
    (Session.moment bodies start index).state.heap.generic? generic = some record →
      let now := (Session.moment bodies start index).state
      ∃ after, GenericType.toFunction generic now = .ended (.ok now.heap.nextFunction) after ∧
        after.procedures.get? now.heap.nextFunction.index = some (.instantiation generic) ∧
        after.heap.generic? generic = some record
  /-- A function made to memoize a constructor instantiates a new generic type of that
  constructor. -/
  memoized : ∀ index constructorFunction,
    let now := (Session.moment bodies start index).state
    ∃ after, GenericOperation.execute .memoize [.function constructorFunction] now =
        .ended (.ok (.value (.function now.heap.nextFunction))) after ∧
      after.procedures.get? now.heap.nextFunction.index =
        some (.instantiation now.heap.nextGeneric) ∧
      after.heap.generic? now.heap.nextGeneric = some ⟨constructorFunction, .empty⟩
  /-- A function that stands for the generic type does so forever. -/
  lasting : ∀ (earlier later : Nat) (function : FunctionId), earlier ≤ later →
    (Session.moment bodies start earlier).state.procedures.get? function.index =
        some (.instantiation generic) →
      (Session.moment bodies start later).state.procedures.get? function.index =
        some (.instantiation generic)

theorem State.books_fresh (realm : Realm) (generic : GenericId) :
    State.Books (.fresh realm) generic := by
  constructor
  · rintro arguments result ⟨⟩
  · rintro key ⟨⟩

theorem Session.books_moment (bodies : List Body) (realm : Realm) (generic : GenericId)
    (index : Nat) : (moment bodies (.fresh realm) index).state.Books generic :=
  Ledger.Transitions.books (transitions_moment bodies _ (Nat.zero_le index))
    (State.books_fresh realm generic)

/-- The size of a cache, as a body is told it. -/
theorem GenericOperation.execute_size {name : String} {record : Generic}
    (hname : state.genericNames.find? name = some generic)
    (hrecord : state.heap.generic? generic = some record) :
    execute (.size name) [] state =
      .ended (.ok (.value (.integer (Int64.ofNat (state.heap.instantiations generic).size))))
        state := by
  have hnamed : Operands.genericNamed name state = .ended (.ok generic) state := by
    simp [Operands.genericNamed, hname]
  have hexecute : execute (.size name) [] =
      Operands.genericNamed name >>= fun generic ↦ GenericType.record generic >>= fun record ↦
        pure (.value (.integer (Int64.ofNat record.cache.size))) := rfl
  rw [hexecute, Run.bind_of_ok hnamed, Run.bind_of_ok (GenericType.record_of_some hrecord),
    Heap.instantiations_of_some hrecord]
  rfl

theorem Session.equipped_moment (bodies : List Body) (realm : Realm) (index : Nat) :
    (moment bodies (.fresh realm) index).state.Equipped :=
  Ledger.Transitions.equipped (transitions_moment bodies _ (Nat.zero_le index)) rfl

theorem Session.configuration_of_instantiates {index : Nat}
    (h : Configuration.Instantiates generic arguments (moment bodies state index).configuration
      frames after next) :
    (moment bodies state (index + 1)).configuration =
      ⟨frames, (GenericType.instantiate generic arguments after).andThen next⟩ := by
  rw [moment_succ]
  exact h.step_eq _ rfl

/-- A session that comes to an instantiation carries it out, and its success stays on record. -/
theorem Session.carried_of_instantiates {start : State} {index : Nat}
    {outcome : Except Fault Value}
    (h : Configuration.Instantiates generic arguments (moment bodies start index).configuration
      frames state next)
    (hended : (GenericType.instantiate generic arguments state).EndsWith outcome after) :
    ∃ reached, index < reached ∧
      (moment bodies start reached).configuration = ⟨frames, next outcome after⟩ ∧
      ∀ later, reached ≤ later → ∀ type, outcome = .ok type →
        (arguments, type) ∈ (moment bodies start later).state.successes generic := by
  obtain ⟨reached, hreached, hconfiguration⟩ :=
    exists_moment_of_running (configuration_of_instantiates h) hended
  refine ⟨reached, hreached, hconfiguration, ?_⟩
  rintro later hlater type rfl
  have hrecorded := (GenericType.returned_of_instantiate hended).2
  have htransitions := transitions_of_ended hconfiguration (h.orderly_next _ _) hlater
  exact htransitions.successes_suffix.subset hrecorded

theorem GenericType.instantiate_of_fresh {record : Generic}
    (hrecord : state.heap.generic? generic = some record)
    (hfresh : record.cache.find? (key arguments) = none) :
    ∃ conclude : Except Fault Value → State → Progress Value,
      instantiate generic arguments state =
        .calling ⟨record.constructorFunction, .undefined, arguments, .plain⟩ state conclude ∧
      (∀ fault later, conclude (.error fault) later = .ended (.error fault) later) ∧
      (∀ type later entry,
        (later.heap.instantiations generic).find? (key arguments) = some entry →
          conclude (.ok type) later =
            .ended (.ok entry.result)
              (later.record (.instantiated generic arguments entry.result))) ∧
      ∀ type later current, later.heap.generic? generic = some current →
        current.cache.find? (key arguments) = none →
          ∃ after, conclude (.ok type) later = .ended (.ok type) after ∧
            after.heap = later.heap.storeInstantiation generic (key arguments)
              ⟨arguments, type⟩ := by
  refine ⟨conclude generic arguments record.constructorFunction,
    instantiate_of_absent hrecord hfresh, fun _ _ ↦ rfl, ?_, ?_⟩
  · intro type later entry hentry
    exact conclude_of_filed hentry
  · intro type later current hcurrent hstill
    have hnone : (later.heap.instantiations generic).find? (key arguments) = none := by
      rw [Heap.instantiations_of_some hcurrent]
      exact hstill
    exact ⟨_, conclude_of_fresh hcurrent hnone, rfl⟩

/-- In every run of any program, from a fresh state, every generic type goes through its
lifecycle. -/
theorem genericLifecycle (bodies : List Body) (realm : Realm) (generic : GenericId) :
    GenericLifecycle bodies (.fresh realm) generic where
  keyed _ _ := GenericType.key_eq_iff
  hit _ _ _ hentry := GenericType.instantiate_of_filed hentry
  miss _ _ _ hrecord hfresh := GenericType.instantiate_of_fresh hrecord hfresh
  returned _ _ _ _ hended := GenericType.returned_of_instantiate hended
  failed _ _ _ _ _ hrecord hended := GenericType.failed_of_instantiate hrecord hended
  begun _ _ _ _ _ hnext := Session.configuration_of_instantiates hnext
  carried _ _ _ _ _ _ _ hnext hended := Session.carried_of_instantiates hnext hended
  kept _ _ _ _ horder hentry :=
    (Session.transitions_moment bodies _ horder).find?_instantiations hentry
  filed index := (Session.books_moment bodies realm generic index).filed
  agree index _ _ hfirst hsecond hkey :=
    (Session.books_moment bodies realm generic index).agree hfirst hsecond
      (GenericType.key_eq_iff.2 hkey)
  history _ _ horder := (Session.transitions_moment bodies _ horder).successes_suffix
  size index := (Session.books_moment bodies realm generic index).size_eq
  reported index name record := by
    intro now hname hrecord
    have hbooks : now.Books generic := Session.books_moment bodies realm generic index
    rw [GenericOperation.execute_size hname hrecord, hbooks.size_eq]
  wrapped index _ hrecord :=
    GenericType.toFunction_of_equipped (Session.equipped_moment bodies realm index) hrecord
  memoized index constructorFunction :=
    GenericType.memoize_of_equipped (Session.equipped_moment bodies realm index)
      constructorFunction
  lasting _ _ _ horder hprocedure :=
    (Session.transitions_moment bodies _ horder).procedure hprocedure

end Sessions

namespace TwoKeys

/-- The double that is one. -/
def one : Binary64 := ⟨4607182418800017408⟩

/-- Declares a generic type whose constructor gives its argument, and instantiates it with one, with
two, and with one as a double. -/
def program : Body :=
  .close "construct" ["argument"] (fun _ arguments ↦ .finish (.ok (.value (arguments.headD .null))))
    fun function ↦
  .perform ⟨0⟩ (.generic (.declare "G")) [.function function] fun _ ↦
  .perform ⟨0⟩ (.generic (.instantiate "G")) [.integer 1] fun _ ↦
  .perform ⟨0⟩ (.generic (.instantiate "G")) [.integer 2] fun _ ↦
  .perform ⟨0⟩ (.generic (.instantiate "G")) [.float one] .finish

/-- The state at a moment of the program. -/
def state (index : Nat) : State := (Session.moment [program] (.fresh .standard) index).state

end TwoKeys

/-- The double has the key of the integer and is given its type. Two has another key and is given a
type of its own. -/
theorem genericLifecycle_twoKeys :
    (TwoKeys.state 10).successes ⟨0⟩ =
        [([.float TwoKeys.one], .integer 1), ([.integer 2], .integer 2),
          ([.integer 1], .integer 1)] ∧
      GenericType.key [.float TwoKeys.one] = GenericType.key [.integer 1] ∧
      GenericType.key [.integer 2] ≠ GenericType.key [.integer 1] ∧
      ((TwoKeys.state 10).heap.instantiations ⟨0⟩).size = 2 := by
  have hlifecycle := genericLifecycle [TwoKeys.program] .standard ⟨0⟩
  refine ⟨by decide +kernel, ?_, fun hkey ↦ ?_, ?_⟩
  · exact (hlifecycle.keyed ..).2 (.cons (by decide +kernel) .nil)
  · cases (hlifecycle.keyed ..).1 hkey with
    | cons hsame => cases hsame
  · have hkeys : ((TwoKeys.state 10).successKeys ⟨0⟩).card = 2 := by decide +kernel
    exact (hlifecycle.size 10).trans hkeys

end GradualRuntime
