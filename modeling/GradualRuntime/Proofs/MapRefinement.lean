import GradualRuntime.Proofs.GenericLifecycle
import GradualRuntime.Proofs.LinkedMap
import GradualRuntime.Proofs.WellFormed

/-!
# Linked maps in a session

A linked map refines a finite map. Its history at a moment consists of its first contents and of
what the calls on record of its own function `set` have written since (`Handle.history`). A map
serves a history (`Handle.Serves`) when its table holds the history, its four functions do what they
were made for, and no other function writes to its table. Every transition of the ledger lets it
serve the history that goes on with what the transition has put on record
(`Ledger.Transition.serves`); so it does at every moment after it has been made.

`mapRefinement` is the main statement. Whatever a program does, at every moment each function
answers as a finite map with the history of the map does, however it is called; asking through the
dispatch protocol makes the same call; a call with too few arguments fails and writes nothing; and
nothing but the calls of its own function changes the contents of a map.
-/

set_option autoImplicit false

namespace GradualRuntime

open LinkedMap (Handle Method History)

section Histories

/-- What a call on record has written, if it was a call of a given function that takes a key and a
value. -/
def TraceEntry.written? (setter : FunctionId) : TraceEntry → Option (Value × Value)
  | entered ⟨function, _, key :: value :: _, _⟩ =>
    if function = setter then some (key, value) else none
  | _ => none

/-- What has gone on record between two states of a run, the latest first. -/
def State.since (earlier later : State) : List TraceEntry :=
  later.trace.take (later.trace.length - earlier.trace.length)

/-- What has been written to a map between two states of a run. -/
def LinkedMap.Handle.writes (map : Handle) (earlier later : State) : History :=
  (earlier.since later).filterMap (TraceEntry.written? (map.function .set))

/-- The history of a map that was made with some contents. -/
def LinkedMap.Handle.history (map : Handle) (values : List Value) (made now : State) : History :=
  map.writes made now ++ (LinkedMap.pairs values).reverse

theorem State.since_eq {earlier later : State} {recent : List TraceEntry}
    (h : later.trace = recent ++ earlier.trace) : earlier.since later = recent := by
  rw [State.since, h, List.length_append, Nat.add_sub_cancel, List.take_left]

theorem LinkedMap.Handle.writes_eq {map : Handle} {earlier later : State}
    {recent : List TraceEntry} (h : later.trace = recent ++ earlier.trace) :
    map.writes earlier later = recent.filterMap (TraceEntry.written? (map.function .set)) := by
  rw [writes, State.since_eq h]

end Histories

section Changes

variable {may : Heap.Permission} {before after : State}

theorem Heap.Change.tables_eq {before after : Heap} (h : Heap.Change may before after) :
    after.tables = before.tables := by
  cases h <;> rfl

/-- A change that is not a call puts nothing on record that counts as written. -/
theorem State.Change.recorded (h : State.Change may before after) :
    ∃ recent, after.trace = recent ++ before.trace ∧
      ∀ setter, recent.filterMap (TraceEntry.written? setter) = [] := by
  cases h with
  | reused | constructed | logged | emitted => exact ⟨[_], rfl, fun _ ↦ rfl⟩
  | _ => exact ⟨[], rfl, fun _ ↦ rfl⟩

/-- A table that exists keeps its contents while nothing is called. -/
theorem State.Change.table (h : State.Change may before after) {index : Nat}
    {contents : LinkedTable} (htable : before.heap.tables.get? index = some contents) :
    after.heap.tables.get? index = some contents := by
  cases h with
  | heap change => exact change.tables_eq ▸ htable
  | addMap added => exact Arena.get?_push_of_some htable added
  | _ => exact htable

/-- A function keeps its name and its formals. -/
theorem State.Change.signature (h : State.Change may before after) {index : Nat}
    {signature : Signature} (hsignature : before.heap.functions.get? index = some signature) :
    after.heap.functions.get? index = some signature := by
  cases h with
  | heap change => exact change.functions_eq ▸ hsignature
  | function added => exact Arena.get?_push_of_some hsignature added
  | addMap contents =>
    iterate 4 refine Arena.get?_push_of_some ?_ _
    exact hsignature
  | _ => exact hsignature

/-- A function that writes to a table has been there before or has come with the table. -/
theorem State.Change.setter (h : State.Change may before after) {index : Nat} {table : TableId}
    (hsetter : after.procedures.get? index = some (.tableSet table)) :
    before.procedures.get? index = some (.tableSet table) ∨
      table = before.heap.nextTable ∧ after.heap.tables.size = before.heap.tables.size + 1 := by
  cases h with
  | function signature procedure ordinary =>
    exact .inl ((Arena.eq_of_get?_push hsetter).resolve_right fun hnew ↦ ordinary table hnew.symm)
  | addMap contents =>
    rcases Arena.eq_of_get?_push hsetter with hsetter | hnew
    · rcases Arena.eq_of_get?_push hsetter with hsetter | hnew
      · rcases Arena.eq_of_get?_push hsetter with hsetter | hnew
        · refine .inl ((Arena.eq_of_get?_push hsetter).resolve_right ?_)
          simp
        · cases hnew
          exact .inr ⟨rfl, Arena.size_push _ _⟩
      · cases hnew
    · cases hnew
  | _ => exact .inl hsetter

end Changes

namespace Ledger

variable {before after : Ledger}

theorem Transition.signature (h : Transition before after) {index : Nat} {signature : Signature}
    (hsignature : before.state.heap.functions.get? index = some signature) :
    after.state.heap.functions.get? index = some signature := by
  cases h with
  | change change => exact change.signature hsignature
  | settle entered state outcome name purpose => cases outcome <;> exact hsignature
  | _ => exact hsignature

/-- A function keeps its name and its formals for the rest of the run. -/
theorem Transitions.signature (h : Transitions before after) {index : Nat} {signature : Signature}
    (hsignature : before.state.heap.functions.get? index = some signature) :
    after.state.heap.functions.get? index = some signature := by
  induction h with
  | refl => exact hsignature
  | tail _ hlast ih => exact hlast.signature ih

end Ledger

section Tables

/-- Every function that writes to a table writes to one that has been made. -/
def State.Tabled (state : State) : Prop :=
  ∀ (index : Nat) (table : TableId), state.procedures.get? index = some (.tableSet table) →
    table.index < state.heap.tables.size

variable {before after state : State} {call : Call}

/-- Entering a call adds no table. -/
@[simp]
theorem State.size_filed (state : State) (call : Call) :
    (state.filed call).size = state.heap.tables.size := by
  unfold State.filed
  split
  · exact Arena.size_modify _ _ _
  · rfl

theorem State.Change.tabled {may : Heap.Permission} (h : State.Change may before after)
    (htabled : before.Tabled) : after.Tabled := by
  intro index table hsetter
  rcases h.setter hsetter with hbefore | ⟨rfl, hsize⟩
  · obtain ⟨contents, hcontents⟩ :=
      Option.isSome_iff_exists.1 (Arena.isSome_get?_of_lt (htabled index table hbefore))
    exact Arena.lt_of_get?_eq_some (h.table hcontents)
  · rw [hsize]
    exact Nat.lt_succ_self _

theorem Ledger.Transition.tabled {before after : Ledger} (h : Transition before after)
    (htabled : before.state.Tabled) : after.state.Tabled := by
  cases h with
  | change change => exact change.tabled htabled
  | enter call entered state =>
    intro index table hsetter
    simpa [State.enter] using htabled index table hsetter
  | settle entered state outcome name purpose => cases outcome <;> exact htabled
  | _ => exact htabled

theorem Ledger.Transitions.tabled {before after : Ledger} (h : Transitions before after)
    (htabled : before.state.Tabled) : after.state.Tabled := by
  induction h with
  | refl => exact htabled
  | tail _ hlast ih => exact hlast.tabled ih

theorem Session.tabled_moment (bodies : List Body) (realm : Realm) (index : Nat) :
    (moment bodies (.fresh realm) index).state.Tabled := by
  refine Ledger.Transitions.tabled (transitions_moment bodies _ (Nat.zero_le index)) ?_
  rintro function table ⟨⟩

theorem State.Reachable.equipped {state : State} (h : state.Reachable) : state.Equipped := by
  obtain ⟨bodies, realm, index, rfl⟩ := h
  exact Session.equipped_moment bodies realm index

theorem State.Reachable.tabled {state : State} (h : state.Reachable) : state.Tabled := by
  obtain ⟨bodies, realm, index, rfl⟩ := h
  exact Session.tabled_moment bodies realm index

end Tables

section Service

/-- A map serves a history: its table holds the history, its functions are what they were made as,
and no other function writes to its table. -/
structure LinkedMap.Handle.Serves (map : Handle) (history : History) (state : State) : Prop where
  object : map.object.index < state.heap.objects.size
  table : state.heap.tables.get? map.table.index = some (LinkedMap.tableOf history)
  procedure : ∀ method : Method,
    state.procedures.get? (map.function method).index = some (method.procedure map.table)
  signature : ∀ method : Method,
    state.heap.functions.get? (map.function method).index = some ⟨method.name, method.formals⟩
  setter : ∀ function : FunctionId,
    state.procedures.get? function.index = some (.tableSet map.table) →
      function = map.function .set

variable {map : Handle} {history : History} {before after state : State} {call : Call}

theorem TraceEntry.written?_of_ne (h : call.function ≠ map.function .set) :
    (entered call).written? (map.function .set) = none := by
  obtain ⟨function, this, arguments, purpose⟩ := call
  match arguments with
  | [] | [_] => rfl
  | key :: value :: rest => exact if_neg h

/-- What a call of a function of a map puts on record counts as what the method writes. -/
theorem TraceEntry.written?_of_method {method : Method} (h : call.function = map.function method) :
    [entered call].filterMap (written? (map.function .set)) = method.written call.arguments := by
  obtain ⟨function, this, arguments, purpose⟩ := call
  obtain rfl : function = map.function method := h
  have hset : map.function method = map.function .set ↔ method = .set := by
    cases method <;> simp [Handle.function, Method.place]
  match arguments with
  | [] | [_] => cases method <;> rfl
  | key :: value :: rest =>
    simp only [List.filterMap_cons, written?, hset]
    cases method <;> rfl

/-- Entering a call writes to the table of a map what the call counts as on record. -/
theorem LinkedMap.Handle.Serves.table_enter (h : map.Serves history state) (call : Call) :
    (state.filed call).get? map.table.index =
      some (LinkedMap.tableOf
        ([TraceEntry.entered call].filterMap (TraceEntry.written? (map.function .set)) ++
          history)) := by
  by_cases hset : call.function = map.function .set
  · obtain ⟨function, this, arguments, purpose⟩ := call
    obtain rfl : function = map.function .set := hset
    have hcode : state.procedures.get? (map.function .set).index = some (.tableSet map.table) :=
      h.procedure .set
    match arguments with
    | [] | [_] => simpa [State.filed, hcode, TraceEntry.written?, List.filterMap_cons] using h.table
    | key :: value :: rest =>
      simp [State.filed, hcode, TraceEntry.written?, Heap.writeEntry, h.table, LinkedMap.tableOf]
  · rw [List.filterMap_cons_none (TraceEntry.written?_of_ne hset), List.filterMap_nil,
      List.nil_append]
    unfold State.filed
    split
    · rename_i table key value rest hcode harguments
      have hother : map.table.index ≠ table.index := by
        intro hsame
        obtain rfl : map.table = table := congrArg TableId.mk hsame
        exact hset (h.setter call.function hcode)
      exact (Arena.get?_modify_of_ne hother _).trans h.table
    · exact h.table

/-- One transition lets a map serve what it has served, and what has been written meanwhile. -/
theorem Ledger.Transition.serves {before after : Ledger} (h : Transition before after)
    (hserves : map.Serves history before.state) :
    ∃ recent, after.state.trace = recent ++ before.state.trace ∧
      map.Serves (recent.filterMap (TraceEntry.written? (map.function .set)) ++ history)
        after.state := by
  have hobject := Nat.lt_of_lt_of_le hserves.object h.grows.objects
  have hprocedure := fun method ↦ h.procedure (hserves.procedure method)
  cases h with
  | change change =>
    obtain ⟨recent, htrace, hquiet⟩ := change.recorded
    refine ⟨recent, htrace, ?_⟩
    rw [hquiet, List.nil_append]
    refine ⟨hobject, change.table hserves.table, hprocedure,
      fun method ↦ change.signature (hserves.signature method), fun function hsetter ↦ ?_⟩
    refine hserves.setter function ((change.setter hsetter).resolve_right ?_)
    rintro ⟨hnew, -⟩
    have hlt := Arena.lt_of_get?_eq_some hserves.table
    rw [hnew] at hlt
    exact Nat.lt_irrefl _ hlt
  | enter call entered state =>
    exact ⟨[.entered call], rfl, hobject, hserves.table_enter call, hprocedure,
      hserves.signature, hserves.setter⟩
  | request entered state function this arguments => exact ⟨[], rfl, hserves⟩
  | start entered present waiting =>
    exact ⟨[_], rfl, hobject, hserves.table, hprocedure, hserves.signature, hserves.setter⟩
  | leave entered state outcome purpose =>
    exact ⟨[_], rfl, hobject, hserves.table, hprocedure, hserves.signature, hserves.setter⟩
  | settle entered state outcome name purpose =>
    cases outcome with
    | ok value =>
      exact ⟨[_], rfl, hobject, hserves.table, hprocedure, hserves.signature, hserves.setter⟩
    | error fault =>
      exact ⟨[_, _], rfl, hobject, hserves.table, hprocedure, hserves.signature, hserves.setter⟩

/-- A map keeps serving what it has served, and what has been written since. -/
theorem Ledger.Transitions.serves {before after : Ledger} (h : Transitions before after)
    (hserves : map.Serves history before.state) :
    (∃ recent, after.state.trace = recent ++ before.state.trace) ∧
      map.Serves (map.writes before.state after.state ++ history) after.state := by
  suffices hrecent : ∃ recent, after.state.trace = recent ++ before.state.trace ∧
      map.Serves (recent.filterMap (TraceEntry.written? (map.function .set)) ++ history)
        after.state by
    obtain ⟨recent, htrace, hafter⟩ := hrecent
    rw [Handle.writes_eq htrace]
    exact ⟨⟨recent, htrace⟩, hafter⟩
  induction h with
  | refl => exact ⟨[], rfl, hserves⟩
  | tail _ hlast ih =>
    obtain ⟨first, hfirst, hmiddle⟩ := ih
    obtain ⟨second, hsecond, hafter⟩ := hlast.serves hmiddle
    refine ⟨second ++ first, ?_, ?_⟩
    · rw [hsecond, hfirst, List.append_assoc]
    · rw [List.filterMap_append, List.append_assoc]
      exact hafter

/-- What has been written adds up. -/
theorem LinkedMap.Handle.writes_append {earlier middle later : State}
    (hfirst : ∃ recent, middle.trace = recent ++ earlier.trace)
    (hsecond : ∃ recent, later.trace = recent ++ middle.trace) :
    map.writes earlier later = map.writes middle later ++ map.writes earlier middle := by
  obtain ⟨first, hfirst⟩ := hfirst
  obtain ⟨second, hsecond⟩ := hsecond
  have hboth : later.trace = (second ++ first) ++ earlier.trace := by
    rw [hsecond, hfirst, List.append_assoc]
  rw [writes_eq hboth, writes_eq hsecond, writes_eq hfirst, List.filterMap_append]

end Service

section Making

/-- The map that is made next. -/
def State.nextMap (state : State) : Handle :=
  ⟨state.heap.nextObject, state.heap.nextTable, state.heap.functions.size⟩

/-- Four records that are added one after another take the next four numbers. -/
theorem Arena.get?_push_four {α : Type} (arena : Arena α) (first second third fourth : α)
    (place : Nat) :
    ((((arena.push first).push second).push third).push fourth).get? (arena.size + place) =
      [first, second, third, fourth][place]? := by
  have happend : (((arena.records.push first).push second).push third).push fourth =
      arena.records ++ #[first, second, third, fourth] := rfl
  simp only [get?, push, size, happend]
  rw [Array.getElem?_append_right (Nat.le_add_right _ _), Nat.add_sub_cancel_left,
    List.getElem?_toArray]

variable {state : State}

/-- A map that has been made serves its first contents. -/
theorem LinkedMap.Handle.serves_addMap (hequipped : state.Equipped) (htabled : state.Tabled)
    (history : History) :
    state.nextMap.Serves history (state.addMap (LinkedMap.tableOf history)) := by
  have hprocedure : ∀ method : Method,
      (state.addMap (LinkedMap.tableOf history)).procedures.get?
        (state.nextMap.function method).index =
          some (method.procedure state.nextMap.table) := by
    intro method
    show (Arena.get? _ (state.heap.functions.size + method.place)) = _
    rw [← hequipped]
    refine (Arena.get?_push_four _ _ _ _ _ method.place).trans ?_
    cases method <;> rfl
  refine ⟨?_, ?_, hprocedure, fun method ↦ ?_, fun function hsetter ↦ ?_⟩
  · simp [State.nextMap, State.addMap, Heap.nextObject]
  · exact Arena.get?_push_size _ _
  · refine (Arena.get?_push_four _ _ _ _ _ method.place).trans ?_
    cases method <;> rfl
  · have hnew : state.procedures.size ≤ function.index := by
      by_contra hold
      obtain ⟨procedure, hbefore⟩ :=
        Option.isSome_iff_exists.1 (Arena.isSome_get?_of_lt (Nat.lt_of_not_le hold))
      have hadd : State.Change .anything state (state.addMap (LinkedMap.tableOf history)) :=
        .addMap state _
      have hafter := hadd.procedure hbefore
      rw [hsetter] at hafter
      cases hafter
      exact Nat.lt_irrefl _ (htabled function.index _ hbefore)
    obtain ⟨place, hplace⟩ := Nat.exists_eq_add_of_le hnew
    rw [hplace] at hsetter
    have hfound := (Arena.get?_push_four _ _ _ _ _ place).symm.trans hsetter
    rcases place with _ | _ | _ | _ | place
    case succ.zero =>
      rw [hequipped] at hplace
      exact congrArg FunctionId.mk hplace
    all_goals cases hfound

end Making

section Asking

variable {map : Handle} {history : History} {state : State} {place : RealmId} {method : Method}
  {arguments operands : List Value} {operation : Operation}

theorem LinkedMap.Handle.Serves.table_eq (h : map.Serves history state) :
    state.heap.table map.table = LinkedMap.tableOf history :=
  LinkedMap.table_of_get? h.table

theorem LinkedMap.Handle.Serves.formals_eq (h : map.Serves history state) (method : Method) :
    state.heap.formals (map.function method) = method.formals := by
  rw [Heap.formals, h.signature method]
  rfl

/-- The call of a function of a map answers with what is filed there, and writes what it should. -/
theorem LinkedMap.Handle.Serves.enter (h : map.Serves history state) {call : Call}
    (hcall : call.function = map.function method) :
    Machine.enter call state =
      .ended ((method.answer history call.arguments).map .value) (state.enter call) :=
  LinkedMap.enter_of_method (hcall ▸ h.procedure method) h.table_eq

/-- A call of a function of a map comes to an end, and then the outcome is passed on. -/
theorem LinkedMap.Handle.Serves.endsWith_calling (h : map.Serves history state) {call : Call}
    (hcall : call.function = map.function method) :
    (Progress.calling call state LinkedMap.respond).EndsWith
      ((method.answer history call.arguments).map .value)
      ((state.enter call).record (.returned call (method.answer history call.arguments))) := by
  have hback : ((method.answer history call.arguments).map Answer.value).map Answer.toValue =
      method.answer history call.arguments := by
    cases method.answer history call.arguments <;> rfl
  refine .calling (by rw [h.enter hcall]; exact .ended _ _) ?_
  rw [hback]
  exact .ended _ _

/-- Events do not matter to what a map serves. -/
theorem LinkedMap.Handle.Serves.emitted (h : map.Serves history state) (event : Event) :
    map.Serves history (state.record (.emitted event)) :=
  ⟨h.object, h.table, h.procedure, h.signature, h.setter⟩

/-- What a body gets when it asks for a method of a map: the answer of a finite map, or a failure
when arguments are missing; and only a call that is answered writes. -/
theorem LinkedMap.Handle.Serves.exists_endsWith (h : map.Serves history state)
    (hasks : map.Asks state place method arguments operation operands)
    (hknown : operands.all state.heap.knows = true) :
    ∃ outcome after recent, (operation.execute place operands state).EndsWith outcome after ∧
      after.trace = recent ++ state.trace ∧
      recent.filterMap (TraceEntry.written? (map.function .set)) = method.written arguments ∧
      (method.formals.length ≤ arguments.length → ∃ answer,
        method.answer history arguments = .ok answer ∧ outcome = .ok (.value answer)) ∧
      (arguments.length < method.formals.length → ∃ fault, outcome = .error fault) := by
  rcases hasks.execute_cases hknown (h.formals_eq method) with hcalls | ⟨hmissing, fault, hrefused⟩
  · have hfull : method.formals.length ≤ arguments.length → ∃ answer,
        method.answer history arguments = .ok answer ∧
          (method.answer history arguments).map Answer.value = .ok (.value answer) := by
      intro hgiven
      obtain ⟨answer, hanswer⟩ := LinkedMap.Method.exists_answer history hgiven
      exact ⟨answer, hanswer, by rw [hanswer]; rfl⟩
    have hfew : arguments.length < method.formals.length → ∃ fault,
        (method.answer history arguments).map Answer.value = .error fault := by
      intro hmissing
      obtain ⟨-, fault, hfault⟩ := LinkedMap.Method.exists_fault history hmissing
      exact ⟨fault, by rw [hfault]; rfl⟩
    have hwritten : ∀ this,
        [TraceEntry.entered ⟨map.function method, this, arguments, .plain⟩].filterMap
          (TraceEntry.written? (map.function .set)) = method.written arguments :=
      fun this ↦ TraceEntry.written?_of_method rfl
    generalize operation.execute place operands state = progress at hcalls
    cases hcalls with
    | quiet this =>
      exact ⟨_, _, [_, _], h.endsWith_calling rfl, rfl, hwritten this, hfull, hfew⟩
    | reported this event =>
      refine ⟨_, _, [_, _, _], (h.emitted event).endsWith_calling rfl, rfl, ?_, hfull, hfew⟩
      exact hwritten this
  · obtain ⟨hnothing, -⟩ := LinkedMap.Method.exists_fault history hmissing
    have hended : (operation.execute place operands state).EndsWith (.error fault) state := by
      rw [hrefused]
      exact .ended _ _
    exact ⟨_, _, [], hended, rfl, hnothing.symm, fun hgiven ↦ absurd hmissing (Nat.not_lt.2 hgiven),
      fun _ ↦ ⟨fault, rfl⟩⟩

end Asking

section Main

/-- Two maps have nothing in common. -/
structure LinkedMap.Handle.Apart (first second : Handle) : Prop where
  object : first.object ≠ second.object
  table : first.table ≠ second.table
  function : ∀ method other : Method, first.function method ≠ second.function other

/-- The account of a linked map in a session, from the moment at which it has been made. -/
structure MapRefinement (bodies : List Body) (start : State) (values : List Value) (map : Handle)
    (made : Nat) : Prop where
  /-- The map offers its functions under their names. -/
  offered : ∀ method : Method, (Session.moment bodies start made).state.heap.own? map.object
    method.name = some (method.slot (map.function method))
  /-- A key without a value at the end of the first contents makes no difference. -/
  trailing : ∀ key, 2 ∣ values.length → ∀ state,
    LinkedMap.ofPairs (values ++ [key]) state = LinkedMap.ofPairs values state
  /-- At every moment a key has the value last written under its identity, and there are as many
  entries as identities of keys. -/
  contents : ∀ later, made ≤ later →
    let now := (Session.moment bodies start later).state
    let history := map.history values (Session.moment bodies start made).state now
    (∀ key : Value, ((now.heap.table map.table).find? key.identityKey).map Prod.snd =
      LinkedMap.latest? history key) ∧
      (now.heap.table map.table).size = (LinkedMap.identities history).card
  /-- Every call of a function of the map, whoever makes it, answers as a finite map with that
  history does; it leaves on record what the method writes, and all other maps alone. -/
  entered : ∀ later frames call now resume method, made ≤ later →
    (Session.moment bodies start later).configuration = ⟨frames, .calling call now resume⟩ →
      call.function = map.function method →
        let history := map.history values (Session.moment bodies start made).state
        (Session.moment bodies start (later + 1)).configuration =
            ⟨⟨call, resume⟩ :: frames,
              .ended ((method.answer (history now) call.arguments).map .value)
                (now.enter call)⟩ ∧
          history (now.enter call) = method.written call.arguments ++ history now ∧
          ∀ other : TableId, other ≠ map.table →
            (now.enter call).heap.table other = now.heap.table other
  /-- A body that asks for a method, in any of the ways, gets the answer of a finite map when it
  gives all arguments, and otherwise a failure; only what the method writes is written. -/
  carried : ∀ later frames place operation operands next now method arguments, made ≤ later →
    (Session.moment bodies start later).configuration =
        ⟨frames, (Body.perform place operation operands next).run now⟩ →
      operands.all now.heap.knows = true →
      map.Asks now place method arguments operation operands →
        let history := map.history values (Session.moment bodies start made).state
        ∃ reached outcome after, later < reached ∧
          (Session.moment bodies start reached).configuration =
            ⟨frames, (next outcome).run after⟩ ∧
          history after = method.written arguments ++ history now ∧
          (method.formals.length ≤ arguments.length → ∃ answer,
            method.answer (history now) arguments = .ok answer ∧ outcome = .ok (.value answer)) ∧
          (arguments.length < method.formals.length →
            method.written arguments = [] ∧ ∃ fault, outcome = .error fault)
  /-- What has been written adds up. -/
  composed : ∀ earlier later, made ≤ earlier → earlier ≤ later →
    let history := map.history values (Session.moment bodies start made).state
    history (Session.moment bodies start later).state =
      map.writes (Session.moment bodies start earlier).state
          (Session.moment bodies start later).state ++
        history (Session.moment bodies start earlier).state
  /-- Whatever happens otherwise, be it to other maps or to the object of the map, its contents stay
  what they are until its own function `set` is called with a key and a value. -/
  untouched : ∀ earlier later, made ≤ earlier → earlier ≤ later →
    map.writes (Session.moment bodies start earlier).state
        (Session.moment bodies start later).state = [] →
      (Session.moment bodies start later).state.heap.table map.table =
        (Session.moment bodies start earlier).state.heap.table map.table
  /-- A map that is made at another moment has another object, another table and other functions. -/
  apart : ∀ index frames place others next before, index + 1 ≠ made →
    (Session.moment bodies start index).configuration =
        ⟨frames, (Body.perform place (.map .ofPairs) others next).run before⟩ →
      others.all before.heap.knows = true → map.Apart before.nextMap

variable {map : Handle} {history : History} {state : State}

/-- A map that is made next is apart from the maps that are there. -/
theorem LinkedMap.Handle.Serves.apart_nextMap (h : map.Serves history state) :
    map.Apart state.nextMap := by
  have hobject := h.object
  have htable := Arena.lt_of_get?_eq_some h.table
  constructor
  · intro heq
    rw [heq] at hobject
    exact Nat.lt_irrefl _ hobject
  · intro heq
    rw [heq] at htable
    exact Nat.lt_irrefl _ htable
  · intro method other heq
    have hfunction := Arena.lt_of_get?_eq_some (h.signature method)
    rw [heq] at hfunction
    exact Nat.not_lt.2 (Nat.le_add_right _ _) hfunction

theorem LinkedMap.Handle.Apart.symm {first second : Handle} (h : first.Apart second) :
    second.Apart first :=
  ⟨h.object.symm, h.table.symm, fun method other ↦ (h.function other method).symm⟩

variable {bodies : List Body} {realm : Realm} {index : Nat} {frames : List PendingCall}
  {place : RealmId} {values : List Value} {next : Except Fault Answer → Body} {before : State}

/-- A session that comes to the making of a map goes on with its object. -/
theorem Session.configuration_of_ofPairs {start : State}
    (hmoment : (moment bodies start index).configuration =
      ⟨frames, (Body.perform place (.map .ofPairs) values next).run before⟩)
    (hknown : values.all before.heap.knows = true) :
    (moment bodies start (index + 1)).configuration =
      ⟨frames, (next (.ok (.value (.object before.nextMap.object)))).run
        (before.addMap (LinkedMap.tableOf (LinkedMap.pairs values).reverse))⟩ := by
  refine configuration_of_perform hmoment ?_
  rw [Operation.execute_of_known hknown]
  have hmake : LinkedMap.ofPairs values before = .ended (.ok before.nextMap.object)
      (before.addMap (LinkedMap.tableOf (LinkedMap.pairs values).reverse)) := by
    rw [LinkedMap.ofPairs, LinkedMap.tableOfPairs_empty]
    exact LinkedMap.make_apply _ before
  exact Run.bind_of_ok hmake fun object ↦ pure (Answer.value (.object object))

/-- In a run from a fresh state, a map serves its first contents when it has been made. -/
theorem Session.serves_of_ofPairs
    (hmoment : (moment bodies (.fresh realm) index).configuration =
      ⟨frames, (Body.perform place (.map .ofPairs) values next).run before⟩)
    (hknown : values.all before.heap.knows = true) :
    before.nextMap.Serves (LinkedMap.pairs values).reverse
      (moment bodies (.fresh realm) (index + 1)).state := by
  have hbefore := state_of_run hmoment
  rw [state_of_run (configuration_of_ofPairs hmoment hknown)]
  exact Handle.serves_addMap (hbefore ▸ equipped_moment bodies realm index)
    (hbefore ▸ tabled_moment bodies realm index) _

/-- A map that has just been made offers its functions. -/
theorem State.own?_addMap (state : State) (contents : LinkedTable) (method : Method) :
    (state.addMap contents).heap.own? state.nextMap.object method.name =
      some (method.slot (state.nextMap.function method)) := by
  have hslots : (state.addMap contents).heap.slots state.nextMap.object =
      LinkedMap.slots state.heap.functions.size := by
    simp [Heap.slots, State.addMap, State.nextMap, Heap.nextObject]
  rw [Heap.own?, hslots]
  cases method <;> rfl

/-- What has gone on record makes the history longer by what it counts as written. -/
theorem LinkedMap.Handle.history_append {made now after : State} {recent : List TraceEntry}
    (hnow : ∃ earlier, now.trace = earlier ++ made.trace)
    (hafter : after.trace = recent ++ now.trace) :
    map.history values made after =
      recent.filterMap (TraceEntry.written? (map.function .set)) ++
        map.history values made now := by
  rw [history, writes_append hnow ⟨recent, hafter⟩, writes_eq hafter, List.append_assoc, history]

section Service

variable {start : State} {made later : Nat} {now : State} {method : Method}
  (hserves : map.Serves (LinkedMap.pairs values).reverse (Session.moment bodies start made).state)
  (hlater : made ≤ later)

include hserves hlater

/-- A map serves its history at every moment after it has been made. -/
theorem Session.serves_moment (hnow : (moment bodies start later).state = now) :
    (∃ recent, now.trace = recent ++ (moment bodies start made).state.trace) ∧
      map.Serves (map.history values (moment bodies start made).state now) now :=
  hnow ▸ (transitions_moment bodies start hlater).serves hserves

theorem Session.entered_of_serves {call : Call}
    {resume : Except Fault Value → State → Progress Answer}
    (hcalling : (moment bodies start later).configuration = ⟨frames, .calling call now resume⟩)
    (hcall : call.function = map.function method) :
    (moment bodies start (later + 1)).configuration =
        ⟨⟨call, resume⟩ :: frames,
          .ended ((method.answer (map.history values (moment bodies start made).state now)
            call.arguments).map .value) (now.enter call)⟩ ∧
      map.history values (moment bodies start made).state (now.enter call) =
        method.written call.arguments ++
          map.history values (moment bodies start made).state now ∧
      ∀ other : TableId, other ≠ map.table →
        (now.enter call).heap.table other = now.heap.table other := by
  have hstate : (moment bodies start later).state = now := by
    rw [state, hcalling]
    rfl
  obtain ⟨hrecorded, hnow⟩ := serves_moment hserves hlater hstate
  refine ⟨?_, ?_, fun other hother ↦ ?_⟩
  · rw [moment_succ, configuration_step_of_calling hcalling, hnow.enter hcall]
  · have htrace : (now.enter call).trace = [.entered call] ++ now.trace := rfl
    rw [LinkedMap.Handle.history_append hrecorded htrace, TraceEntry.written?_of_method hcall]
  · have hindex : other.index ≠ map.table.index := fun heq ↦ hother (congrArg TableId.mk heq)
    have hkept : (now.filed call).get? other.index = now.heap.tables.get? other.index := by
      unfold State.filed
      split
      · rename_i table key value rest hcode harguments
        have hmethod : method = .set ∧ table = map.table := by
          rw [hcall, hnow.procedure method] at hcode
          cases method <;> cases hcode
          exact ⟨rfl, rfl⟩
        exact Arena.get?_modify_of_ne (hmethod.2 ▸ hindex) _
      · rfl
    show ((now.filed call).get? other.index).getD .empty = _
    rw [hkept, Heap.table]

theorem Session.carried_of_serves {operation : Operation} {arguments operands : List Value}
    (hmoment : (moment bodies start later).configuration =
      ⟨frames, (Body.perform place operation operands next).run now⟩)
    (hknown : operands.all now.heap.knows = true)
    (hasks : map.Asks now place method arguments operation operands) :
    ∃ reached outcome after, later < reached ∧
      (moment bodies start reached).configuration = ⟨frames, (next outcome).run after⟩ ∧
      map.history values (moment bodies start made).state after =
        method.written arguments ++ map.history values (moment bodies start made).state now ∧
      (method.formals.length ≤ arguments.length → ∃ answer,
        method.answer (map.history values (moment bodies start made).state now) arguments =
            .ok answer ∧ outcome = .ok (.value answer)) ∧
      (arguments.length < method.formals.length →
        method.written arguments = [] ∧ ∃ fault, outcome = .error fault) := by
  obtain ⟨hrecorded, hnow⟩ := serves_moment hserves hlater (state_of_run hmoment)
  obtain ⟨outcome, after, recent, hended, htrace, hwritten, hfull, hfew⟩ :=
    hnow.exists_endsWith hasks hknown
  rw [Body.run_perform] at hmoment
  have hnext : (moment bodies start (later + 1)).configuration =
      ⟨frames, (operation.execute place operands now).andThen
        fun outcome after ↦ (next outcome).run after⟩ := by
    rw [moment_succ, configuration_step_of_paused hmoment]
  obtain ⟨reached, hreached, hconfiguration⟩ := exists_moment_of_running hnext hended
  refine ⟨reached, outcome, after, hreached, hconfiguration, ?_, hfull, fun hless ↦ ?_⟩
  · rw [LinkedMap.Handle.history_append hrecorded htrace, hwritten]
  · obtain ⟨hnothing, -⟩ := LinkedMap.Method.exists_fault [] hless
    exact ⟨hnothing, hfew hless⟩

omit hlater in
theorem Session.composed_of_serves {earlier : Nat} (hearlier : made ≤ earlier)
    (horder : earlier ≤ later) :
    map.history values (moment bodies start made).state (moment bodies start later).state =
      map.writes (moment bodies start earlier).state (moment bodies start later).state ++
        map.history values (moment bodies start made).state
          (moment bodies start earlier).state := by
  obtain ⟨hrecorded, hnow⟩ := serves_moment hserves hearlier rfl
  have hsince : ∃ recent, (moment bodies start later).state.trace =
      recent ++ (moment bodies start earlier).state.trace :=
    ((transitions_moment bodies start horder).serves hnow).1
  rw [LinkedMap.Handle.history, LinkedMap.Handle.writes_append hrecorded hsince, List.append_assoc]
  rfl

end Service

/-- In every run of any program, from a fresh state, a linked map is a finite map. -/
theorem mapRefinement
    (hmoment : (Session.moment bodies (.fresh realm) index).configuration =
      ⟨frames, (Body.perform place (.map .ofPairs) values next).run before⟩)
    (hknown : values.all before.heap.knows = true) :
    (∃ after, (Session.moment bodies (.fresh realm) (index + 1)).configuration =
      ⟨frames, (next (.ok (.value (.object before.nextMap.object)))).run after⟩) ∧
      MapRefinement bodies (.fresh realm) values before.nextMap (index + 1) := by
  have hmade := Session.configuration_of_ofPairs hmoment hknown
  have hserves := Session.serves_of_ofPairs hmoment hknown
  refine ⟨⟨_, hmade⟩,
    { offered := fun method ↦ ?_
      trailing := fun key heven state ↦ ?_
      contents := fun later hlater ↦ ?_
      entered := fun _ _ _ _ _ _ hlater hcalling hcall ↦
        Session.entered_of_serves hserves hlater hcalling hcall
      carried := fun _ _ _ _ _ _ _ _ _ hlater hasked hoperands hasks ↦
        Session.carried_of_serves hserves hlater hasked hoperands hasks
      composed := fun _ _ hearlier horder ↦ Session.composed_of_serves hserves hearlier horder
      untouched := fun earlier later hearlier horder hnothing ↦ ?_
      apart := fun other _ _ _ _ _ hother hothermoment hotherknown ↦ ?_ }⟩
  · rw [Session.state_of_run hmade]
    exact State.own?_addMap before _ method
  · rw [LinkedMap.ofPairs, LinkedMap.tableOfPairs_empty, LinkedMap.pairs_append_singleton heven,
      ← LinkedMap.tableOfPairs_empty, LinkedMap.ofPairs]
  · have hnow := (Session.serves_moment hserves hlater rfl).2
    intro now history
    rw [hnow.table_eq]
    exact ⟨LinkedMap.find?_tableOf_key history, LinkedMap.size_tableOf history⟩
  · have hlater := (Session.serves_moment hserves (hearlier.trans horder) rfl).2
    have hcomposed := Session.composed_of_serves hserves hearlier horder
    rw [hnothing, List.nil_append] at hcomposed
    rw [hlater.table_eq, hcomposed, (Session.serves_moment hserves hearlier rfl).2.table_eq]
  · rcases Nat.lt_trichotomy other index with hless | rfl | hmore
    · have hothers := Session.serves_of_ofPairs hothermoment hotherknown
      have hthen := (Session.serves_moment hothers hless (Session.state_of_run hmoment)).2
      exact hthen.apart_nextMap.symm
    · exact absurd rfl hother
    · have hthen := (Session.serves_moment hserves hmore (Session.state_of_run hothermoment)).2
      exact hthen.apart_nextMap

end Main

section Duplicates

/-! A program that makes a map with a key given twice and a key without a value, and writes to
it. -/

namespace Duplicates

/-- Two values for one key, and a last key without a value. -/
def contents : List Value :=
  [.string "a", .integer 1, .integer 2, .null, .string "a", .integer 3, .null]

/-- The double that denotes two. -/
def two : Value := .float ⟨0x4000000000000000⟩

/-- Makes the map and writes under the double, whose key is that of the integer. -/
def program : Body :=
  .perform ⟨0⟩ (.map .ofPairs) contents fun _ ↦
  .perform ⟨0⟩ (.realm .indexSet) [.object ⟨0⟩, two, .boolean true] .finish

/-- The map that the program makes. -/
def map : Handle := (State.fresh .standard).nextMap

/-- The moments of the program. -/
def moment (index : Nat) : Session := .moment [program] (.fresh .standard) index

end Duplicates

/-- When the program has written, the map has the value last written under either key, and two
entries. -/
theorem mapRefinement_duplicates :
    (Duplicates.moment 1).configuration = ⟨[], Duplicates.program.run (.fresh .standard)⟩ ∧
      Duplicates.contents.all (State.fresh .standard).heap.knows = true ∧
      MapRefinement [Duplicates.program] (.fresh .standard) Duplicates.contents Duplicates.map 2 ∧
      Duplicates.map.history Duplicates.contents (Duplicates.moment 2).state
          (Duplicates.moment 5).state =
        [(Duplicates.two, .boolean true), (.string "a", .integer 3), (.integer 2, .null),
          (.string "a", .integer 1)] ∧
      ((Duplicates.moment 5).state.heap.table Duplicates.map.table).size = 2 := by
  have hmoment : (Duplicates.moment 1).configuration =
      ⟨[], Duplicates.program.run (.fresh .standard)⟩ := rfl
  have hknown : Duplicates.contents.all (State.fresh .standard).heap.knows = true := by decide
  refine ⟨hmoment, hknown, (mapRefinement hmoment hknown).2, ?_, ?_⟩
  · decide +kernel
  · decide +kernel

end Duplicates

end GradualRuntime
