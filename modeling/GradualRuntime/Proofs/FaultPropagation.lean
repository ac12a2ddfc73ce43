import GradualRuntime.Proofs.Access

/-!
# Faults pass through

No rule of the library catches a fault. A computation is transparent (`Progress.Transparent`) when
it ends at once, with the very same fault, whenever a call that it has asked for fails; all that it
may still do is report the failure of an initializer (`State.abandon`). Transparency is kept by
sequencing, since a sequence stops at the first fault (`Run.Transparent.bind`), so one lemma for
each rule shows it for all entry points through which the functions of a program are called
(`EntryPoint`).

`faultPropagation` draws the consequence for evaluations: when one of the calls that an entry point
makes ends with a fault, whichever call it is and whatever has happened before, the entry point ends
with this fault, in the state in which the call has returned. The body that has asked for the entry
point goes on with the fault next (`Operation.Enters`).
-/

set_option autoImplicit false

namespace GradualRuntime

section Definitions

/-- What is left when a computation gives up after a call that has failed: the state in which the
call has returned. The failure of an initializer is reported. -/
def State.abandon (state : State) (call : Call) (name : String) (fault : Fault) : State :=
  match call.purpose with
  | .plain => state
  | .initializing cell => state.settleCell cell name (.error fault)

/-- The state in which a computation has given up, when the callee has failed in a state. -/
def State.givenUp (back : State) (call : Call) (name : String) (fault : Fault) : State :=
  (back.record (.returned call (.error fault))).abandon call name fault

/-- A computation that ends at once with the fault of every call that fails. -/
inductive Progress.Transparent {α : Type} : Progress α → Prop where
  | ended (outcome : Except Fault α) (state : State) : Transparent (.ended outcome state)
  | calling {call : Call} {state : State} {resume : Except Fault Value → State → Progress α}
    (name : String)
    (failed : ∀ fault later,
      resume (.error fault) later = .ended (.error fault) (later.abandon call name fault))
    (continued : ∀ value later, Transparent (resume (.ok value) later)) :
    Transparent (.calling call state resume)

/-- A run that is transparent from every state. -/
def Run.Transparent {α : Type} (action : Run α) : Prop := ∀ state, (action state).Transparent

/-- The entry points: what calls the functions of a program on behalf of whoever asks for it. -/
inductive EntryPoint : {α : Type} → Run α → Prop where
  | get (object : ObjectId) (name : String) : EntryPoint (Member.get object name)
  | getWithReceiver (object : ObjectId) (name : String) (receiver : Value) :
    EntryPoint (Member.read object name receiver)
  | set (object : ObjectId) (name : String) (value : Value) :
    EntryPoint (Member.set object name value)
  | getMember (realm : RealmId) (value : Value) (name : String) :
    EntryPoint (Dispatch.getMember realm value name)
  | dynamicGet (realm : RealmId) (receiver : Value) (name : String) :
    EntryPoint (Dispatch.dynamicGet realm receiver name)
  | invoke (realm : RealmId) (receiver : Value) (site : CallSite) (arguments : List Value) :
    EntryPoint (Dispatch.invoke realm receiver site arguments)
  | equals (realm : RealmId) (left right : Value) : EntryPoint (Dispatch.equals realm left right)
  | arity (realm : RealmId) (value : Value) : EntryPoint (Dispatch.arity realm value)
  | construct (reference : ClassId) (arguments : List Value) :
    EntryPoint (Construction.construct reference arguments)
  | constructOn (reference : ClassId) (this : Value) (arguments : List Value) :
    EntryPoint (Construction.run reference this arguments)
  | nameConstructor (reference : ClassId) (name : String) :
    EntryPoint (Construction.nameConstructor reference name)
  | instantiate (generic : GenericId) (arguments : List Value) :
    EntryPoint (GenericType.instantiate generic arguments)
  | force (cell : CellId) : EntryPoint (LazyBinding.force cell)
  | linkedMap (source : ObjectId) : EntryPoint (LinkedMap.ofObject source)
  /-- A function that the library has made, such as a named constructor. -/
  | function {procedure : Procedure} (library : ∀ body, procedure ≠ .native body) (this : Value)
    (arguments : List Value) : EntryPoint (procedure.run this arguments)

/-- In a state, an operation hands its operands over to an entry point and wraps the result. -/
inductive Operation.Enters (place : RealmId) (state : State) :
    Operation → List Value → {α : Type} → Run α → (α → Answer) → Prop where
  | get (object : ObjectId) (name : String) :
    Enters place state (.object .get) [.object object, .string name] (Member.get object name) .value
  | getWithReceiver (object : ObjectId) (name : String) (receiver : Value) :
    Enters place state (.object .getWithReceiver) [.object object, .string name, receiver]
      (Member.read object name receiver) .value
  | set (object : ObjectId) (name : String) (value : Value) :
    Enters place state (.object .set) [.object object, .string name, value]
      (Member.set object name value) fun _ ↦ .done
  | getMember (value : Value) (name : String) :
    Enters place state (.realm .getMember) [value, .string name]
      (Dispatch.getMember place value name) .value
  | dynamicGet (receiver : Value) (name : String) :
    Enters place state (.realm .dynamicGet) [receiver, .string name]
      (Dispatch.dynamicGet place receiver name) .value
  | invoke (kind : CallKind) (name : String) (receiver : Value) (arguments : List Value) :
    Enters place state (.realm (.invoke kind)) (.string name :: receiver :: arguments)
      (Dispatch.invoke place receiver (kind.site name) arguments) .value
  | dynamicCall (receiver : Value) (name : String) (arguments : List Value) :
    Enters place state (.realm .dynamicCall) (receiver :: .string name :: arguments)
      (Dispatch.invoke place receiver (.call name) arguments) .value
  | dynamicApply (receiver : Value) (arguments : List Value) :
    Enters place state (.realm .dynamicApply) (receiver :: arguments)
      (Dispatch.invoke place receiver .apply arguments) .value
  | indexGet (receiver index : Value) :
    Enters place state (.realm .indexGet) [receiver, index]
      (Dispatch.invoke place receiver .indexGet [index]) .value
  | indexSet (receiver index value : Value) :
    Enters place state (.realm .indexSet) [receiver, index, value]
      (Dispatch.invoke place receiver .indexSet [index, value]) .value
  | dynamicBinary (left : Value) (name : String) (right : Value) :
    Enters place state (.realm .dynamicBinary) [left, .string name, right]
      (Dispatch.invoke place left (.binary name) [right]) .value
  | equals (left right : Value) :
    Enters place state (.realm .equals) [left, right] (Dispatch.equals place left right) .truth
  | arity (value : Value) :
    Enters place state (.realm .arity) [value] (Dispatch.arity place value) .arity
  | construct (reference : ClassId) (arguments : List Value) :
    Enters place state (.type .construct) (.type reference :: arguments)
      (Construction.construct reference arguments) fun object ↦ .value (.object object)
  | constructOn (reference : ClassId) (this : Value) (arguments : List Value) :
    Enters place state (.type .constructOn) (.type reference :: this :: arguments)
      (Construction.run reference this arguments) fun _ ↦ .done
  | nameConstructor (reference : ClassId) (name : String) :
    Enters place state (.type .namedConstructor) [.type reference, .string name]
      (Construction.nameConstructor reference name) fun function ↦ .value (.function function)
  | instantiate {genericName : String} {generic : GenericId}
    (known : state.genericNames.find? genericName = some generic) (arguments : List Value) :
    Enters place state (.generic (.instantiate genericName)) arguments
      (GenericType.instantiate generic arguments) .value
  | force {cellName : String} {cell : CellId}
    (known : state.cellNames.find? cellName = some cell) :
    Enters place state (.binding (.force cellName)) [] (LazyBinding.force cell) .value
  | linkedMap (source : ObjectId) :
    Enters place state (.map .ofObject) [.object source] (LinkedMap.ofObject source)
      fun object ↦ .value (.object object)

end Definitions

section Sequencing

variable {α β : Type}

/-- What goes on with the results of a transparent computation, transparently, is transparent. -/
theorem Progress.Transparent.andThen_onward {progress : Progress α} (h : progress.Transparent)
    {next : α → Run β} (hnext : ∀ result, (next result).Transparent) :
    (progress.andThen (Run.onward next)).Transparent := by
  induction h with
  | ended outcome state =>
    cases outcome with
    | error fault => exact .ended _ _
    | ok result => exact hnext result state
  | calling name failed _ ih =>
    refine .calling name (fun fault later ↦ ?_) ih
    rw [failed]
    rfl

/-- When a call of a transparent computation has ended with a fault, the computation ends with it at
once. -/
theorem Progress.Transparent.fails {progress : Progress α} (h : progress.Transparent)
    {call : Call} {asked back : State} {resume : Except Fault Value → State → Progress α}
    {fault : Fault} (hleads : progress.Leads (.calling call asked resume))
    (hcallee : (Machine.enter call asked).EndsWith (.error fault) back) :
    ∃ name, resume (.error fault) (back.record (.returned call (.error fault))) =
        .ended (.error fault) (back.givenUp call name fault) ∧
      progress.EndsWith (.error fault) (back.givenUp call name fault) := by
  induction h with
  | ended outcome state => cases hleads
  | calling name failed _ ih =>
    cases hleads with
    | refl =>
      refine ⟨name, failed _ _, .calling hcallee ?_⟩
      rw [Except.map, failed]
      exact .ended _ _
    | @calling _ _ earlier _ answer _ hearlier hrest =>
      cases answer with
      | error other =>
        rw [Except.map, failed] at hrest
        cases hrest
      | ok answer =>
        obtain ⟨last, hresume, hends⟩ := ih _ _ hrest
        exact ⟨last, hresume, .calling hearlier hends⟩

namespace Run.Transparent

theorem pure (result : α) : (Pure.pure result : Run α).Transparent := fun _ ↦ .ended _ _

theorem fail (fault : Fault) : (Run.fail fault : Run α).Transparent := fun _ ↦ .ended _ _

/-- A sequence stops at the first fault. -/
theorem bind {action : Run α} {next : α → Run β} (haction : action.Transparent)
    (hnext : ∀ result, (next result).Transparent) : (action >>= next).Transparent :=
  fun state ↦ (haction state).andThen_onward hnext

theorem map {action : Run α} (change : α → β) (haction : action.Transparent) :
    (change <$> action).Transparent := haction.bind fun result ↦ .pure (change result)

theorem ask (question : Heap → α) : (Run.ask question).Transparent := fun _ ↦ .ended _ _

theorem heap : Run.heap.Transparent := fun _ ↦ .ended _ _

theorem realm (reference : RealmId) : (Run.realm reference).Transparent := fun _ ↦ .ended _ _

theorem changeHeap (change : Heap → Heap) : (Run.changeHeap change).Transparent :=
  fun _ ↦ .ended _ _

theorem emit (event : Event) : (Run.emit event).Transparent := fun _ ↦ .ended _ _

theorem define (object : ObjectId) (name : String) (property : Property) :
    (Run.define object name property).Transparent := fun _ ↦ .ended _ _

theorem makeFunction (name : String) (formals : List String) (procedure : Procedure) :
    (Run.makeFunction name formals procedure).Transparent := fun _ ↦ .ended _ _

theorem call (function : FunctionId) (this : Value) (arguments : List Value) :
    (Run.call function this arguments).Transparent :=
  fun _ ↦ .calling "" (fun _ _ ↦ rfl) fun _ _ ↦ .ended _ _

theorem allocate (prototype : Option ObjectId) (tag : Option String) :
    (Run.allocate prototype tag).Transparent := by
  refine (ask _).bind fun known ↦ ?_
  split
  · exact fun _ ↦ .ended _ _
  · exact .fail _

theorem classRecord (reference : ClassId) : (Run.classRecord reference).Transparent := by
  refine heap.bind fun current ↦ ?_
  cases current.class? reference with
  | none => exact .fail _
  | some record => exact .pure record

theorem forM {action : α → Run Unit} (haction : ∀ item, (action item).Transparent)
    (items : List α) : (items.forM action).Transparent := by
  induction items with
  | nil => exact .pure ()
  | cons item rest ih => exact (haction item).bind fun _ ↦ ih

end Run.Transparent

end Sequencing

section Rules

open Run.Transparent

theorem transparent_cell (reference : CellId) : (LazyBinding.cell reference).Transparent := by
  refine Run.Transparent.heap.bind fun current ↦ ?_
  cases current.cell? reference with
  | none => exact .fail _
  | some record => exact .pure record

/-- The fault of an initializer is reported and passed on. -/
theorem transparent_force (reference : CellId) : (LazyBinding.force reference).Transparent := by
  intro state
  cases hcell : state.heap.cell? reference with
  | none =>
    have hforce : LazyBinding.force reference state =
        .ended (.error (.unsupported "lazy cell")) state := by
      simp [LazyBinding.force, LazyBinding.cell, hcell]
    rw [hforce]
    exact .ended _ _
  | some record =>
    cases hstate : record.state with
    | initialized value =>
      rw [LazyBinding.force_of_initialized hcell hstate]
      exact .ended _ _
    | inProgress =>
      rw [LazyBinding.force_of_inProgress hcell hstate]
      exact .ended _ _
    | uninitialized initializer =>
      rw [LazyBinding.force_of_uninitialized hcell hstate]
      exact .calling record.name (fun _ _ ↦ rfl) fun _ _ ↦ .ended _ _

theorem transparent_lazyRead (holder : ObjectId) (name : String) (reference : CellId) :
    (LazyBinding.read holder name reference).Transparent :=
  (transparent_force reference).bind fun _ ↦ (transparent_cell reference).bind fun _ ↦
    (define _ _ _).bind fun _ ↦ .pure _

theorem transparent_lazyWrite (holder : ObjectId) (name : String) (reference : CellId)
    (value : Value) : (LazyBinding.write holder name reference value).Transparent := by
  refine (transparent_cell reference).bind fun record ↦ ?_
  split
  · exact (transparent_force reference).bind fun _ ↦ define _ _ _
  · exact .fail _

theorem transparent_memberRead (object : ObjectId) (name : String) (receiver : Value) :
    (Member.read object name receiver).Transparent := by
  refine (ask _).bind fun found ↦ ?_
  split
  · exact .pure _
  · exact .pure _
  · exact call _ receiver []
  · exact .pure _
  · exact transparent_lazyRead _ _ _

theorem transparent_memberSet (object : ObjectId) (name : String) (value : Value) :
    (Member.set object name value).Transparent := by
  refine (ask _).bind fun found ↦ ?_
  split
  · exact define _ _ _
  · exact .fail _
  · exact define _ _ _
  · exact (call _ _ [value]).bind fun _ ↦ .pure _
  · exact .fail _
  · exact transparent_lazyWrite _ _ _ value

theorem transparent_hasMember (realm : RealmId) (value : Value) (name : String) :
    (Dispatch.hasMember realm value name).Transparent :=
  heap.bind fun _ ↦ (Run.Transparent.realm realm).bind fun _ ↦ .pure _

theorem transparent_getMember (realm : RealmId) (value : Value) (name : String) :
    (Dispatch.getMember realm value name).Transparent := by
  refine (Run.Transparent.realm realm).bind fun record ↦ heap.bind fun current ↦ ?_
  cases record.holder? current value with
  | none => exact .pure _
  | some holder => exact transparent_memberRead holder name value

theorem transparent_dynamicGet (realm : RealmId) (receiver : Value) (name : String) :
    (Dispatch.dynamicGet realm receiver name).Transparent := by
  refine (transparent_hasMember realm receiver name).bind fun present ↦ ?_
  split
  · exact transparent_getMember realm receiver name
  · exact .fail _

theorem transparent_resolve (realm : RealmId) (site : CallSite) (receiver : Value) :
    (Dispatch.resolve realm site receiver).Transparent := by
  refine (Run.Transparent.realm realm).bind fun record ↦ ?_
  cases site.memberName? record.config.members with
  | none => exact .pure receiver
  | some name => exact transparent_getMember realm receiver name

theorem transparent_callable (realm : RealmId) (resolved this receiver : Value) (member : String)
    (arguments : List Value) :
    (Dispatch.callable realm resolved this receiver member arguments).Transparent := by
  unfold Dispatch.callable
  split
  · exact .pure _
  · split
    · exact .fail _
    · refine (Run.Transparent.realm realm).bind fun _ ↦
        (transparent_getMember realm _ _).bind fun found ↦ ?_
      split
      · exact .pure _
      · exact .fail _

/-- Neither the member of a call site nor the `call` member of what it holds may hide a fault. -/
theorem transparent_invoke (realm : RealmId) (receiver : Value) (site : CallSite)
    (arguments : List Value) : (Dispatch.invoke realm receiver site arguments).Transparent := by
  refine (Run.Transparent.realm realm).bind fun _ ↦
    (transparent_resolve realm site receiver).bind fun _ ↦
    (transparent_callable realm _ _ receiver _ arguments).bind fun found ↦ heap.bind fun _ ↦ ?_
  dsimp only
  split
  · split
    · exact (emit _).bind fun _ ↦ call found.1 found.2 arguments
    · exact call found.1 found.2 arguments
  · exact .fail _

theorem transparent_equals (realm : RealmId) (left right : Value) :
    (Dispatch.equals realm left right).Transparent := by
  unfold Dispatch.equals
  split
  · exact .pure _
  · refine (Run.Transparent.realm realm).bind fun _ ↦
      (transparent_getMember realm left _).bind fun found ↦ ?_
    split
    · exact (call _ left [right]).bind fun _ ↦ .pure _
    · exact .pure _

theorem transparent_arity (realm : RealmId) (value : Value) :
    (Dispatch.arity realm value).Transparent :=
  (Run.Transparent.realm realm).bind fun _ ↦
    (transparent_callable realm value _ value _ []).bind fun _ ↦ heap.bind fun _ ↦ .pure _

/-- A constructor that fails ends the construction, in the base as in the sources. -/
theorem transparent_runWithin (bound : Nat) (reference : ClassId) (this : Value)
    (arguments : List Value) :
    (Construction.runWithin bound reference this arguments).Transparent := by
  induction bound generalizing reference arguments with
  | zero => exact .pure ()
  | succ bound ih =>
    refine (classRecord reference).bind fun record ↦ ?_
    match record with
    | ⟨_, _, _, _, _, some composition⟩ =>
      exact (ih composition.base arguments).bind fun _ ↦ forM (fun source ↦ ih source []) _
    | ⟨_, _, some constructorFunction, _, _, none⟩ =>
      exact (call constructorFunction this arguments).bind fun _ ↦ .pure ()
    | ⟨_, some superclass, none, _, _, none⟩ => exact ih superclass arguments
    | ⟨_, none, none, _, _, none⟩ => exact .pure ()

theorem transparent_construct (reference : ClassId) (arguments : List Value) :
    (Construction.construct reference arguments).Transparent := by
  have hallocate : (Construction.allocate reference).Transparent :=
    (classRecord reference).bind fun _ ↦ allocate _ _
  exact hallocate.bind fun _ ↦ (transparent_runWithin _ reference _ arguments).bind fun _ ↦ .pure _

theorem transparent_constructNamed (prototype : ObjectId) (tag : String) (initializer : FunctionId)
    (arguments : List Value) :
    (Construction.constructNamed prototype tag initializer arguments).Transparent :=
  (allocate _ _).bind fun _ ↦ (call initializer _ arguments).bind fun _ ↦ .pure _

theorem transparent_nameConstructor (reference : ClassId) (name : String) :
    (Construction.nameConstructor reference name).Transparent := by
  refine (classRecord reference).bind fun record ↦
    (transparent_memberRead record.prototype name _).bind fun found ↦ ?_
  split
  · exact heap.bind fun _ ↦ (makeFunction _ _ _).bind fun _ ↦ (define _ _ _).bind fun _ ↦ .pure _
  · exact .fail _

theorem transparent_instantiate (reference : GenericId) (arguments : List Value) :
    (GenericType.instantiate reference arguments).Transparent := by
  intro state
  cases hgeneric : state.heap.generic? reference with
  | none =>
    rw [GenericType.instantiate_of_none hgeneric]
    exact .ended _ _
  | some generic =>
    cases hfind : generic.cache.find? (GenericType.key arguments) with
    | some entry =>
      rw [GenericType.instantiate_of_present hgeneric hfind]
      exact .ended _ _
    | none =>
      rw [GenericType.instantiate_of_absent hgeneric hfind]
      refine .calling "" (fun _ _ ↦ rfl) fun result later ↦ ?_
      simp only [GenericType.conclude]
      cases later.heap.generic? reference with
      | none => exact .ended _ _
      | some current =>
        dsimp only
        cases current.cache.find? (GenericType.key arguments) <;> exact .ended _ _

/-- A getter that fails ends the reading of all properties. -/
theorem transparent_readProperties (source : ObjectId) (names : List String) (table : LinkedTable) :
    (LinkedMap.readProperties source names table).Transparent := by
  induction names generalizing table with
  | nil => exact .pure table
  | cons name rest ih => exact (transparent_memberRead source name _).bind fun _ ↦ ih _

theorem transparent_ofObject (source : ObjectId) : (LinkedMap.ofObject source).Transparent := by
  refine heap.bind fun _ ↦ (transparent_readProperties source _ _).bind fun contents state ↦ ?_
  rw [LinkedMap.make_apply]
  exact .ended _ _

theorem transparent_required (method : String) (arguments : List Value) (index : Nat) :
    (LinkedMap.required method arguments index).Transparent := by
  unfold LinkedMap.required
  split
  · exact .pure _
  · exact .fail _

/-- What a function does that is no body. -/
theorem transparent_procedure {procedure : Procedure} (h : ∀ body, procedure ≠ .native body)
    (this : Value) (arguments : List Value) : (procedure.run this arguments).Transparent := by
  cases procedure with
  | native body => exact absurd rfl (h body)
  | namedConstructor prototype tag initializer =>
    exact (transparent_constructNamed prototype tag initializer arguments).map _
  | instantiation generic => exact (transparent_instantiate generic arguments).map _
  | tableGet table =>
    exact Run.Transparent.map _
      ((transparent_required _ arguments 0).bind fun _ ↦ heap.bind fun _ ↦ .pure _)
  | tableSet table =>
    exact Run.Transparent.map _ ((transparent_required _ arguments 0).bind fun _ ↦
      (transparent_required _ arguments 1).bind fun _ ↦ (changeHeap _).bind fun _ ↦ .pure _)
  | tableContains table =>
    exact Run.Transparent.map _
      ((transparent_required _ arguments 0).bind fun _ ↦ heap.bind fun _ ↦ .pure _)
  | tableSize table => exact Run.Transparent.map _ (heap.bind fun _ ↦ .pure _)

/-- Every entry point is transparent. -/
theorem EntryPoint.transparent {α : Type} {action : Run α} (h : EntryPoint action) :
    action.Transparent := by
  cases h with
  | get object name => exact transparent_memberRead object name _
  | getWithReceiver object name receiver => exact transparent_memberRead object name receiver
  | set object name value => exact transparent_memberSet object name value
  | getMember realm value name => exact transparent_getMember realm value name
  | dynamicGet realm receiver name => exact transparent_dynamicGet realm receiver name
  | invoke realm receiver site arguments => exact transparent_invoke realm receiver site arguments
  | equals realm left right => exact transparent_equals realm left right
  | arity realm value => exact transparent_arity realm value
  | construct reference arguments => exact transparent_construct reference arguments
  | constructOn reference this arguments => exact transparent_runWithin _ reference this arguments
  | nameConstructor reference name => exact transparent_nameConstructor reference name
  | instantiate generic arguments => exact transparent_instantiate generic arguments
  | force cell => exact transparent_force cell
  | linkedMap source => exact transparent_ofObject source
  | function library this arguments => exact transparent_procedure library this arguments

end Rules

section Operations

variable {place : RealmId} {state : State} {operation : Operation} {operands : List Value}
  {α : Type} {action : Run α} {wrap : α → Answer}

/-- What is entered by an operation is an entry point. -/
theorem Operation.Enters.entryPoint (h : operation.Enters place state operands action wrap) :
    EntryPoint action := by
  cases h <;> constructor

/-- An operation does what the entry point does that it enters. -/
theorem Operation.Enters.execute_eq (h : operation.Enters place state operands action wrap)
    (hknown : operands.all state.heap.knows = true) :
    operation.execute place operands state = (wrap <$> action) state := by
  rw [Operation.execute_of_known hknown]
  cases h with
  | instantiate known arguments =>
    simp [Operation.carryOut, GenericOperation.execute, Operands.genericNamed, known]
  | force known => simp [Operation.carryOut, BindingOperation.execute, Operands.cellNamed, known]
  | _ => rfl

/-- An operation ends with the fault with which its entry point ends. -/
theorem Operation.Enters.endsWith_error
    (h : operation.Enters place state operands action wrap)
    (hknown : operands.all state.heap.knows = true) {fault : Fault} {after : State}
    (hends : (action state).EndsWith (.error fault) after) :
    (operation.execute place operands state).EndsWith (.error fault) after := by
  rw [h.execute_eq hknown, Run.map_apply]
  exact hends.andThen (.ended _ _)

/-- Giving up changes nothing; the failure of an initializer goes on record. -/
theorem State.givenUp_cases (back : State) (call : Call) (name : String) (fault : Fault) :
    back.givenUp call name fault = back.record (.returned call (.error fault)) ∨
      ∃ cell, call.purpose = .initializing cell ∧ back.givenUp call name fault =
        (back.record (.returned call (.error fault))).record
          (.emitted (.initializerFailed cell name (fault.message back.heap))) := by
  unfold State.givenUp State.abandon
  cases hpurpose : call.purpose with
  | plain => exact .inl rfl
  | initializing cell => exact .inr ⟨cell, rfl, rfl⟩

end Operations

section Main

/-- How a fault passes through the entry points, in every state and in the sessions of a program. -/
structure FaultPropagation (bodies : List Body) (start : State) : Prop where
  /-- Every entry point is transparent in every state. -/
  transparent : ∀ (α : Type) (action : Run α), EntryPoint action → action.Transparent
  /-- So is a call of a function that the library has made. -/
  called : ∀ call state procedure, state.procedures.get? call.function.index = some procedure →
    (∀ body, procedure ≠ .native body) → (Machine.enter call state).Transparent
  /-- When a call that an entry point makes, after any others, ends with a fault, then the entry
  point ends with this fault and makes no further call. -/
  propagated : ∀ (α : Type) (action : Run α) state call asked resume back fault,
    EntryPoint action → (action state).Leads (.calling call asked resume) →
      (Machine.enter call asked).EndsWith (.error fault) back →
        ∃ name, resume (.error fault) (back.record (.returned call (.error fault))) =
            .ended (.error fault) (back.givenUp call name fault) ∧
          (action state).EndsWith (.error fault) (back.givenUp call name fault)
  /-- All that happens after the callee has failed goes on record: that the call has returned, and
  the failure if it was the call of an initializer. -/
  recorded : ∀ (back : State) call name fault,
    back.givenUp call name fault = back.record (.returned call (.error fault)) ∨
      ∃ cell, call.purpose = .initializing cell ∧ back.givenUp call name fault =
        (back.record (.returned call (.error fault))).record
          (.emitted (.initializerFailed cell name (fault.message back.heap)))
  /-- The body that has asked for the operation goes on with the fault. -/
  received : ∀ index below place operation operands next begun (α : Type) (action : Run α) wrap call
    asked resume back fault,
    (Session.moment bodies start index).configuration =
        ⟨below, (Body.perform place operation operands next).run begun⟩ →
      operands.all begun.heap.knows = true →
      operation.Enters place begun operands action wrap →
      (action begun).Leads (.calling call asked resume) →
      (Machine.enter call asked).EndsWith (.error fault) back →
        ∃ reached name, index ≤ reached ∧
          (Session.moment bodies start reached).configuration =
            ⟨below, (next (.error fault)).run (back.givenUp call name fault)⟩

/-- No entry point catches or rewrites a fault. -/
theorem faultPropagation (bodies : List Body) (start : State) : FaultPropagation bodies start where
  transparent _ _ h := h.transparent
  called call state procedure hcode hlibrary := by
    rw [Machine.enter_of_procedure hcode]
    exact transparent_procedure hlibrary _ _ _
  propagated _ _ state _ _ _ _ _ hentry hleads hcallee :=
    (hentry.transparent state).fails hleads hcallee
  recorded back call name fault := back.givenUp_cases call name fault
  received _ _ _ _ _ _ begun _ _ _ _ _ _ _ _ hmoment hknown henters hleads hcallee := by
    obtain ⟨name, -, hends⟩ := (henters.entryPoint.transparent begun).fails hleads hcallee
    rw [Body.run_perform] at hmoment
    obtain ⟨reached, hlater, hreached⟩ :=
      Session.exists_moment_of_endsWith hmoment rfl (henters.endsWith_error hknown hends)
    exact ⟨reached, name, hlater, hreached⟩

/-! A program that makes a linked map of an object whose two getters throw. -/

namespace ThrowingGetters

/-- Throws a value. -/
def getter (_this : Value) (_arguments : List Value) : Body :=
  .finish (.error (.thrown (.integer 3)))

/-- Makes the object and then the map. -/
def program : Body :=
  .close "getter" [] getter fun function ↦
  .perform ⟨0⟩ (.object (.allocate false none)) [] fun _ ↦
  .perform ⟨0⟩ (.object (.define .getter)) [.object ⟨0⟩, .string "a", .function function] fun _ ↦
  .perform ⟨0⟩ (.object (.define .getter)) [.object ⟨0⟩, .string "b", .function function] fun _ ↦
  .perform ⟨0⟩ (.map .ofObject) [.object ⟨0⟩] .finish

/-- The state in which the map is about to be made. -/
def state : State := (Session.moment [program] (.fresh .standard) 5).state

/-- The call of the first getter. -/
def call : Call := ⟨⟨0⟩, .object ⟨0⟩, [], .plain⟩

end ThrowingGetters

/-- The program ends with the value that the first getter has thrown, and the second one is not
called. -/
theorem faultPropagation_getters :
    ∃ reached, 5 ≤ reached ∧
      (Session.moment [ThrowingGetters.program] (.fresh .standard) reached).configuration =
        ⟨[], .ended (.error (.thrown (.integer 3)))
          ((ThrowingGetters.state.record (.entered ThrowingGetters.call)).record
            (.returned ThrowingGetters.call (.error (.thrown (.integer 3)))))⟩ := by
  have hcallee : (Machine.enter ThrowingGetters.call ThrowingGetters.state).EndsWith
      (.error (.thrown (.integer 3)))
      (ThrowingGetters.state.record (.entered ThrowingGetters.call)) :=
    Machine.endsWith_enter rfl (Body.endsWith_finish _ _)
  obtain ⟨reached, name, hlater, hreached⟩ :=
    (faultPropagation [ThrowingGetters.program] (.fresh .standard)).received 5 [] ⟨0⟩
      (.map .ofObject) [.object ⟨0⟩] .finish ThrowingGetters.state _ _ _ ThrowingGetters.call _ _ _
      _ rfl (by decide +kernel) (.linkedMap ⟨0⟩) (.refl _) hcallee
  exact ⟨reached, hlater, hreached⟩

end Main

end GradualRuntime
