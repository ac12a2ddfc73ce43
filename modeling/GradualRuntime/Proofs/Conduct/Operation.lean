import GradualRuntime.Proofs.Conduct
import GradualRuntime.Proofs.Conduct.Footprint
import GradualRuntime.Proofs.Force
import GradualRuntime.Proofs.Instantiate

/-!
# The conduct of operations and bodies

Every rule of the library is careful. An operation with any operands is careful and stores into the
slots that `Operation.Stores` names (`careful_execute`); so is everything that a function which is
not a body does when it is called (`careful_procedure`). What the machine builds from these is
orderly: a body (`orderly_body`) and the entry of a call (`orderly_enter`).
-/

set_option autoImplicit false

namespace GradualRuntime

open Run.Careful

section Rules

theorem careful_cell (reference : CellId) : (LazyBinding.cell reference).Careful := by
  refine Run.Careful.heap.bind fun current ↦ ?_
  cases current.cell? reference with
  | none => exact .fail _
  | some record => exact .pure record

theorem careful_force (reference : CellId) : (LazyBinding.force reference).Careful := by
  intro state
  cases hcell : state.heap.cell? reference with
  | none =>
    have hforce : LazyBinding.force reference state =
        .ended (.error (.unsupported "lazy cell")) state := by
      simp [LazyBinding.force, LazyBinding.cell, hcell]
    rw [hforce]
    exact .ended .refl
  | some record =>
    cases hstate : record.state with
    | initialized value =>
      rw [LazyBinding.force_of_initialized hcell hstate]
      exact .ended .refl
    | inProgress =>
      rw [LazyBinding.force_of_inProgress hcell hstate]
      exact .ended .refl
    | uninitialized initializer =>
      rw [LazyBinding.force_of_uninitialized hcell hstate]
      exact .forcing .refl hcell hstate fun _ _ ↦ .ended .refl

/-- A read of a cell that has not been accessed asks for its initializer and keeps the value. -/
theorem LazyBinding.read_of_uninitialized {holder : ObjectId} {name : String} {reference : CellId}
    {state : State} {record : LazyCell} (h : state.heap.cell? reference = some record)
    {initializer : FunctionId} (hstate : record.state = .uninitialized initializer) :
    read holder name reference state =
      .calling ⟨initializer, .undefined, [], .initializing reference⟩
        (state.startCell reference record.name)
        fun outcome later ↦ Run.onward (keep holder name reference) outcome
          (later.settleCell reference record.name outcome) := by
  have hread : read holder name reference state =
      (force reference state).andThen (Run.onward (keep holder name reference)) := rfl
  rw [hread, force_of_uninitialized h hstate]
  rfl

/-- Reading a binding that the slot of its holder holds. -/
theorem careful_lazyRead {holder : ObjectId} {name : String} {reference : CellId} {state : State}
    (hheld : state.heap.own? holder name = some (.binding reference)) :
    Progress.Careful .nothing state (LazyBinding.read holder name reference state) := by
  have hread : LazyBinding.read holder name reference state =
      (LazyBinding.force reference state).andThen
        (Run.onward (LazyBinding.keep holder name reference)) := rfl
  cases hcell : state.heap.cell? reference with
  | none =>
    have hforce : LazyBinding.force reference state =
        .ended (.error (.unsupported "lazy cell")) state := by
      simp [LazyBinding.force, LazyBinding.cell, hcell]
    rw [hread, hforce]
    exact .ended .refl
  | some record =>
    cases hstate : record.state with
    | initialized value =>
      have hkeep : LazyBinding.keep holder name reference value state = .ended (.ok value)
          { state with heap := state.heap.define holder name (record.materialized value) } := by
        simp [LazyBinding.keep, LazyBinding.cell, hcell]
      rw [hread, LazyBinding.force_of_initialized hcell hstate, Progress.andThen_ended,
        Run.onward_ok, hkeep]
      exact .ended (.single (.heap (.define _ _ _ _ (.inr (.intro hheld hcell hstate)))))
    | inProgress =>
      rw [hread, LazyBinding.force_of_inProgress hcell hstate]
      exact .ended .refl
    | uninitialized initializer =>
      rw [LazyBinding.read_of_uninitialized hcell hstate]
      have hcareful : Progress.Careful .nothing state
          (.calling ⟨_, .undefined, [], .initializing reference⟩
            (state.startCell reference record.name) fun outcome later ↦
              (Run.onward (LazyBinding.keep holder name reference) outcome
                (later.settleCell reference record.name outcome)).andThen .ended) :=
        .reading .refl hheld hcell hstate fun _ _ ↦ .ended .refl
      simpa only [Progress.andThen_ended_self] using hcareful

/-- A write to a lazy binding stores into the slot of the holder when it succeeds. -/
theorem careful_lazyWrite {holder : ObjectId} {name : String} {slots : Footprint Unit}
    (hslots : slots (.ok ()) holder name) (reference : CellId) (value : Value) (state : State) :
    Progress.Careful slots state (LazyBinding.write holder name reference value state) := by
  refine bind_storing (careful_cell reference) (fun record later ↦ ?_) state
  cases record.isMutable with
  | false => exact Run.Careful.widen (.fail _) _ _
  | true => exact bind_storing (careful_force reference) (fun _ ↦ define hslots _) later

theorem careful_installAll (target source : ObjectId) (state : State) :
    Progress.Careful
      (fun _ object name ↦ object = target ∧ name ∈ LazyBinding.installed state.heap source)
      state (LazyBinding.installAll target source state) := by
  let slots : ObjectId → String → Prop :=
    fun object name ↦ object = target ∧ name ∈ LazyBinding.installed state.heap source
  have hchanges : Heap.Changes (.storing slots) state.heap
      (Heap.bindNames target source (state.heap.ownNames source) state.heap).2 :=
    Heap.changes_bindNames (state.heap.slots source).keys_nodup
      (fun _ hname _ _ ↦ .inl ⟨rfl, hname⟩) state.heap fun _ _ ↦ rfl
  simp only [LazyBinding.installAll, Run.bind_apply, Run.heap_apply, Progress.andThen_ended,
    Run.onward_ok, Run.changeHeap_apply]
  cases (Heap.bindNames target source (state.heap.ownNames source) state.heap).1 with
  | none => exact .ended (State.changes_heap hchanges)
  | some name => exact .ended (State.changes_heap hchanges)

theorem careful_memberRead (object : ObjectId) (name : String) (receiver : Value) :
    (Member.read object name receiver).Careful := by
  intro state
  simp only [Member.read, Run.bind_apply, Run.ask_apply, Progress.andThen_ended, Run.onward_ok]
  rcases hfound : state.heap.lookup object name with _ | ⟨holder, property⟩
  · exact .ended .refl
  · cases property with
    | data value writable enumerable => exact .ended .refl
    | accessor getter setter enumerable =>
      cases getter with
      | none => exact .ended .refl
      | some getter => exact call getter receiver [] state
    | binding reference => exact careful_lazyRead (Heap.own?_of_lookup hfound)

/-- A write to a member stores into its target when it succeeds. -/
theorem careful_memberSet (object : ObjectId) (name : String) (value : Value) (state : State) :
    Progress.Careful
      (fun outcome target stored ↦ outcome = .ok () ∧ stored = name ∧
        Member.target? state.heap object name = some target)
      state (Member.set object name value state) := by
  simp only [Member.set, Run.bind_apply, Run.ask_apply, Progress.andThen_ended, Run.onward_ok]
  rcases hfound : state.heap.lookup object name with _ | ⟨holder, property⟩
  · exact define ⟨rfl, rfl, by simp [Member.target?, hfound]⟩ _ _
  · cases property with
    | data kept writable enumerable =>
      cases writable with
      | false => exact .ended .refl
      | true => exact define ⟨rfl, rfl, by simp [Member.target?, hfound]⟩ _ _
    | accessor getter setter enumerable =>
      cases setter with
      | none => exact .ended .refl
      | some setter => exact Run.Careful.widen ((call setter _ _).bind fun _ ↦ .pure ()) _ _
    | binding reference =>
      exact careful_lazyWrite ⟨rfl, rfl, by simp [Member.target?, hfound]⟩ reference value state

/-- When its prototype and its statics have been added, a class is added last. -/
theorem careful_addClass {before last : State} {record : Class} {parent : Option Class}
    {members statics : OrderedMap String Property}
    (hheap : last.heap =
      (before.heap.addObject ⟨parent.map Class.prototype, none, members⟩).addObject
        ⟨parent.map Class.statics, none, statics⟩)
    (hparent : before.heap.parent? record = parent)
    (hchanges : State.Changes Heap.Materializes before { last with heap := before.heap })
    (hprototype : record.prototype = before.heap.nextObject)
    (hstatics : record.statics = ⟨before.heap.objects.size + 1⟩)
    (hsuperclass : ∀ reference, record.superclass = some reference →
      reference.index < before.heap.classes.size)
    (hcomposition : ∀ composition, record.composition = some composition →
      composition.base.index < before.heap.classes.size ∧
        ∀ source ∈ composition.sources, source.index < before.heap.classes.size)
    (hknown : ∀ found, parent = some found →
      found.prototype.index < before.heap.objects.size ∧
        found.statics.index < before.heap.objects.size + 1) :
    Progress.Careful .nothing before
      (Run.create Heap.nextClass (fun heap ↦ heap.addClass record) last) := by
  have hfits : record.Fits (before.heap.objects.size + 2) before.heap.classes.size :=
    { prototype := by simp [hprototype, Heap.nextObject]
      statics := by simp [hstatics]
      superclass := hsuperclass
      composition := hcomposition }
  have hdeclared : State.Change Heap.Materializes { last with heap := before.heap }
      { last with heap := before.heap.declare record members statics } :=
    .heap (.declare before.heap record members statics hfits hprototype hstatics
      (hparent ▸ hknown))
  rw [Heap.declare, hparent, ← hheap] at hdeclared
  exact .ended (Progress.Careful.changes_storing (hchanges.tail hdeclared))

theorem careful_compose (base : ClassId) (sources : List ClassId) :
    (Mixin.compose base sources).Careful := by
  intro state
  by_cases hbase : base.index < state.heap.classes.size
  · obtain ⟨baseRecord, hrecord⟩ := Heap.exists_class?_of_lt hbase
    rw [Mixin.compose, Run.bind_of_ok (Run.classRecord_of_some hrecord)]
    by_cases hsources : ∀ source ∈ sources, source.index < state.heap.classes.size
    · rw [Run.bind_of_ok (Run.classRecords_of_known hsources)]
      refine allocate_bind .refl fun hprototype ↦ ?_
      obtain ⟨members, hmembers⟩ := state.heap.exists_overlay_addObject
        (some baseRecord.prototype) none .empty
        ((sources.filterMap state.heap.class?).map Class.prototype)
      rw [Run.bind_of_ok (Run.changeHeap_apply _ _), hmembers, Run.bind_of_ok (Run.heap_apply _),
        Run.bind_of_ok (Run.emit_apply _ _)]
      refine allocate_bind (.head (.heap (.addObject _ _ hprototype)) (.single (.emitted _ _ rfl)))
        fun hstatics ↦ ?_
      refine careful_addClass rfl hrecord (.single (.emitted _ _ rfl)) rfl ?_ ?_ ?_ ?_
      · simp [Heap.addObject, Heap.nextObject]
      · rintro _ ⟨⟩
        exact hbase
      · rintro composition ⟨⟩
        exact ⟨hbase, hsources⟩
      · rintro found ⟨⟩
        simpa [Heap.addObject] using And.intro (hprototype _ rfl) (hstatics _ rfl)
    · rw [Run.bind_of_error (Run.classRecords_of_unknown hsources)]
      exact .ended .refl
  · rw [Mixin.compose, Run.bind_of_error (Run.classRecord_of_none (Heap.class?_eq_none hbase))]
    exact .ended .refl

/-- What follows the reading of a superclass goes on with its record, if a superclass is given. -/
theorem careful_superclass_bind {α : Type} {state : State} {parent : Option ClassId}
    {next : Option Class → Run α} {slots : Footprint α}
    (h : (∀ reference, parent = some reference → reference.index < state.heap.classes.size) →
      Progress.Careful slots state (next (parent.bind state.heap.class?) state)) :
    Progress.Careful slots state ((parent.mapM Run.classRecord >>= next) state) := by
  cases parent with
  | none => exact h (by simp)
  | some reference =>
    cases hrecord : state.heap.class? reference with
    | none =>
      rw [Option.mapM_some, map_eq_pure_bind, bind_assoc,
        Run.bind_of_error (Run.classRecord_of_none hrecord)]
      exact .ended .refl
    | some record =>
      rw [Option.mapM_some, map_eq_pure_bind, bind_assoc,
        Run.bind_of_ok (Run.classRecord_of_some hrecord), pure_bind]
      rw [Option.bind_some, hrecord] at h
      refine h ?_
      rintro _ ⟨⟩
      exact Heap.lt_of_class?_eq_some hrecord

theorem careful_make (definition : Definition) : definition.make.Careful := by
  intro state
  refine careful_superclass_bind fun hparent ↦ allocate_defineAll .refl fun hprototype ↦
    allocate_defineAll (.single (.heap (.addObject _ _ hprototype))) fun hstatics ↦ ?_
  refine careful_addClass rfl rfl .refl rfl ?_ hparent (by simp) fun found hfound ↦ ?_
  · simp [Heap.addObject, Heap.nextObject]
  · rw [hfound] at hprototype hstatics
    simpa [Heap.addObject] using And.intro (hprototype _ rfl) (hstatics _ rfl)

theorem careful_runWithin (bound : Nat) (reference : ClassId) (this : Value)
    (arguments : List Value) :
    (Construction.runWithin bound reference this arguments).Careful := by
  induction bound generalizing reference arguments with
  | zero => exact .pure ()
  | succ bound ih =>
    refine (classRecord reference).bind fun record ↦ ?_
    match record with
    | ⟨_, _, _, _, _, some composition⟩ =>
      exact (ih composition.base arguments).bind fun _ ↦ forM (fun source ↦ ih source []) _
    | ⟨_, _, some constructorFunction, _, _, none⟩ =>
      exact (call constructorFunction this arguments).bind fun _ ↦ .pure ()
    | ⟨_, some superclass, none, _, _, none⟩ => exact ih superclass arguments
    | ⟨_, none, none, _, _, none⟩ => exact .pure ()

theorem careful_allocateInstance (reference : ClassId) :
    (Construction.allocate reference).Careful :=
  (classRecord reference).bind fun _ ↦ allocate _ _

theorem careful_construct (reference : ClassId) (arguments : List Value) :
    (Construction.construct reference arguments).Careful :=
  (careful_allocateInstance reference).bind fun _ ↦
    (careful_runWithin _ reference _ arguments).bind fun _ ↦ .pure _

theorem careful_constructNamed (prototype : ObjectId) (tag : String) (initializer : FunctionId)
    (arguments : List Value) :
    (Construction.constructNamed prototype tag initializer arguments).Careful :=
  (allocate _ _).bind fun _ ↦ (call initializer _ arguments).bind fun _ ↦ .pure _

/-- A named constructor is stored among the statics. -/
theorem careful_nameConstructor (reference : ClassId) (name : String) (state : State) :
    Progress.Careful
      (fun outcome object stored ↦ outcome.isOk = true ∧ stored = name ∧
        ∃ record, state.heap.class? reference = some record ∧ record.statics = object)
      state (Construction.nameConstructor reference name state) := by
  cases hrecord : state.heap.class? reference with
  | none =>
    rw [Construction.nameConstructor, Run.bind_of_error (Run.classRecord_of_none hrecord)]
    exact .ended .refl
  | some record =>
    rw [Construction.nameConstructor, Run.bind_of_ok (Run.classRecord_of_some hrecord)]
    refine bind_storing (careful_memberRead record.prototype name _) (fun found later ↦ ?_) state
    cases found with
    | function initializer =>
      refine bind_storing heap (fun _ ↦ bind_storing (makeFunction _ _ (by simp)) fun function ↦ ?_)
        later
      exact define_pure ⟨rfl, rfl, record, rfl, rfl⟩ _
    | _ => exact Run.Careful.widen (.fail _) _ _

theorem careful_genericRecord (reference : GenericId) : (GenericType.record reference).Careful := by
  refine heap.bind fun current ↦ ?_
  cases current.generic? reference with
  | none => exact .fail _
  | some record => exact .pure record

theorem careful_conclude (reference : GenericId) (arguments : List Value)
    (constructorFunction : FunctionId) (outcome : Except Fault Value) (state : State) :
    Progress.Careful .nothing state
      (GenericType.conclude reference arguments constructorFunction outcome state) := by
  cases outcome with
  | error fault => exact .ended .refl
  | ok result =>
    simp only [GenericType.conclude]
    cases hgeneric : state.heap.generic? reference with
    | none => exact .ended .refl
    | some generic =>
      dsimp only
      cases hfind : generic.cache.find? (GenericType.key arguments) with
      | some entry =>
        refine .ended (.single (.reused ?_))
        simp [Heap.instantiations, hgeneric, hfind]
      | none =>
        let middle := state.record (.emitted (.typeInstantiated reference
          (state.heap.functionName constructorFunction) arguments.length))
        have hmade : middle.heap.generic? reference = some generic := hgeneric
        exact .ended (.head (.emitted state _ rfl) (.single (.constructed hmade hfind result)))

theorem careful_instantiate (reference : GenericId) (arguments : List Value) :
    (GenericType.instantiate reference arguments).Careful := by
  intro state
  cases hgeneric : state.heap.generic? reference with
  | none =>
    rw [GenericType.instantiate_of_none hgeneric]
    exact .ended .refl
  | some generic =>
    cases hfind : generic.cache.find? (GenericType.key arguments) with
    | some entry =>
      rw [GenericType.instantiate_of_present hgeneric hfind]
      refine .ended (.single (.reused ?_))
      simp [Heap.instantiations, hgeneric, hfind]
    | none =>
      rw [GenericType.instantiate_of_absent hgeneric hfind]
      exact .calling _ _ _ .refl fun outcome later ↦ careful_conclude _ _ _ outcome later

theorem careful_toFunction (reference : GenericId) : (GenericType.toFunction reference).Careful :=
  (careful_genericRecord reference).bind fun _ ↦ heap.bind fun _ ↦ makeFunction _ _ (by simp)

theorem careful_genericMake (constructorFunction : FunctionId) :
    (GenericType.make constructorFunction).Careful :=
  create fun current _ ↦ .addGeneric current constructorFunction

theorem careful_readProperties (source : ObjectId) (names : List String) (table : LinkedTable) :
    (LinkedMap.readProperties source names table).Careful := by
  induction names generalizing table with
  | nil => exact .pure table
  | cons name rest ih => exact (careful_memberRead source name _).bind fun _ ↦ ih _

theorem careful_mapMake (contents : LinkedTable) : (LinkedMap.make contents).Careful := by
  intro state
  rw [LinkedMap.make_apply]
  exact .ended (.single (.addMap state contents))

theorem careful_required (method : String) (arguments : List Value) (index : Nat) :
    (LinkedMap.required method arguments index).Careful := by
  unfold LinkedMap.required
  cases arguments[index]? with
  | none => exact .fail _
  | some value => exact .pure value

theorem careful_hasMember (realm : RealmId) (value : Value) (name : String) :
    (Dispatch.hasMember realm value name).Careful :=
  heap.bind fun _ ↦ (Run.Careful.realm realm).bind fun _ ↦ .pure _

theorem careful_getMember (realm : RealmId) (value : Value) (name : String) :
    (Dispatch.getMember realm value name).Careful := by
  refine (Run.Careful.realm realm).bind fun record ↦ heap.bind fun current ↦ ?_
  cases record.holder? current value with
  | none => exact .pure _
  | some holder => exact careful_memberRead holder name value

theorem careful_dynamicGet (realm : RealmId) (receiver : Value) (name : String) :
    (Dispatch.dynamicGet realm receiver name).Careful := by
  refine (careful_hasMember realm receiver name).bind fun present ↦ ?_
  cases present with
  | false => exact .fail _
  | true => exact careful_getMember realm receiver name

theorem careful_resolve (realm : RealmId) (site : CallSite) (receiver : Value) :
    (Dispatch.resolve realm site receiver).Careful := by
  refine (Run.Careful.realm realm).bind fun record ↦ ?_
  cases site.memberName? record.config.members with
  | none => exact .pure receiver
  | some name => exact careful_getMember realm receiver name

theorem careful_callable (realm : RealmId) (resolved this receiver : Value) (member : String)
    (arguments : List Value) :
    (Dispatch.callable realm resolved this receiver member arguments).Careful := by
  unfold Dispatch.callable
  split
  · exact .pure _
  · split
    · exact .fail _
    · refine (Run.Careful.realm realm).bind fun _ ↦
        (careful_getMember realm _ _).bind fun found ↦ ?_
      cases found with
      | function function => exact .pure _
      | _ => exact .fail _

theorem careful_invoke (realm : RealmId) (receiver : Value) (site : CallSite)
    (arguments : List Value) : (Dispatch.invoke realm receiver site arguments).Careful := by
  refine (Run.Careful.realm realm).bind fun _ ↦ (careful_resolve realm site receiver).bind fun _ ↦
    (careful_callable realm _ _ receiver _ arguments).bind fun found ↦ heap.bind fun _ ↦ ?_
  dsimp only
  split
  · split
    · exact (emit rfl).bind fun _ ↦ call found.1 found.2 arguments
    · exact call found.1 found.2 arguments
  · exact .fail _

theorem careful_equals (realm : RealmId) (left right : Value) :
    (Dispatch.equals realm left right).Careful := by
  unfold Dispatch.equals
  split
  · exact .pure _
  · refine (Run.Careful.realm realm).bind fun _ ↦
      (careful_getMember realm left _).bind fun found ↦ ?_
    cases found with
    | function equality => exact (call equality left [right]).bind fun _ ↦ .pure _
    | _ => exact .pure _

theorem careful_arity (realm : RealmId) (value : Value) : (Dispatch.arity realm value).Careful :=
  (Run.Careful.realm realm).bind fun _ ↦ (careful_callable realm value _ value _ []).bind fun _ ↦
    heap.bind fun _ ↦ .pure _

theorem careful_consult (name : String) (arguments : List Value) :
    (TypeTest.consult name arguments).Careful := by
  refine Run.Careful.get.bind fun state ↦ ?_
  split
  · exact call _ _ _
  · exact .fail _

end Rules

section Operands

open Operands

theorem careful_cellNamed (name : String) : (cellNamed name).Careful := by
  refine Run.Careful.get.bind fun state ↦ ?_
  cases state.cellNames.find? name with
  | none => exact .fail _
  | some cell => exact .pure cell

theorem careful_genericNamed (name : String) : (genericNamed name).Careful := by
  refine Run.Careful.get.bind fun state ↦ ?_
  cases state.genericNames.find? name with
  | none => exact .fail _
  | some generic => exact .pure generic

theorem careful_takeFunction (announced : Bool) (operands : List Value) :
    (takeFunction announced operands).Careful := by
  unfold takeFunction
  split
  · exact .pure _
  · exact .pure _
  · exact .fail _

theorem careful_takeClass (announced : Bool) (operands : List Value) :
    (takeClass announced operands).Careful := by
  unfold takeClass
  split
  · exact .pure _
  · exact .pure _
  · exact .fail _

theorem careful_takeProperty (form : PropertyForm) (operands : List Value) :
    (takeProperty form operands).Careful := by
  unfold takeProperty
  split
  case h_5 =>
    exact (careful_takeFunction _ _).bind fun _ ↦ (careful_takeFunction _ _).bind fun _ ↦ .pure _
  case h_7 => exact (careful_cellNamed _).bind fun _ ↦ .pure _
  case h_8 => exact .fail _
  all_goals exact .pure _

theorem careful_takeSlots (forms : List PropertyForm) (operands : List Value) :
    (takeSlots forms operands).Careful := by
  induction forms generalizing operands with
  | nil => exact .pure _
  | cons form rest ih =>
    unfold takeSlots
    split
    · contradiction
    · rename_i hforms
      cases hforms
      exact (careful_takeProperty _ _).bind fun _ ↦ (ih _).bind fun _ ↦ .pure _
    · exact .fail _

theorem careful_entries (operands : List Value) : (entries operands).Careful := by
  fun_induction entries operands with
  | case1 => exact .pure []
  | case2 name value rest ih => exact ih.bind fun _ ↦ .pure _
  | case3 => exact .fail _

theorem careful_classes (operands : List Value) : (classes operands).Careful := by
  fun_induction classes operands with
  | case1 => exact .pure []
  | case2 reference rest ih => exact ih.bind fun _ ↦ .pure _
  | case3 => exact .fail _

end Operands

section Operations

theorem careful_value (operation : ValueOperation) (operands : List Value) :
    (operation.execute operands).Careful := by
  unfold ValueOperation.execute
  split
  case h_4 | h_5 => exact heap.bind fun _ ↦ .pure _
  case h_11 => exact .fail _
  all_goals exact .pure _

theorem careful_function (operation : FunctionOperation) (operands : List Value) :
    (operation.execute operands).Careful := by
  unfold FunctionOperation.execute
  split
  case h_3 => exact (call _ _ _).bind fun _ ↦ .pure _
  case h_4 | h_7 => exact .pure _
  case h_8 => exact .fail _
  all_goals exact heap.bind fun _ ↦ .pure _

theorem careful_object (operation : ObjectOperation) (operands : List Value) (state : State) :
    Progress.Careful (Operation.Stores state.heap (.object operation) operands) state
      (operation.execute operands state) := by
  unfold ObjectOperation.execute
  split
  case h_1 | h_2 => exact Run.Careful.widen ((allocate _ _).bind fun _ ↦ .pure _) _ _
  case h_3 =>
    have hcareful : (ObjectOperation.ofEntries.execute operands).Careful :=
      (careful_entries operands).bind fun slots later ↦
        allocate_defineAll .refl fun _ ↦ .ended (.single (.heap (.addObject _ _ nofun)))
    exact hcareful.widen _ _
  case h_4 form object name parts =>
    refine bind_storing (careful_takeProperty form parts) (fun taken ↦ ?_) state
    exact define_pure (.define object name form parts .done) taken.1
  case h_8 source target name targetName =>
    simp only [Run.bind_apply, Run.ask_apply, Progress.andThen_ended, Run.onward_ok]
    cases hfound : state.heap.own? source name with
    | none => exact .ended .refl
    | some property =>
      exact define_pure (.copyOwn target targetName _ (Option.isSome_iff_exists.2 ⟨_, hfound⟩)) _ _
  case h_13 => exact Run.Careful.widen ((careful_memberRead _ _ _).bind fun _ ↦ .pure _) _ _
  case h_14 => exact Run.Careful.widen ((careful_memberRead _ _ _).bind fun _ ↦ .pure _) _ _
  case h_15 receiver name value =>
    refine bind_pure (careful_memberSet receiver name value state) (fun _ ↦ Answer.done) ?_
    rintro _ target _ ⟨rfl, rfl, htarget⟩
    exact .set value .done htarget
  case h_19 target source =>
    refine .ended (State.changes_heap (Heap.changes_copyNames (fun name hname _ _ ↦ .inl ?_) _))
    exact .copySlots target _ ((OrderedMap.contains_iff_mem_keys _ _).2 hname)
  case h_20 => exact Run.Careful.widen (.fail _) _ _
  all_goals exact Run.Careful.widen (heap.bind fun _ ↦ .pure _) _ _

theorem careful_binding (operation : BindingOperation) (operands : List Value) (state : State) :
    Progress.Careful (Operation.Stores state.heap (.binding operation) operands) state
      (operation.execute operands state) := by
  unfold BindingOperation.execute
  split
  case h_1 isMutable object name initializer =>
    refine .ended (State.changes_heap
      (Heap.changes_bindLazily (fun _ _ ↦ .inl ?_) _ initializer isMutable))
    exact .bind object name isMutable initializer .done
  case h_2 target source =>
    refine bind_pure (careful_installAll target source state) (fun _ ↦ Answer.done) ?_
    rintro outcome _ name ⟨rfl, hname⟩
    exact .bindAll _ _ hname
  case h_3 =>
    refine Run.Careful.widen ((create fun current _ ↦ .addCell current _ _ _).bind fun _ ↦ ?_) _ _
    exact Run.Careful.bind (fun state ↦ .ended (.single (.names state _ _ _))) fun _ ↦ .pure _
  case h_4 =>
    exact Run.Careful.widen
      ((careful_cellNamed _).bind fun _ ↦ (careful_force _).bind fun _ ↦ .pure _) _ _
  case h_5 | h_6 =>
    exact Run.Careful.widen
      ((careful_cellNamed _).bind fun _ ↦ (careful_cell _).bind fun _ ↦ .pure _) _ _
  case h_7 => exact Run.Careful.widen (.fail _) _ _

theorem careful_class (operation : ClassOperation) (operands : List Value) (state : State) :
    Progress.Careful (Operation.Stores state.heap (.type operation) operands) state
      (operation.execute operands state) := by
  unfold ClassOperation.execute
  split
  case h_1 =>
    exact Run.Careful.widen ((careful_takeClass _ _).bind fun _ ↦
      (careful_takeFunction _ _).bind fun _ ↦ (careful_takeSlots _ _).bind fun _ ↦
      (careful_takeSlots _ _).bind fun _ ↦ (careful_takeSlots _ _).bind fun _ ↦
      (careful_make _).bind fun _ ↦ .pure _) _ _
  case h_4 | h_5 | h_6 => exact Run.Careful.widen ((classRecord _).bind fun _ ↦ .pure _) _ _
  case h_7 => exact Run.Careful.widen ((careful_allocateInstance _).bind fun _ ↦ .pure _) _ _
  case h_8 => exact Run.Careful.widen ((careful_construct _ _).bind fun _ ↦ .pure _) _ _
  case h_9 => exact Run.Careful.widen ((careful_runWithin _ _ _ _).bind fun _ ↦ .pure _) _ _
  case h_11 reference name =>
    refine bind_pure (careful_nameConstructor reference name state) _ ?_
    rintro (fault | function) _ _ ⟨hended, rfl, record, hrecord, rfl⟩
    · cases hended
    · exact .nameConstructor _ _ hrecord
  case h_12 =>
    exact Run.Careful.widen
      ((careful_classes _).bind fun _ ↦ (careful_compose _ _).bind fun _ ↦ .pure _) _ _
  case h_13 => exact Run.Careful.widen (.fail _) _ _
  all_goals exact Run.Careful.widen (heap.bind fun _ ↦ .pure _) _ _

theorem careful_generic (operation : GenericOperation) (operands : List Value) :
    (operation.execute operands).Careful := by
  unfold GenericOperation.execute
  split
  case h_1 =>
    refine (careful_genericMake _).bind fun _ ↦ ?_
    exact Run.Careful.bind (fun state ↦ .ended (.single (.names state _ _ _))) fun _ ↦ .pure _
  case h_2 =>
    exact (careful_genericNamed _).bind fun _ ↦ (careful_genericRecord _).bind fun _ ↦
      heap.bind fun _ ↦ .pure _
  case h_3 | h_4 =>
    exact (careful_genericNamed _).bind fun _ ↦ (careful_genericRecord _).bind fun _ ↦ .pure _
  case h_5 =>
    exact (careful_genericNamed _).bind fun _ ↦ (careful_toFunction _).bind fun _ ↦ .pure _
  case h_6 =>
    exact (careful_genericNamed _).bind fun _ ↦ (careful_instantiate _ _).bind fun _ ↦ .pure _
  case h_7 => exact (careful_genericNamed _).bind fun _ ↦ heap.bind fun _ ↦ .pure _
  case h_8 => exact (careful_genericMake _).bind fun _ ↦ (careful_toFunction _).bind fun _ ↦ .pure _
  case h_9 => exact .fail _

theorem careful_map (operation : MapOperation) (operands : List Value) :
    (operation.execute operands).Careful := by
  unfold MapOperation.execute
  split
  case h_1 => exact (careful_mapMake _).bind fun _ ↦ .pure _
  case h_2 source =>
    have hread : (LinkedMap.ofObject source).Careful :=
      heap.bind fun _ ↦ (careful_readProperties source _ _).bind careful_mapMake
    exact hread.bind fun _ ↦ .pure _
  case h_3 => exact .fail _

theorem careful_typeTest (realm : RealmId) (value type : Value) :
    (TypeTest.isInstance realm value type).Careful ∧ (TypeTest.cast realm value type).Careful ∧
      (TypeTest.isGroundType realm type).Careful := by
  refine ⟨(Run.Careful.realm realm).bind fun record ↦ ?_,
    (Run.Careful.realm realm).bind fun record ↦ ?_,
    (Run.Careful.realm realm).bind fun record ↦ ?_⟩
  · cases record.oracle with
    | unchecked => exact .fail _
    | consulting _ _ _ => exact (careful_consult _ _).bind fun _ ↦ .pure _
  · cases record.oracle with
    | unchecked => exact .pure _
    | consulting _ _ _ => exact careful_consult _ _
  · cases record.oracle with
    | unchecked => exact .fail _
    | consulting _ _ _ => exact (careful_consult _ _).bind fun _ ↦ .pure _

theorem careful_realm (realm : RealmId) (operation : RealmOperation) (operands : List Value) :
    (operation.execute realm operands).Careful := by
  unfold RealmOperation.execute
  split
  case h_1 => exact .pure _
  case h_2 source oracle =>
    cases source.config with
    | ok config =>
      exact Run.Careful.bind (fun state ↦ .ended (.single (.addRealm state config oracle)))
        fun _ ↦ .pure _
    | error _ => exact .pure _
  case h_3 kind prototype =>
    exact Run.Careful.bind
      (fun state ↦ .ended (.single (.setPrimitivePrototype state realm kind prototype)))
      fun _ ↦ .pure _
  case h_4 => exact (careful_hasMember _ _ _).bind fun _ ↦ .pure _
  case h_5 => exact (careful_getMember _ _ _).bind fun _ ↦ .pure _
  case h_6 value type => exact (careful_typeTest realm value type).1.bind fun _ ↦ .pure _
  case h_7 value type => exact (careful_typeTest realm value type).2.1.bind fun _ ↦ .pure _
  case h_8 type => exact (careful_typeTest realm type type).2.2.bind fun _ ↦ .pure _
  case h_9 => exact (careful_dynamicGet _ _ _).bind fun _ ↦ .pure _
  case h_16 => exact (Run.Careful.realm realm).bind fun _ ↦ .pure _
  case h_17 => exact (careful_equals _ _ _).bind fun _ ↦ .pure _
  case h_18 value =>
    have hnotNull : (Dispatch.notNull value).Careful := by
      unfold Dispatch.notNull
      split
      · exact .fail _
      · exact .pure _
    exact hnotNull.bind fun _ ↦ .pure _
  case h_19 condition =>
    have hassert : (Dispatch.assertTruthy condition).Careful := by
      unfold Dispatch.assertTruthy
      split
      · exact .pure _
      · exact .fail _
    exact hassert.bind fun _ ↦ .pure _
  case h_20 => exact (careful_arity _ _).bind fun _ ↦ .pure _
  case h_21 => exact .fail _
  all_goals exact (careful_invoke _ _ _ _).bind fun _ ↦ .pure _

theorem careful_control (operation : ControlOperation) (operands : List Value) :
    (operation.execute operands).Careful := by
  unfold ControlOperation.execute
  split
  case h_2 value =>
    exact Run.Careful.bind (fun state ↦ .ended (.single (.logged state value))) fun _ ↦ .pure _
  case h_3 name =>
    refine Run.Careful.get.bind fun state ↦ ?_
    cases state.globals.find? name with
    | none => exact .fail _
    | some value => exact .pure _
  case h_4 =>
    exact Run.Careful.bind (fun state ↦ .ended (.single (.names state _ _ _))) fun _ ↦ .pure _
  case h_7 | h_8 => exact heap.bind fun _ ↦ .pure _
  case h_9 => exact .fail _
  all_goals exact .pure _

/-- Every operation is careful, whatever its operands. -/
theorem careful_execute (realm : RealmId) (operation : Operation) (operands : List Value)
    (state : State) :
    Progress.Careful (operation.Stores state.heap operands) state
      (operation.execute realm operands state) := by
  simp only [Operation.execute, Run.bind_apply, Run.ask_apply, Progress.andThen_ended,
    Run.onward_ok]
  split
  · cases operation with
    | value operation => exact (careful_value operation operands).widen _ _
    | function operation => exact (careful_function operation operands).widen _ _
    | object operation => exact careful_object operation operands state
    | binding operation => exact careful_binding operation operands state
    | type operation => exact careful_class operation operands state
    | generic operation => exact (careful_generic operation operands).widen _ _
    | map operation => exact (careful_map operation operands).widen _ _
    | realm operation => exact (careful_realm realm operation operands).widen _ _
    | control operation => exact (careful_control operation operands).widen _ _
  · exact Run.Careful.widen (.fail _) _ _

end Operations

section Machine

/-- Every body is orderly. -/
theorem orderly_body (body : Body) (state : State) : Progress.Orderly state (body.run state) := by
  induction body generalizing state with
  | finish outcome => exact .ended .refl
  | withRealm next ih => exact ih state.current state
  | perform realm operation operands next ih =>
    rw [Body.run_perform]
    exact .paused .refl ((careful_execute realm operation operands state).orderly.andThen ih)
  | close name formals body next _ ih =>
    rw [Body.run_close]
    refine .paused .refl ((ih state.heap.nextFunction _).weaken (.single ?_))
    exact .function state ⟨name, formals⟩ _ (by simp)

/-- What a function does is careful, unless it has a body or writes to the table of a linked map. -/
theorem careful_procedure {procedure : Procedure} (hnative : ∀ body, procedure ≠ .native body)
    (hordinary : ∀ table, procedure ≠ .tableSet table) (this : Value) (arguments : List Value) :
    (procedure.run this arguments).Careful := by
  cases procedure with
  | native body => exact absurd rfl (hnative body)
  | namedConstructor prototype tag initializer =>
    exact (careful_constructNamed prototype tag initializer arguments).map _
  | instantiation generic => exact (careful_instantiate generic arguments).map _
  | tableGet table =>
    exact Run.Careful.map _
      ((careful_required _ arguments 0).bind fun _ ↦ heap.bind fun _ ↦ .pure _)
  | tableSet table => exact absurd rfl (hordinary table)
  | tableContains table =>
    exact Run.Careful.map _
      ((careful_required _ arguments 0).bind fun _ ↦ heap.bind fun _ ↦ .pure _)
  | tableSize table => exact Run.Careful.map _ (heap.bind fun _ ↦ .pure _)

/-- A call whose function does not write to the table of a linked map only goes on record. -/
theorem State.enter_eq_record {state : State} {call : Call}
    (h : ∀ table, state.procedures.get? call.function.index ≠ some (.tableSet table)) :
    state.enter call = state.record (.entered call) := by
  have hfiled : state.filed call = state.heap.tables := by
    unfold State.filed
    split
    · exact absurd ‹_› (h _)
    · rfl
  rw [State.enter, hfiled]
  rfl

/-- A call carries out the procedure of its function. -/
theorem Machine.enter_of_procedure {state : State} {call : Call} {procedure : Procedure}
    (h : state.procedures.get? call.function.index = some procedure) :
    Machine.enter call state =
      procedure.run call.this call.arguments (state.record (.entered call)) := by
  have hcode : (state.record (.entered call)).procedures.get? call.function.index =
      some procedure := h
  simp [Machine.enter, hcode]

theorem Machine.enter_of_none {state : State} {call : Call}
    (h : state.procedures.get? call.function.index = none) :
    Machine.enter call state =
      .ended (.error (.unsupported "function")) (state.record (.entered call)) := by
  have hcode : (state.record (.entered call)).procedures.get? call.function.index = none := h
  simp [Machine.enter, hcode]

/-- The function that writes to the table of a linked map has done so when it is entered. -/
theorem Machine.enter_of_tableSet {state : State} {call : Call} {table : TableId}
    (h : state.procedures.get? call.function.index = some (.tableSet table)) :
    Machine.enter call state = .ended
      (match call.arguments with
        | [] => .error (.invariantViolation "set: missing argument 1")
        | [_] => .error (.invariantViolation "set: missing argument 2")
        | _ => .ok (.value .undefined))
      (state.enter call) := by
  rw [Machine.enter_of_procedure h]
  match hgiven : call.arguments with
  | [] =>
    rw [State.enter, State.filed, h, hgiven]
    rfl
  | [key] =>
    rw [State.enter, State.filed, h, hgiven]
    rfl
  | key :: value :: rest =>
    rw [State.enter, State.filed, h, hgiven]
    rfl

/-- What is called is a body or careful, once its entry is on record. -/
theorem enter_cases (call : Call) (state : State) :
    (∃ body : Body, Machine.enter call state = body.run (state.enter call)) ∨
      Progress.Careful .nothing (state.enter call) (Machine.enter call state) := by
  cases hcode : state.procedures.get? call.function.index with
  | none =>
    rw [Machine.enter_of_none hcode, State.enter_eq_record (by simp [hcode])]
    exact .inr (.ended .refl)
  | some procedure =>
    by_cases hset : ∃ table, procedure = .tableSet table
    · obtain ⟨table, rfl⟩ := hset
      rw [Machine.enter_of_tableSet hcode]
      exact .inr (.ended .refl)
    · have hordinary : ∀ table, procedure ≠ .tableSet table := not_exists.1 hset
      rw [Machine.enter_of_procedure hcode,
        State.enter_eq_record (by simpa [hcode] using hordinary)]
      by_cases hnative : ∃ body, procedure = .native body
      · obtain ⟨body, rfl⟩ := hnative
        exact .inl ⟨_, rfl⟩
      · exact .inr (careful_procedure (not_exists.1 hnative) hordinary _ _ _)

/-- Once the entry of a call is on record, what is called is orderly. -/
theorem orderly_enter (call : Call) (state : State) :
    Progress.Orderly (state.enter call) (Machine.enter call state) := by
  rcases enter_cases call state with ⟨body, hbody⟩ | hcareful
  · rw [hbody]
    exact orderly_body body _
  · exact hcareful.orderly

end Machine

end GradualRuntime
