import GradualRuntime.Proofs.Dispatch
import GradualRuntime.Proofs.Tandem

/-!
# Operations in tandem

Every rule of the library goes in tandem with itself from states that belong together, for any
lawful bond, and so does every operation that is no dispatch (`Bond.Lawful.execute`). What a
dispatch does beyond finding its callee is to report it, and that is left to the bond: an operation
that is a dispatch (`Operation.dispatch?`) goes in tandem when the dispatch does.
-/

set_option autoImplicit false

namespace GradualRuntime

/-- The receiver, the call site and the arguments of the dispatch that an operation is. -/
def Operation.dispatch? : Operation → List Value → Option (Value × CallSite × List Value)
  | .realm (.invoke kind), .string name :: receiver :: arguments =>
    some (receiver, kind.site name, arguments)
  | .realm .dynamicCall, receiver :: .string name :: arguments =>
    some (receiver, .call name, arguments)
  | .realm .dynamicApply, receiver :: arguments => some (receiver, .apply, arguments)
  | .realm .indexGet, [receiver, index] => some (receiver, .indexGet, [index])
  | .realm .indexSet, [receiver, index, stored] => some (receiver, .indexSet, [index, stored])
  | .realm .dynamicBinary, [left, .string name, right] => some (left, .binary name, [right])
  | _, _ => none

/-- An operation that is a dispatch answers with what the dispatch gives. -/
theorem Operation.carryOut_of_dispatch {operation : Operation} {operands arguments : List Value}
    {receiver : Value} {site : CallSite}
    (h : operation.dispatch? operands = some (receiver, site, arguments)) (place : RealmId) :
    operation.carryOut place operands =
      Answer.value <$> Dispatch.invoke place receiver site arguments := by
  unfold dispatch? at h
  split at h <;> cases h <;> rfl

theorem Realm.holder?_untraced (realm : Realm) (heap : Heap) (value : Value) :
    realm.untraced.holder? heap value = realm.holder? heap value := by
  cases value <;> rfl

namespace Bond.Lawful

open Run.InTandem (call request)

variable {World : Type} {bond : Bond World} (h : bond.Lawful)

include h

section Primitives

variable {α : Type}

theorem changeHeap {change : Heap → Heap} (hplain : ∀ heap : Heap, heap.Plain (change heap)) :
    (Run.changeHeap change).InTandem bond :=
  h.toResembling.changeHeap _ fun _ left _ hpair ↦ h.heap _ hpair (hplain left.heap)

theorem create {next : Heap → α} {add : Heap → Heap}
    (hplain : ∀ heap : Heap, heap.Plain (add heap)) : (Run.create next add).InTandem bond :=
  h.toResembling.create _ (fun _ left _ hpair ↦ h.heap _ hpair (hplain left.heap)) next

theorem define (object : ObjectId) (name : String) (property : Property) :
    (Run.define object name property).InTandem bond :=
  h.changeHeap fun heap ↦ .define heap object name property

theorem recordPlain {entry : TraceEntry} (hplain : entry.isPlain = true) :
    (Run.record entry).InTandem bond :=
  fun _ _ _ hpair ↦ .ended (h.record entry hpair hplain) rfl

theorem emitPlain {event : Event} (hplain : (TraceEntry.emitted event).isPlain = true) :
    (Run.emit event).InTandem bond := h.recordPlain hplain

theorem allocate (prototype : Option ObjectId) (tag : Option String) :
    (Run.allocate prototype tag).InTandem bond :=
  h.toResembling.allocate prototype tag fun _ left _ hpair ↦
    h.heap _ hpair (.addObject left.heap _)

theorem makeFunction (name : String) (formals : List String) (procedure : Procedure) :
    (Run.makeFunction name formals procedure).InTandem bond := by
  intro world left right hpair
  simp only [Run.makeFunction, Run.modifyGet_apply, (h.resembles hpair).heap]
  exact .ended (h.function _ procedure hpair) rfl

/-- Binding names goes in tandem. -/
theorem modifyNames
    (change : OrderedMap String Value → OrderedMap String CellId → OrderedMap String GenericId →
      OrderedMap String Value × OrderedMap String CellId × OrderedMap String GenericId) :
    (modify fun state ↦
      { state with
        globals := (change state.globals state.cellNames state.genericNames).1
        cellNames := (change state.globals state.cellNames state.genericNames).2.1
        genericNames := (change state.globals state.cellNames state.genericNames).2.2 } :
      Run Unit).InTandem bond := by
  intro world left right hpair
  have hsame := h.resembles hpair
  simp only [Run.modify_apply, hsame.globals, hsame.cellNames, hsame.genericNames]
  exact .ended (h.names _ _ _ hpair) rfl

end Primitives

section Rules

theorem cell (reference : CellId) : (LazyBinding.cell reference).InTandem bond := by
  refine h.readHeap.bind fun current ↦ ?_
  cases current.cell? reference with
  | none => exact .fail _
  | some record => exact .pure record

theorem force (reference : CellId) : (LazyBinding.force reference).InTandem bond := by
  refine (h.cell reference).bind fun record ↦ ?_
  cases record.state with
  | initialized value => exact .pure value
  | inProgress => exact .fail _
  | uninitialized initializer =>
    dsimp only
    refine (h.changeHeap fun heap ↦ .setCellState heap _ _).bind fun _ ↦
      (h.emitPlain (by rfl)).bind fun _ ↦
        (Run.InTandem.onFault (request _) fun fault ↦ ?_).bind fun _ ↦
          (h.changeHeap fun heap ↦ .setCellState heap _ _).bind fun _ ↦ .pure _
    exact h.readHeap.bind fun _ ↦ h.emitPlain (by rfl)

theorem lazyRead (holder : ObjectId) (name : String) (reference : CellId) :
    (LazyBinding.read holder name reference).InTandem bond :=
  (h.force reference).bind fun _ ↦ (h.cell reference).bind fun _ ↦
    (h.define holder name _).bind fun _ ↦ .pure _

theorem lazyWrite (holder : ObjectId) (name : String) (reference : CellId) (value : Value) :
    (LazyBinding.write holder name reference value).InTandem bond := by
  refine (h.cell reference).bind fun record ↦ ?_
  cases record.isMutable with
  | false => exact .fail _
  | true => exact (h.force reference).bind fun _ ↦ h.define holder name _

theorem installAll (target source : ObjectId) :
    (LazyBinding.installAll target source).InTandem bond := by
  intro world left right hpair
  have hplain := Heap.Plain.bindNames target source (left.heap.ownNames source) left.heap
  simp only [LazyBinding.installAll, Run.bind_apply, Run.heap_apply, Progress.andThen_ended,
    Run.onward_ok, Run.changeHeap_apply, (h.resembles hpair).heap]
  cases (Heap.bindNames target source (left.heap.ownNames source) left.heap).1 with
  | none => exact .ended (h.heap _ hpair hplain) rfl
  | some name => exact .ended (h.heap _ hpair hplain) rfl

theorem memberRead (object : ObjectId) (name : String) (receiver : Value) :
    (Member.read object name receiver).InTandem bond := by
  refine (h.ask _).bind fun found ↦ ?_
  split
  · exact .pure _
  · exact .pure _
  · exact .call _ _ _
  · exact .pure _
  · exact h.lazyRead _ _ _

theorem memberSet (object : ObjectId) (name : String) (value : Value) :
    (Member.set object name value).InTandem bond := by
  refine (h.ask _).bind fun found ↦ ?_
  split
  · exact h.define _ _ _
  · exact .fail _
  · exact h.define _ _ _
  · exact (call _ _ _).bind fun _ ↦ .pure ()
  · exact .fail _
  · exact h.lazyWrite _ _ _ _

/-- The statics of a class are there before the class is. -/
theorem addStatics {prototype : Option ObjectId} {entries : List (String × Property)}
    {record : ObjectId → Class} (hcomposition : ∀ statics, (record statics).composition = none)
    (hstatics : ∀ statics, (record statics).statics = statics) :
    (do
      let statics ← Run.allocate prototype none
      Run.changeHeap fun heap ↦ heap.defineAll statics entries
      Run.create Heap.nextClass fun heap ↦ heap.addClass (record statics)).InTandem bond := by
  intro world left right hpair
  have hsame := (h.resembles hpair).heap
  by_cases hknown : (prototype.all fun parent ↦ left.heap.knows (.object parent)) = true
  · have hother : (prototype.all fun parent ↦ right.heap.knows (.object parent)) = true := by
      rw [hsame]
      exact hknown
    rw [Run.bind_of_ok (Run.allocate_of_known hknown none),
      Run.bind_of_ok (Run.allocate_of_known hother none)]
    simp only [Run.bind_apply, Run.changeHeap_apply, Progress.andThen_ended, Run.onward_ok,
      Run.create_apply, hsame]
    have hdefined := Heap.Plain.defineAll (left.heap.addObject ⟨prototype, none, .empty⟩)
      left.heap.nextObject entries
    refine .ended (h.addClass _ (h.heap _ hpair
      ((Heap.Plain.addObject left.heap ⟨prototype, none, .empty⟩).trans hdefined))
        (hcomposition _) ?_) rfl
    rw [hstatics]
    exact Nat.lt_of_lt_of_le (by simp [Heap.addObject, Heap.nextObject]) hdefined.objects
  · have hother : ¬(prototype.all fun parent ↦ right.heap.knows (.object parent)) = true := by
      rw [hsame]
      exact hknown
    rw [Run.bind_of_error (Run.allocate_of_unknown hknown none),
      Run.bind_of_error (Run.allocate_of_unknown hother none)]
    exact .ended hpair rfl

theorem make (definition : Definition) : definition.make.InTandem bond := by
  have hparent : (definition.superclass.mapM Run.classRecord).InTandem bond := by
    cases definition.superclass with
    | none => exact .pure none
    | some reference =>
      rw [Option.mapM_some]
      exact .map _ (h.classRecord reference)
  exact hparent.bind fun _ ↦ (h.allocate _ _).bind fun prototype ↦
    (h.changeHeap fun heap ↦ .defineAll heap prototype _).bind fun _ ↦
      h.addStatics (fun _ ↦ rfl) fun _ ↦ rfl

theorem runWithin (bound : Nat) (reference : ClassId) (this : Value) (arguments : List Value) :
    (Construction.runWithin bound reference this arguments).InTandem bond := by
  induction bound generalizing reference arguments with
  | zero => exact .pure ()
  | succ bound ih =>
    refine (h.classRecord reference).bind fun record ↦ ?_
    match record with
    | ⟨_, _, _, _, _, some composition⟩ =>
      exact (ih composition.base arguments).bind fun _ ↦ .forM (fun source ↦ ih source []) _
    | ⟨_, _, some constructorFunction, _, _, none⟩ =>
      exact (call constructorFunction this arguments).bind fun _ ↦ .pure ()
    | ⟨_, some superclass, none, _, _, none⟩ => exact ih superclass arguments
    | ⟨_, none, none, _, _, none⟩ => exact .pure ()

theorem allocateInstance (reference : ClassId) :
    (Construction.allocate reference).InTandem bond :=
  (h.classRecord reference).bind fun _ ↦ h.allocate _ _

theorem constructInstance (reference : ClassId) (arguments : List Value) :
    (Construction.construct reference arguments).InTandem bond :=
  (h.allocateInstance reference).bind fun _ ↦
    (h.runWithin _ reference _ arguments).bind fun _ ↦ .pure _

theorem constructNamed (prototype : ObjectId) (tag : String) (initializer : FunctionId)
    (arguments : List Value) :
    (Construction.constructNamed prototype tag initializer arguments).InTandem bond :=
  (h.allocate _ _).bind fun _ ↦ (call initializer _ arguments).bind fun _ ↦ .pure _

theorem nameConstructor (reference : ClassId) (name : String) :
    (Construction.nameConstructor reference name).InTandem bond := by
  refine (h.classRecord reference).bind fun record ↦
    (h.memberRead record.prototype name _).bind fun found ↦ ?_
  cases found with
  | function initializer =>
    exact h.readHeap.bind fun _ ↦ (h.makeFunction _ _ _).bind fun _ ↦
      (h.define _ _ _).bind fun _ ↦ .pure _
  | _ => exact .fail _

theorem genericRecord (reference : GenericId) : (GenericType.record reference).InTandem bond := by
  refine h.readHeap.bind fun current ↦ ?_
  cases current.generic? reference with
  | none => exact .fail _
  | some record => exact .pure record

theorem instantiate (reference : GenericId) (arguments : List Value) :
    (GenericType.instantiate reference arguments).InTandem bond := by
  intro world left right hpair
  have hsame := (h.resembles hpair).heap
  cases hgeneric : left.heap.generic? reference with
  | none =>
    have hother := hgeneric
    rw [← hsame] at hother
    rw [GenericType.instantiate_of_none hgeneric, GenericType.instantiate_of_none hother]
    exact .ended hpair rfl
  | some generic =>
    have hother := hgeneric
    rw [← hsame] at hother
    cases hfind : generic.cache.find? (GenericType.key arguments) with
    | some entry =>
      rw [GenericType.instantiate_of_present hgeneric hfind,
        GenericType.instantiate_of_present hother hfind]
      exact .ended (h.record _ hpair rfl) rfl
    | none =>
      rw [GenericType.instantiate_of_absent hgeneric hfind,
        GenericType.instantiate_of_absent hother hfind]
      refine .calling hpair fun outcome next later last hlater ↦ ?_
      have hagain := (h.resembles hlater).heap
      cases outcome with
      | error fault => exact .ended hlater rfl
      | ok result =>
        simp only [GenericType.conclude, hagain]
        cases hcurrent : later.heap.generic? reference with
        | none => exact .ended hlater rfl
        | some current =>
          dsimp only
          cases hnow : current.cache.find? (GenericType.key arguments) with
          | some entry => exact .ended (h.record _ hlater rfl) rfl
          | none => exact .ended (h.construct _ result hlater hcurrent hnow) rfl

theorem toFunction (reference : GenericId) : (GenericType.toFunction reference).InTandem bond :=
  (h.genericRecord reference).bind fun _ ↦ h.readHeap.bind fun _ ↦ h.makeFunction _ _ _

theorem genericMake (constructorFunction : FunctionId) :
    (GenericType.make constructorFunction).InTandem bond := by
  intro world left right hpair
  simp only [GenericType.make, Run.create_apply, (h.resembles hpair).heap]
  exact .ended (h.addGeneric constructorFunction hpair) rfl

theorem readProperties (source : ObjectId) (names : List String) (table : LinkedTable) :
    (LinkedMap.readProperties source names table).InTandem bond := by
  induction names generalizing table with
  | nil => exact .pure table
  | cons name rest ih => exact (h.memberRead source name _).bind fun _ ↦ ih _

theorem mapMake (contents : LinkedTable) : (LinkedMap.make contents).InTandem bond := by
  intro world left right hpair
  rw [LinkedMap.make_apply, LinkedMap.make_apply]
  simp only [State.addMap, (h.resembles hpair).heap]
  let object : Object := ⟨none, some LinkedMap.tag, LinkedMap.slots left.heap.functions.size⟩
  have hheap : left.heap.Plain
      { left.heap with
        tables := left.heap.tables.push contents
        objects := left.heap.objects.push object } :=
    ⟨rfl, rfl, by simp⟩
  have hget := h.function ⟨"get", ["key"]⟩ (.tableGet left.heap.nextTable) (h.heap _ hpair hheap)
  have hset := h.function ⟨"set", ["key", "value"]⟩ (.tableSet left.heap.nextTable) hget
  have hcontains := h.function ⟨"containsKey", ["key"]⟩ (.tableContains left.heap.nextTable) hset
  exact .ended (h.function ⟨"length", []⟩ (.tableSize left.heap.nextTable) hcontains) rfl

omit h in
theorem required (method : String) (arguments : List Value) (index : Nat) :
    (LinkedMap.required method arguments index).InTandem bond := by
  unfold LinkedMap.required
  cases arguments[index]? with
  | none => exact .fail _
  | some value => exact .pure value

end Rules

section Dispatches

theorem hasMember (realm : RealmId) (value : Value) (name : String) :
    (Dispatch.hasMember realm value name).InTandem bond :=
  h.readHeap.bind fun heap ↦ h.realm_bind (fun _ ↦ .pure _) fun record ↦ by
    rw [record.holder?_untraced]

theorem getMember (realm : RealmId) (value : Value) (name : String) :
    (Dispatch.getMember realm value name).InTandem bond := by
  refine h.realm_bind (fun record ↦ h.readHeap.bind fun current ↦ ?_) fun record ↦ ?_
  · cases record.holder? current value with
    | none => exact .pure _
    | some holder => exact h.memberRead holder name value
  · simp only [Realm.holder?_untraced]

theorem dynamicGet (realm : RealmId) (receiver : Value) (name : String) :
    (Dispatch.dynamicGet realm receiver name).InTandem bond := by
  refine (h.hasMember realm receiver name).bind fun present ↦ ?_
  cases present with
  | false => exact .fail _
  | true => exact h.getMember realm receiver name

theorem resolve (realm : RealmId) (site : CallSite) (receiver : Value) :
    (Dispatch.resolve realm site receiver).InTandem bond := by
  refine h.realm_bind (fun record ↦ ?_) fun _ ↦ rfl
  cases site.memberName? record.config.members with
  | none => exact .pure receiver
  | some name => exact h.getMember realm receiver name

theorem callable (realm : RealmId) (resolved this receiver : Value) (member : String)
    (arguments : List Value) :
    (Dispatch.callable realm resolved this receiver member arguments).InTandem bond := by
  unfold Dispatch.callable
  split
  · exact .pure _
  · split
    · exact .fail _
    · refine h.realm_bind (fun record ↦ (h.getMember realm _ _).bind fun found ↦ ?_) fun _ ↦ rfl
      cases found with
      | function function => exact .pure _
      | _ => exact .fail _

theorem find (realm : RealmId) (receiver : Value) (site : CallSite) (arguments : List Value)
    (member : String) : (Dispatch.find realm receiver site arguments member).InTandem bond :=
  (h.resolve realm site receiver).bind fun _ ↦ h.callable realm _ _ receiver member arguments

/-- A dispatch goes in tandem when the realms trace alike and the bond is kept by reports of
dispatches. -/
theorem invoke
    (hconfig : ∀ {world left right} reference, bond world left right →
      (right.realm reference).config = (left.realm reference).config)
    (hreport : ∀ {world left right} event, bond world left right → event.isDispatch = true →
      bond world (left.record (.emitted event)) (right.record (.emitted event)))
    (realm : RealmId) (receiver : Value) (site : CallSite) (arguments : List Value) :
    (Dispatch.invoke realm receiver site arguments).InTandem bond := by
  intro world left right hpair
  rw [Dispatch.invoke_eq_find, Dispatch.invoke_eq_find, hconfig realm hpair]
  generalize (left.realm realm).config = config
  refine (h.find realm receiver site arguments _ world left right hpair).andThen ?_
  rintro (fault | ⟨callee, this⟩) _ next later last rfl hlater
  · exact .ended hlater rfl
  · simp only [Dispatch.conclude, (h.resembles hlater).heap]
    split
    · refine .calling ?_ fun _ _ _ _ hback ↦ .ended hback rfl
      split
      · exact hreport _ hlater rfl
      · exact hlater
    · exact .ended hlater rfl

theorem equals (realm : RealmId) (left right : Value) :
    (Dispatch.equals realm left right).InTandem bond := by
  unfold Dispatch.equals
  split
  · exact .pure _
  · refine h.realm_bind (fun record ↦ (h.getMember realm left _).bind fun found ↦ ?_) fun _ ↦ rfl
    cases found with
    | function equality => exact (call equality left [right]).bind fun _ ↦ .pure _
    | _ => exact .pure _

theorem arity (realm : RealmId) (value : Value) : (Dispatch.arity realm value).InTandem bond :=
  h.realm_bind (fun _ ↦ (h.callable realm value _ value _ []).bind fun _ ↦
    h.readHeap.bind fun _ ↦ .pure _) fun _ ↦ rfl

theorem consult (name : String) (arguments : List Value) :
    (TypeTest.consult name arguments).InTandem bond := by
  refine h.get_bind (fun state ↦ ?_) fun left right hsame ↦ by rw [hsame.globals]
  split
  · exact call _ _ _
  · exact .fail _

theorem typeTest (realm : RealmId) (value type : Value) :
    (TypeTest.isInstance realm value type).InTandem bond ∧
      (TypeTest.cast realm value type).InTandem bond ∧
      (TypeTest.isGroundType realm type).InTandem bond := by
  refine ⟨h.realm_bind (fun record ↦ ?_) fun _ ↦ rfl, h.realm_bind (fun record ↦ ?_) fun _ ↦ rfl,
    h.realm_bind (fun record ↦ ?_) fun _ ↦ rfl⟩
  · cases record.oracle with
    | unchecked => exact .fail _
    | consulting _ _ _ => exact (h.consult _ _).bind fun _ ↦ .pure _
  · cases record.oracle with
    | unchecked => exact .pure _
    | consulting _ _ _ => exact h.consult _ _
  · cases record.oracle with
    | unchecked => exact .fail _
    | consulting _ _ _ => exact (h.consult _ _).bind fun _ ↦ .pure _

end Dispatches

section Operands

open Operands

theorem cellNamed (name : String) : (cellNamed name).InTandem bond := by
  refine h.get_bind (fun state ↦ ?_) fun left right hsame ↦ by rw [hsame.cellNames]
  cases state.cellNames.find? name with
  | none => exact .fail _
  | some cell => exact .pure cell

theorem genericNamed (name : String) : (genericNamed name).InTandem bond := by
  refine h.get_bind (fun state ↦ ?_) fun left right hsame ↦ by rw [hsame.genericNames]
  cases state.genericNames.find? name with
  | none => exact .fail _
  | some generic => exact .pure generic

omit h in
theorem takeFunction (announced : Bool) (operands : List Value) :
    (takeFunction announced operands).InTandem bond := by
  unfold Operands.takeFunction
  split
  · exact .pure _
  · exact .pure _
  · exact .fail _

omit h in
theorem takeClass (announced : Bool) (operands : List Value) :
    (takeClass announced operands).InTandem bond := by
  unfold Operands.takeClass
  split
  · exact .pure _
  · exact .pure _
  · exact .fail _

theorem takeProperty (form : PropertyForm) (operands : List Value) :
    (takeProperty form operands).InTandem bond := by
  unfold Operands.takeProperty
  split
  case h_5 =>
    exact (takeFunction _ _).bind fun _ ↦ (takeFunction _ _).bind fun _ ↦ .pure _
  case h_7 => exact (h.cellNamed _).bind fun _ ↦ .pure _
  case h_8 => exact .fail _
  all_goals exact .pure _

theorem takeSlots (forms : List PropertyForm) (operands : List Value) :
    (takeSlots forms operands).InTandem bond := by
  induction forms generalizing operands with
  | nil => exact .pure _
  | cons form rest ih =>
    unfold Operands.takeSlots
    split
    · contradiction
    · rename_i hforms
      cases hforms
      exact (h.takeProperty _ _).bind fun _ ↦ (ih _).bind fun _ ↦ .pure _
    · exact .fail _

omit h in
theorem entries (operands : List Value) : (entries operands).InTandem bond := by
  fun_induction Operands.entries operands with
  | case1 => exact .pure []
  | case2 name value rest ih => exact ih.bind fun _ ↦ .pure _
  | case3 => exact .fail _

omit h in
theorem classes (operands : List Value) : (classes operands).InTandem bond := by
  fun_induction Operands.classes operands with
  | case1 => exact .pure []
  | case2 reference rest ih => exact ih.bind fun _ ↦ .pure _
  | case3 => exact .fail _

end Operands

section Operations

theorem value (operation : ValueOperation) (operands : List Value) :
    (operation.execute operands).InTandem bond := by
  unfold ValueOperation.execute
  split
  case h_4 | h_5 => exact h.readHeap.bind fun _ ↦ .pure _
  case h_11 => exact .fail _
  all_goals exact .pure _

theorem functionOperation (operation : FunctionOperation) (operands : List Value) :
    (operation.execute operands).InTandem bond := by
  unfold FunctionOperation.execute
  split
  case h_3 => exact (call _ _ _).bind fun _ ↦ .pure _
  case h_4 | h_7 => exact .pure _
  case h_8 => exact .fail _
  all_goals exact h.readHeap.bind fun _ ↦ .pure _

theorem object (operation : ObjectOperation) (operands : List Value) :
    (operation.execute operands).InTandem bond := by
  unfold ObjectOperation.execute
  split
  case h_1 | h_2 => exact (h.allocate _ _).bind fun _ ↦ .pure _
  case h_3 =>
    exact (entries _).bind fun _ ↦ (h.allocate _ _).bind fun _ ↦
      (h.changeHeap fun heap ↦ .defineAll heap _ _).bind fun _ ↦ .pure _
  case h_4 =>
    exact (h.takeProperty _ _).bind fun _ ↦ (h.define _ _ _).bind fun _ ↦ .pure _
  case h_8 =>
    refine (h.ask _).bind fun found ↦ ?_
    cases found with
    | none => exact .pure _
    | some property => exact (h.define _ _ _).bind fun _ ↦ .pure _
  case h_13 | h_14 => exact (h.memberRead _ _ _).bind fun _ ↦ .pure _
  case h_15 => exact (h.memberSet _ _ _).bind fun _ ↦ .pure _
  case h_19 => exact (h.changeHeap fun heap ↦ .copyNames _ _ _ heap).bind fun _ ↦ .pure _
  case h_20 => exact .fail _
  all_goals exact h.readHeap.bind fun _ ↦ .pure _

theorem binding (operation : BindingOperation) (operands : List Value) :
    (operation.execute operands).InTandem bond := by
  unfold BindingOperation.execute
  split
  case h_1 => exact (h.changeHeap fun heap ↦ .bindLazily heap _ _ _ _).bind fun _ ↦ .pure _
  case h_2 => exact (h.installAll _ _).bind fun _ ↦ .pure _
  case h_3 =>
    exact (h.create fun heap ↦ .addCell heap _).bind fun cell ↦
      (h.modifyNames fun globals cellNames genericNames ↦
        (globals, cellNames.insert _ cell, genericNames)).bind fun _ ↦ .pure _
  case h_4 => exact (h.cellNamed _).bind fun _ ↦ (h.force _).bind fun _ ↦ .pure _
  case h_5 | h_6 => exact (h.cellNamed _).bind fun _ ↦ (h.cell _).bind fun _ ↦ .pure _
  case h_7 => exact .fail _

theorem type (operation : ClassOperation) (operands : List Value) :
    (operation.execute operands).InTandem bond := by
  unfold ClassOperation.execute
  split
  case h_1 =>
    exact (takeClass _ _).bind fun _ ↦ (takeFunction _ _).bind fun _ ↦
      (h.takeSlots _ _).bind fun _ ↦ (h.takeSlots _ _).bind fun _ ↦
        (h.takeSlots _ _).bind fun _ ↦ (h.make _).bind fun _ ↦ .pure _
  case h_4 | h_5 | h_6 => exact (h.classRecord _).bind fun _ ↦ .pure _
  case h_7 => exact (h.allocateInstance _).bind fun _ ↦ .pure _
  case h_8 => exact (h.constructInstance _ _).bind fun _ ↦ .pure _
  case h_9 => exact (h.runWithin _ _ _ _).bind fun _ ↦ .pure _
  case h_11 => exact (h.nameConstructor _ _).bind fun _ ↦ .pure _
  case h_12 => exact (classes _).bind fun _ ↦ (h.compose _ _).bind fun _ ↦ .pure _
  case h_13 => exact .fail _
  all_goals exact h.readHeap.bind fun _ ↦ .pure _

theorem generic (operation : GenericOperation) (operands : List Value) :
    (operation.execute operands).InTandem bond := by
  unfold GenericOperation.execute
  split
  case h_1 =>
    exact (h.genericMake _).bind fun generic ↦
      (h.modifyNames fun globals cellNames genericNames ↦
        (globals, cellNames, genericNames.insert _ generic)).bind fun _ ↦ .pure _
  case h_2 =>
    exact (h.genericNamed _).bind fun _ ↦ (h.genericRecord _).bind fun _ ↦
      h.readHeap.bind fun _ ↦ .pure _
  case h_3 | h_4 =>
    exact (h.genericNamed _).bind fun _ ↦ (h.genericRecord _).bind fun _ ↦ .pure _
  case h_5 => exact (h.genericNamed _).bind fun _ ↦ (h.toFunction _).bind fun _ ↦ .pure _
  case h_6 => exact (h.genericNamed _).bind fun _ ↦ (h.instantiate _ _).bind fun _ ↦ .pure _
  case h_7 => exact (h.genericNamed _).bind fun _ ↦ h.readHeap.bind fun _ ↦ .pure _
  case h_8 => exact (h.genericMake _).bind fun _ ↦ (h.toFunction _).bind fun _ ↦ .pure _
  case h_9 => exact .fail _

theorem map (operation : MapOperation) (operands : List Value) :
    (operation.execute operands).InTandem bond := by
  unfold MapOperation.execute
  split
  case h_1 => exact (h.mapMake _).bind fun _ ↦ .pure _
  case h_2 source =>
    have hread : (LinkedMap.ofObject source).InTandem bond :=
      h.readHeap.bind fun _ ↦ (h.readProperties source _ _).bind h.mapMake
    exact hread.bind fun _ ↦ .pure _
  case h_3 => exact .fail _

/-- Installing a configuration makes its realm the current one, if there is a configuration. -/
theorem install (realm : RealmId) (source : ConfigSource) (oracle : TypeOracle) :
    (RealmOperation.execute realm (.install source oracle) []).InTandem bond := by
  simp only [RealmOperation.execute]
  cases source.config with
  | ok config =>
    exact Run.InTandem.bind (fun _ _ _ hpair ↦ .ended (h.addRealm config oracle hpair) rfl)
      fun _ ↦ .pure _
  | error _ => exact .pure _

/-- What is asked of a realm goes in tandem, a dispatch when it does so itself. -/
theorem realmOperation {realm : RealmId} {operation : RealmOperation} {operands : List Value}
    (hinvoke : ∀ receiver site arguments,
      (Operation.realm operation).dispatch? operands = some (receiver, site, arguments) →
        (Dispatch.invoke realm receiver site arguments).InTandem bond) :
    (operation.execute realm operands).InTandem bond := by
  unfold RealmOperation.execute
  split
  case h_1 => exact .pure _
  case h_2 source oracle => exact h.install realm source oracle
  case h_3 kind prototype =>
    exact Run.InTandem.bind
      (fun _ _ _ hpair ↦ .ended (h.setPrimitivePrototype realm kind prototype hpair) rfl)
      fun _ ↦ .pure _
  case h_4 => exact (h.hasMember _ _ _).bind fun _ ↦ .pure _
  case h_5 => exact (h.getMember _ _ _).bind fun _ ↦ .pure _
  case h_6 value type => exact (h.typeTest realm value type).1.bind fun _ ↦ .pure _
  case h_7 value type => exact (h.typeTest realm value type).2.1.bind fun _ ↦ .pure _
  case h_8 type => exact (h.typeTest realm type type).2.2.bind fun _ ↦ .pure _
  case h_9 => exact (h.dynamicGet _ _ _).bind fun _ ↦ .pure _
  case h_16 => exact h.realm_bind (fun _ ↦ .pure _) fun _ ↦ rfl
  case h_17 => exact (h.equals _ _ _).bind fun _ ↦ .pure _
  case h_18 value =>
    have hnotNull : (Dispatch.notNull value).InTandem bond := by
      unfold Dispatch.notNull
      split
      · exact .fail _
      · exact .pure _
    exact hnotNull.bind fun _ ↦ .pure _
  case h_19 condition =>
    have hassert : (Dispatch.assertTruthy condition).InTandem bond := by
      unfold Dispatch.assertTruthy
      split
      · exact .pure _
      · exact .fail _
    exact hassert.bind fun _ ↦ .pure _
  case h_20 => exact (h.arity _ _).bind fun _ ↦ .pure _
  case h_21 => exact .fail _
  all_goals exact (hinvoke _ _ _ rfl).bind fun _ ↦ .pure _

theorem control (operation : ControlOperation) (operands : List Value) :
    (operation.execute operands).InTandem bond := by
  unfold ControlOperation.execute
  split
  case h_2 value => exact (h.recordPlain (by rfl)).bind fun _ ↦ .pure _
  case h_3 name =>
    refine h.get_bind (fun state ↦ ?_) fun left right hsame ↦ by rw [hsame.globals]
    cases state.globals.find? name with
    | none => exact .fail _
    | some value => exact .pure _
  case h_4 name value =>
    exact (h.modifyNames fun globals cellNames genericNames ↦
      (globals.insert name value, cellNames, genericNames)).bind fun _ ↦ .pure _
  case h_7 | h_8 => exact h.readHeap.bind fun _ ↦ .pure _
  case h_9 => exact .fail _
  all_goals exact .pure _

/-- Every operation goes in tandem, one that is a dispatch when the dispatch does. -/
theorem execute {realm : RealmId} {operation : Operation} {operands : List Value}
    (hinvoke : ∀ receiver site arguments,
      operation.dispatch? operands = some (receiver, site, arguments) →
        (Dispatch.invoke realm receiver site arguments).InTandem bond) :
    (operation.execute realm operands).InTandem bond := by
  refine (h.ask _).bind fun known ↦ ?_
  cases known with
  | false => exact .fail _
  | true =>
    cases operation with
    | value operation => exact h.value operation operands
    | function operation => exact h.functionOperation operation operands
    | object operation => exact h.object operation operands
    | binding operation => exact h.binding operation operands
    | type operation => exact h.type operation operands
    | generic operation => exact h.generic operation operands
    | map operation => exact h.map operation operands
    | realm operation => exact h.realmOperation hinvoke
    | control operation => exact h.control operation operands

end Operations

end Bond.Lawful

end GradualRuntime
