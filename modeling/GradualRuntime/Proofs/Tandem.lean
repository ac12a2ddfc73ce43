import GradualRuntime.Proofs.Instantiate
import GradualRuntime.Proofs.Force

/-!
# Runs in tandem

Two runs go in tandem (`Progress.Tandem`) when they make the same moves: they end together, give
control to a body together and ask for the same calls, and at each of these points their states
belong together. Which states do so is said by a bond, and nothing is assumed about what happens
while the runs wait, except that the states in which they are resumed belong together again. A bond
may depend on a world, which is chosen anew whenever the runs are resumed; so a bond can also speak
of what a run has done since then.

A bond on which the rules of the library can rely is lawful (`Bond.Lawful`): its states resemble one
another in all that rules read (`State.Resembles`), and it is kept by what rules do to states. The
three things that rules announce with an event of their own are listed apart, since bonds may count
these events. A bond that no change of the heap breaks is free (`Bond.Free`), and lawful for that
reason (`Bond.Free.lawful`).
-/

set_option autoImplicit false

namespace GradualRuntime

section Definitions

/-- A configuration without its flag that says whether dispatches are traced. -/
def Config.untraced (config : Config) : Config := { config with traceDispatch := false }

/-- A realm without the flag of its configuration. -/
def Realm.untraced (realm : Realm) : Realm := { realm with config := realm.config.untraced }

/-- Two states are the same in all that the rules of the library and bodies read. -/
structure State.Resembles (left right : State) : Prop where
  heap : right.heap = left.heap
  current : right.current = left.current
  globals : right.globals = left.globals
  cellNames : right.cellNames = left.cellNames
  genericNames : right.genericNames = left.genericNames
  realm : ∀ reference, (right.realm reference).untraced = (left.realm reference).untraced

/-- From one heap to another no class has been made and no generic type made or changed. -/
structure Heap.Plain (before after : Heap) : Prop where
  classes : after.classes = before.classes
  generics : after.generics = before.generics
  objects : before.objects.size ≤ after.objects.size

/-- Whether an event reports a dispatch. -/
def Event.isDispatch : Event → Bool
  | .dispatched .. => true
  | _ => false

/-- Whether an entry of the trace reports a dispatch. -/
def TraceEntry.isDispatch : TraceEntry → Bool
  | .emitted event => event.isDispatch
  | _ => false

/-- Whether an entry of the trace is neither a report of a dispatch, nor of a composition, nor of an
instantiation that is new. -/
def TraceEntry.isPlain : TraceEntry → Bool
  | .emitted (.dispatched ..) | .emitted (.mixinComposed ..) | .emitted (.typeInstantiated ..) =>
    false
  | _ => true

/-- Which states of two runs belong together in a world. -/
abbrev Bond (World : Type) : Type := World → State → State → Prop

/-- Two computations make the same moves, end with outcomes that agree, and pass through states that
belong together. -/
inductive Progress.Tandem {World : Type} (bond : Bond World) {α : Type}
    (agree : Except Fault α → Except Fault α → Prop) : World → Progress α → Progress α → Prop where
  | ended {world : World} {outcome other : Except Fault α} {left right : State}
    (pair : bond world left right) (same : agree outcome other) :
    Tandem bond agree world (.ended outcome left) (.ended other right)
  | paused {world : World} {left right : State} {resume other : State → Progress α}
    (pair : bond world left right)
    (rest : ∀ next later last, bond next later last →
      Tandem bond agree next (resume later) (other last)) :
    Tandem bond agree world (.paused left resume) (.paused right other)
  | calling {world : World} {call : Call} {left right : State}
    {resume other : Except Fault Value → State → Progress α} (pair : bond world left right)
    (rest : ∀ outcome next later last, bond next later last →
      Tandem bond agree next (resume outcome later) (other outcome last)) :
    Tandem bond agree world (.calling call left resume) (.calling call right other)

/-- A run from states that belong together goes in tandem with itself. -/
def Run.InTandem {World : Type} (bond : Bond World) {α : Type} (action : Run α) : Prop :=
  ∀ world left right, bond world left right →
    Progress.Tandem bond Eq world (action left) (action right)

/-- States that belong together resemble one another. -/
structure Bond.Resembling {World : Type} (bond : Bond World) : Prop where
  resembles : ∀ {world left right}, bond world left right → left.Resembles right

/-- The rules of the library can rely on a bond. -/
structure Bond.Lawful {World : Type} (bond : Bond World) : Prop extends Bond.Resembling bond where
  heap : ∀ {world left right} heap, bond world left right → left.heap.Plain heap →
    bond world { left with heap := heap } { right with heap := heap }
  addClass : ∀ {world left right} record, bond world left right → record.composition = none →
    record.statics.index < left.heap.objects.size →
      bond world { left with heap := left.heap.addClass record }
        { right with heap := left.heap.addClass record }
  addGeneric : ∀ {world left right} constructorFunction, bond world left right →
    bond world { left with heap := left.heap.addGeneric ⟨constructorFunction, .empty⟩ }
      { right with heap := left.heap.addGeneric ⟨constructorFunction, .empty⟩ }
  function : ∀ {world left right} signature procedure, bond world left right →
    bond world
      { left with
        heap := left.heap.addFunction signature
        procedures := left.procedures.push procedure }
      { right with
        heap := left.heap.addFunction signature
        procedures := right.procedures.push procedure }
  names : ∀ {world left right} globals cellNames genericNames, bond world left right →
    bond world
      { left with globals := globals, cellNames := cellNames, genericNames := genericNames }
      { right with globals := globals, cellNames := cellNames, genericNames := genericNames }
  addRealm : ∀ {world left right} config oracle, bond world left right →
    bond world
      { left with
        realms := left.realms.push (.new config oracle)
        current := ⟨left.realms.size⟩ }
      { right with
        realms := right.realms.push (.new config oracle)
        current := ⟨right.realms.size⟩ }
  setPrimitivePrototype : ∀ {world left right} (reference : RealmId) kind prototype,
    bond world left right →
      bond world
        { left with
          realms := left.realms.modify reference.index fun record ↦
            { record with
              primitivePrototypes := record.primitivePrototypes.insert kind prototype } }
        { right with
          realms := right.realms.modify reference.index fun record ↦
            { record with
              primitivePrototypes := record.primitivePrototypes.insert kind prototype } }
  record : ∀ {world left right} entry, bond world left right → entry.isPlain = true →
    bond world (left.record entry) (right.record entry)
  compose : ∀ base sources, Run.InTandem bond (Mixin.compose base sources)
  construct : ∀ {world left right generic record arguments} name result, bond world left right →
    left.heap.generic? generic = some record →
      record.cache.find? (GenericType.key arguments) = none →
        bond world
          ((left.record (.emitted (.typeInstantiated generic name arguments.length))).construct
            generic arguments result)
          ((right.record (.emitted (.typeInstantiated generic name arguments.length))).construct
            generic arguments result)

/-- A bond that no change of the heap breaks, and no entry of the trace but reports of
dispatches. -/
structure Bond.Free {World : Type} (bond : Bond World) : Prop extends Bond.Resembling bond where
  heap : ∀ {world left right} heap, bond world left right →
    bond world { left with heap := heap } { right with heap := heap }
  function : ∀ {world left right} procedure, bond world left right →
    bond world { left with procedures := left.procedures.push procedure }
      { right with procedures := right.procedures.push procedure }
  names : ∀ {world left right} globals cellNames genericNames, bond world left right →
    bond world
      { left with globals := globals, cellNames := cellNames, genericNames := genericNames }
      { right with globals := globals, cellNames := cellNames, genericNames := genericNames }
  addRealm : ∀ {world left right} config oracle, bond world left right →
    bond world
      { left with
        realms := left.realms.push (.new config oracle)
        current := ⟨left.realms.size⟩ }
      { right with
        realms := right.realms.push (.new config oracle)
        current := ⟨right.realms.size⟩ }
  setPrimitivePrototype : ∀ {world left right} (reference : RealmId) kind prototype,
    bond world left right →
      bond world
        { left with
          realms := left.realms.modify reference.index fun record ↦
            { record with
              primitivePrototypes := record.primitivePrototypes.insert kind prototype } }
        { right with
          realms := right.realms.modify reference.index fun record ↦
            { record with
              primitivePrototypes := record.primitivePrototypes.insert kind prototype } }
  record : ∀ {world left right} entry, bond world left right → entry.isDispatch = false →
    bond world (left.record entry) (right.record entry)

end Definitions

namespace Progress.Tandem

variable {World α β : Type} {bond : Bond World} {agree : Except Fault α → Except Fault α → Prop}
  {world : World} {progress other : Progress α}

/-- At every point the states belong together. -/
theorem pair (h : Tandem bond agree world progress other) :
    bond world progress.state other.state := by
  cases h with
  | ended pair _ | paused pair _ | calling pair _ => exact pair

theorem andThen {last : Except Fault β → Except Fault β → Prop}
    (h : Tandem bond agree world progress other)
    {next following : Except Fault α → State → Progress β}
    (hnext : ∀ outcome result world left right, agree outcome result → bond world left right →
      Tandem bond last world (next outcome left) (following result right)) :
    Tandem bond last world (progress.andThen next) (other.andThen following) := by
  induction h with
  | ended pair same => exact hnext _ _ _ _ _ same pair
  | paused pair _ ih => exact .paused pair ih
  | calling pair _ ih => exact .calling pair ih

/-- Computations whose outcomes agree in one sense go in tandem in a weaker sense. -/
theorem mono {weaker : Except Fault α → Except Fault α → Prop}
    (h : Tandem bond agree world progress other)
    (hweaker : ∀ outcome result, agree outcome result → weaker outcome result) :
    Tandem bond weaker world progress other := by
  induction h with
  | ended pair same => exact .ended pair (hweaker _ _ same)
  | paused pair _ ih => exact .paused pair ih
  | calling pair _ ih => exact .calling pair ih

end Progress.Tandem

namespace Heap.Plain

variable {before after last heap : Heap}

theorem refl (heap : Heap) : heap.Plain heap := ⟨rfl, rfl, Nat.le_refl _⟩

theorem trans (h : before.Plain after) (hnext : after.Plain last) : before.Plain last :=
  ⟨hnext.classes.trans h.classes, hnext.generics.trans h.generics,
    Nat.le_trans h.objects hnext.objects⟩

theorem addCell (heap : Heap) (cell : LazyCell) : heap.Plain (heap.addCell cell) :=
  ⟨rfl, rfl, Nat.le_refl _⟩

theorem setCellState (heap : Heap) (cell : CellId) (state : CellState) :
    heap.Plain (heap.setCellState cell state) := ⟨rfl, rfl, Nat.le_refl _⟩

theorem writeEntry (heap : Heap) (table : TableId) (key value : Value) :
    heap.Plain (heap.writeEntry table key value) := ⟨rfl, rfl, Nat.le_refl _⟩

theorem define (heap : Heap) (object : ObjectId) (name : String) (property : Property) :
    heap.Plain (heap.define object name property) :=
  ⟨rfl, rfl, by simp [Heap.define]⟩

theorem addObject (heap : Heap) (object : Object) : heap.Plain (heap.addObject object) :=
  ⟨rfl, rfl, by simp [Heap.addObject]⟩

theorem defineAll (heap : Heap) (object : ObjectId) (entries : List (String × Property)) :
    heap.Plain (heap.defineAll object entries) := by
  induction entries generalizing heap with
  | nil => exact refl heap
  | cons entry rest ih => exact (define heap object entry.1 entry.2).trans (ih _)

theorem copyNames (target source : ObjectId) (names : List String) (heap : Heap) :
    heap.Plain (heap.copyNames target source names) := by
  induction names generalizing heap with
  | nil => exact refl heap
  | cons name rest ih =>
    rw [Heap.copyNames, List.foldl_cons]
    cases heap.own? source name with
    | none => exact ih heap
    | some property => exact (define heap target name property).trans (ih _)

theorem overlay (prototype : ObjectId) (sources : List ObjectId) (heap : Heap) :
    heap.Plain (Mixin.overlay prototype sources heap) := by
  induction sources generalizing heap with
  | nil => exact refl heap
  | cons source rest ih => exact (copyNames prototype source _ heap).trans (ih _)

theorem bindLazily (heap : Heap) (target : ObjectId) (name : String) (initializer : FunctionId)
    (isMutable : Bool) : heap.Plain (heap.bindLazily target name initializer isMutable) :=
  (addCell heap ⟨name, isMutable, .uninitialized initializer⟩).trans (define _ target name _)

theorem bindNames (target source : ObjectId) (names : List String) (heap : Heap) :
    heap.Plain (Heap.bindNames target source names heap).2 := by
  induction names generalizing heap with
  | nil => exact refl heap
  | cons name rest ih =>
    rw [Heap.bindNames]
    cases (heap.own? source name).bind Property.initializer? with
    | none => exact refl heap
    | some pair => exact (bindLazily heap target name pair.1 pair.2).trans (ih _)

end Heap.Plain

namespace Run.InTandem

variable {World α β : Type} {bond : Bond World}

theorem pure (result : α) : InTandem bond (Pure.pure result : Run α) :=
  fun _ _ _ hpair ↦ .ended hpair rfl

theorem fail (fault : Fault) : InTandem bond (Run.fail fault : Run α) :=
  fun _ _ _ hpair ↦ .ended hpair rfl

theorem bind {action : Run α} {next : α → Run β} (haction : action.InTandem bond)
    (hnext : ∀ result, (next result).InTandem bond) : (action >>= next).InTandem bond := by
  intro world left right hpair
  refine (haction world left right hpair).andThen ?_
  rintro (fault | result) _ world left right rfl hpair
  · exact .ended hpair rfl
  · exact hnext result world left right hpair

theorem map {action : Run α} (change : α → β) (haction : action.InTandem bond) :
    (change <$> action).InTandem bond := haction.bind fun result ↦ .pure (change result)

theorem onFault {action : Run α} {react : Fault → Run Unit} (haction : action.InTandem bond)
    (hreact : ∀ fault, (react fault).InTandem bond) : (Run.onFault action react).InTandem bond := by
  intro world left right hpair
  refine (haction world left right hpair).andThen ?_
  rintro (fault | result) _ world left right rfl hpair
  · exact (hreact fault).bind (fun _ ↦ .fail fault) world left right hpair
  · exact .ended hpair rfl

theorem request (call : Call) : (Run.request call).InTandem bond :=
  fun _ _ _ hpair ↦ .calling hpair fun _ _ _ _ hlater ↦ .ended hlater rfl

theorem call (function : FunctionId) (this : Value) (arguments : List Value) :
    (Run.call function this arguments).InTandem bond := request _

theorem forM {action : α → Run Unit} (haction : ∀ item, (action item).InTandem bond)
    (items : List α) : (items.forM action).InTandem bond := by
  induction items with
  | nil => exact pure ()
  | cons item rest ih => exact (haction item).bind fun _ ↦ ih

theorem mapM {action : α → Run β} (haction : ∀ item, (action item).InTandem bond)
    (items : List α) : (items.mapM action).InTandem bond := by
  induction items with
  | nil => exact pure []
  | cons item rest ih =>
    rw [List.mapM_cons]
    exact (haction item).bind fun _ ↦ ih.bind fun _ ↦ .pure _

end Run.InTandem

namespace Bond.Resembling

variable {World α : Type} {bond : Bond World} (h : bond.Resembling)

include h

theorem readHeap : Run.heap.InTandem bond :=
  fun _ _ _ hpair ↦ .ended hpair (congrArg Except.ok (h.resembles hpair).heap.symm)

theorem ask (question : Heap → α) : (Run.ask question).InTandem bond :=
  fun _ _ _ hpair ↦
    .ended hpair (congrArg (fun heap ↦ Except.ok (question heap)) (h.resembles hpair).heap.symm)

theorem classRecord (reference : ClassId) : (Run.classRecord reference).InTandem bond := by
  refine h.readHeap.bind fun current ↦ ?_
  cases current.class? reference with
  | none => exact .fail _
  | some record => exact .pure record

/-- What follows a look at a realm may depend on all of it but its flag. -/
theorem realm_bind {reference : RealmId} {next : Realm → Run α}
    (hnext : ∀ record, (next record).InTandem bond)
    (hsame : ∀ record, next record = next record.untraced) :
    (Run.realm reference >>= next).InTandem bond := by
  intro world left right hpair
  have hrealm := (h.resembles hpair).realm reference
  change Progress.Tandem bond Eq world (next (left.realm reference) left)
    (next (right.realm reference) right)
  rw [hsame (right.realm reference), hrealm, ← hsame]
  exact hnext _ world left right hpair

/-- What follows a look at the state may depend on what states that belong together have in
common. -/
theorem get_bind {next : State → Run α} (hnext : ∀ state, (next state).InTandem bond)
    (hsame : ∀ left right : State, left.Resembles right → next right = next left) :
    (get >>= next).InTandem bond := by
  intro world left right hpair
  change Progress.Tandem bond Eq world (next left left) (next right right)
  rw [hsame left right (h.resembles hpair)]
  exact hnext left world left right hpair

section Changes

variable (change : Heap → Heap) (hchange : ∀ world left right, bond world left right →
  bond world { left with heap := change left.heap } { right with heap := change left.heap })

include hchange

theorem changeHeap : (Run.changeHeap change).InTandem bond := by
  intro world left right hpair
  simp only [Run.changeHeap_apply, (h.resembles hpair).heap]
  exact .ended (hchange _ _ _ hpair) rfl

theorem create (next : Heap → α) : (Run.create next change).InTandem bond := by
  intro world left right hpair
  simp only [Run.create_apply, (h.resembles hpair).heap]
  exact .ended (hchange _ _ _ hpair) rfl

end Changes

theorem allocate (prototype : Option ObjectId) (tag : Option String)
    (hadd : ∀ world left right, bond world left right →
      bond world { left with heap := left.heap.addObject ⟨prototype, tag, .empty⟩ }
        { right with heap := left.heap.addObject ⟨prototype, tag, .empty⟩ }) :
    (Run.allocate prototype tag).InTandem bond := by
  refine (h.ask _).bind fun known ↦ ?_
  cases known with
  | false => exact .fail _
  | true => exact h.create (fun heap ↦ heap.addObject ⟨prototype, tag, .empty⟩) hadd _

end Bond.Resembling

/-- A bond of states that are the same but for their traces is free when it is about the traces
only, and about reports of dispatches in them: nothing reads the trace. -/
theorem Bond.Free.of_trace {World : Type} {bond : Bond World}
    (hsame : ∀ {world left right}, bond world left right →
      right = { left with trace := right.trace })
    (htraces : ∀ {world left right}, bond world left right → ∀ state : State,
      bond world { state with trace := left.trace } { state with trace := right.trace })
    (hrecord : ∀ {world left right} entry, bond world left right → entry.isDispatch = false →
      bond world (left.record entry) (right.record entry)) : bond.Free where
  resembles h := by
    rw [hsame h]
    exact ⟨rfl, rfl, rfl, rfl, rfl, fun _ ↦ rfl⟩
  heap {_ left _} heap h := by
    have hpair := htraces h { left with heap := heap }
    rw [hsame h]
    exact hpair
  function {_ left _} procedure h := by
    have hpair := htraces h { left with procedures := left.procedures.push procedure }
    rw [hsame h]
    exact hpair
  names {_ left _} globals cellNames genericNames h := by
    have hpair := htraces h
      { left with globals := globals, cellNames := cellNames, genericNames := genericNames }
    rw [hsame h]
    exact hpair
  addRealm {_ left _} config oracle h := by
    have hpair := htraces h
      { left with
        realms := left.realms.push (.new config oracle)
        current := ⟨left.realms.size⟩ }
    rw [hsame h]
    exact hpair
  setPrimitivePrototype {_ left _} reference kind prototype h := by
    have hpair := htraces h
      { left with
        realms := left.realms.modify reference.index fun record ↦
          { record with
            primitivePrototypes := record.primitivePrototypes.insert kind prototype } }
    rw [hsame h]
    exact hpair
  record := hrecord

/-- A bond that no change of the heap breaks is lawful. -/
theorem Bond.Free.lawful {World : Type} {bond : Bond World} (h : bond.Free) : bond.Lawful where
  toResembling := h.toResembling
  heap heap hpair _ := h.heap heap hpair
  addClass record hpair _ _ := h.heap _ hpair
  addGeneric constructorFunction hpair := h.heap _ hpair
  function signature procedure hpair := h.function procedure (h.heap _ hpair)
  names := h.names
  addRealm := h.addRealm
  setPrimitivePrototype := h.setPrimitivePrototype
  record entry hpair hplain := by
    refine h.record entry hpair ?_
    cases entry with
    | emitted event => cases event <;> first | rfl | cases hplain
    | _ => rfl
  compose base sources :=
    (h.classRecord base).bind fun _ ↦ (Run.InTandem.mapM h.classRecord sources).bind fun _ ↦
      (h.allocate _ _ fun _ _ _ ↦ h.heap _).bind fun _ ↦
        (h.changeHeap _ fun _ _ _ ↦ h.heap _).bind fun _ ↦ h.readHeap.bind fun _ ↦
          Run.InTandem.bind (fun _ _ _ hpair ↦ .ended (h.record _ hpair rfl) rfl) fun _ ↦
            (h.allocate _ _ fun _ _ _ ↦ h.heap _).bind fun _ ↦
              h.create _ (fun _ _ _ ↦ h.heap _) _
  construct := by
    intro world left right generic record arguments name result hpair hrecord hfresh
    have hsame := (h.resembles hpair).heap
    have hreported :=
      h.record (.emitted (.typeInstantiated generic name arguments.length)) hpair rfl
    simp only [State.construct, State.heap_record, hsame]
    exact h.record _ (h.heap _ hreported) rfl

end GradualRuntime
