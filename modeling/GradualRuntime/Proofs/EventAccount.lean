import GradualRuntime.Proofs.Composition
import GradualRuntime.Proofs.DispatchReports
import GradualRuntime.Proofs.Memoization
import GradualRuntime.Proofs.WellFormed
import Mathlib.Algebra.BigOperators.Group.Finset.Piecewise
import Mathlib.Algebra.BigOperators.Group.Finset.Basic

/-!
# The account of the events

The events in the trace account exactly for the state. At every moment of every run from a fresh
state there are as many events of each kind as there are things in the state that such an event
announces (`eventAccount`): lazy cells that have left their first state, cells whose initializer has
failed, instantiations in the caches of generic types, classes with composition metadata, and
dispatches that are traced and have entered their callee.

The events about cells are counted along the transitions of the ledger
(`Ledger.Transition.announces`), where the calls of initializers are. Events about mixins and
generic types are emitted inside of rules that may fail or lose against a nested call, so they are
counted along what the rules do to a state between two calls: that the counts are right
(`State.Tallied`) is a bond of a run with itself. Reports of dispatches are traced back to their
dispatches in `DispatchReports`.
-/

set_option autoImplicit false

namespace GradualRuntime

section Definitions

/-- Whether an entry of the trace is an event with a message. -/
def TraceEntry.carries (message : String) : TraceEntry → Bool
  | .emitted event => event.message == message
  | _ => false

/-- The number of events with a message. -/
def State.reported (state : State) (message : String) : Nat :=
  state.trace.countP (TraceEntry.carries message)

/-- The lazy cells that have left their first state. -/
def Heap.startedCells (heap : Heap) : Set CellId :=
  {cell | ∃ record, heap.cell? cell = some record ∧
    ∀ initializer, record.state ≠ .uninitialized initializer}

/-- The lazy cells in progress. -/
def Heap.cellsInProgress (heap : Heap) : Set CellId :=
  {cell | ∃ record, heap.cell? cell = some record ∧ record.state = .inProgress}

/-- The lazy cells whose initializer has returned a fault. -/
def State.failedCells (state : State) : Set CellId :=
  {cell | ∃ fault, .error fault ∈ state.outcomes cell}

/-- The classes with composition metadata. -/
def Heap.composedClasses (heap : Heap) : Set ClassId :=
  {reference | ∃ record, heap.class? reference = some record ∧ record.composition.isSome}

/-- The number of instantiations of all generic types. -/
def Heap.instantiationCount (heap : Heap) : Nat :=
  ∑ index ∈ Finset.range heap.generics.size, (heap.instantiations ⟨index⟩).size

/-- The events about lazy cells account for the cells. -/
structure Ledger.Announces (ledger : Ledger) : Prop where
  accounts : ∀ cell, ledger.Accounts cell
  started : ledger.state.reported "running lazy initializer" =
    ledger.state.heap.startedCells.ncard
  failed : ledger.state.reported "lazy initializer failed" = ledger.state.failedCells.ncard

/-- The events about mixins and generic types account for the classes and caches. The statics of
each class exist, so that the application of a mixin cannot fail once it has been announced. -/
structure State.Tallied (state : State) : Prop where
  statics : ∀ reference record, state.heap.class? reference = some record →
    record.statics.index < state.heap.objects.size
  composed : state.reported "composed mixin behavior table" = state.heap.composedClasses.ncard
  instantiated : state.reported "instantiated generic type" = state.heap.instantiationCount

/-- The states of a run and of the same run, with the events accounted for. -/
def tallied : Bond Unit := fun _ left right ↦ right = left ∧ left.Tallied

end Definitions

section Counting

variable {state : State} {message : String}

theorem State.reported_record (entry : TraceEntry) :
    (state.record entry).reported message =
      state.reported message + if entry.carries message then 1 else 0 :=
  List.countP_cons

theorem State.reported_record_of_carries {entry : TraceEntry} (h : entry.carries message = true) :
    (state.record entry).reported message = state.reported message + 1 := by
  rw [reported_record, if_pos h]

theorem State.reported_record_of_not_carries {entry : TraceEntry}
    (h : entry.carries message = false) :
    (state.record entry).reported message = state.reported message := by
  rw [reported_record, h]
  rfl

/-- Reports of dispatches are known by their message. -/
theorem TraceEntry.isDispatch_eq_carries (entry : TraceEntry) :
    entry.isDispatch = entry.carries "dynamic dispatch" := by
  cases entry with
  | emitted event =>
    cases event <;> simp [isDispatch, Event.isDispatch, TraceEntry.carries, Event.message]
  | _ => rfl

end Counting

section Cells

variable {before after : Ledger} {message : String}

/-- A change without a call makes no report about a cell. -/
theorem State.Change.reported_eq {may : Heap.Permission} {first last : State}
    (h : State.Change may first last)
    (hmessage : ∀ event : Event, event.cell? = none → event.message ≠ message) :
    last.reported message = first.reported message := by
  cases h with
  | logged value => exact State.reported_record_of_not_carries rfl
  | emitted event quiet =>
    exact State.reported_record_of_not_carries (beq_eq_false_iff_ne.2 (hmessage event quiet))
  | reused present => exact State.reported_record_of_not_carries rfl
  | constructed made fresh result => exact State.reported_record_of_not_carries rfl
  | _ => rfl

theorem Event.message_ne_of_quiet {event : Event} (h : event.cell? = none) :
    event.message ≠ "running lazy initializer" ∧ event.message ≠ "lazy initializer failed" := by
  cases event <;> simp_all [Event.cell?, Event.message]

/-- References with a record in an arena are finitely many. -/
theorem Arena.finite_of_get? {α Reference : Type} {arena : Arena α} {index : Reference → Nat}
    (hindex : Function.Injective index) {references : Set Reference}
    (h : ∀ reference ∈ references, ∃ record, arena.get? (index reference) = some record) :
    references.Finite := by
  refine ((Set.finite_lt_nat arena.size).preimage hindex.injOn).subset fun reference hreference ↦ ?_
  obtain ⟨record, hrecord⟩ := h reference hreference
  exact lt_of_get?_eq_some hrecord

theorem Heap.finite_startedCells (heap : Heap) : heap.startedCells.Finite :=
  Arena.finite_of_get? (fun _ _ hsame ↦ congrArg CellId.mk hsame)
    fun _ ⟨record, hrecord, _⟩ ↦ ⟨record, hrecord⟩

/-- A cell with an outcome has left its first state. -/
theorem Ledger.Accounts.mem_startedCells {ledger : Ledger} {cell : CellId}
    (h : ledger.Accounts cell) (houtcomes : ledger.state.outcomes cell ≠ []) :
    cell ∈ ledger.state.heap.startedCells := by
  have haccount := h.account
  cases hrecord : ledger.state.heap.cell? cell with
  | none =>
    rw [hrecord, Option.map_none, CellState.accounted_none_iff] at haccount
    exact absurd haccount.2 houtcomes
  | some record =>
    refine ⟨record, hrecord, fun initializer hwaiting ↦ ?_⟩
    rw [hrecord, Option.map_some, hwaiting, CellState.accounted_uninitialized_iff] at haccount
    exact houtcomes haccount.2

theorem Ledger.Announces.finite_failedCells {ledger : Ledger} (h : ledger.Announces) :
    ledger.state.failedCells.Finite := by
  refine ledger.state.heap.finite_startedCells.subset ?_
  rintro cell ⟨fault, hfault⟩
  exact (h.accounts cell).mem_startedCells (List.ne_nil_of_mem hfault)

/-- Cells whose records are the same, or that have just been made, have left their first state when
they had before. -/
theorem Heap.startedCells_eq {heap later : Heap}
    (h : ∀ cell, later.cell? cell = heap.cell? cell ∨
      heap.cell? cell = none ∧ ∃ name isMutable initializer,
        later.cell? cell = some ⟨name, isMutable, .uninitialized initializer⟩) :
    later.startedCells = heap.startedCells := by
  ext cell
  simp only [Heap.startedCells, Set.mem_ofPred_eq]
  rcases h cell with hsame | ⟨hnone, name, isMutable, initializer, hsome⟩
  · rw [hsame]
  · simp [hnone, hsome]

/-- A cell leaves its first state when its initializer is about to be called. -/
theorem State.startedCells_startCell {state : State} {cell : CellId} {record : LazyCell}
    (hrecord : state.heap.cell? cell = some record) (name : String) :
    (state.startCell cell name).heap.startedCells = insert cell state.heap.startedCells := by
  ext other
  simp only [Heap.startedCells, Set.mem_insert_iff, Set.mem_ofPred_eq]
  by_cases hother : other = cell
  · subst hother
    have hstarted : (state.startCell other name).heap.cell? other =
        some { record with state := .inProgress } :=
      Heap.cell?_setCellState_self hrecord .inProgress
    simp [hstarted]
  · have hsame : (state.startCell cell name).heap.cell? other = state.heap.cell? other :=
      state.heap.cell?_setCellState_of_ne hother .inProgress
    simp [hsame, hother]

/-- An outcome that settles a cell in progress does not bring it back to its first state. -/
theorem State.startedCells_settleCell {state : State} {cell : CellId} {record : LazyCell}
    (hrecord : state.heap.cell? cell = some record) (hprogress : record.state = .inProgress)
    (name : String) (outcome : Except Fault Value) :
    (state.settleCell cell name outcome).heap.startedCells = state.heap.startedCells := by
  cases outcome with
  | error fault => rfl
  | ok value =>
    ext other
    simp only [Heap.startedCells, Set.mem_ofPred_eq]
    by_cases hother : other = cell
    · subst hother
      have hsettled : (state.settleCell other name (.ok value)).heap.cell? other =
          some { record with state := .initialized value } :=
        Heap.cell?_setCellState_self hrecord (.initialized value)
      simp [hsettled, hrecord, hprogress]
    · rw [State.cell?_settleCell_of_ne state cell name hother]

theorem State.failedCells_eq {state later : State}
    (h : ∀ cell, later.outcomes cell = state.outcomes cell) :
    later.failedCells = state.failedCells := by
  simp only [State.failedCells, h]

/-- The outcome of its initializer is the first of a cell that is being initialized. -/
theorem Ledger.Announces.settle {call : Call} {entered : List Call} {state : State} {cell : CellId}
    (h : Announces ⟨none, call :: entered, state⟩) (hpurpose : call.purpose = .initializing cell)
    (outcome : Except Fault Value) (name : String) :
    let settled := (state.record (.returned call outcome)).settleCell cell name outcome
    settled.reported "running lazy initializer" = settled.heap.startedCells.ncard ∧
      settled.reported "lazy initializer failed" = settled.failedCells.ncard := by
  intro settled
  have hmine : call.initializes cell = true := Call.initializes_iff.2 hpurpose
  have haccount := (h.accounts cell).account
  rw [running_cons_of_initializes hmine] at haccount
  obtain ⟨hprogress, -, houtcomes⟩ := haccount.eq_inProgress (Nat.succ_pos _)
  obtain ⟨record, hrecord, hstate⟩ := Option.map_eq_some_iff.1 hprogress
  have hrecorded : (state.record (.returned call outcome)).heap.cell? cell = some record := hrecord
  have hstarted : settled.heap.startedCells = state.heap.startedCells :=
    State.startedCells_settleCell hrecorded hstate name outcome
  have hfirst : settled.outcomes cell = [outcome] := by
    have hsome : (TraceEntry.returned call outcome).outcome? cell = some outcome := by
      simp [TraceEntry.outcome?, hpurpose]
    rw [State.outcomes_settleCell, State.outcomes_record_of_eq_some state hsome, houtcomes]
  have hothers : ∀ other, other ≠ cell → settled.outcomes other = state.outcomes other := by
    intro other hother
    have hnone : (TraceEntry.returned call outcome).outcome? other = none := by
      simp [TraceEntry.outcome?, hpurpose, Ne.symm hother]
    rw [State.outcomes_settleCell, State.outcomes_record_of_eq_none state hnone]
  rw [hstarted, ← h.started]
  cases outcome with
  | ok value =>
    refine ⟨rfl, ?_⟩
    have hfailed : settled.failedCells = state.failedCells := by
      ext other
      simp only [State.failedCells, Set.mem_ofPred_eq]
      by_cases hother : other = cell
      · subst hother
        simp [hfirst, houtcomes]
      · rw [hothers other hother]
    rw [hfailed, ← h.failed]
    rfl
  | error fault =>
    refine ⟨rfl, ?_⟩
    have hfailed : settled.failedCells = insert cell state.failedCells := by
      ext other
      simp only [State.failedCells, Set.mem_insert_iff, Set.mem_ofPred_eq]
      by_cases hother : other = cell
      · subst hother
        simp [hfirst]
      · simp [hothers other hother, hother]
    have hnew : cell ∉ state.failedCells := by
      rintro ⟨other, hfault⟩
      simp [houtcomes] at hfault
    rw [hfailed, Set.ncard_insert_of_notMem hnew h.finite_failedCells, ← h.failed]
    exact State.reported_record_of_carries rfl

/-- Every transition keeps the events about cells accounted for. -/
theorem Ledger.Transition.announces (h : Transition before after) (hannounces : before.Announces) :
    after.Announces := by
  have haccounts : ∀ cell, after.Accounts cell := fun cell ↦ h.accounts (hannounces.accounts cell)
  have hstarted := hannounces.started
  have hfailed := hannounces.failed
  cases h with
  | change change =>
    refine ⟨haccounts, ?_, ?_⟩
    · rw [change.reported_eq fun event hquiet ↦ (Event.message_ne_of_quiet hquiet).1,
        Heap.startedCells_eq change.cell?]
      exact hstarted
    · rw [change.reported_eq fun event hquiet ↦ (Event.message_ne_of_quiet hquiet).2,
        State.failedCells_eq fun cell ↦ change.outcomes_eq]
      exact hfailed
  | request entered state function this arguments => exact ⟨haccounts, hstarted, hfailed⟩
  | @start entered state cell record function present waiting =>
    refine ⟨haccounts, ?_, ?_⟩
    · have hnew : cell ∉ state.heap.startedCells := by
        rintro ⟨other, hother, hleft⟩
        obtain rfl : record = other := Option.some.inj (present.symm.trans hother)
        exact hleft function waiting
      rw [State.startedCells_startCell present,
        Set.ncard_insert_of_notMem hnew state.heap.finite_startedCells, ← hstarted]
      exact State.reported_record_of_carries rfl
    · rw [State.failedCells_eq fun other ↦ State.outcomes_startCell state cell record.name other]
      exact hfailed
  | enter call entered state => exact ⟨haccounts, hstarted, hfailed⟩
  | @leave call entered state outcome purpose =>
    refine ⟨haccounts, hstarted, ?_⟩
    rw [State.failedCells_eq fun cell ↦ State.outcomes_record_of_eq_none state (by
      simp [TraceEntry.outcome?, Call.initializes_eq_false_of_plain purpose])]
    exact hfailed
  | settle entered state outcome name purpose =>
    obtain ⟨hstarted, hfailed⟩ := hannounces.settle purpose outcome name
    exact ⟨haccounts, hstarted, hfailed⟩

theorem Ledger.announces_fresh (realm : Realm) : Announces ⟨none, [], .fresh realm⟩ where
  accounts := accounts_fresh realm
  started := by
    have hnone : (State.fresh realm).heap.startedCells = ∅ :=
      Set.eq_empty_iff_forall_notMem.2 fun cell ⟨_, hrecord, _⟩ ↦ by cases hrecord
    rw [hnone, Set.ncard_empty]
    rfl
  failed := by
    have hnone : (State.fresh realm).failedCells = ∅ :=
      Set.eq_empty_iff_forall_notMem.2 fun cell ⟨_, hfault⟩ ↦ by cases hfault
    rw [hnone, Set.ncard_empty]
    rfl

theorem Ledger.Transitions.announces (h : Transitions before after)
    (hannounces : before.Announces) : after.Announces := by
  induction h with
  | refl => exact hannounces
  | tail _ hlast ih => exact hlast.announces ih

theorem Session.announces_moment (bodies : List Body) (realm : Realm) (index : Nat) :
    (moment bodies (.fresh realm) index).ledger.Announces :=
  (transitions_moment bodies _ (Nat.zero_le index)).announces (Ledger.announces_fresh realm)

end Cells

section Heaps

variable {heap later : Heap}

theorem Heap.class?_addClass_eq_some_iff {reference : ClassId} {added record : Class} :
    (heap.addClass added).class? reference = some record ↔
      heap.class? reference = some record ∨ reference = heap.nextClass ∧ record = added := by
  constructor
  · intro h
    by_cases hlt : reference.index < heap.classes.size
    · exact .inl ((class?_addClass_of_lt hlt added).symm.trans h)
    · have hbound : reference.index < heap.classes.size + 1 := by
        simpa [addClass] using lt_of_class?_eq_some h
      obtain rfl : reference = heap.nextClass := congrArg ClassId.mk (by omega)
      exact .inr ⟨rfl, Option.some.inj (h.symm.trans (class?_addClass_self heap added))⟩
  · rintro (h | ⟨rfl, rfl⟩)
    · exact (class?_addClass_of_lt (lt_of_class?_eq_some h) added).trans h
    · exact class?_addClass_self heap record

theorem Heap.composedClasses_congr (h : later.classes = heap.classes) :
    later.composedClasses = heap.composedClasses := by
  simp only [composedClasses, class?, h]

theorem Heap.instantiationCount_congr (h : later.generics = heap.generics) :
    later.instantiationCount = heap.instantiationCount := by
  simp only [instantiationCount, instantiations, generic?, h]

theorem Heap.finite_composedClasses (heap : Heap) : heap.composedClasses.Finite :=
  Arena.finite_of_get? (fun _ _ hsame ↦ congrArg ClassId.mk hsame)
    fun _ ⟨record, hrecord, _⟩ ↦ ⟨record, hrecord⟩

/-- A class without composition metadata does not count. -/
theorem Heap.composedClasses_addClass_of_none (heap : Heap) {record : Class}
    (h : record.composition = none) :
    (heap.addClass record).composedClasses = heap.composedClasses := by
  ext reference
  simp only [composedClasses, Set.mem_ofPred_eq, class?_addClass_eq_some_iff]
  constructor
  · rintro ⟨found, hfound | ⟨rfl, rfl⟩, hcomposition⟩
    · exact ⟨found, hfound, hcomposition⟩
    · simp [h] at hcomposition
  · rintro ⟨found, hfound, hcomposition⟩
    exact ⟨found, .inl hfound, hcomposition⟩

theorem Heap.ncard_composedClasses_addClass (heap : Heap) {record : Class}
    (h : record.composition.isSome) :
    (heap.addClass record).composedClasses.ncard = heap.composedClasses.ncard + 1 := by
  have hinsert : (heap.addClass record).composedClasses =
      insert heap.nextClass heap.composedClasses := by
    ext reference
    simp only [composedClasses, Set.mem_ofPred_eq, Set.mem_insert_iff,
      class?_addClass_eq_some_iff]
    constructor
    · rintro ⟨found, hfound | ⟨rfl, rfl⟩, hcomposition⟩
      · exact .inr ⟨found, hfound, hcomposition⟩
      · exact .inl rfl
    · rintro (rfl | ⟨found, hfound, hcomposition⟩)
      · exact ⟨record, .inr ⟨rfl, rfl⟩, h⟩
      · exact ⟨found, .inl hfound, hcomposition⟩
  have hnew : heap.nextClass ∉ heap.composedClasses := by
    rintro ⟨found, hfound, -⟩
    exact Nat.lt_irrefl _ (lt_of_class?_eq_some hfound)
  rw [hinsert, Set.ncard_insert_of_notMem hnew heap.finite_composedClasses]

/-- A generic type is made with an empty cache. -/
theorem Heap.instantiationCount_addGeneric (heap : Heap) (constructorFunction : FunctionId) :
    (heap.addGeneric ⟨constructorFunction, .empty⟩).instantiationCount =
      heap.instantiationCount := by
  have hsize : (heap.addGeneric ⟨constructorFunction, .empty⟩).generics.size =
      heap.generics.size + 1 := Arena.size_push _ _
  have hold : ∀ index ∈ Finset.range heap.generics.size,
      ((heap.addGeneric ⟨constructorFunction, .empty⟩).instantiations ⟨index⟩).size =
        (heap.instantiations ⟨index⟩).size := by
    intro index hindex
    rw [instantiations, generic?, addGeneric, Arena.get?_push_of_lt (Finset.mem_range.1 hindex)]
    rfl
  have hnew : (heap.addGeneric ⟨constructorFunction, .empty⟩).instantiations
      ⟨heap.generics.size⟩ = .empty := by
    rw [instantiations, generic?, addGeneric, Arena.get?_push_size]
    rfl
  rw [instantiationCount, hsize, Finset.sum_range_succ, Finset.sum_congr rfl hold, hnew]
  rfl

theorem OrderedMap.size_insert_of_find?_eq_none {κ ν : Type} [DecidableEq κ]
    {map : OrderedMap κ ν} {key : κ} (h : map.find? key = none) (value : ν) :
    (map.insert key value).size = map.size + 1 := by
  have hkeys := map.keys_insert key value
  rw [contains, h, Option.isSome_none, if_neg Bool.false_ne_true] at hkeys
  simpa [keys, size] using congrArg List.length hkeys

/-- An instantiation that is filed under a new key counts once. -/
theorem Heap.instantiationCount_storeInstantiation {generic : GenericId} {record : Generic}
    (hrecord : heap.generic? generic = some record) {key : List IdentityKey}
    (hfresh : record.cache.find? key = none) (entry : Instantiation) :
    (heap.storeInstantiation generic key entry).instantiationCount =
      heap.instantiationCount + 1 := by
  have hsize : (heap.storeInstantiation generic key entry).generics.size = heap.generics.size :=
    Arena.size_modify _ _ _
  have hindex : ∀ index,
      ((heap.storeInstantiation generic key entry).instantiations ⟨index⟩).size =
        (heap.instantiations ⟨index⟩).size + if index = generic.index then 1 else 0 := by
    intro index
    by_cases hsame : index = generic.index
    · subst hsame
      rw [if_pos rfl, instantiations_storeInstantiation hrecord,
        OrderedMap.size_insert_of_find?_eq_none]
      rw [instantiations_of_some hrecord]
      exact hfresh
    · rw [if_neg hsame, instantiations, generic?, storeInstantiation,
        Arena.get?_modify_of_ne hsame]
      rfl
  have hmember : generic.index ∈ Finset.range heap.generics.size :=
    Finset.mem_range.2 (Arena.lt_of_get?_eq_some hrecord)
  rw [instantiationCount, hsize, Finset.sum_congr rfl fun index _ ↦ hindex index,
    Finset.sum_add_distrib, Finset.sum_ite_eq', if_pos hmember]
  rfl

end Heaps

section Tallies

variable {state later : State}

namespace State.Tallied

/-- Plain changes of the heap do not matter. -/
theorem of_plain (h : state.Tallied) (hheap : state.heap.Plain later.heap)
    (htrace : later.trace = state.trace) : later.Tallied where
  statics reference record hrecord := by
    rw [Heap.class?, hheap.classes] at hrecord
    exact Nat.lt_of_lt_of_le (h.statics reference record hrecord) hheap.objects
  composed := by
    rw [reported, htrace, Heap.composedClasses_congr hheap.classes]
    exact h.composed
  instantiated := by
    rw [reported, htrace, Heap.instantiationCount_congr hheap.generics]
    exact h.instantiated

theorem record (h : state.Tallied) {entry : TraceEntry}
    (hcomposed : entry.carries "composed mixin behavior table" = false)
    (hinstantiated : entry.carries "instantiated generic type" = false) :
    (state.record entry).Tallied where
  statics := h.statics
  composed := (reported_record_of_not_carries hcomposed).trans h.composed
  instantiated := (reported_record_of_not_carries hinstantiated).trans h.instantiated

theorem addClass (h : state.Tallied) {record : Class} (hcomposition : record.composition = none)
    (hstatics : record.statics.index < state.heap.objects.size) :
    State.Tallied { state with heap := state.heap.addClass record } where
  statics reference found hfound := by
    rcases Heap.class?_addClass_eq_some_iff.1 hfound with hold | ⟨-, rfl⟩
    · exact h.statics reference found hold
    · exact hstatics
  composed := by
    rw [Heap.composedClasses_addClass_of_none _ hcomposition]
    exact h.composed
  instantiated := h.instantiated

/-- A class that a mixin makes has been announced. -/
theorem compose (h : state.Tallied) {record : Class} (hcomposition : record.composition.isSome)
    (hstatics : record.statics.index < later.heap.objects.size)
    (hheap : state.heap.Plain later.heap) (name : String) (count : Nat)
    (htrace : later.trace = .emitted (.mixinComposed name count) :: state.trace) :
    State.Tallied { later with heap := later.heap.addClass record } where
  statics reference found hfound := by
    rcases Heap.class?_addClass_eq_some_iff.1 hfound with hold | ⟨-, rfl⟩
    · rw [Heap.class?, hheap.classes] at hold
      exact Nat.lt_of_lt_of_le (h.statics reference found hold) hheap.objects
    · exact hstatics
  composed := by
    rw [Heap.ncard_composedClasses_addClass _ hcomposition,
      Heap.composedClasses_congr hheap.classes, ← h.composed, reported, htrace]
    exact List.countP_cons_of_pos rfl
  instantiated := by
    have hcount : later.heap.instantiationCount = state.heap.instantiationCount :=
      Heap.instantiationCount_congr hheap.generics
    refine Eq.trans ?_ (h.instantiated.trans hcount.symm)
    rw [reported, htrace]
    exact List.countP_cons_of_neg (by simp [TraceEntry.carries, Event.message])

/-- An instantiation that is filed has been announced. -/
theorem construct (h : state.Tallied) {generic : GenericId} {record : Generic}
    {arguments : List Value} (hrecord : state.heap.generic? generic = some record)
    (hfresh : record.cache.find? (GenericType.key arguments) = none) (name : String)
    (result : Value) :
    ((state.record (.emitted (.typeInstantiated generic name arguments.length))).construct generic
      arguments result).Tallied where
  statics := h.statics
  composed := by
    refine Eq.trans ?_ h.composed
    rw [State.construct, reported_record_of_not_carries rfl]
    exact reported_record_of_not_carries (by simp [TraceEntry.carries, Event.message])
  instantiated := by
    rw [heap_construct, State.heap_record,
      Heap.instantiationCount_storeInstantiation hrecord hfresh,
      ← h.instantiated, State.construct, reported_record_of_not_carries rfl]
    exact reported_record_of_carries rfl

end State.Tallied

/-- The application of a mixin makes a class with composition metadata when it has announced one. -/
theorem Mixin.tallied_compose (h : state.Tallied) (base : ClassId) (sources : List ClassId) :
    ∃ outcome after, Mixin.compose base sources state = .ended outcome after ∧ after.Tallied := by
  by_cases hbase : base.index < state.heap.classes.size
  · obtain ⟨baseRecord, hrecord⟩ := Heap.exists_class?_of_lt hbase
    rw [Mixin.compose, Run.bind_of_ok (Run.classRecord_of_some hrecord)]
    by_cases hsources : ∀ source ∈ sources, source.index < state.heap.classes.size
    · rw [Run.bind_of_ok (Run.classRecords_of_known hsources)]
      by_cases hprototype : baseRecord.prototype.index < state.heap.objects.size
      · rw [Run.bind_of_ok (allocate_of_lt hprototype), Run.bind_of_ok (Run.changeHeap_apply _ _),
          Run.bind_of_ok (Run.heap_apply _), Run.bind_of_ok (Run.emit_apply _ _)]
        have hoverlaid := (Heap.Plain.addObject state.heap
          ⟨some baseRecord.prototype, none, .empty⟩).trans (.overlay state.heap.nextObject
            ((sources.filterMap state.heap.class?).map Class.prototype) _)
        have hstatics := Nat.lt_of_lt_of_le (h.statics base baseRecord hrecord) hoverlaid.objects
        rw [Run.bind_of_ok (allocate_of_lt hstatics), Run.create_apply]
        exact ⟨_, _, rfl, h.compose rfl (by simp [Heap.addObject, Heap.nextObject])
          (hoverlaid.trans (.addObject _ _)) _ _ rfl⟩
      · have hunknown : ¬((some baseRecord.prototype).all fun parent ↦
            state.heap.knows (.object parent)) = true := by
          simpa [Heap.knows] using hprototype
        rw [Run.bind_of_error (Run.allocate_of_unknown hunknown none)]
        exact ⟨_, _, rfl, h⟩
    · rw [Run.bind_of_error (Run.classRecords_of_unknown hsources)]
      exact ⟨_, _, rfl, h⟩
  · rw [Mixin.compose, Run.bind_of_error (Run.classRecord_of_none (Heap.class?_eq_none hbase))]
    exact ⟨_, _, rfl, h⟩

theorem TraceEntry.carries_of_isPlain {entry : TraceEntry} (h : entry.isPlain = true) :
    entry.carries "composed mixin behavior table" = false ∧
      entry.carries "instantiated generic type" = false := by
  cases entry with
  | emitted event => cases event <;> simp_all [isPlain, carries, Event.message]
  | _ => exact ⟨rfl, rfl⟩

theorem lawful_tallied : tallied.Lawful where
  resembles := by
    rintro _ left _ ⟨rfl, -⟩
    exact ⟨rfl, rfl, rfl, rfl, rfl, fun _ ↦ rfl⟩
  heap := by
    rintro _ left _ heap ⟨rfl, h⟩ hplain
    exact ⟨rfl, h.of_plain hplain rfl⟩
  addClass := by
    rintro _ left _ record ⟨rfl, h⟩ hcomposition hstatics
    exact ⟨rfl, h.addClass hcomposition hstatics⟩
  addGeneric := by
    rintro _ left _ constructorFunction ⟨rfl, h⟩
    exact ⟨rfl, h.statics, h.composed,
      h.instantiated.trans (Heap.instantiationCount_addGeneric _ constructorFunction).symm⟩
  function := by
    rintro _ left _ signature procedure ⟨rfl, h⟩
    exact ⟨rfl, h.of_plain ⟨rfl, rfl, Nat.le_refl _⟩ rfl⟩
  names := by
    rintro _ left _ globals cellNames genericNames ⟨rfl, h⟩
    exact ⟨rfl, h.of_plain (.refl _) rfl⟩
  addRealm := by
    rintro _ left _ config oracle ⟨rfl, h⟩
    exact ⟨rfl, h.of_plain (.refl _) rfl⟩
  setPrimitivePrototype := by
    rintro _ left _ reference kind prototype ⟨rfl, h⟩
    exact ⟨rfl, h.of_plain (.refl _) rfl⟩
  record := by
    rintro _ left _ entry ⟨rfl, h⟩ hplain
    exact ⟨rfl, h.record (TraceEntry.carries_of_isPlain hplain).1
      (TraceEntry.carries_of_isPlain hplain).2⟩
  compose := by
    rintro base sources _ left _ ⟨rfl, h⟩
    obtain ⟨outcome, after, hcompose, hafter⟩ := Mixin.tallied_compose h base sources
    rw [hcompose]
    exact .ended ⟨rfl, hafter⟩ rfl
  construct := by
    rintro _ left _ generic record arguments name result ⟨rfl, h⟩ hrecord hfresh
    exact ⟨rfl, h.construct hrecord hfresh name result⟩

theorem carries_tallied : Bond.Carries Eq tallied := by
  refine .of_eq lawful_tallied ?_ (lawful_tallied.invoke ?_ ?_)
  · rintro _ left _ ⟨rfl, -⟩
    rfl
  · rintro _ left _ reference ⟨rfl, -⟩
    rfl
  · rintro _ left _ event ⟨rfl, h⟩ hevent
    refine ⟨rfl, h.record ?_ ?_⟩ <;>
      cases event <;> simp_all [Event.isDispatch, TraceEntry.carries, Event.message]

theorem State.tallied_fresh (realm : Realm) : (State.fresh realm).Tallied where
  statics _ _ hrecord := by cases hrecord
  composed := by
    have hnone : (State.fresh realm).heap.composedClasses = ∅ :=
      Set.eq_empty_iff_forall_notMem.2 fun reference ⟨_, hrecord, _⟩ ↦ by cases hrecord
    rw [hnone, Set.ncard_empty]
    rfl
  instantiated := rfl

theorem Session.tallied_moment (bodies : List Body) (realm : Realm) (index : Nat) :
    (moment bodies (.fresh realm) index).state.Tallied := by
  have hstart : tallied () (.fresh realm) (.fresh realm) := ⟨rfl, State.tallied_fresh realm⟩
  have hbodies : List.Forall₂ (Body.Alike Eq) bodies bodies :=
    List.forall₂_same.2 fun body _ ↦ .refl body
  obtain ⟨_, -, h⟩ := (tandem_moment carries_tallied hbodies hstart index).pair
  exact h

end Tallies

section Statement

/-- At a moment of a run there are as many events of each kind as things in the state that they
announce. -/
structure EventAccount (bodies : List Body) (start : State) (index : Nat) : Prop where
  /-- Each cell that has left its first state has been announced. -/
  started : (Session.moment bodies start index).state.reported "running lazy initializer" =
    (Session.moment bodies start index).state.heap.startedCells.ncard
  /-- Each cell whose initializer has returned a fault has been announced. -/
  failed : (Session.moment bodies start index).state.reported "lazy initializer failed" =
    (Session.moment bodies start index).state.failedCells.ncard
  /-- While no initializer is running, these are the cells in progress. -/
  inProgress : (∀ call ∈ (Session.moment bodies start index).ledger.calls, call.purpose = .plain) →
    (Session.moment bodies start index).state.failedCells =
      (Session.moment bodies start index).state.heap.cellsInProgress
  /-- Each entry in the cache of a generic type has been announced. -/
  instantiated : (Session.moment bodies start index).state.reported "instantiated generic type" =
    (Session.moment bodies start index).state.heap.instantiationCount
  /-- Each class that a mixin has made has been announced. -/
  composed : (Session.moment bodies start index).state.reported "composed mixin behavior table" =
    (Session.moment bodies start index).state.heap.composedClasses.ncard
  /-- Each dispatch that is traced has been announced when it asks for its callee. -/
  asked : (Session.moment bodies start index).state.reported "dynamic dispatch" =
    (Session.tracedDispatches bodies start index).ncard
  /-- The callee is entered by the move that follows. So when no call is being asked for, each
  dispatch that is traced has been announced if it has entered its callee. -/
  dispatched : (Session.moment bodies start index).ledger.requested = none →
    (Session.moment bodies start index).state.reported "dynamic dispatch" =
      {began | ∃ entering event call reached, entering < index ∧
        Session.Enters bodies start began entering true event call reached}.ncard

theorem Session.reported_dispatch (bodies : List Body) (realm : Realm) (index : Nat) :
    (moment bodies (.fresh realm) index).state.reported "dynamic dispatch" =
      (tracedDispatches bodies (.fresh realm) index).ncard := by
  have hsame : TraceEntry.carries "dynamic dispatch" = TraceEntry.isDispatch :=
    funext fun entry ↦ entry.isDispatch_eq_carries.symm
  rw [State.reported, hsame]
  exact countP_isDispatch (.fresh realm) index

/-- At every moment of every run from a fresh state the events account for the state. -/
theorem eventAccount (bodies : List Body) (realm : Realm) (index : Nat) :
    EventAccount bodies (.fresh realm) index where
  started := (Session.announces_moment bodies realm index).started
  failed := (Session.announces_moment bodies realm index).failed
  inProgress hplain := by
    ext cell
    have hprogress := (Session.accounts_moment bodies realm cell index).inProgress_iff
    constructor
    · exact fun hfailed ↦ hprogress.2 (.inr hfailed)
    · intro hcell
      rcases hprogress.1 hcell with ⟨call, hcall, hpurpose⟩ | hfailed
      · rw [hplain call hcall] at hpurpose
        cases hpurpose
      · exact hfailed
  instantiated := (Session.tallied_moment bodies realm index).instantiated
  composed := (Session.tallied_moment bodies realm index).composed
  asked := Session.reported_dispatch bodies realm index
  dispatched hrequested := by
    rw [Session.reported_dispatch bodies realm index]
    congr 1
    ext began
    constructor
    · rintro ⟨entering, event, call, reached, hentering, henters⟩
      refine ⟨entering, event, call, reached, Nat.lt_of_le_of_ne hentering ?_, henters⟩
      rintro rfl
      rw [henters.requested] at hrequested
      cases hrequested
    · rintro ⟨entering, event, call, reached, hentering, henters⟩
      exact ⟨entering, event, call, reached, hentering.le, henters⟩

end Statement

end GradualRuntime
