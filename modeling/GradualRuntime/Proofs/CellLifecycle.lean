import GradualRuntime.Proofs.Evaluation
import GradualRuntime.Proofs.Force

/-!
# The lifecycle of a lazy cell

A cell goes from uninitialized to in progress to initialized and never back, over the whole run of
any program. The calls of its initializer carry this: `CellState.Accounted` ties the state of a cell
to the number of initializer calls that have not returned and to the outcomes of those that have,
and every transition of a ledger keeps the tie (`Ledger.Transition.accounts`).

`cellLifecycle` collects what follows for the moments of a session: the cell only advances, its
initializer is entered at most once, the value of a force is final, the cell is in progress exactly
while its initializer runs or after it has failed, and every access in the meantime fails as a
circular initialization without doing anything.
-/

set_option autoImplicit false

namespace GradualRuntime

section Account

/-- The two moves of a cell. -/
inductive CellState.Next : CellState → CellState → Prop where
  | start (initializer : FunctionId) : Next (.uninitialized initializer) .inProgress
  | settle (value : Value) : Next .inProgress (.initialized value)

/-- A cell at two points of a run: its name and its mutability stay, and its state has moved
forward. -/
structure LazyCell.Advances (earlier later : LazyCell) : Prop where
  name : later.name = earlier.name
  isMutable : later.isMutable = earlier.isMutable
  state : Relation.ReflTransGen CellState.Next earlier.state later.state

/-- Whether a call is made for a cell, to its initializer. -/
def Call.initializes (cell : CellId) (call : Call) : Bool :=
  decide (call.purpose = .initializing cell)

/-- Whether the initializer of a cell was entered. -/
def TraceEntry.enters (cell : CellId) : TraceEntry → Bool
  | .entered call => call.initializes cell
  | _ => false

/-- The outcome of the initializer of a cell, if it returned. -/
def TraceEntry.outcome? (cell : CellId) : TraceEntry → Option (Except Fault Value)
  | .returned call outcome => if call.initializes cell then some outcome else none
  | _ => none

/-- How often the initializer of a cell has been entered. -/
def State.entries (state : State) (cell : CellId) : Nat :=
  state.trace.countP (TraceEntry.enters cell)

/-- The outcomes of the initializer of a cell, the latest first. -/
def State.outcomes (state : State) (cell : CellId) : List (Except Fault Value) :=
  state.trace.filterMap (TraceEntry.outcome? cell)

/-- How many calls of the initializer of a cell have not returned. -/
def Ledger.running (ledger : Ledger) (cell : CellId) : Nat :=
  ledger.calls.countP (Call.initializes cell)

/-- What the state of a cell, if there is one, says about the calls of its initializer: how many
have not returned, and the outcomes of the others. -/
inductive CellState.Accounted : Option CellState → Nat → List (Except Fault Value) → Prop where
  | absent : Accounted none 0 []
  | waiting (initializer : FunctionId) : Accounted (some (.uninitialized initializer)) 0 []
  | running : Accounted (some .inProgress) 1 []
  | failed (fault : Fault) : Accounted (some .inProgress) 0 [.error fault]
  | finished (value : Value) : Accounted (some (.initialized value)) 0 [.ok value]

/-- The calls of the initializer of a cell are accounted for, and each was entered once. -/
structure Ledger.Accounts (ledger : Ledger) (cell : CellId) : Prop where
  account : CellState.Accounted ((ledger.state.heap.cell? cell).map LazyCell.state)
    (ledger.running cell) (ledger.state.outcomes cell)
  entries : ledger.state.entries cell =
    ledger.entered.countP (Call.initializes cell) + (ledger.state.outcomes cell).length

end Account

namespace LazyCell

theorem Advances.refl (record : LazyCell) : record.Advances record := ⟨rfl, rfl, .refl⟩

theorem Advances.trans {first second third : LazyCell} (h : first.Advances second)
    (hnext : second.Advances third) : first.Advances third :=
  ⟨hnext.name.trans h.name, hnext.isMutable.trans h.isMutable, h.state.trans hnext.state⟩

/-- There is no way on from a value. -/
theorem Advances.eq_of_initialized {earlier later : LazyCell} {value : Value}
    (h : earlier.Advances later) (hvalue : earlier.state = .initialized value) :
    later.state = .initialized value := by
  have hstate := h.state
  rw [hvalue] at hstate
  rcases hstate.cases_head with heq | ⟨next, hnext, -⟩
  · exact heq.symm
  · cases hnext

/-- A cell that is uninitialized later has the initializer that it had before. -/
theorem Advances.eq_of_uninitialized {earlier later : LazyCell} {initializer : FunctionId}
    (h : earlier.Advances later) (hlater : later.state = .uninitialized initializer) :
    earlier.state = .uninitialized initializer := by
  have hstate := h.state
  rw [hlater] at hstate
  rcases hstate.cases_tail with heq | ⟨previous, -, hlast⟩
  · exact heq.symm
  · cases hlast

end LazyCell

section Effects

variable {cell : CellId} {call : Call}

@[simp]
theorem Call.initializes_iff :
    call.initializes cell = true ↔ call.purpose = .initializing cell := by
  simp [Call.initializes]

theorem Call.initializes_eq_false_of_plain (h : call.purpose = .plain) :
    call.initializes cell = false := by
  simp [Call.initializes, h]

theorem State.entries_record (state : State) (entry : TraceEntry) :
    (state.record entry).entries cell =
      state.entries cell + if entry.enters cell then 1 else 0 :=
  List.countP_cons

theorem State.outcomes_record_of_eq_none (state : State) {entry : TraceEntry}
    (h : entry.outcome? cell = none) : (state.record entry).outcomes cell = state.outcomes cell :=
  List.filterMap_cons_none h

theorem State.outcomes_record_of_eq_some (state : State) {entry : TraceEntry}
    {outcome : Except Fault Value} (h : entry.outcome? cell = some outcome) :
    (state.record entry).outcomes cell = outcome :: state.outcomes cell :=
  List.filterMap_cons_some h

theorem State.Change.entries_eq {may : Heap.Permission} {before after : State}
    (h : State.Change may before after) :
    after.entries cell = before.entries cell := by
  cases h with
  | logged value => exact State.entries_record before (.logged value)
  | emitted event quiet => exact State.entries_record before (.emitted event)
  | _ => rfl

theorem State.Change.outcomes_eq {may : Heap.Permission} {before after : State}
    (h : State.Change may before after) :
    after.outcomes cell = before.outcomes cell := by
  cases h <;> rfl

end Effects

namespace CellState

variable {count : Nat} {outcomes : List (Except Fault Value)}

theorem accounted_none_iff : Accounted none count outcomes ↔ count = 0 ∧ outcomes = [] := by
  constructor
  · rintro ⟨⟩
    exact ⟨rfl, rfl⟩
  · rintro ⟨rfl, rfl⟩
    exact .absent

theorem accounted_uninitialized_iff {initializer : FunctionId} :
    Accounted (some (.uninitialized initializer)) count outcomes ↔ count = 0 ∧ outcomes = [] := by
  constructor
  · rintro ⟨⟩
    exact ⟨rfl, rfl⟩
  · rintro ⟨rfl, rfl⟩
    exact .waiting initializer

/-- While a call of its initializer has not returned, a cell is in progress, and there has been no
other call. -/
theorem Accounted.eq_inProgress {current : Option CellState}
    (h : Accounted current count outcomes) (hcount : 0 < count) :
    current = some .inProgress ∧ count = 1 ∧ outcomes = [] := by
  cases h with
  | running => exact ⟨rfl, rfl, rfl⟩
  | _ => exact absurd hcount (Nat.lt_irrefl 0)

theorem Accounted.le_one {current : Option CellState} (h : Accounted current count outcomes) :
    count + outcomes.length ≤ 1 := by
  cases h <;> simp

theorem Accounted.inProgress_iff {current : Option CellState}
    (h : Accounted current count outcomes) :
    current = some .inProgress ↔ 0 < count ∨ ∃ fault, .error fault ∈ outcomes := by
  cases h <;> simp

end CellState

namespace State

variable (state : State) (started : CellId) (name : String) (cell : CellId)

theorem entries_startCell : (state.startCell started name).entries cell = state.entries cell := by
  rw [startCell, entries_record]
  rfl

theorem outcomes_startCell : (state.startCell started name).outcomes cell = state.outcomes cell :=
  outcomes_record_of_eq_none _ rfl

theorem entries_settleCell (outcome : Except Fault Value) :
    (state.settleCell started name outcome).entries cell = state.entries cell := by
  cases outcome with
  | ok value => rfl
  | error fault =>
    rw [settleCell, entries_record]
    rfl

theorem outcomes_settleCell (outcome : Except Fault Value) :
    (state.settleCell started name outcome).outcomes cell = state.outcomes cell := by
  cases outcome <;> rfl

theorem cell?_settleCell_of_ne {other : CellId} (h : other ≠ started)
    (outcome : Except Fault Value) :
    (state.settleCell started name outcome).heap.cell? other = state.heap.cell? other := by
  cases outcome with
  | ok value => exact state.heap.cell?_setCellState_of_ne h (.initialized value)
  | error fault => rfl

end State

namespace Ledger

variable {before after : Ledger} {cell : CellId}

theorem running_cons_of_initializes {call : Call} {entered : List Call} {state : State}
    (h : call.initializes cell = true) :
    running ⟨none, call :: entered, state⟩ cell = entered.countP (Call.initializes cell) + 1 :=
  List.countP_cons_of_pos h

theorem Accounts.entries_le_one {ledger : Ledger} (h : ledger.Accounts cell) :
    ledger.state.entries cell ≤ 1 := by
  have hsplit : ledger.running cell =
      ledger.requested.toList.countP (Call.initializes cell) +
        ledger.entered.countP (Call.initializes cell) := List.countP_append
  have hbound := h.account.le_one
  have hentries := h.entries
  omega

theorem Accounts.inProgress_iff {ledger : Ledger} (h : ledger.Accounts cell) :
    (∃ record, ledger.state.heap.cell? cell = some record ∧ record.state = .inProgress) ↔
      (∃ call ∈ ledger.calls, call.purpose = .initializing cell) ∨
        ∃ fault, .error fault ∈ ledger.state.outcomes cell := by
  have hrunning : 0 < ledger.running cell ↔
      ∃ call ∈ ledger.calls, call.purpose = .initializing cell := by
    simp [running, List.countP_pos_iff]
  rw [← hrunning, ← h.account.inProgress_iff, Option.map_eq_some_iff]

/-- The outcome of its initializer settles a cell that is in progress. -/
theorem accounted_settleCell {state : State}
    (h : (state.heap.cell? cell).map LazyCell.state = some .inProgress) (name : String)
    (outcome : Except Fault Value) :
    CellState.Accounted
      (((state.settleCell cell name outcome).heap.cell? cell).map LazyCell.state) 0 [outcome] := by
  cases outcome with
  | ok value =>
    obtain ⟨record, hrecord, -⟩ := Option.map_eq_some_iff.1 h
    have hafter : (state.settleCell cell name (.ok value)).heap.cell? cell =
        some { record with state := .initialized value } :=
      Heap.cell?_setCellState_self hrecord (.initialized value)
    rw [hafter]
    exact .finished value
  | error fault =>
    have hafter : (state.settleCell cell name (.error fault)).heap.cell? cell =
        state.heap.cell? cell := rfl
    rw [hafter, h]
    exact .failed fault

/-- Every transition keeps the initializer calls of a cell accounted for. -/
theorem Transition.accounts (h : Transition before after) (haccounts : before.Accounts cell) :
    after.Accounts cell := by
  obtain ⟨haccount, hentries⟩ := haccounts
  -- Only the transitions that add, start or settle this very cell change its account; entering its
  -- initializer moves a call from one count to the other.
  cases h with
  | change change =>
    refine ⟨?_, by simpa [change.entries_eq, change.outcomes_eq] using hentries⟩
    rcases change.cell? cell with hsame | ⟨hnone, name, isMutable, initializer, hsome⟩
    · simpa [running, calls, hsame, change.outcomes_eq] using haccount
    · simp only [hnone, Option.map_none, CellState.accounted_none_iff] at haccount
      simp only [hsome, Option.map_some, CellState.accounted_uninitialized_iff,
        change.outcomes_eq]
      exact haccount
  | request entered state function this arguments =>
    refine ⟨?_, hentries⟩
    simpa [running, calls, Call.initializes] using haccount
  | @start entered state started record function present waiting =>
    refine ⟨?_, by simpa [State.entries_startCell, State.outcomes_startCell] using hentries⟩
    rw [State.outcomes_startCell]
    by_cases hcell : cell = started
    · subst hcell
      simp only [present, Option.map_some, waiting, CellState.accounted_uninitialized_iff]
        at haccount
      have hafter : (state.startCell cell record.name).heap.cell? cell =
          some { record with state := .inProgress } :=
        Heap.cell?_setCellState_self present .inProgress
      have hrunning : running ⟨some ⟨function, .undefined, [], .initializing cell⟩, entered,
          state.startCell cell record.name⟩ cell = 1 := by
        simpa [running, calls, Call.initializes] using haccount.1
      simp only [hafter, hrunning, haccount.2]
      exact .running
    · have hafter : (state.startCell started record.name).heap.cell? cell =
          state.heap.cell? cell := state.heap.cell?_setCellState_of_ne hcell .inProgress
      simpa [hafter, running, calls, Call.initializes, Ne.symm hcell] using haccount
  | enter call entered state =>
    refine ⟨haccount, ?_⟩
    have hrecorded : (state.record (.entered call)).entries cell =
        (call :: entered).countP (Call.initializes cell) +
          ((state.record (.entered call)).outcomes cell).length := by
      rw [State.entries_record, State.outcomes_record_of_eq_none state rfl, hentries,
        List.countP_cons]
      exact Nat.add_right_comm _ _ _
    exact hrecorded
  | @leave call entered state outcome purpose =>
    have hother : call.initializes cell = false := Call.initializes_eq_false_of_plain purpose
    have hnone : (TraceEntry.returned call outcome).outcome? cell = none := by
      simp [TraceEntry.outcome?, hother]
    refine ⟨?_, ?_⟩
    · rw [State.outcomes_record_of_eq_none state hnone]
      simpa [running, calls, hother] using haccount
    · rw [State.entries_record, State.outcomes_record_of_eq_none state hnone]
      simpa [TraceEntry.enters, hother] using hentries
  | @settle call entered state outcome settled name purpose =>
    by_cases hcell : cell = settled
    · subst hcell
      have hmine : call.initializes cell = true := Call.initializes_iff.2 purpose
      have hsome : (TraceEntry.returned call outcome).outcome? cell = some outcome := by
        simp [TraceEntry.outcome?, purpose]
      rw [running_cons_of_initializes hmine] at haccount
      obtain ⟨hstate, hcount, houtcomes⟩ := haccount.eq_inProgress (Nat.succ_pos _)
      have hquiet : entered.countP (Call.initializes cell) = 0 := Nat.succ.inj hcount
      have hdone : ∀ later, running ⟨none, entered, later⟩ cell = 0 := fun _ ↦ hquiet
      refine ⟨?_, ?_⟩
      · rw [hdone, State.outcomes_settleCell, State.outcomes_record_of_eq_some state hsome,
          houtcomes]
        exact accounted_settleCell (by simpa using hstate) name outcome
      · rw [State.entries_settleCell, State.outcomes_settleCell, State.entries_record,
          State.outcomes_record_of_eq_some state hsome, hentries, houtcomes]
        simp [TraceEntry.enters, hmine, hquiet]
    · have hother : call.initializes cell = false := by
        simp [Call.initializes, purpose, Ne.symm hcell]
      have hnone : (TraceEntry.returned call outcome).outcome? cell = none := by
        simp [TraceEntry.outcome?, hother]
      refine ⟨?_, ?_⟩
      · rw [State.outcomes_settleCell, State.outcomes_record_of_eq_none state hnone,
          State.cell?_settleCell_of_ne _ _ _ hcell]
        simpa [running, calls, hother] using haccount
      · rw [State.entries_settleCell, State.outcomes_settleCell, State.entries_record,
          State.outcomes_record_of_eq_none state hnone]
        simpa [TraceEntry.enters, hother] using hentries

/-- What a transition does to a cell: nothing, its next move, or to give it the value of a call of
its initializer that returns. -/
theorem Transition.cell? (h : Transition before after) {record : LazyCell}
    (hrecord : before.state.heap.cell? cell = some record) :
    ∃ moved, after.state.heap.cell? cell = some { record with state := moved } ∧
      (moved = record.state ∨ CellState.Next record.state moved ∨
        0 < before.running cell ∧ ∃ value, moved = .initialized value) := by
  cases h with
  | change change =>
    rcases change.cell? cell with hsame | ⟨hnone, -⟩
    · exact ⟨record.state, hsame.trans hrecord, .inl rfl⟩
    · cases hnone.symm.trans hrecord
  | @start entered state started present function hpresent hwaiting =>
    by_cases hcell : cell = started
    · subst hcell
      obtain rfl : present = record := Option.some.inj (hpresent.symm.trans hrecord)
      refine ⟨_, Heap.cell?_setCellState_self hrecord .inProgress, .inr (.inl ?_)⟩
      rw [hwaiting]
      exact .start function
    · exact ⟨record.state,
        (state.heap.cell?_setCellState_of_ne hcell .inProgress).trans hrecord, .inl rfl⟩
  | @settle call entered state outcome settled name purpose =>
    by_cases hcell : cell = settled
    · subst hcell
      cases outcome with
      | error fault => exact ⟨record.state, hrecord, .inl rfl⟩
      | ok value =>
        refine ⟨_, Heap.cell?_setCellState_self hrecord (.initialized value), .inr (.inr ?_)⟩
        rw [running_cons_of_initializes (Call.initializes_iff.2 purpose)]
        exact ⟨Nat.succ_pos _, value, rfl⟩
    · exact ⟨record.state,
        (State.cell?_settleCell_of_ne _ settled name hcell outcome).trans hrecord, .inl rfl⟩
  | _ => exact ⟨record.state, hrecord, .inl rfl⟩

/-- A transition only moves a cell forward. -/
theorem Transition.advances (h : Transition before after) (haccounts : before.Accounts cell)
    {record : LazyCell} (hrecord : before.state.heap.cell? cell = some record) :
    ∃ moved, after.state.heap.cell? cell = some moved ∧ record.Advances moved := by
  obtain ⟨moved, hmoved, rfl | hnext | ⟨hrunning, value, rfl⟩⟩ := h.cell? hrecord
  · exact ⟨_, hmoved, .refl record⟩
  · exact ⟨_, hmoved, rfl, rfl, .single hnext⟩
  · have hprogress : record.state = .inProgress := by
      simpa [hrecord] using (haccounts.account.eq_inProgress hrunning).1
    refine ⟨_, hmoved, rfl, rfl, ?_⟩
    rw [hprogress]
    exact .single (.settle value)

/-- Cells stay, with their names and their mutability. -/
theorem Transitions.cell? (h : Transitions before after) {record : LazyCell}
    (hrecord : before.state.heap.cell? cell = some record) :
    ∃ moved, after.state.heap.cell? cell = some { record with state := moved } := by
  induction h with
  | refl => exact ⟨record.state, hrecord⟩
  | tail _ hlast ih =>
    obtain ⟨middle, hmiddle⟩ := ih
    obtain ⟨moved, hmoved, -⟩ := hlast.cell? hmiddle
    exact ⟨moved, hmoved⟩

theorem Transitions.accounts (h : Transitions before after) (haccounts : before.Accounts cell) :
    after.Accounts cell := by
  induction h with
  | refl => exact haccounts
  | tail _ hlast ih => exact hlast.accounts ih

theorem Transitions.advances (h : Transitions before after) (haccounts : before.Accounts cell)
    {record : LazyCell} (hrecord : before.state.heap.cell? cell = some record) :
    ∃ moved, after.state.heap.cell? cell = some moved ∧ record.Advances moved := by
  induction h with
  | refl => exact ⟨record, hrecord, .refl record⟩
  | tail hfirst hlast ih =>
    obtain ⟨moved, hmoved, hadvances⟩ := ih
    obtain ⟨last, hlast, hmore⟩ := hlast.advances (Transitions.accounts hfirst haccounts) hmoved
    exact ⟨last, hlast, hadvances.trans hmore⟩

/-- Every call of the initializer of a cell, running or entered before, is one given call. -/
structure CallsOnly (ledger : Ledger) (cell : CellId) (expected : Call) : Prop where
  running : ∀ call ∈ ledger.calls, call.purpose = .initializing cell → call = expected
  entered : ∀ call, .entered call ∈ ledger.state.trace → call.purpose = .initializing cell →
    call = expected

/-- Before the first access to a cell there has been no call of its initializer. -/
theorem Accounts.callsOnly {ledger : Ledger} (h : ledger.Accounts cell) {record : LazyCell}
    (hrecord : ledger.state.heap.cell? cell = some record) {initializer : FunctionId}
    (hwaiting : record.state = .uninitialized initializer) (expected : Call) :
    ledger.CallsOnly cell expected := by
  obtain ⟨haccount, hentries⟩ := h
  simp only [hrecord, Option.map_some, hwaiting, CellState.accounted_uninitialized_iff]
    at haccount
  obtain ⟨hrunning, houtcomes⟩ := haccount
  have hnone : ∀ call ∈ ledger.calls, call.purpose ≠ .initializing cell := by
    simpa [Ledger.running, List.countP_eq_zero, Call.initializes] using hrunning
  have hentered : ledger.entered.countP (Call.initializes cell) = 0 :=
    List.countP_eq_zero.2 fun call hcall ↦ by
      simpa using hnone call (List.mem_append_right _ hcall)
  have hzero : ledger.state.entries cell = 0 := by simp [hentries, hentered, houtcomes]
  refine ⟨fun call hcall hpurpose ↦ absurd hpurpose (hnone call hcall), ?_⟩
  intro call hcall hpurpose
  exact absurd (Call.initializes_iff.2 hpurpose) (List.countP_eq_zero.1 hzero _ hcall)

theorem Transition.callsOnly (h : Transition before after) {expected : Call}
    (hcalls : before.CallsOnly cell expected)
    (hstart : ∀ record function, before.state.heap.cell? cell = some record →
      record.state = .uninitialized function →
        expected = ⟨function, .undefined, [], .initializing cell⟩) :
    after.CallsOnly cell expected := by
  obtain ⟨hrunning, hentered⟩ := hcalls
  cases h with
  | change change =>
    refine ⟨hrunning, fun call hcall ↦ hentered call ?_⟩
    cases change <;> simpa [State.construct, State.record, State.addMap] using hcall
  | request entered state function this arguments =>
    refine ⟨?_, hentered⟩
    simpa [calls] using hrunning
  | @start entered state started record function present waiting =>
    refine ⟨fun call hcall hpurpose ↦ ?_, fun call hcall ↦
      hentered call (by simpa [State.startCell, State.record] using hcall)⟩
    rcases List.mem_cons.1 hcall with rfl | hbefore
    · cases hpurpose
      exact (hstart record function present waiting).symm
    · exact hrunning call hbefore hpurpose
  | enter entering entered state =>
    refine ⟨hrunning, fun call hcall hpurpose ↦ ?_⟩
    rcases List.mem_cons.1 hcall with heq | hbefore
    · cases heq
      exact hrunning entering List.mem_cons_self hpurpose
    · exact hentered call hbefore hpurpose
  | leave entered state outcome purpose =>
    refine ⟨fun call hcall ↦ hrunning call (List.mem_cons_of_mem _ hcall), fun call hcall ↦ ?_⟩
    exact hentered call (by simpa [State.record] using hcall)
  | settle entered state outcome name purpose =>
    refine ⟨fun call hcall ↦ hrunning call (List.mem_cons_of_mem _ hcall), fun call hcall ↦ ?_⟩
    refine hentered call ?_
    cases outcome <;> simpa [State.settleCell, State.record] using hcall

theorem Transitions.callsOnly (h : Transitions before after) (haccounts : before.Accounts cell)
    {record : LazyCell} (hrecord : before.state.heap.cell? cell = some record)
    {initializer : FunctionId} (hwaiting : record.state = .uninitialized initializer) :
    after.CallsOnly cell ⟨initializer, .undefined, [], .initializing cell⟩ := by
  induction h with
  | refl => exact haccounts.callsOnly hrecord hwaiting _
  | tail hfirst hlast ih =>
    refine hlast.callsOnly ih fun current function hcurrent hstate ↦ ?_
    obtain ⟨moved, hmoved, hadvances⟩ := Transitions.advances hfirst haccounts hrecord
    obtain rfl : moved = current := Option.some.inj (hmoved.symm.trans hcurrent)
    have hsame := hadvances.eq_of_uninitialized hstate
    rw [hwaiting] at hsame
    cases hsame
    rfl

end Ledger

namespace LazyBinding

variable {state after : State} {reference : CellId} {record : LazyCell} {value : Value}

/-- The two ways in which a force returns a value: the cell has it, or one call of the initializer
gives it. -/
theorem force_cases (h : (force reference state).EndsWith (.ok value) after) :
    (∃ record, state.heap.cell? reference = some record ∧ record.state = .initialized value ∧
      after = state) ∨
    ∃ record initializer answer back, state.heap.cell? reference = some record ∧
      record.state = .uninitialized initializer ∧
      (Machine.enter ⟨initializer, .undefined, [], .initializing reference⟩
        (state.startCell reference record.name)).EndsWith answer back ∧
      after = (back.record (.returned ⟨initializer, .undefined, [], .initializing reference⟩
        (.ok value))).settleCell reference record.name (.ok value) := by
  cases hrecord : state.heap.cell? reference with
  | none => simp [force, cell, hrecord] at h
  | some record =>
    cases hstate : record.state with
    | initialized kept =>
      rw [force_of_initialized hrecord hstate] at h
      obtain ⟨hvalue, rfl⟩ := Progress.endsWith_ended_iff.1 h
      cases hvalue
      exact .inl ⟨record, rfl, hstate, rfl⟩
    | inProgress =>
      rw [force_of_inProgress hrecord hstate] at h
      obtain ⟨hfault, -⟩ := Progress.endsWith_ended_iff.1 h
      cases hfault
    | uninitialized initializer =>
      rw [force_of_uninitialized hrecord hstate] at h
      obtain ⟨answer, back, hcallee, hrest⟩ := Progress.endsWith_calling_iff.1 h
      obtain ⟨houtcome, rfl⟩ := Progress.endsWith_ended_iff.1 hrest
      rw [← houtcome]
      exact .inr ⟨record, initializer, answer, back, rfl, hstate, hcallee, rfl⟩

/-- A force that returns leaves the cell with the value. -/
theorem initialized_of_force (h : (force reference state).EndsWith (.ok value) after) :
    ∃ record, after.heap.cell? reference = some record ∧ record.state = .initialized value := by
  obtain ⟨record, hrecord, hstate, rfl⟩ |
    ⟨record, initializer, answer, back, hrecord, -, hcallee, rfl⟩ := force_cases h
  · exact ⟨record, hrecord, hstate⟩
  · have hstarted : (state.startCell reference record.name).heap.cell? reference =
        some { record with state := .inProgress } :=
      Heap.cell?_setCellState_self hrecord .inProgress
    obtain ⟨moved, hmoved⟩ :=
      Ledger.Transitions.cell? (hcallee.transitions (orderly_enter _ _) []) hstarted
    exact ⟨_, Heap.cell?_setCellState_self hmoved (.initialized value), rfl⟩

/-- What follows a force in an orderly computation is orderly from where the force returns. -/
theorem orderly_of_force {α : Type} {next : Except Fault Value → State → Progress α}
    (horderly : Progress.Orderly state ((force reference state).andThen next))
    (h : (force reference state).EndsWith (.ok value) after) :
    Progress.Orderly after (next (.ok value) after) := by
  obtain ⟨record, hrecord, hstate, rfl⟩ |
    ⟨record, initializer, answer, back, hrecord, hstate, -, rfl⟩ := force_cases h
  · rw [force_of_initialized hrecord hstate] at horderly
    exact horderly
  · rw [force_of_uninitialized hrecord hstate] at horderly
    obtain ⟨reached, name, hstarted, hrest⟩ := horderly.settles rfl
    obtain rfl : record.name = name := by
      have htrace := congrArg State.trace hstarted
      simp only [State.startCell, State.record, List.cons.injEq] at htrace
      cases htrace.1
      rfl
    exact hrest (.ok value) _

end LazyBinding

section Sessions

/-- What a session does with a lazy cell. -/
structure CellLifecycle (bodies : List Body) (state : State) (reference : CellId) : Prop where
  /-- From one moment to a later one the cell stays and only moves forward. -/
  forward : ∀ earlier later record, earlier ≤ later →
    (Session.moment bodies state earlier).state.heap.cell? reference = some record →
      ∃ moved, (Session.moment bodies state later).state.heap.cell? reference = some moved ∧
        record.Advances moved
  /-- The initializer is entered at most once for the cell. -/
  entered_once : ∀ index, (Session.moment bodies state index).state.entries reference ≤ 1
  /-- What is entered for the cell is the initializer it was made with, without arguments. -/
  own_initializer : ∀ earlier later record initializer, earlier ≤ later →
    (Session.moment bodies state earlier).state.heap.cell? reference = some record →
      record.state = .uninitialized initializer →
        ∀ call, .entered call ∈ (Session.moment bodies state later).state.trace →
          call.purpose = .initializing reference →
            call = ⟨initializer, .undefined, [], .initializing reference⟩
  /-- When a body's next act is a force that will return a value, the session gets to the point
  where it has returned, and from then on a force gives that value at once. -/
  final : ∀ index frames before resume next value after,
    (Session.moment bodies state index).configuration = ⟨frames, .paused before resume⟩ →
      resume before = (LazyBinding.force reference before).andThen next →
        (LazyBinding.force reference before).EndsWith (.ok value) after →
          ∃ reached, index ≤ reached ∧
            (Session.moment bodies state reached).configuration =
              ⟨frames, next (.ok value) after⟩ ∧
            ∀ later, reached ≤ later →
              LazyBinding.force reference (Session.moment bodies state later).state =
                .ended (.ok value) (Session.moment bodies state later).state
  /-- A force that returns a value, from whatever state, leaves the cell with it. -/
  returned : ∀ before value after,
    (LazyBinding.force reference before).EndsWith (.ok value) after →
      ∃ record, after.heap.cell? reference = some record ∧ record.state = .initialized value
  /-- A value, once there, is what every later force gives at once. -/
  kept : ∀ earlier later record value, earlier ≤ later →
    (Session.moment bodies state earlier).state.heap.cell? reference = some record →
      record.state = .initialized value →
        LazyBinding.force reference (Session.moment bodies state later).state =
          .ended (.ok value) (Session.moment bodies state later).state
  /-- The cell is in progress exactly while a call of its initializer has not returned, and after
  one has failed. -/
  inProgress_iff : ∀ index,
    (∃ record, (Session.moment bodies state index).state.heap.cell? reference = some record ∧
        record.state = .inProgress) ↔
      (∃ call ∈ (Session.moment bodies state index).ledger.calls,
        call.purpose = .initializing reference) ∨
      ∃ fault, .error fault ∈ (Session.moment bodies state index).state.outcomes reference
  /-- While the cell is in progress, every force and every access through any slot fails with the
  name of the cell and does nothing. -/
  reentry : ∀ index record,
    (Session.moment bodies state index).state.heap.cell? reference = some record →
      record.state = .inProgress →
        let now := (Session.moment bodies state index).state
        let circular := Fault.circularInitialization record.name
        LazyBinding.force reference now = .ended (.error circular) now ∧
        ∀ object name holder, now.heap.lookup object name = some (holder, .binding reference) →
          (∀ receiver, Member.read object name receiver now = .ended (.error circular) now) ∧
          (record.isMutable = true →
            ∀ value, Member.set object name value now = .ended (.error circular) now)

variable {bodies : List Body} {realm : Realm} {reference : CellId}

theorem Ledger.accounts_fresh (realm : Realm) (reference : CellId) :
    Ledger.Accounts ⟨none, [], .fresh realm⟩ reference := ⟨.absent, rfl⟩

theorem Session.accounts_moment (bodies : List Body) (realm : Realm) (reference : CellId)
    (index : Nat) : (moment bodies (.fresh realm) index).ledger.Accounts reference :=
  Ledger.Transitions.accounts (transitions_moment bodies _ (Nat.zero_le index))
    (Ledger.accounts_fresh realm reference)

theorem Session.advances_moment {earlier later : Nat} (h : earlier ≤ later) {record : LazyCell}
    (hrecord : (moment bodies (.fresh realm) earlier).state.heap.cell? reference = some record) :
    ∃ moved, (moment bodies (.fresh realm) later).state.heap.cell? reference = some moved ∧
      record.Advances moved :=
  Ledger.Transitions.advances (transitions_moment bodies _ h)
    (accounts_moment bodies realm reference earlier) hrecord

theorem Session.force_of_initialized {earlier later : Nat} (h : earlier ≤ later)
    {record : LazyCell} {value : Value}
    (hrecord : (moment bodies (.fresh realm) earlier).state.heap.cell? reference = some record)
    (hvalue : record.state = .initialized value) :
    LazyBinding.force reference (moment bodies (.fresh realm) later).state =
      .ended (.ok value) (moment bodies (.fresh realm) later).state := by
  obtain ⟨moved, hmoved, hadvances⟩ := advances_moment h hrecord
  exact LazyBinding.force_of_initialized hmoved (hadvances.eq_of_initialized hvalue)

/-- A session carries out the force that comes next, and the value stays. -/
theorem Session.force_final {index : Nat} {frames : List PendingCall} {before after : State}
    {resume : State → Progress Answer} {next : Except Fault Value → State → Progress Answer}
    {value : Value}
    (hmoment : (moment bodies (.fresh realm) index).configuration =
      ⟨frames, .paused before resume⟩)
    (hresume : resume before = (LazyBinding.force reference before).andThen next)
    (hforce : (LazyBinding.force reference before).EndsWith (.ok value) after) :
    ∃ reached, index ≤ reached ∧
      (moment bodies (.fresh realm) reached).configuration = ⟨frames, next (.ok value) after⟩ ∧
      ∀ later, reached ≤ later →
        LazyBinding.force reference (moment bodies (.fresh realm) later).state =
          .ended (.ok value) (moment bodies (.fresh realm) later).state := by
  have hnext : Progress.Orderly after (next (.ok value) after) := by
    obtain ⟨start, hcurrent⟩ := (orderly_moment bodies (.fresh realm) index).current
    rw [hmoment] at hcurrent
    cases hcurrent with
    | paused _ rest => exact LazyBinding.orderly_of_force (hresume ▸ rest) hforce
  obtain ⟨reached, hlater, hreached⟩ :=
    Session.exists_moment_of_endsWith hmoment hresume hforce
  have hafter : Ledger.Accounts ⟨none, frames.map PendingCall.call, after⟩ reference := by
    have hbefore := accounts_moment bodies realm reference index
    rw [ledger, hmoment] at hbefore
    exact Ledger.Transitions.accounts
      (hforce.transitions (careful_force reference before).orderly _)
      hbefore
  obtain ⟨record, hrecord, hvalue⟩ := LazyBinding.initialized_of_force hforce
  refine ⟨reached, hlater, hreached, fun later horder ↦ ?_⟩
  have hlast := Session.transitions_of_ended hreached hnext horder
  obtain ⟨moved, hmoved, hadvances⟩ := hlast.advances hafter hrecord
  exact LazyBinding.force_of_initialized hmoved (hadvances.eq_of_initialized hvalue)

/-- In every run of any program, from a fresh state, every lazy cell goes through its lifecycle. -/
theorem cellLifecycle (bodies : List Body) (realm : Realm) (reference : CellId) :
    CellLifecycle bodies (.fresh realm) reference where
  forward _ _ _ horder hrecord := Session.advances_moment horder hrecord
  entered_once index := (Session.accounts_moment bodies realm reference index).entries_le_one
  own_initializer earlier _ _ _ horder hrecord hwaiting :=
    ((Session.transitions_moment bodies (.fresh realm) horder).callsOnly
      (Session.accounts_moment bodies realm reference earlier) hrecord hwaiting).entered
  final _ _ _ _ _ _ _ hmoment hresume hforce := Session.force_final hmoment hresume hforce
  returned _ _ _ hforce := LazyBinding.initialized_of_force hforce
  kept _ _ _ _ horder hrecord hvalue := Session.force_of_initialized horder hrecord hvalue
  inProgress_iff index := (Session.accounts_moment bodies realm reference index).inProgress_iff
  reentry _ _ hrecord hprogress :=
    ⟨LazyBinding.force_of_inProgress hrecord hprogress, fun _ _ _ hlookup ↦
      ⟨Member.read_of_inProgress hlookup hrecord hprogress, fun hmutable ↦
        Member.set_of_inProgress hlookup hrecord hprogress hmutable⟩⟩

end Sessions

end GradualRuntime
