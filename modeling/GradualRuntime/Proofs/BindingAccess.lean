import GradualRuntime.Proofs.Access
import GradualRuntime.Proofs.WellFormed

/-!
# Access to a lazy binding

A read or a write that finds a lazy binding forces its cell and stores into the slot of the holder
afterwards. Between the two runs the initializer, which may do anything: it may come back to the
holder, replace or copy the very slot, or fail. The store does not look at what has become of the
slot in the meantime, and the name under which it stores is that of the slot, which need not be the
name of the cell.

`LazyBinding.Forced` says what a force comes to in each state of the cell. A read comes to the same
and keeps the value (`LazyBinding.endsWith_read_iff`); a write to a mutable binding stores the
written value in its place (`LazyBinding.endsWith_write_iff`). In both cases a fault stores nothing.
`Member.bindingAccess` draws the consequences for the slot, for the cell and for the next read.
-/

set_option autoImplicit false

namespace GradualRuntime

namespace LazyBinding

/-- The call that a force makes. -/
def initializing (cell : CellId) (initializer : FunctionId) : Call :=
  ⟨initializer, .undefined, [], .initializing cell⟩

/-- The outcome of a force of a cell and the state after it. The initializer is run when the cell
has not been accessed, and in no other case. -/
inductive Forced (cell : CellId) (record : LazyCell) (state : State) :
    Except Fault Value → State → Prop where
  | initialized {value : Value} (done : record.state = .initialized value) :
    Forced cell record state (.ok value) state
  | inProgress (running : record.state = .inProgress) :
    Forced cell record state (.error (.circularInitialization record.name)) state
  | uninitialized {initializer : FunctionId} {answer : Except Fault Answer} {back : State}
    (waiting : record.state = .uninitialized initializer)
    (run : (Machine.enter (initializing cell initializer)
      (state.startCell cell record.name)).EndsWith answer back) :
    Forced cell record state (answer.map Answer.toValue)
      ((back.record (.returned (initializing cell initializer)
        (answer.map Answer.toValue))).settleCell cell record.name (answer.map Answer.toValue))

/-- How a force of a cell fails: the initializer is running, or it is run and fails. -/
inductive ForceFails (cell : CellId) (record : LazyCell) (state : State) :
    Fault → State → Prop where
  | inProgress (running : record.state = .inProgress) :
    ForceFails cell record state (.circularInitialization record.name) state
  | initializer {initializer : FunctionId} {fault : Fault} {back : State}
    (waiting : record.state = .uninitialized initializer)
    (run : (Machine.enter (initializing cell initializer)
      (state.startCell cell record.name)).EndsWith (.error fault) back) :
    ForceFails cell record state fault
      ((back.record (.returned (initializing cell initializer)
        (.error fault))).settleCell cell record.name (.error fault))

/-- The state after a force with a descriptor stored in a slot. A fault stores nothing. -/
def stored (holder : ObjectId) (name : String) (property : Value → Property) (forced : State) :
    Except Fault Value → State
  | .ok value => { forced with heap := forced.heap.define holder name (property value) }
  | .error _ => forced

variable {state after forced : State} {cell : CellId} {record : LazyCell} {holder : ObjectId}
  {name : String} {outcome : Except Fault Value}

theorem endsWith_force_iff (h : state.heap.cell? cell = some record) :
    (force cell state).EndsWith outcome after ↔ Forced cell record state outcome after := by
  constructor
  · intro hforce
    cases hstate : record.state with
    | initialized value =>
      rw [force_of_initialized h hstate] at hforce
      obtain ⟨rfl, rfl⟩ := Progress.endsWith_ended_iff.1 hforce
      exact .initialized hstate
    | inProgress =>
      rw [force_of_inProgress h hstate] at hforce
      obtain ⟨rfl, rfl⟩ := Progress.endsWith_ended_iff.1 hforce
      exact .inProgress hstate
    | uninitialized initializer =>
      rw [force_of_uninitialized h hstate] at hforce
      obtain ⟨answer, back, hcallee, hrest⟩ := Progress.endsWith_calling_iff.1 hforce
      obtain ⟨rfl, rfl⟩ := Progress.endsWith_ended_iff.1 hrest
      exact .uninitialized hstate hcallee
  · intro hforced
    cases hforced with
    | initialized done =>
      rw [force_of_initialized h done]
      exact .ended _ _
    | inProgress running =>
      rw [force_of_inProgress h running]
      exact .ended _ _
    | uninitialized waiting run => exact endsWith_force h waiting run

theorem endsWith_force_error_iff (h : state.heap.cell? cell = some record) {fault : Fault} :
    (force cell state).EndsWith (.error fault) after ↔
      ForceFails cell record state fault after := by
  rw [endsWith_force_iff h]
  constructor
  · intro hforced
    generalize houtcome : (Except.error fault : Except Fault Value) = outcome at hforced
    cases hforced with
    | initialized done => cases houtcome
    | inProgress running =>
      cases houtcome
      exact .inProgress running
    | @uninitialized _ answer _ waiting run =>
      cases answer with
      | ok answer => cases houtcome
      | error other =>
        cases houtcome
        exact .initializer waiting run
  · intro hfails
    cases hfails with
    | inProgress running => exact .inProgress running
    | initializer waiting run => exact .uninitialized waiting run

/-- A cell that has given a value keeps it. -/
theorem Forced.cell?_eq {value : Value} (hforced : Forced cell record state (.ok value) after)
    (h : state.heap.cell? cell = some record) :
    after.heap.cell? cell = some { record with state := .initialized value } := by
  have hforce := (endsWith_force_iff h).2 hforced
  obtain ⟨moved, hmoved⟩ := cell?_of_force h hforce
  obtain ⟨last, hlast, hvalue⟩ := initialized_of_force hforce
  obtain rfl := Option.some.inj (hmoved.symm.trans hlast)
  rw [hmoved, ← hvalue]

/-- What exists before a force exists after it. -/
theorem Forced.lt_size (hforced : Forced cell record state outcome after)
    (h : state.heap.cell? cell = some record) (hholder : holder.index < state.heap.objects.size) :
    holder.index < after.heap.objects.size :=
  Nat.lt_of_lt_of_le hholder (((endsWith_force_iff h).2 hforced).transitions
    (careful_force cell state).orderly []).grows.objects

/-- A read comes to what the force comes to, and keeps a value in the slot. -/
theorem endsWith_read_iff (h : state.heap.cell? cell = some record) :
    (read holder name cell state).EndsWith outcome after ↔
      ∃ forced, Forced cell record state outcome forced ∧
        after = stored holder name record.materialized forced outcome := by
  constructor
  · intro hread
    obtain ⟨result, forced, hforce, hkeep⟩ := Progress.endsWith_andThen_iff.1 hread
    cases result with
    | error fault =>
      obtain ⟨rfl, rfl⟩ := Progress.endsWith_ended_iff.1 hkeep
      exact ⟨after, (endsWith_force_iff h).1 hforce, rfl⟩
    | ok value =>
      obtain ⟨rfl, rfl⟩ := hread.unique (endsWith_read h hforce)
      exact ⟨forced, (endsWith_force_iff h).1 hforce, rfl⟩
  · rintro ⟨forced, hforced, rfl⟩
    have hforce := (endsWith_force_iff h).2 hforced
    cases outcome with
    | error fault => exact endsWith_read_error hforce
    | ok value => exact endsWith_read h hforce

/-- A read fails exactly when the force fails, and then nothing follows. -/
theorem endsWith_read_error_iff {fault : Fault} :
    (read holder name cell state).EndsWith (.error fault) after ↔
      (force cell state).EndsWith (.error fault) after := by
  refine ⟨fun hread ↦ ?_, endsWith_read_error⟩
  cases hcell : state.heap.cell? cell with
  | none => simpa [read, force, LazyBinding.cell, hcell] using hread
  | some record =>
    obtain ⟨forced, hforced, rfl⟩ := (endsWith_read_iff hcell).1 hread
    exact (endsWith_force_iff hcell).2 hforced

/-- A write to a mutable binding fails as the force does, and stores the written value otherwise. -/
theorem endsWith_write_iff (h : state.heap.cell? cell = some record)
    (hmutable : record.isMutable = true) {written : Value} {result : Except Fault Unit} :
    (write holder name cell written state).EndsWith result after ↔
      ∃ outcome forced, Forced cell record state outcome forced ∧
        result = outcome.map (fun _ ↦ ()) ∧
        after = stored holder name (fun _ ↦ .data written true true) forced outcome := by
  have hwrite : write holder name cell written state =
      (force cell state).andThen (Run.onward fun _ ↦
        Run.define holder name (.data written true true)) := by
    rw [write, Run.bind_of_ok (cell_apply h), if_pos hmutable, LazyCell.materialized, hmutable]
    rfl
  rw [hwrite, Progress.endsWith_andThen_iff]
  constructor
  · rintro ⟨outcome, forced, hforce, hstore⟩
    refine ⟨outcome, forced, (endsWith_force_iff h).1 hforce, ?_⟩
    cases outcome with
    | error fault => exact Progress.endsWith_ended_iff.1 hstore
    | ok value => exact Progress.endsWith_ended_iff.1 hstore
  · rintro ⟨outcome, forced, hforced, rfl, rfl⟩
    refine ⟨outcome, forced, (endsWith_force_iff h).2 hforced, ?_⟩
    cases outcome with
    | error fault => exact .ended _ _
    | ok value => exact .ended _ _

theorem write_of_immutable (h : state.heap.cell? cell = some record)
    (himmutable : record.isMutable = false) (written : Value) :
    write holder name cell written state = .ended (.error (.readOnly name)) state := by
  simp [write, cell_apply h, himmutable]

/-- A read that succeeds has given the cell its value. -/
theorem cell?_of_read (h : state.heap.cell? cell = some record) {value : Value}
    (hread : (read holder name cell state).EndsWith (.ok value) after) :
    after.heap.cell? cell = some { record with state := .initialized value } := by
  obtain ⟨forced, hforced, rfl⟩ := (endsWith_read_iff h).1 hread
  exact hforced.cell?_eq h

/-- A read that succeeds leaves the value of the cell in the slot. -/
theorem own?_of_read (h : state.heap.cell? cell = some record) {value : Value}
    (hholder : holder.index < state.heap.objects.size)
    (hread : (read holder name cell state).EndsWith (.ok value) after) :
    after.heap.own? holder name = some (.data value record.isMutable true) := by
  obtain ⟨forced, hforced, rfl⟩ := (endsWith_read_iff h).1 hread
  exact Heap.own?_define_self (hforced.lt_size h hholder) name _

/-- A write that succeeds leaves the written value in the slot. -/
theorem own?_of_write {written : Value} (hholder : holder.index < state.heap.objects.size)
    (hwrite : (write holder name cell written state).EndsWith (.ok ()) after) :
    after.heap.own? holder name = some (.data written true true) := by
  cases hcell : state.heap.cell? cell with
  | none => simp [write, LazyBinding.cell, hcell] at hwrite
  | some record =>
    cases hmutable : record.isMutable with
    | false => simp [write_of_immutable hcell hmutable] at hwrite
    | true =>
      obtain ⟨outcome, forced, hforced, hresult, rfl⟩ :=
        (endsWith_write_iff hcell hmutable).1 hwrite
      cases outcome with
      | error fault => cases hresult
      | ok initial => exact Heap.own?_define_self (hforced.lt_size hcell hholder) name _

end LazyBinding

namespace Member

open LazyBinding

/-- What reads and writes do that find a lazy binding in a slot of some holder. -/
structure BindingAccess (state : State) (object holder : ObjectId) (name : String) (cell : CellId)
    (record : LazyCell) : Prop where
  /-- A read comes to what a force of the cell comes to, and a value is stored in the slot then. -/
  read_iff : ∀ receiver {outcome after}, (read object name receiver state).EndsWith outcome after ↔
    ∃ forced, Forced cell record state outcome forced ∧
      after = stored holder name record.materialized forced outcome
  /-- A write to a mutable binding fails as a force of the cell does, and stores the written value
  when the force has given one. -/
  set_iff : record.isMutable = true → ∀ written {result after},
    (set object name written state).EndsWith result after ↔
      ∃ outcome forced, Forced cell record state outcome forced ∧
        result = outcome.map (fun _ ↦ ()) ∧
        after = stored holder name (fun _ ↦ .data written true true) forced outcome
  /-- A write to an immutable binding fails at once, whatever the state of the cell. -/
  set_immutable : record.isMutable = false → ∀ written,
    set object name written state = .ended (.error (.readOnly name)) state
  /-- A read that succeeds returns the value that the cell has then and leaves it in the slot. -/
  read_ok : ∀ {receiver value after}, (read object name receiver state).EndsWith (.ok value) after →
    after.heap.cell? cell = some { record with state := .initialized value } ∧
      after.heap.own? holder name = some (.data value record.isMutable true)
  /-- The next read of the slot, through any object, returns the value and is over at once. -/
  next_read : ∀ {receiver value after},
    (read object name receiver state).EndsWith (.ok value) after →
      ∀ reader this property, after.heap.lookup reader name = some (holder, property) →
        read reader name this after = .ended (.ok value) after
  /-- A write to a mutable binding that succeeds has forced the cell, which keeps the value of the
  initializer, and leaves the written value in the slot. -/
  set_ok : record.isMutable = true → ∀ {written after},
    (set object name written state).EndsWith (.ok ()) after →
      ∃ initial forced, Forced cell record state (.ok initial) forced ∧
        after = stored holder name (fun _ ↦ .data written true true) forced (.ok initial) ∧
        after.heap.cell? cell = some { record with state := .initialized initial } ∧
        after.heap.own? holder name = some (.data written true true)
  /-- When the initializer fails, reads and writes fail with the same fault, and nothing but the
  trace changes after the failure. -/
  failed : ∀ {initializer fault back}, record.state = .uninitialized initializer →
    (Machine.enter (initializing cell initializer) (state.startCell cell record.name)).EndsWith
      (.error fault) back →
      ∃ after, after = { back with trace := after.trace } ∧
        (∀ receiver, (read object name receiver state).EndsWith (.error fault) after) ∧
        (record.isMutable = true → ∀ written,
          (set object name written state).EndsWith (.error fault) after)

variable {state : State} {object holder : ObjectId} {name : String} {cell : CellId}
  {record : LazyCell}

theorem endsWith_read_iff (hlookup : state.heap.lookup object name = some (holder, .binding cell))
    (hrecord : state.heap.cell? cell = some record) {receiver : Value}
    {outcome : Except Fault Value} {after : State} :
    (read object name receiver state).EndsWith outcome after ↔
      ∃ forced, Forced cell record state outcome forced ∧
        after = stored holder name record.materialized forced outcome := by
  rw [read_of_binding hlookup, LazyBinding.endsWith_read_iff hrecord]

theorem endsWith_set_iff (hlookup : state.heap.lookup object name = some (holder, .binding cell))
    (hrecord : state.heap.cell? cell = some record) (hmutable : record.isMutable = true)
    {written : Value} {result : Except Fault Unit} {after : State} :
    (set object name written state).EndsWith result after ↔
      ∃ outcome forced, Forced cell record state outcome forced ∧
        result = outcome.map (fun _ ↦ ()) ∧
        after = stored holder name (fun _ ↦ .data written true true) forced outcome := by
  rw [set_of_binding hlookup, endsWith_write_iff hrecord hmutable]

/-- Assumes: the lookup of the name finds the binding of a cell of the heap.

For every initializer and every state of the cell, reads and writes go through a force of the cell,
and what they store in the slot of the holder comes after it. -/
theorem bindingAccess (hlookup : state.heap.lookup object name = some (holder, .binding cell))
    (hrecord : state.heap.cell? cell = some record) :
    BindingAccess state object holder name cell record where
  read_iff _ := endsWith_read_iff hlookup hrecord
  set_iff hmutable _ := endsWith_set_iff hlookup hrecord hmutable
  set_immutable himmutable written := by
    rw [set_of_binding hlookup, write_of_immutable hrecord himmutable]
  read_ok {receiver value after} hread := by
    have hholder := Heap.exists_of_own?_eq_some (Heap.own?_of_lookup hlookup)
    rw [read_of_binding hlookup] at hread
    exact ⟨cell?_of_read hrecord hread, own?_of_read hrecord hholder hread⟩
  next_read {receiver value after} hread reader this property hreader := by
    have hholder := Heap.exists_of_own?_eq_some (Heap.own?_of_lookup hlookup)
    rw [read_of_binding hlookup] at hread
    have hslot := own?_of_read hrecord hholder hread
    obtain rfl := Option.some.inj ((Heap.own?_of_lookup hreader).symm.trans hslot)
    exact read_of_data hreader this
  set_ok hmutable {written after} hset := by
    have hholder := Heap.exists_of_own?_eq_some (Heap.own?_of_lookup hlookup)
    rw [set_of_binding hlookup] at hset
    have hslot := own?_of_write hholder hset
    obtain ⟨outcome, forced, hforced, hresult, rfl⟩ := (endsWith_write_iff hrecord hmutable).1 hset
    cases outcome with
    | error fault => cases hresult
    | ok initial => exact ⟨initial, forced, hforced, rfl, hforced.cell?_eq hrecord, hslot⟩
  failed {initializer fault back} waiting hrun := by
    have hforced := Forced.uninitialized waiting hrun
    refine ⟨_, ?_, fun receiver ↦ (endsWith_read_iff hlookup hrecord).2 ⟨_, hforced, rfl⟩,
      fun hmutable written ↦
        (endsWith_set_iff hlookup hrecord hmutable).2 ⟨_, _, hforced, rfl, rfl⟩⟩
    rfl

/-- Puts an ordinary slot in the place of the binding, and gives another value. -/
def replacingInitializer : Body :=
  .perform ⟨0⟩ (.object (.define .ordinary)) [.object ⟨0⟩, .string "alias", .integer 5] fun _ ↦
  .finish (.ok (.value (.integer 7)))

/-- An object with a mutable binding, in a slot that has another name than the cell, and an heir of
the object. -/
def aliasState : State :=
  let functions := Heap.empty.addFunction ⟨"initializer", []⟩
  let cells := functions.addCell ⟨"field", true, .uninitialized ⟨0⟩⟩
  let holder := (cells.addObject ⟨none, none, .empty⟩).define ⟨0⟩ "alias" (.binding ⟨0⟩)
  { State.fresh .standard with
    heap := holder.addObject ⟨some ⟨0⟩, none, .empty⟩
    procedures := Arena.empty.push (.native fun _ _ ↦ replacingInitializer) }

/-- A read through the heir and a write through it both have the last word on the slot that the
initializer has replaced. -/
theorem bindingAccess_alias :
    (∃ after, (read ⟨1⟩ "alias" .null aliasState).EndsWith (.ok (.integer 7)) after ∧
      after.heap.own? ⟨0⟩ "alias" = some (.data (.integer 7) true true)) ∧
    ∃ after, (set ⟨1⟩ "alias" (.integer 9) aliasState).EndsWith (.ok ()) after ∧
      after.heap.own? ⟨0⟩ "alias" = some (.data (.integer 9) true true) := by
  have hlookup : aliasState.heap.lookup ⟨1⟩ "alias" = some (⟨0⟩, .binding ⟨0⟩) := by decide
  have hrecord : aliasState.heap.cell? ⟨0⟩ = some ⟨"field", true, .uninitialized ⟨0⟩⟩ := rfl
  have hrun : (Machine.enter (initializing ⟨0⟩ ⟨0⟩) (aliasState.startCell ⟨0⟩ "field")).EndsWith
      (.ok (.value (.integer 7))) _ :=
    Machine.endsWith_enter rfl (Body.endsWith_perform (.ended _ _) (Body.endsWith_finish _ _))
  have haccess := bindingAccess hlookup hrecord
  have hwaiting : (⟨"field", true, .uninitialized ⟨0⟩⟩ : LazyCell).state = .uninitialized ⟨0⟩ := rfl
  have hforced := Forced.uninitialized hwaiting hrun
  have hread := (haccess.read_iff .null).2 ⟨_, hforced, rfl⟩
  have hset := (haccess.set_iff rfl (.integer 9)).2 ⟨_, _, hforced, rfl, rfl⟩
  obtain ⟨-, -, -, -, -, hslot⟩ := haccess.set_ok rfl hset
  exact ⟨⟨_, hread, (haccess.read_ok hread).2⟩, _, hset, hslot⟩

end Member

end GradualRuntime
