import GradualRuntime.Proofs.BindingAccess

/-!
# The read of a member

What a read does, by the slot that it has found and the state of the cell behind it
(`Member.Reads`). A read calls at most one function, which it knows beforehand (`Member.ReadCalls`):
a getter on the receiver, or the initializer of a binding that has not been accessed. Around this
call it does next to nothing, so it changes a slot other than the one it has found only where the
function that it calls does (`Member.Reads.own?_of_endsWith`).
-/

set_option autoImplicit false

namespace GradualRuntime

/-- A computation calls nothing, or makes one call, of the allowed ones, and is over when it
returns. -/
inductive Progress.CallsAtMostOnce {α : Type} (allowed : Call → Prop) : Progress α → Prop where
  | ended (outcome : Except Fault α) (state : State) :
    CallsAtMostOnce allowed (.ended outcome state)
  | calling {call : Call} {resume : Except Fault Value → State → Progress α} (state : State)
    (fits : allowed call)
    (settled : ∀ answer later, ∃ outcome last, resume answer later = .ended outcome last) :
    CallsAtMostOnce allowed (.calling call state resume)

namespace LazyBinding

variable {state : State} {cell : CellId} {record : LazyCell} {holder : ObjectId} {name : String}

theorem read_of_unknown (h : state.heap.cell? cell = none) :
    read holder name cell state = .ended (.error (.unsupported "lazy cell")) state := by
  simp [read, force, LazyBinding.cell, h]

theorem read_of_initialized (h : state.heap.cell? cell = some record) {value : Value}
    (hstate : record.state = .initialized value) :
    read holder name cell state =
      .ended (.ok value)
        { state with heap := state.heap.define holder name (record.materialized value) } := by
  simp [read, force_of_initialized h hstate, cell_apply h]

theorem read_of_inProgress (h : state.heap.cell? cell = some record)
    (hstate : record.state = .inProgress) :
    read holder name cell state =
      .ended (.error (.circularInitialization record.name)) state := by
  simp [read, force_of_inProgress h hstate]

/-- When the initializer has returned, a read is over. -/
theorem exists_ended_of_keep (answer : Except Fault Value) (later : State) :
    ∃ outcome last, Run.onward (keep holder name cell) answer later = .ended outcome last := by
  cases answer with
  | error fault => exact ⟨_, _, rfl⟩
  | ok value =>
    rw [Run.onward_ok]
    rcases keep_cases holder name cell value later with ⟨-, hkeep⟩ | ⟨record, -, hkeep⟩
    · exact ⟨_, _, hkeep⟩
    · exact ⟨_, _, hkeep⟩

/-- When the initializer has returned, a read stores into no slot of another name. -/
theorem own?_of_keep {answer outcome : Except Fault Value} {later after : State}
    (h : (Run.onward (keep holder name cell) answer later).EndsWith outcome after)
    (object : ObjectId) {slot : String} (hslot : slot ≠ name) :
    after.heap.own? object slot = later.heap.own? object slot := by
  cases answer with
  | error fault =>
    obtain ⟨-, rfl⟩ := Progress.endsWith_ended_iff.1 h
    rfl
  | ok value =>
    rw [Run.onward_ok] at h
    rcases keep_cases holder name cell value later with ⟨-, hkeep⟩ | ⟨record, -, hkeep⟩
    · rw [hkeep] at h
      obtain ⟨-, rfl⟩ := Progress.endsWith_ended_iff.1 h
      rfl
    · rw [hkeep] at h
      obtain ⟨-, rfl⟩ := Progress.endsWith_ended_iff.1 h
      exact Heap.own?_define_of_name_ne _ _ _ hslot _

end LazyBinding

namespace Member

section Reads

/-- What a read of a member does that has found a slot of some holder, or none. -/
inductive Reads (found : Option (ObjectId × Property)) (receiver : Value) (name : String)
    (state : State) : Progress Value → Prop where
  | absent (missing : found = none) :
    Reads found receiver name state (.ended (.ok .undefined) state)
  | data {holder : ObjectId} {held : Value} {writable enumerable : Bool}
    (slot : found = some (holder, .data held writable enumerable)) :
    Reads found receiver name state (.ended (.ok held) state)
  | withoutGetter {holder : ObjectId} {setter : Option FunctionId} {enumerable : Bool}
    (slot : found = some (holder, .accessor none setter enumerable)) :
    Reads found receiver name state (.ended (.ok .undefined) state)
  /-- The receiver is the `this` of a getter, wherever the getter was found. -/
  | getter {holder : ObjectId} {getter : FunctionId} {setter : Option FunctionId}
    {enumerable : Bool} (slot : found = some (holder, .accessor (some getter) setter enumerable)) :
    Reads found receiver name state (.calling ⟨getter, receiver, [], .plain⟩ state .ended)
  | initialized {holder : ObjectId} {cell : CellId} {record : LazyCell} {held : Value}
    (slot : found = some (holder, .binding cell))
    (present : state.heap.cell? cell = some record) (done : record.state = .initialized held) :
    Reads found receiver name state (.ended (.ok held)
      { state with heap := state.heap.define holder name (record.materialized held) })
  | inProgress {holder : ObjectId} {cell : CellId} {record : LazyCell}
    (slot : found = some (holder, .binding cell))
    (present : state.heap.cell? cell = some record) (running : record.state = .inProgress) :
    Reads found receiver name state (.ended (.error (.circularInitialization record.name)) state)
  /-- The initializer of a lazy binding has no `this`, and with its answer the read is over. -/
  | initializer {holder : ObjectId} {cell : CellId} {record : LazyCell} {initializer : FunctionId}
    (slot : found = some (holder, .binding cell))
    (present : state.heap.cell? cell = some record)
    (waiting : record.state = .uninitialized initializer) :
    Reads found receiver name state
      (.calling ⟨initializer, .undefined, [], .initializing cell⟩
        (state.startCell cell record.name)
        fun answer later ↦ Run.onward (LazyBinding.keep holder name cell) answer
          (later.settleCell cell record.name answer))
  | unknownCell {holder : ObjectId} {cell : CellId}
    (slot : found = some (holder, .binding cell))
    (unknown : state.heap.cell? cell = none) :
    Reads found receiver name state (.ended (.error (.unsupported "lazy cell")) state)

/-- The calls that a read makes: the getter of the slot found, on the receiver, or the initializer
of the binding found. -/
inductive ReadCalls (found : Option (ObjectId × Property)) (receiver : Value) (state : State) :
    Call → Prop where
  | getter {holder : ObjectId} {getter : FunctionId} {setter : Option FunctionId}
    {enumerable : Bool} (slot : found = some (holder, .accessor (some getter) setter enumerable)) :
    ReadCalls found receiver state ⟨getter, receiver, [], .plain⟩
  | initializer {holder : ObjectId} {cell : CellId} {record : LazyCell} {initializer : FunctionId}
    (slot : found = some (holder, .binding cell))
    (present : state.heap.cell? cell = some record)
    (waiting : record.state = .uninitialized initializer) :
    ReadCalls found receiver state ⟨initializer, .undefined, [], .initializing cell⟩

variable {found : Option (ObjectId × Property)} {receiver : Value} {name : String} {state : State}
  {progress : Progress Value}

theorem reads_of_binding {holder : ObjectId} {cell : CellId}
    (h : found = some (holder, .binding cell)) :
    Reads found receiver name state (LazyBinding.read holder name cell state) := by
  cases hcell : state.heap.cell? cell with
  | none =>
    rw [LazyBinding.read_of_unknown hcell]
    exact .unknownCell h hcell
  | some record =>
    cases hstate : record.state with
    | initialized held =>
      rw [LazyBinding.read_of_initialized hcell hstate]
      exact .initialized h hcell hstate
    | inProgress =>
      rw [LazyBinding.read_of_inProgress hcell hstate]
      exact .inProgress h hcell hstate
    | uninitialized initializer =>
      rw [LazyBinding.read_of_uninitialized hcell hstate]
      exact .initializer h hcell hstate

theorem reads_read {object : ObjectId} :
    Reads (state.heap.lookup object name) receiver name state
      (read object name receiver state) := by
  simp only [read, Run.bind_apply, Run.ask_apply, Progress.andThen_ended, Run.onward_ok]
  rcases state.heap.lookup object name with
    _ | ⟨holder, held | ⟨_ | getter, setter, enumerable⟩ | cell⟩
  · exact .absent rfl
  · exact .data rfl
  · exact .withoutGetter rfl
  · exact .getter rfl
  · exact reads_of_binding rfl

theorem Reads.callsAtMostOnce (h : Reads found receiver name state progress) :
    progress.CallsAtMostOnce (ReadCalls found receiver state) := by
  cases h with
  | getter slot => exact .calling state (.getter slot) fun answer later ↦ ⟨answer, later, rfl⟩
  | initializer slot present waiting =>
    exact .calling _ (.initializer slot present waiting) fun answer later ↦
      LazyBinding.exists_ended_of_keep answer _
  | _ => exact .ended _ _

/-- A read by itself never finds that a member is missing. -/
theorem Reads.ne_missing (h : Reads found receiver name state progress) (missing : MissingMember)
    (last : State) : progress ≠ .ended (.error (.missingMember missing)) last := by
  cases h <;> simp

/-- After a read, a slot of another name is what it was before, or what the function that the read
has called has left. -/
theorem Reads.own?_of_endsWith (h : Reads found receiver name state progress)
    {outcome : Except Fault Value} {after : State} (hends : progress.EndsWith outcome after)
    (object : ObjectId) {slot : String} (hslot : slot ≠ name) :
    after.heap.own? object slot = state.heap.own? object slot ∨
      ∃ call asked resume answer back, progress = .calling call asked resume ∧
        ReadCalls found receiver state call ∧ (Machine.enter call asked).EndsWith answer back ∧
          after.heap.own? object slot = back.heap.own? object slot := by
  cases h with
  | getter found =>
    obtain ⟨answer, back, hcallee, hrest⟩ := Progress.endsWith_calling_iff.1 hends
    obtain ⟨-, rfl⟩ := Progress.endsWith_ended_iff.1 hrest
    exact .inr ⟨_, _, _, answer, back, rfl, .getter found, hcallee, rfl⟩
  | initialized found present done =>
    obtain ⟨-, rfl⟩ := Progress.endsWith_ended_iff.1 hends
    exact .inl (Heap.own?_define_of_name_ne _ _ _ hslot _)
  | @initializer holder cell record initializer found present waiting =>
    obtain ⟨answer, back, hcallee, hrest⟩ := Progress.endsWith_calling_iff.1 hends
    refine .inr ⟨_, _, _, answer, back, rfl, .initializer found present waiting, hcallee, ?_⟩
    rw [LazyBinding.own?_of_keep hrest object hslot]
    cases answer <;> rfl
  | _ =>
    obtain ⟨-, rfl⟩ := Progress.endsWith_ended_iff.1 hends
    exact .inl rfl

end Reads

end Member

end GradualRuntime
