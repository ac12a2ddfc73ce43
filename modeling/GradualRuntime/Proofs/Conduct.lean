import GradualRuntime.Machine
import GradualRuntime.Proofs.Change

/-!
# The conduct of computations

What a computation may do between two calls, and how it brackets the call of an initializer. A
computation is orderly (`Progress.Orderly`) when between calls it only makes the changes of
`State.Change`, moves a cell to in progress exactly when it asks for a call of its initializer
(`State.startCell`), and begins its continuation after that call by settling the cell
(`State.settleCell`). Nothing is assumed about the calls themselves: a continuation is orderly
whatever the outcome and the state in which it is resumed.

The rules of the library are more than orderly. They are careful (`Progress.Careful`): they never
give control to a body, and they leave the slots of all objects that exist alone, up to three
exceptions. A slot that holds a lazy binding may get the value of its cell; when the initializer of
a binding has been called to read a slot, that slot gets the value; and when a computation ends, it
may store into the slots that are named beforehand for its outcome.

Every operation is careful (`careful_execute`), and everything that the machine carries out is
orderly: every body (`orderly_body`) and every call that is entered (`orderly_enter`).
-/

set_option autoImplicit false

namespace GradualRuntime

/-- A computation that started in a given state is orderly. -/
inductive Progress.Orderly {α : Type} : State → Progress α → Prop where
  | ended {before state : State} {outcome : Except Fault α}
    (changes : State.Changes .anything before state) : Orderly before (.ended outcome state)
  | paused {before state : State} {resume : State → Progress α}
    (changes : State.Changes .anything before state) (rest : Orderly state (resume state)) :
    Orderly before (.paused state resume)
  | calling {before state : State} {resume : Except Fault Value → State → Progress α}
    (function : FunctionId) (this : Value) (arguments : List Value)
    (changes : State.Changes .anything before state)
    (rest : ∀ outcome later, Orderly later (resume outcome later)) :
    Orderly before (.calling ⟨function, this, arguments, .plain⟩ state resume)
  | initializing {before reached : State} {resume : Except Fault Value → State → Progress α}
    {cell : CellId} {record : LazyCell} {function : FunctionId}
    (changes : State.Changes .anything before reached)
    (present : reached.heap.cell? cell = some record)
    (waiting : record.state = .uninitialized function)
    (rest : ∀ outcome later,
      Orderly (later.settleCell cell record.name outcome) (resume outcome later)) :
    Orderly before
      (.calling ⟨function, .undefined, [], .initializing cell⟩ (reached.startCell cell record.name)
        resume)

/-- The slots that a computation may store into when it has ended with an outcome. -/
abbrev Footprint (α : Type) : Type := Except Fault α → ObjectId → String → Prop

/-- No slots. -/
def Footprint.nothing {α : Type} : Footprint α := fun _ _ _ ↦ False

/-- What a read of a lazy binding does with the value of the cell. -/
def LazyBinding.keep (holder : ObjectId) (name : String) (reference : CellId) (value : Value) :
    Run Value := do
  Run.define holder name ((← cell reference).materialized value)
  return value

/-- A computation that started in a given state is careful, and stores at its end into some slots at
most. -/
inductive Progress.Careful {α : Type} (slots : Footprint α) : State → Progress α → Prop where
  | ended {before state : State} {outcome : Except Fault α}
    (changes : State.Changes (.storing (slots outcome)) before state) :
    Careful slots before (.ended outcome state)
  | calling {before state : State} {resume : Except Fault Value → State → Progress α}
    (function : FunctionId) (this : Value) (arguments : List Value)
    (changes : State.Changes Heap.Materializes before state)
    (rest : ∀ outcome later, Careful slots later (resume outcome later)) :
    Careful slots before (.calling ⟨function, this, arguments, .plain⟩ state resume)
  | forcing {before reached : State} {resume : Except Fault Value → State → Progress α}
    {cell : CellId} {record : LazyCell} {function : FunctionId}
    (changes : State.Changes Heap.Materializes before reached)
    (present : reached.heap.cell? cell = some record)
    (waiting : record.state = .uninitialized function)
    (rest : ∀ outcome later,
      Careful slots (later.settleCell cell record.name outcome) (resume outcome later)) :
    Careful slots before
      (.calling ⟨function, .undefined, [], .initializing cell⟩ (reached.startCell cell record.name)
        resume)
  | reading {before reached : State} {next : Except Fault Value → State → Progress α}
    {holder : ObjectId} {name : String} {cell : CellId} {record : LazyCell} {function : FunctionId}
    (changes : State.Changes Heap.Materializes before reached)
    (held : reached.heap.own? holder name = some (.binding cell))
    (present : reached.heap.cell? cell = some record)
    (waiting : record.state = .uninitialized function)
    (rest : ∀ outcome later, Careful slots later (next outcome later)) :
    Careful slots before
      (.calling ⟨function, .undefined, [], .initializing cell⟩ (reached.startCell cell record.name)
        fun outcome later ↦ (Run.onward (LazyBinding.keep holder name cell) outcome
          (later.settleCell cell record.name outcome)).andThen next)

/-- A run is careful from every state, and stores into no slots at its end. -/
def Run.Careful {α : Type} (action : Run α) : Prop :=
  ∀ state, Progress.Careful .nothing state (action state)

/-- A read keeps the value in the slot, as long as the cell exists. -/
theorem LazyBinding.keep_cases (holder : ObjectId) (name : String) (reference : CellId)
    (value : Value) (state : State) :
    (state.heap.cell? reference = none ∧
      keep holder name reference value state = .ended (.error (.unsupported "lazy cell")) state) ∨
    ∃ record, state.heap.cell? reference = some record ∧
      keep holder name reference value state = .ended (.ok value)
        { state with heap := state.heap.define holder name (record.materialized value) } := by
  cases hrecord : state.heap.cell? reference with
  | none => exact .inl ⟨rfl, by simp [keep, cell, hrecord]⟩
  | some record => exact .inr ⟨record, rfl, by simp [keep, cell, hrecord]⟩

namespace Progress.Orderly

variable {α β : Type}

/-- Changes made beforehand keep a computation orderly. -/
theorem weaken {before middle : State} {progress : Progress α}
    (hchanges : State.Changes .anything before middle) (h : Orderly middle progress) :
    Orderly before progress := by
  cases h with
  | ended changes => exact .ended (hchanges.trans changes)
  | paused changes rest => exact .paused (hchanges.trans changes) rest
  | calling function this arguments changes rest =>
    exact .calling function this arguments (hchanges.trans changes) rest
  | initializing changes present waiting rest =>
    exact .initializing (hchanges.trans changes) present waiting rest

theorem andThen {before : State} {progress : Progress α} (h : Orderly before progress)
    {next : Except Fault α → State → Progress β}
    (hnext : ∀ outcome state, Orderly state (next outcome state)) :
    Orderly before (progress.andThen next) := by
  induction h with
  | ended changes => exact (hnext _ _).weaken changes
  | paused changes _ ih => exact .paused changes ih
  | calling function this arguments changes _ ih =>
    exact .calling function this arguments changes ih
  | initializing changes present waiting _ ih => exact .initializing changes present waiting ih

/-- An orderly computation settles the cell whose initializer it has called. -/
theorem settles {before state : State} {call : Call} {cell : CellId}
    {resume : Except Fault Value → State → Progress α}
    (h : Orderly before (.calling call state resume))
    (hpurpose : call.purpose = .initializing cell) :
    ∃ (reached : State) (name : String), state = reached.startCell cell name ∧
      ∀ outcome later, Orderly (later.settleCell cell name outcome) (resume outcome later) := by
  cases h with
  | calling => cases hpurpose
  | @initializing _ reached _ _ record _ _ _ _ rest =>
    cases hpurpose
    exact ⟨reached, record.name, rfl, rest⟩

end Progress.Orderly

namespace Progress.Careful

variable {α β : Type} {slots : Footprint α}

theorem changes_of_nothing {outcome : Except Fault α} {before state : State}
    (h : State.Changes (.storing (Footprint.nothing outcome)) before state) :
    State.Changes Heap.Materializes before state :=
  h.mono fun _ _ _ _ hmay ↦ hmay.resolve_left id

theorem changes_storing {stored : ObjectId → String → Prop} {before state : State}
    (h : State.Changes Heap.Materializes before state) :
    State.Changes (.storing stored) before state :=
  h.mono fun _ _ _ _ ↦ .inr

/-- Changes made beforehand keep a computation careful. -/
theorem weaken {before middle : State} {progress : Progress α}
    (hchanges : State.Changes Heap.Materializes before middle) (h : Careful slots middle progress) :
    Careful slots before progress := by
  cases h with
  | ended changes => exact .ended ((changes_storing hchanges).trans changes)
  | calling function this arguments changes rest =>
    exact .calling function this arguments (hchanges.trans changes) rest
  | forcing changes present waiting rest =>
    exact .forcing (hchanges.trans changes) present waiting rest
  | reading changes held present waiting rest =>
    exact .reading (hchanges.trans changes) held present waiting rest

/-- What follows a computation may store at its end. -/
theorem andThen {before : State} {progress : Progress β} (h : Careful .nothing before progress)
    {next : Except Fault β → State → Progress α}
    (hnext : ∀ outcome state, Careful slots state (next outcome state)) :
    Careful slots before (progress.andThen next) := by
  induction h with
  | ended changes => exact (hnext _ _).weaken (changes_of_nothing changes)
  | calling function this arguments changes _ ih =>
    exact .calling function this arguments changes ih
  | forcing changes present waiting _ ih => exact .forcing changes present waiting ih
  | reading changes held present waiting _ ih =>
    simp only [andThen_calling, andThen_assoc]
    exact .reading changes held present waiting ih

/-- Rewriting the outcome of a computation keeps it careful. -/
theorem map {before : State} {progress : Progress α} (h : Careful slots before progress)
    {stored : Footprint β} {change : Except Fault α → Except Fault β}
    (hstored : ∀ outcome object name, slots outcome object name →
      stored (change outcome) object name) :
    Careful stored before (progress.andThen fun outcome later ↦ .ended (change outcome) later) := by
  induction h with
  | ended changes =>
    exact .ended (changes.mono fun _ _ _ _ hmay ↦ hmay.imp (hstored _ _ _) id)
  | calling function this arguments changes _ ih =>
    exact .calling function this arguments changes ih
  | forcing changes present waiting _ ih => exact .forcing changes present waiting ih
  | reading changes held present waiting _ ih =>
    simp only [andThen_calling, andThen_assoc]
    exact .reading changes held present waiting ih

/-- A computation that stores into some slots at most may be allowed to store into more. -/
theorem widen {before : State} {progress : Progress α} (h : Careful slots before progress)
    {wider : Footprint α}
    (hslots : ∀ outcome object name, slots outcome object name → wider outcome object name) :
    Careful wider before progress := by
  have hmap : Careful wider before (progress.andThen fun outcome later ↦ .ended outcome later) :=
    h.map hslots
  rwa [andThen_ended_self] at hmap

/-- A careful computation is orderly. -/
theorem orderly {before : State} {progress : Progress α} (h : Careful slots before progress) :
    Orderly before progress := by
  have hanything : ∀ {may : Heap.Permission} {first last : State}, State.Changes may first last →
      State.Changes .anything first last := fun h ↦ h.mono fun _ _ _ _ _ ↦ trivial
  induction h with
  | ended changes => exact .ended (hanything changes)
  | calling function this arguments changes _ ih =>
    exact .calling function this arguments (hanything changes) ih
  | forcing changes present waiting _ ih =>
    exact .initializing (hanything changes) present waiting ih
  | @reading _ _ _ holder name cell record _ changes held present waiting _ ih =>
    refine .initializing (hanything changes) present waiting fun outcome later ↦ ?_
    cases outcome with
    | error fault => exact ih _ _
    | ok value =>
      rw [Run.onward_ok]
      rcases LazyBinding.keep_cases holder name cell value
        (later.settleCell cell record.name (.ok value)) with ⟨-, hkeep⟩ | ⟨kept, -, hkeep⟩
      · rw [hkeep]
        exact ih _ _
      · rw [hkeep]
        exact (ih _ _).weaken (.single (.heap (.define _ holder name _ trivial)))

end Progress.Careful

namespace Run.Careful

variable {α β : Type}

/-- A careful run is careful whatever it may store into at its end. -/
theorem widen {action : Run α} (h : action.Careful) (slots : Footprint α) (state : State) :
    Progress.Careful slots state (action state) := (h state).widen fun _ _ _ ↦ False.elim

theorem pure (result : α) : (Pure.pure result : Run α).Careful := fun _ ↦ .ended .refl

theorem fail (fault : Fault) : (Run.fail fault : Run α).Careful := fun _ ↦ .ended .refl

/-- A sequence may store in its second part. -/
theorem bind_storing {action : Run α} {next : α → Run β} {slots : Footprint β}
    (haction : action.Careful)
    (hnext : ∀ result later, Progress.Careful slots later (next result later)) (state : State) :
    Progress.Careful slots state ((action >>= next) state) := by
  refine (haction state).andThen ?_
  rintro (fault | result) later
  · exact .ended .refl
  · exact hnext result later

theorem bind {action : Run α} {next : α → Run β} (haction : action.Careful)
    (hnext : ∀ result, (next result).Careful) : (action >>= next).Careful :=
  bind_storing haction fun result ↦ hnext result

theorem map {action : Run α} (change : α → β) (haction : action.Careful) :
    (change <$> action).Careful := haction.bind fun result ↦ .pure (change result)

/-- Answering with what a computation has given keeps it careful. -/
theorem bind_pure {action : Run α} {state : State} {slots : Footprint α}
    (h : Progress.Careful slots state (action state)) (change : α → β) {stored : Footprint β}
    (hstored : ∀ outcome object name, slots outcome object name →
      stored (outcome.map change) object name) :
    Progress.Careful stored state ((action >>= fun result ↦ Pure.pure (change result)) state) := by
  have hanswer : (onward fun result : α ↦ (Pure.pure (change result) : Run β)) =
      fun outcome later ↦ .ended (outcome.map change) later := by
    funext outcome later
    cases outcome <;> rfl
  rw [bind_apply, hanswer]
  exact h.map hstored

theorem get : (MonadState.get : Run State).Careful := fun _ ↦ .ended .refl

theorem heap : Run.heap.Careful := fun _ ↦ .ended .refl

theorem realm (reference : RealmId) : (Run.realm reference).Careful := fun _ ↦ .ended .refl

theorem call (function : FunctionId) (this : Value) (arguments : List Value) :
    (Run.call function this arguments).Careful :=
  fun _ ↦ .calling function this arguments .refl fun _ _ ↦ .ended .refl

theorem create {next : Heap → α} {add : Heap → Heap}
    (hadd : ∀ heap may, Heap.Change may heap (add heap)) : (Run.create next add).Careful :=
  fun state ↦ .ended (.single (.heap (hadd state.heap _)))

theorem emit {event : Event} (hquiet : event.cell? = none) : (Run.emit event).Careful :=
  fun state ↦ .ended (.single (.emitted state event hquiet))

/-- Storing into one slot of an object. -/
theorem define {object : ObjectId} {name : String} {slots : Footprint Unit}
    (hslots : slots (.ok ()) object name) (property : Property) (state : State) :
    Progress.Careful slots state (Run.define object name property state) :=
  .ended (.single (.heap (.define state.heap object name property (.inl hslots))))

/-- Answering after a store into one slot of an object. -/
theorem define_pure {object : ObjectId} {name : String} {slots : Footprint α} {answer : α}
    (hslots : slots (.ok answer) object name) (property : Property) (state : State) :
    Progress.Careful slots state
      ((Run.define object name property >>= fun _ ↦ Pure.pure answer) state) :=
  .ended (.single (.heap (.define state.heap object name property (.inl hslots))))

theorem allocate (prototype : Option ObjectId) (tag : Option String) :
    (Run.allocate prototype tag).Careful := by
  intro state
  by_cases hknown : (prototype.all fun parent ↦ state.heap.knows (.object parent)) = true
  · rw [Run.allocate_of_known hknown]
    refine .ended (.single (.heap (.addObject state.heap _ ?_)))
    rintro parent rfl
    simpa [Heap.knows] using hknown
  · rw [Run.allocate_of_unknown hknown]
    exact .ended .refl

/-- What follows an allocation goes on with the new object, or not at all. -/
theorem allocate_bind {before state : State}
    (hbefore : State.Changes Heap.Materializes before state) {prototype : Option ObjectId}
    {tag : Option String} {next : ObjectId → Run α} {slots : Footprint α}
    (h : (∀ parent, prototype = some parent → parent.index < state.heap.objects.size) →
      Progress.Careful slots before (next state.heap.nextObject
        { state with heap := state.heap.addObject ⟨prototype, tag, .empty⟩ })) :
    Progress.Careful slots before ((Run.allocate prototype tag >>= next) state) := by
  by_cases hknown : (prototype.all fun parent ↦ state.heap.knows (.object parent)) = true
  · rw [Run.bind_of_ok (Run.allocate_of_known hknown tag)]
    refine h ?_
    rintro parent rfl
    simpa [Heap.knows] using hknown
  · rw [Run.bind_of_error (Run.allocate_of_unknown hknown tag)]
    exact .ended (Progress.Careful.changes_storing hbefore)

/-- An object that gets slots at once is added with them. -/
theorem allocate_defineAll {before state : State}
    (hbefore : State.Changes Heap.Materializes before state) {prototype : Option ObjectId}
    {tag : Option String} {entries : List (String × Property)} {next : ObjectId → Run α}
    {slots : Footprint α}
    (h : (∀ parent, prototype = some parent → parent.index < state.heap.objects.size) →
      Progress.Careful slots before (next state.heap.nextObject
        { state with
          heap := state.heap.addObject ⟨prototype, tag, OrderedMap.empty.insertAll entries⟩ })) :
    Progress.Careful slots before
      ((do
        let object ← Run.allocate prototype tag
        Run.changeHeap fun heap ↦ heap.defineAll object entries
        next object) state) := by
  refine allocate_bind hbefore fun hknown ↦ ?_
  rw [Run.bind_of_ok (Run.changeHeap_apply _ _), Heap.defineAll_addObject]
  exact h hknown

theorem makeFunction (name : String) (formals : List String) {procedure : Procedure}
    (hordinary : ∀ table, procedure ≠ .tableSet table) :
    (Run.makeFunction name formals procedure).Careful :=
  fun state ↦ .ended (.single (.function state ⟨name, formals⟩ procedure hordinary))

theorem classRecord (reference : ClassId) : (Run.classRecord reference).Careful := by
  refine heap.bind fun current ↦ ?_
  cases current.class? reference with
  | none => exact fail _
  | some record => exact pure record

theorem forM {action : α → Run Unit} (haction : ∀ item, (action item).Careful) (items : List α) :
    (items.forM action).Careful := by
  induction items with
  | nil => exact pure ()
  | cons item rest ih => exact (haction item).bind fun _ ↦ ih

end Run.Careful

namespace Body

/-- A body that asks for an operation goes on with its outcome. -/
theorem run_perform (realm : RealmId) (operation : Operation) (operands : List Value)
    (next : Except Fault Answer → Body) (state : State) :
    (Body.perform realm operation operands next).run state =
      .paused state fun later ↦ (operation.execute realm operands later).andThen
        fun outcome after ↦ (next outcome).run after := by
  simp only [run, Run.bind_apply, Run.pause_apply, Progress.andThen_paused,
    Progress.andThen_ended, Run.onward_ok, Run.attempt_apply, Progress.andThen_assoc]

/-- A body that makes a function goes on with it. -/
theorem run_close (name : String) (formals : List String) (body : Value → List Value → Body)
    (next : FunctionId → Body) (state : State) :
    (Body.close name formals body next).run state =
      .paused state fun later ↦ (next later.heap.nextFunction).run
        { later with
          heap := later.heap.addFunction ⟨name, formals⟩
          procedures := later.procedures.push (.native body) } := rfl

end Body

end GradualRuntime
