import GradualRuntime.Proofs.Access

/-!
# Pending calls

What the machine is doing at each moment of a session. A body has control, or a call has ended, or a
call is asked for; and a call is asked for either within an operation that a body has asked for at
an earlier moment, or by what a function does that is no body (`Session.Works`). Each pending call
is on the stack since it was asked for, and what its callee does has led to what is above it
(`Session.Stack`).

From this follows what a move of a session can do to objects (`Session.Move`). It carries out a
careful computation up to its next call or to its end, beforehand perhaps keeps the value of a lazy
binding in the slot through which it has been read, and stores into other slots only when it ends an
operation of a body that stores there (`Session.Stores`).
-/

set_option autoImplicit false

namespace GradualRuntime

section Definitions

/-- A pending call is made for a read of the lazy binding of a cell in a slot: the read asks for
this call and begins with its own continuation. -/
def PendingCall.Reads (pending : PendingCall) (holder : ObjectId) (name : String) (cell : CellId) :
    Prop :=
  ∃ (before asked : State) (resume : Except Fault Value → State → Progress Value)
    (next : Except Fault Value → State → Progress Answer),
    LazyBinding.read holder name cell before = .calling pending.call asked resume ∧
      pending.resume = fun outcome later ↦ (resume outcome later).andThen next

/-- From where a pending call has returned to where what comes next begins. The objects stay as they
are, or the value of a binding gets into the slot for whose read the call was asked for. -/
inductive PendingCall.Settles (pending : PendingCall) (asked returned : State) : State → Prop where
  | idle {settled : State} (objects : settled.heap.objects = returned.heap.objects) :
    Settles pending asked returned settled
  | keeping {settled : State} {holder : ObjectId} {name : String} {cell : CellId}
    {record : LazyCell} {value : Value}
    (held : asked.heap.own? holder name = some (.binding cell))
    (reads : pending.Reads holder name cell)
    (objects : settled.heap.objects = returned.heap.objects)
    (present : settled.heap.cell? cell = some record) (done : record.state = .initialized value) :
    Settles pending asked returned
      { settled with heap := settled.heap.define holder name (record.materialized value) }

/-- A body above some calls has not gone on: other calls are above them, or one is asked for. -/
def Configuration.Busy (configuration : Configuration) (below : List PendingCall) : Prop :=
  below.length < configuration.frames.length ∨
    ∃ call state resume, configuration.current = .calling call state resume

namespace Session

variable (bodies : List Body) (start : State)

/-- The move after a moment ends an operation that a body has asked for, in a state and with an
outcome: the body goes on with the outcome, for the first time. -/
inductive Finishes (index : Nat) :
    Operation → List Value → State → Except Fault Answer → Prop where
  | intro {began : Nat} {below : List PendingCall} {place : RealmId} {operation : Operation}
    {operands : List Value} {next : Except Fault Answer → Body} {begun after : State}
    {outcome : Except Fault Answer} (order : began ≤ index)
    (begins : (moment bodies start began).configuration =
      ⟨below, (Body.perform place operation operands next).run begun⟩)
    (ends : (operation.execute place operands begun).EndsWith outcome after)
    (busy : ∀ between, began < between → between ≤ index →
      (moment bodies start between).configuration ≠ ⟨below, (next outcome).run after⟩)
    (resumes : (moment bodies start (index + 1)).configuration =
      ⟨below, (next outcome).run after⟩) :
    Finishes index operation operands begun outcome

/-- The move after a moment ends an operation that has stored into a slot. -/
def Stores (index : Nat) (object : ObjectId) (name : String) : Prop :=
  ∃ operation operands begun outcome, Finishes bodies start index operation operands begun outcome ∧
    operation.Stores begun.heap operands outcome object name

/-- A call that is asked for at a moment, with what is done with its outcome: it belongs to an
operation that a body has asked for, or to what a function does that is no body. -/
inductive Works (asking : Nat) (below : List PendingCall) (call : Call) (asked : State) :
    (Except Fault Value → State → Progress Answer) → Prop where
  | operation {began : Nat} {place : RealmId} {operation : Operation} {operands : List Value}
    {next : Except Fault Answer → Body} {begun before : State}
    {resume : Except Fault Value → State → Progress Answer} (order : began < asking)
    (begins : (moment bodies start began).configuration =
      ⟨below, (Body.perform place operation operands next).run begun⟩)
    (leads : (operation.execute place operands begun).Leads (.calling call asked resume))
    (busy : ∀ between, began < between → between ≤ asking →
      (moment bodies start between).configuration.Busy below)
    (careful : Progress.Careful (operation.Stores begun.heap operands) before
      (.calling call asked resume)) :
    Works asking below call asked fun outcome later ↦
      (resume outcome later).andThen fun result last ↦ (next result).run last
  | procedure {before : State} {resume : Except Fault Value → State → Progress Answer}
    (careful : Progress.Careful .nothing before (.calling call asked resume)) :
    Works asking below call asked resume

/-- What is going on above some calls at a moment. -/
inductive Running (index : Nat) (below : List PendingCall) : Progress Answer → Prop where
  | body (body : Body) (state : State) : Running index below (body.run state)
  | ended (outcome : Except Fault Answer) (state : State) :
    Running index below (.ended outcome state)
  | calling {call : Call} {asked : State} {resume : Except Fault Value → State → Progress Answer}
    (works : Works bodies start index below call asked resume) :
    Running index below (.calling call asked resume)

/-- The pending calls at a moment, below what is going on. -/
inductive Stack (index : Nat) : List PendingCall → Progress Answer → Prop where
  | bottom (current : Progress Answer) : Stack index [] current
  | call {asking : Nat} {below : List PendingCall} {call : Call} {asked : State}
    {resume : Except Fault Value → State → Progress Answer} {current : Progress Answer}
    (order : asking < index)
    (asks : (moment bodies start asking).configuration = ⟨below, .calling call asked resume⟩)
    (held : ∀ between, asking < between → between ≤ index →
      ⟨call, resume⟩ :: below <:+ (moment bodies start between).configuration.frames)
    (works : Works bodies start asking below call asked resume)
    (stack : Stack index below (.calling call asked resume))
    (leads : (Machine.enter call asked).Leads current) :
    Stack index (⟨call, resume⟩ :: below) current

/-- What a moment consists of. -/
structure Traced (index : Nat) : Prop where
  stack : Stack bodies start index (moment bodies start index).configuration.frames
    (moment bodies start index).configuration.current
  running : Running bodies start index (moment bodies start index).configuration.frames
    (moment bodies start index).configuration.current

/-- From a state, the move after a moment carries out a careful computation up to its next call or
to its end. What it stores at its end, an operation stores that ends. -/
def Carries (index : Nat) (before : State) : Prop :=
  ∃ (slots : Footprint Answer) (progress : Progress Answer),
    Progress.Careful slots before progress ∧
      (moment bodies start (index + 1)).state = progress.state ∧
        ∀ outcome last, progress = .ended outcome last → ∀ object name,
          slots outcome object name → Stores bodies start index object name

/-- What the move after a moment does to objects. -/
inductive Move (index : Nat) : Prop where
  /-- It leaves them as they are. -/
  | idle (objects : (moment bodies start (index + 1)).state.heap.objects =
      (moment bodies start index).state.heap.objects)
  | carrying {before : State}
    (objects : before.heap.objects = (moment bodies start index).state.heap.objects)
    (carries : Carries bodies start index before)
  /-- First it keeps the value of a binding in the slot through which the binding was read. The slot
  held the binding when the read asked for the call of the initializer, and the call has been
  pending since then. -/
  | keeping {settled : State} {holder : ObjectId} {name : String} {cell : CellId}
    {record : LazyCell} {value : Value} {asking : Nat} (order : asking < index)
    (held : (moment bodies start asking).state.heap.own? holder name = some (.binding cell))
    (pending : ∀ between, asking < between → between ≤ index →
      ∃ pending ∈ (moment bodies start between).configuration.frames,
        pending.Reads holder name cell)
    (objects : settled.heap.objects = (moment bodies start index).state.heap.objects)
    (present : settled.heap.cell? cell = some record) (done : record.state = .initialized value)
    (carries : Carries bodies start index
      { settled with heap := settled.heap.define holder name (record.materialized value) })

end Session

end Definitions

section Bodies

/-- What a body does first. -/
theorem Body.run_cases (body : Body) (state : State) :
    (∃ outcome, body.run state = .ended outcome state) ∨
      (∃ place operation operands next,
        body.run state = (Body.perform place operation operands next).run state) ∨
      ∃ name formals code next, body.run state = (Body.close name formals code next).run state := by
  induction body with
  | finish outcome => exact .inl ⟨outcome, rfl⟩
  | withRealm next ih => exact ih state.current
  | perform place operation operands next =>
    exact .inr (.inl ⟨place, operation, operands, next, rfl⟩)
  | close name formals code next => exact .inr (.inr ⟨name, formals, code, next, rfl⟩)

theorem Body.run_ne_calling (body : Body) (state asked : State) (call : Call)
    (resume : Except Fault Value → State → Progress Answer) :
    body.run state ≠ .calling call asked resume := by
  obtain ⟨outcome, h⟩ | ⟨place, operation, operands, next, h⟩ | ⟨name, formals, code, next, h⟩ :=
    body.run_cases state
  · rw [h]
    nofun
  · rw [h, Body.run_perform]
    nofun
  · rw [h, Body.run_close]
    nofun

theorem Configuration.Busy.ne_run {configuration : Configuration} {below : List PendingCall}
    (h : configuration.Busy below) (body : Body) (state : State) :
    configuration ≠ ⟨below, body.run state⟩ := by
  rintro rfl
  rcases h with hlength | ⟨call, asked, resume, hcalling⟩
  · exact Nat.lt_irrefl _ hlength
  · exact body.run_ne_calling state asked call resume hcalling

end Bodies

section Calls

/-- What follows a read does not matter for the call that the read asks for. -/
theorem PendingCall.Reads.andThen {call : Call} {holder : ObjectId} {name : String} {cell : CellId}
    {resume : Except Fault Value → State → Progress Answer}
    (h : PendingCall.Reads ⟨call, resume⟩ holder name cell)
    (last : Except Fault Answer → State → Progress Answer) :
    PendingCall.Reads ⟨call, fun outcome later ↦ (resume outcome later).andThen last⟩ holder name
      cell := by
  obtain ⟨before, asked, first, next, hread, hresume⟩ := h
  refine ⟨before, asked, first, fun outcome later ↦ (next outcome later).andThen last, hread, ?_⟩
  obtain rfl : resume = fun outcome later ↦ (first outcome later).andThen next := hresume
  funext outcome later
  exact Progress.andThen_assoc _ _ _

/-- A call that a read asks for initializes the cell of the binding. -/
theorem PendingCall.Reads.purpose {pending : PendingCall} {holder : ObjectId} {name : String}
    {cell : CellId} (h : pending.Reads holder name cell) :
    pending.call.purpose = .initializing cell := by
  obtain ⟨before, asked, resume, next, hread, -⟩ := h
  cases hcell : before.heap.cell? cell with
  | none => simp [LazyBinding.read, LazyBinding.force, LazyBinding.cell, hcell] at hread
  | some record =>
    cases hstate : record.state with
    | initialized value =>
      simp [LazyBinding.read, LazyBinding.force_of_initialized hcell hstate,
        LazyBinding.cell_apply hcell] at hread
    | inProgress =>
      simp [LazyBinding.read, LazyBinding.force_of_inProgress hcell hstate] at hread
    | uninitialized initializer =>
      rw [LazyBinding.read_of_uninitialized hcell hstate] at hread
      injection hread with hcall
      rw [← hcall]

theorem PendingCall.Settles.andThen {call : Call} {asked returned settled : State}
    {resume : Except Fault Value → State → Progress Answer}
    (h : PendingCall.Settles ⟨call, resume⟩ asked returned settled)
    (last : Except Fault Answer → State → Progress Answer) :
    PendingCall.Settles ⟨call, fun outcome later ↦ (resume outcome later).andThen last⟩ asked
      returned settled := by
  cases h with
  | idle objects => exact .idle objects
  | keeping held reads objects present done =>
    exact .keeping held (reads.andThen last) objects present done

/-- A careful computation goes on carefully with the outcome of its call. -/
theorem Progress.Careful.resumes {slots : Footprint Answer} {before asked : State} {call : Call}
    {resume : Except Fault Value → State → Progress Answer}
    (h : Careful slots before (.calling call asked resume)) (outcome : Except Fault Value)
    (returned : State) :
    ∃ settled, PendingCall.Settles ⟨call, resume⟩ asked returned settled ∧
      Careful slots settled (resume outcome returned) := by
  cases h with
  | calling function this arguments changes rest =>
    exact ⟨returned, .idle rfl, rest outcome returned⟩
  | @forcing _ _ _ cell record function changes present waiting rest =>
    refine ⟨_, .idle ?_, rest outcome returned⟩
    cases outcome <;> rfl
  | @reading _ reached next holder name cell record function changes held present waiting rest =>
    cases outcome with
    | error fault =>
      exact ⟨returned.settleCell cell record.name (.error fault), .idle rfl, rest (.error fault) _⟩
    | ok value =>
      dsimp only
      rw [Run.onward_ok]
      rcases LazyBinding.keep_cases holder name cell value
        (returned.settleCell cell record.name (.ok value)) with ⟨-, hkeep⟩ | ⟨kept, hkept, hkeep⟩
      · rw [hkeep]
        exact ⟨returned.settleCell cell record.name (.ok value), .idle rfl, rest _ _⟩
      · rw [hkeep]
        refine ⟨_, .keeping held ?reads ?objects hkept ?done, rest _ _⟩
        case reads =>
          exact ⟨reached, _, _, next, LazyBinding.read_of_uninitialized present waiting, rfl⟩
        case objects => rfl
        case done => exact Heap.state_of_cell?_setCellState hkept

end Calls

section Moves

variable {bodies : List Body} {start : State} {index : Nat}

theorem Session.configuration_step_of_ended {session : Session} {call : Call}
    {resume : Except Fault Value → State → Progress Answer} {frames : List PendingCall}
    {outcome : Except Fault Answer} {last : State}
    (h : session.configuration = ⟨⟨call, resume⟩ :: frames, .ended outcome last⟩) :
    session.step.configuration = ⟨frames, resume (outcome.map Answer.toValue)
      (last.record (.returned call (outcome.map Answer.toValue)))⟩ := by
  obtain ⟨configuration, pending⟩ := session
  cases h
  rfl

/-- Pending calls that stay below are still pending at the next moment. -/
theorem Session.Stack.later {frames : List PendingCall} {current : Progress Answer}
    (h : Stack bodies start index frames current)
    (hframes : frames <:+ (moment bodies start (index + 1)).configuration.frames) :
    Stack bodies start (index + 1) frames current := by
  induction h with
  | bottom current => exact .bottom current
  | call order asks held works _ leads ih =>
    refine .call (Nat.lt_succ_of_lt order) asks ?_ works
      (ih ((List.suffix_cons _ _).trans hframes)) leads
    intro between hafter hbetween
    rcases Nat.le_or_eq_of_le_succ hbetween with hbefore | rfl
    · exact held between hafter hbefore
    · exact hframes

/-- What goes on above pending calls may be followed to the next moment. -/
theorem Session.Stack.follow {frames : List PendingCall} {current next : Progress Answer}
    (h : Stack bodies start index frames current)
    (hnext : (moment bodies start (index + 1)).configuration = ⟨frames, next⟩)
    (hleads : current.Leads next) : Stack bodies start (index + 1) frames next := by
  have hlater : Stack bodies start (index + 1) frames current := by
    refine h.later ?_
    simp only [hnext, List.suffix_refl]
  cases hlater with
  | bottom => exact .bottom next
  | call order asks held works stack leads =>
    exact .call order asks held works stack (leads.trans hleads)

/-- When an operation has been carried out up to its next call or its end, it asks for the call or
the body goes on. -/
theorem Session.running_of_operation {began : Nat} {below : List PendingCall} {place : RealmId}
    {operation : Operation} {operands : List Value} {next : Except Fault Answer → Body}
    {begun before : State} {progress : Progress Answer} (horder : began ≤ index)
    (hbegins : (moment bodies start began).configuration =
      ⟨below, (Body.perform place operation operands next).run begun⟩)
    (hleads : (operation.execute place operands begun).Leads progress)
    (hbusy : ∀ between, began < between → between ≤ index →
      (moment bodies start between).configuration.Busy below)
    (hcareful : Progress.Careful (operation.Stores begun.heap operands) before progress)
    (hnext : (moment bodies start (index + 1)).configuration =
      ⟨below, progress.andThen fun outcome last ↦ (next outcome).run last⟩) :
    Running bodies start (index + 1) below
        (progress.andThen fun outcome last ↦ (next outcome).run last) ∧
      Carries bodies start index before := by
  cases progress with
  | ended outcome last =>
    rw [Progress.andThen_ended] at hnext ⊢
    refine ⟨.body (next outcome) last, _, _, hcareful, state_of_run hnext, ?_⟩
    rintro _ _ ⟨⟩ object name hstored
    have hends := hleads.endsWith (.ended outcome last)
    refine ⟨operation, operands, begun, outcome, .intro horder hbegins hends
      (fun between hafter hbefore ↦ ?_) hnext, hstored⟩
    exact (hbusy between hafter hbefore).ne_run (next outcome) last
  | paused state resume => cases hcareful
  | calling call asked resume =>
    rw [Progress.andThen_calling] at hnext ⊢
    have hstate : (moment bodies start (index + 1)).state = asked := by
      rw [Session.state, hnext]
      rfl
    refine ⟨.calling (.operation (Nat.lt_succ_of_le horder) hbegins hleads ?_ hcareful),
      _, _, hcareful, hstate, ?_⟩
    · intro between hafter hbetween
      rcases Nat.le_or_eq_of_le_succ hbetween with hbefore | rfl
      · exact hbusy between hafter hbefore
      · rw [hnext]
        exact .inr ⟨_, _, _, rfl⟩
    · rintro _ _ ⟨⟩

/-- The same for what a function does that is no body. -/
theorem Session.running_of_procedure {below : List PendingCall} {before : State}
    {progress : Progress Answer} (hcareful : Progress.Careful .nothing before progress)
    (hnext : (moment bodies start (index + 1)).configuration = ⟨below, progress⟩) :
    Running bodies start (index + 1) below progress ∧ Carries bodies start index before := by
  have hstate : (moment bodies start (index + 1)).state = progress.state := by
    rw [Session.state, hnext]
    rfl
  refine ⟨?_, .nothing, progress, hcareful, hstate, fun _ _ _ _ _ ↦ False.elim⟩
  cases progress with
  | ended outcome last => exact .ended outcome last
  | paused state resume => cases hcareful
  | calling call asked resume => exact .calling (.procedure hcareful)

/-- A call that has been carried out to its end gives its outcome to what it was asked for by. -/
theorem Session.Works.resumed {asking : Nat} {below : List PendingCall} {call : Call}
    {asked last : State} {resume : Except Fault Value → State → Progress Answer}
    {outcome : Except Fault Answer} (h : Works bodies start asking below call asked resume)
    (horder : asking < index)
    (hheld : ∀ between, asking < between → between ≤ index →
      ⟨call, resume⟩ :: below <:+ (moment bodies start between).configuration.frames)
    (hcallee : (Machine.enter call asked).EndsWith outcome last)
    (hnext : (moment bodies start (index + 1)).configuration =
      ⟨below, resume (outcome.map Answer.toValue)
        (last.record (.returned call (outcome.map Answer.toValue)))⟩) :
    Running bodies start (index + 1) below (resume (outcome.map Answer.toValue)
        (last.record (.returned call (outcome.map Answer.toValue)))) ∧
      ∃ settled, PendingCall.Settles ⟨call, resume⟩ asked
          (last.record (.returned call (outcome.map Answer.toValue))) settled ∧
        Carries bodies start index settled := by
  cases h with
  | operation order begins leads busy careful =>
    obtain ⟨settled, hsettles, hcareful⟩ := careful.resumes (outcome.map Answer.toValue)
      (last.record (.returned call (outcome.map Answer.toValue)))
    have hrunning := running_of_operation (Nat.le_of_lt (Nat.lt_trans order horder)) begins
      (leads.resume hcallee) (fun between hafter hbetween ↦ ?_) hcareful hnext
    · exact ⟨hrunning.1, settled, hsettles.andThen _, hrunning.2⟩
    · -- after the call was asked for, it is pending itself
      rcases Nat.lt_or_ge asking between with hasked | hasked
      · exact .inl (Nat.lt_of_succ_le (hheld between hasked hbetween).length_le)
      · exact busy between hafter hasked
  | procedure careful =>
    obtain ⟨settled, hsettles, hcareful⟩ := careful.resumes (outcome.map Answer.toValue)
      (last.record (.returned call (outcome.map Answer.toValue)))
    have hrunning := running_of_procedure hcareful hnext
    exact ⟨hrunning.1, settled, hsettles, hrunning.2⟩

/-- When nothing is left to do above no calls, the next body begins, if there is one. -/
theorem Session.configuration_step_of_finished {session : Session} {outcome : Except Fault Answer}
    {last : State} (h : session.configuration = ⟨[], .ended outcome last⟩) :
    session.step.configuration = ⟨[], .ended outcome last⟩ ∨
      ∃ body : Body, session.step.configuration = ⟨[], body.run last⟩ := by
  obtain ⟨configuration, pending⟩ := session
  cases h
  cases pending with
  | nil => exact .inl rfl
  | cons body rest => exact .inr ⟨body, rfl⟩

theorem Session.state_of_configuration {session : Session} {frames : List PendingCall}
    {current : Progress Answer} (h : session.configuration = ⟨frames, current⟩) :
    session.state = current.state := by
  rw [Session.state, h]
  rfl

theorem Session.Traced.of_configuration {frames : List PendingCall} {current : Progress Answer}
    (h : (moment bodies start index).configuration = ⟨frames, current⟩)
    (stack : Stack bodies start index frames current)
    (running : Running bodies start index frames current) : Traced bodies start index := by
  constructor
  · rw [h]
    exact stack
  · rw [h]
    exact running

/-- The move of a body into an operation. -/
theorem Session.traced_of_perform {frames : List PendingCall} {place : RealmId}
    {operation : Operation} {operands : List Value} {next : Except Fault Answer → Body}
    {state : State}
    (h : (moment bodies start index).configuration =
      ⟨frames, (Body.perform place operation operands next).run state⟩)
    (hstack : Stack bodies start index frames
      ((Body.perform place operation operands next).run state)) :
    Traced bodies start (index + 1) ∧ Move bodies start index := by
  have hstate : (moment bodies start index).state = state := state_of_run h
  have hpaused := h
  rw [Body.run_perform] at hpaused hstack
  have hconfiguration := configuration_step_of_paused hpaused
  rw [← moment_succ] at hconfiguration
  obtain ⟨hrunning, hcarries⟩ := running_of_operation (Nat.le_refl index) h (.refl _)
    (fun between hafter hbetween ↦ absurd hafter (Nat.not_lt_of_le hbetween))
    (careful_execute place operation operands state) hconfiguration
  refine ⟨.of_configuration hconfiguration ?_ hrunning, .carrying (by rw [hstate]) hcarries⟩
  exact hstack.follow hconfiguration (.paused (.refl _))

/-- The move of a body that makes a function. -/
theorem Session.traced_of_close {frames : List PendingCall} {name : String} {formals : List String}
    {code : Value → List Value → Body} {next : FunctionId → Body} {state : State}
    (h : (moment bodies start index).configuration =
      ⟨frames, (Body.close name formals code next).run state⟩)
    (hstack : Stack bodies start index frames ((Body.close name formals code next).run state)) :
    Traced bodies start (index + 1) ∧ Move bodies start index := by
  have hstate : (moment bodies start index).state = state := state_of_run h
  rw [Body.run_close] at h hstack
  have hconfiguration := configuration_step_of_paused h
  rw [← moment_succ] at hconfiguration
  have hnext := hstack.follow hconfiguration (.paused (.refl _))
  refine ⟨.of_configuration hconfiguration hnext (.body _ _), .idle ?_⟩
  rw [state_of_run hconfiguration, hstate]
  rfl

/-- The move after something has ended. -/
theorem Session.traced_of_ended {frames : List PendingCall} {outcome : Except Fault Answer}
    {last : State} (h : (moment bodies start index).configuration = ⟨frames, .ended outcome last⟩)
    (hstack : Stack bodies start index frames (.ended outcome last)) :
    Traced bodies start (index + 1) ∧ Move bodies start index := by
  have hstate : (moment bodies start index).state = last := state_of_configuration h
  cases hstack with
  | bottom =>
    rcases configuration_step_of_finished h with hstep | ⟨body, hstep⟩
    · rw [← moment_succ] at hstep
      refine ⟨.of_configuration hstep (.bottom _) (.ended outcome last), .idle ?_⟩
      rw [hstate, state_of_configuration hstep]
      rfl
    · rw [← moment_succ] at hstep
      refine ⟨.of_configuration hstep (.bottom _) (.body body last), .idle ?_⟩
      rw [hstate, state_of_run hstep]
  | @call asking below call asked resume _ order asks held works stack leads =>
    have hcallee : (Machine.enter call asked).EndsWith outcome last :=
      leads.endsWith (.ended outcome last)
    have hconfiguration := configuration_step_of_ended h
    rw [← moment_succ] at hconfiguration
    obtain ⟨hrunning, settled, hsettles, hcarries⟩ :=
      works.resumed order held hcallee hconfiguration
    have hnext := stack.follow hconfiguration (.calling hcallee (.refl _))
    refine ⟨.of_configuration hconfiguration hnext hrunning, ?_⟩
    cases hsettles with
    | idle objects =>
      refine .carrying (objects.trans ?_) hcarries
      rw [hstate]
      rfl
    | keeping slot reads objects present done =>
      refine .keeping order ?_ ?_ (objects.trans ?_) present done hcarries
      · rw [state_of_configuration asks]
        exact slot
      · intro between hafter hbetween
        exact ⟨_, (held between hafter hbetween).subset List.mem_cons_self, reads⟩
      · rw [hstate]
        rfl

/-- The move into a call that is asked for. -/
theorem Session.traced_of_calling {frames : List PendingCall} {call : Call} {asked : State}
    {resume : Except Fault Value → State → Progress Answer}
    (h : (moment bodies start index).configuration = ⟨frames, .calling call asked resume⟩)
    (hstack : Stack bodies start index frames (.calling call asked resume))
    (hworks : Works bodies start index frames call asked resume) :
    Traced bodies start (index + 1) ∧ Move bodies start index := by
  have hstate : (moment bodies start index).state = asked := state_of_configuration h
  have hconfiguration := configuration_step_of_calling h
  rw [← moment_succ] at hconfiguration
  have hnext : Stack bodies start (index + 1) (⟨call, resume⟩ :: frames)
      (Machine.enter call asked) := by
    refine .call (Nat.lt_succ_self index) h ?_ hworks (hstack.later ?_) (.refl _)
    · intro between hafter hbetween
      obtain rfl : between = index + 1 := Nat.le_antisymm hbetween hafter
      simp only [hconfiguration, List.suffix_refl]
    · simp only [hconfiguration, List.suffix_cons]
  rcases enter_cases call asked with ⟨body, hbody⟩ | hcareful
  · rw [hbody] at hconfiguration hnext
    refine ⟨.of_configuration hconfiguration hnext (.body body _), .idle ?_⟩
    rw [hstate, state_of_run hconfiguration]
    rfl
  · obtain ⟨hrunning, hcarries⟩ := running_of_procedure hcareful hconfiguration
    refine ⟨.of_configuration hconfiguration hnext hrunning, .carrying ?_ hcarries⟩
    rw [hstate]
    rfl

theorem Session.traced_step (h : Traced bodies start index) :
    Traced bodies start (index + 1) ∧ Move bodies start index := by
  obtain ⟨stack, running⟩ := h
  generalize hconfiguration : (moment bodies start index).configuration = configuration at *
  obtain ⟨frames, current⟩ := configuration
  cases running with
  | ended outcome last => exact traced_of_ended hconfiguration stack
  | calling works => exact traced_of_calling hconfiguration stack works
  | body body state =>
    obtain ⟨outcome, hrun⟩ | ⟨place, operation, operands, next, hrun⟩ |
      ⟨name, formals, code, next, hrun⟩ := body.run_cases state
    · rw [hrun] at hconfiguration stack
      exact traced_of_ended hconfiguration stack
    · rw [hrun] at hconfiguration stack
      exact traced_of_perform hconfiguration stack
    · rw [hrun] at hconfiguration stack
      exact traced_of_close hconfiguration stack

/-- At every moment of a session it is known what each pending call is part of. -/
theorem Session.traced_moment (bodies : List Body) (start : State) (index : Nat) :
    Traced bodies start index := by
  induction index with
  | zero => exact ⟨.bottom _, .ended (.ok .done) start⟩
  | succ index ih => exact (traced_step ih).1

/-- What the moves of a session do to objects. -/
theorem Session.move_moment (bodies : List Body) (start : State) (index : Nat) :
    Move bodies start index := (traced_step (traced_moment bodies start index)).2

end Moves

end GradualRuntime
