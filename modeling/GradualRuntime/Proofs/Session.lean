import GradualRuntime.Proofs.Conduct.Operation
import GradualRuntime.Script.Program
import Mathlib.Data.Nat.Init
import Mathlib.Logic.Function.Iterate

/-!
# Sessions

A session is the run of a program: a list of bodies that are carried out one after another from one
state. `Session.moment` gives its moments, numbered in the order in which the machine passes through
them: each point at which a body has control, each call that is asked for, each call that has ended.

What matters about a moment, besides the state, are the calls that have not returned. A `Ledger`
holds both, and `Ledger.Transition` lists everything that can happen to it. Between any two moments
of any session the ledger makes a sequence of these transitions (`transitions_moment`), so whatever
holds of a fresh ledger and is kept by each transition holds at every moment of every session.

The states that a program reports are moments of its session (`exists_moment_of_mem_runSteps`).
-/

set_option autoImplicit false

namespace GradualRuntime

/-- A program in execution: the body that is running and the bodies that come after it. -/
structure Session where
  configuration : Configuration
  pending : List Body

namespace Session

/-- A program that is about to run. -/
def start (bodies : List Body) (state : State) : Session :=
  ⟨⟨[], .ended (.ok .done) state⟩, bodies⟩

/-- Moves on, to the next body when one has ended. -/
def step : Session → Session
  | ⟨⟨[], .ended _ state⟩, body :: rest⟩ => ⟨.start body state, rest⟩
  | ⟨configuration, pending⟩ => ⟨configuration.step, pending⟩

/-- The moment of a program that is reached after some moves. -/
def moment (bodies : List Body) (state : State) (index : Nat) : Session :=
  step^[index] (start bodies state)

theorem step_paused (frames : List PendingCall) (state : State)
    (resume : State → Progress Answer) (pending : List Body) :
    step ⟨⟨frames, .paused state resume⟩, pending⟩ = ⟨⟨frames, resume state⟩, pending⟩ := by
  cases frames <;> rfl

theorem step_calling (frames : List PendingCall) (call : Call) (state : State)
    (resume : Except Fault Value → State → Progress Answer) (pending : List Body) :
    step ⟨⟨frames, .calling call state resume⟩, pending⟩ =
      ⟨⟨⟨call, resume⟩ :: frames, Machine.enter call state⟩, pending⟩ := by
  cases frames <;> rfl

theorem configuration_step_of_paused {session : Session} {frames : List PendingCall}
    {state : State} {resume : State → Progress Answer}
    (h : session.configuration = ⟨frames, .paused state resume⟩) :
    session.step.configuration = ⟨frames, resume state⟩ := by
  obtain ⟨configuration, pending⟩ := session
  cases h
  rw [step_paused]

theorem configuration_step_of_calling {session : Session} {frames : List PendingCall} {call : Call}
    {state : State} {resume : Except Fault Value → State → Progress Answer}
    (h : session.configuration = ⟨frames, .calling call state resume⟩) :
    session.step.configuration = ⟨⟨call, resume⟩ :: frames, Machine.enter call state⟩ := by
  obtain ⟨configuration, pending⟩ := session
  cases h
  rw [step_calling]

theorem moment_succ (bodies : List Body) (state : State) (index : Nat) :
    moment bodies state (index + 1) = (moment bodies state index).step :=
  Function.iterate_succ_apply' step index (start bodies state)

/-- The state at a moment. -/
def state (session : Session) : State := session.configuration.state

end Session

section Ledger

/-- A state with the calls that have not returned. -/
structure Ledger where
  /-- The call that is asked for and has not been entered. -/
  requested : Option Call
  /-- The calls that have been entered, the innermost first. -/
  entered : List Call
  state : State

namespace Ledger

/-- All calls that have not returned. -/
def calls (ledger : Ledger) : List Call := ledger.requested.toList ++ ledger.entered

/-- What can happen to a ledger. -/
inductive Transition : Ledger → Ledger → Prop where
  | change {may : Heap.Permission} {entered : List Call} {before after : State}
    (change : State.Change may before after) :
    Transition ⟨none, entered, before⟩ ⟨none, entered, after⟩
  | request (entered : List Call) (state : State) (function : FunctionId) (this : Value)
    (arguments : List Value) :
    Transition ⟨none, entered, state⟩ ⟨some ⟨function, this, arguments, .plain⟩, entered, state⟩
  | start (entered : List Call) {state : State} {cell : CellId} {record : LazyCell}
    {function : FunctionId} (present : state.heap.cell? cell = some record)
    (waiting : record.state = .uninitialized function) :
    Transition ⟨none, entered, state⟩
      ⟨some ⟨function, .undefined, [], .initializing cell⟩, entered,
        state.startCell cell record.name⟩
  | enter (call : Call) (entered : List Call) (state : State) :
    Transition ⟨some call, entered, state⟩
      ⟨none, call :: entered, state.enter call⟩
  | leave {call : Call} (entered : List Call) (state : State) (outcome : Except Fault Value)
    (purpose : call.purpose = .plain) :
    Transition ⟨none, call :: entered, state⟩
      ⟨none, entered, state.record (.returned call outcome)⟩
  | settle {call : Call} (entered : List Call) (state : State) (outcome : Except Fault Value)
    {cell : CellId} (name : String) (purpose : call.purpose = .initializing cell) :
    Transition ⟨none, call :: entered, state⟩
      ⟨none, entered, (state.record (.returned call outcome)).settleCell cell name outcome⟩

/-- A sequence of transitions. -/
abbrev Transitions : Ledger → Ledger → Prop := Relation.ReflTransGen Transition

theorem transitions_changes {may : Heap.Permission} {entered : List Call} {before after : State}
    (h : State.Changes may before after) :
    Transitions ⟨none, entered, before⟩ ⟨none, entered, after⟩ := by
  induction h with
  | refl => exact .refl
  | tail _ hlast ih => exact ih.tail (.change hlast)

end Ledger

/-- The call that a computation asks for. -/
def Progress.requested? {α : Type} : Progress α → Option Call
  | .calling call _ _ => some call
  | _ => none

/-- The ledger of a configuration. -/
def Configuration.ledger (configuration : Configuration) : Ledger :=
  ⟨configuration.current.requested?, configuration.frames.map PendingCall.call,
    configuration.state⟩

/-- The ledger at a moment. -/
def Session.ledger (session : Session) : Ledger := session.configuration.ledger

end Ledger

section Orderly

/-- A pending call is resumed in an orderly way: at once after a plain call, and by settling the
cell after the call of an initializer. -/
def PendingCall.Orderly (pending : PendingCall) : Prop :=
  match pending.call.purpose with
  | .plain => ∀ outcome later, Progress.Orderly later (pending.resume outcome later)
  | .initializing cell => ∃ name, ∀ outcome later,
    Progress.Orderly (later.settleCell cell name outcome) (pending.resume outcome later)

/-- The running computation is orderly and all pending calls will be resumed in an orderly way. -/
structure Configuration.Orderly (configuration : Configuration) : Prop where
  current : ∃ before, Progress.Orderly before configuration.current
  frames : ∀ pending ∈ configuration.frames, pending.Orderly

/-- What an orderly computation has done so far. -/
theorem Progress.Orderly.transitions {α : Type} {before : State} {progress : Progress α}
    (h : Progress.Orderly before progress) (entered : List Call) :
    Ledger.Transitions ⟨none, entered, before⟩
      ⟨progress.requested?, entered, progress.state⟩ := by
  cases h with
  | ended changes => exact Ledger.transitions_changes changes
  | paused changes _ => exact Ledger.transitions_changes changes
  | calling function this arguments changes _ =>
    exact (Ledger.transitions_changes changes).tail (.request entered _ function this arguments)
  | initializing changes present waiting _ =>
    exact (Ledger.transitions_changes changes).tail (.start entered present waiting)

/-- The call that an orderly computation asks for is resumed in an orderly way. -/
theorem Progress.Orderly.pending {before state : State} {call : Call}
    {resume : Except Fault Value → State → Progress Answer}
    (h : Progress.Orderly before (.calling call state resume)) :
    PendingCall.Orderly ⟨call, resume⟩ := by
  cases h with
  | calling function this arguments _ rest => exact rest
  | initializing _ _ _ rest => exact ⟨_, rest⟩

/-- A configuration whose computation is orderly from the state that a transition leads to. -/
theorem Configuration.orderly_of_transition {frames : List PendingCall} {before : State}
    {current : Progress Answer} {ledger : Ledger} (hcurrent : Progress.Orderly before current)
    (hframes : ∀ pending ∈ frames, pending.Orderly)
    (htransitions : ledger.Transitions ⟨none, frames.map PendingCall.call, before⟩) :
    Configuration.Orderly ⟨frames, current⟩ ∧
      ledger.Transitions (Configuration.ledger ⟨frames, current⟩) :=
  ⟨⟨⟨before, hcurrent⟩, hframes⟩, htransitions.trans (hcurrent.transitions _)⟩

/-- One move keeps a configuration orderly and makes transitions of its ledger. -/
theorem Configuration.orderly_step {configuration : Configuration} (h : configuration.Orderly) :
    configuration.step.Orderly ∧ configuration.ledger.Transitions configuration.step.ledger := by
  obtain ⟨frames, current⟩ := configuration
  obtain ⟨⟨before, hcurrent⟩, hframes⟩ := h
  cases current with
  | paused state resume =>
    cases hcurrent with
    | paused _ rest => exact orderly_of_transition rest hframes .refl
  | calling call state resume =>
    refine orderly_of_transition (orderly_enter call state) ?_
      (.single (.enter call (frames.map PendingCall.call) state))
    intro pending hpending
    rcases List.mem_cons.1 hpending with rfl | hpending
    · exact hcurrent.pending
    · exact hframes pending hpending
  | ended outcome state =>
    cases frames with
    | nil => exact ⟨⟨⟨before, hcurrent⟩, hframes⟩, .refl⟩
    | cons frame rest =>
      have hframe := hframes frame (by simp)
      have hrest : ∀ pending ∈ rest, pending.Orderly :=
        fun pending hpending ↦ hframes pending (List.mem_cons_of_mem frame hpending)
      unfold PendingCall.Orderly at hframe
      split at hframe
      · rename_i hpurpose
        exact orderly_of_transition (hframe _ _) hrest (.single (.leave _ state _ hpurpose))
      · rename_i cell hpurpose
        obtain ⟨name, hresume⟩ := hframe
        exact orderly_of_transition (hresume _ _) hrest
          (.single (.settle _ state _ name hpurpose))

theorem Configuration.orderly_start (body : Body) (state : State) :
    Configuration.Orderly (.start body state) ∧
      Ledger.Transitions ⟨none, [], state⟩ (Configuration.ledger (.start body state)) :=
  orderly_of_transition (orderly_body body state) (by simp) .refl

theorem Session.orderly_step {session : Session} (h : session.configuration.Orderly) :
    session.step.configuration.Orderly ∧ session.ledger.Transitions session.step.ledger := by
  unfold Session.step
  split
  · exact Configuration.orderly_start _ _
  · exact Configuration.orderly_step h

theorem Session.orderly_moment (bodies : List Body) (state : State) (index : Nat) :
    (moment bodies state index).configuration.Orderly := by
  induction index with
  | zero => exact ⟨⟨state, .ended .refl⟩, by simp [moment, start]⟩
  | succ index ih =>
    rw [moment_succ]
    exact (Session.orderly_step ih).1

/-- Between two moments of a session the ledger makes a sequence of transitions. -/
theorem Session.transitions_moment (bodies : List Body) (state : State) {earlier later : Nat}
    (h : earlier ≤ later) :
    (moment bodies state earlier).ledger.Transitions (moment bodies state later).ledger := by
  induction later, h using Nat.le_induction with
  | base => exact .refl
  | succ later _ ih =>
    refine ih.trans ?_
    rw [moment_succ]
    exact (Session.orderly_step (Session.orderly_moment bodies state later)).2

end Orderly

section Programs

/-- A bounded run makes moves from configurations without an outcome. -/
theorem Configuration.exists_run_eq (bound : Nat) (configuration : Configuration) :
    ∃ moves, configuration.run bound = step^[moves] configuration ∧
      ∀ earlier < moves, (step^[earlier] configuration).outcome? = none := by
  induction bound generalizing configuration with
  | zero => exact ⟨0, rfl, by simp⟩
  | succ bound ih =>
    cases hcurrent : configuration.outcome? with
    | some outcome => exact ⟨0, by simp [run, hcurrent], by simp⟩
    | none =>
      obtain ⟨moves, hrun, hbefore⟩ := ih configuration.step
      refine ⟨moves + 1, by simp [run, hcurrent, hrun], ?_⟩
      rintro (_ | earlier) hearlier
      · exact hcurrent
      · exact hbefore earlier (Nat.lt_of_succ_lt_succ hearlier)

namespace Session

theorem step_of_outcome?_eq_none {configuration : Configuration}
    (h : configuration.outcome? = none) (pending : List Body) :
    step ⟨configuration, pending⟩ = ⟨configuration.step, pending⟩ := by
  unfold step
  split
  · simp_all [Configuration.outcome?]
  · simp_all

theorem iterate_step_of_outcome?_eq_none {configuration : Configuration} {moves : Nat}
    (h : ∀ earlier < moves, (Configuration.step^[earlier] configuration).outcome? = none)
    (pending : List Body) :
    step^[moves] ⟨configuration, pending⟩ =
      ⟨Configuration.step^[moves] configuration, pending⟩ := by
  induction moves with
  | zero => rfl
  | succ moves ih =>
    rw [Function.iterate_succ_apply', Function.iterate_succ_apply',
      ih fun earlier hearlier ↦ h earlier (Nat.lt_succ_of_lt hearlier)]
    exact step_of_outcome?_eq_none (h moves (Nat.lt_succ_self moves)) pending

end Session

theorem Configuration.eq_ended_of_outcome?_eq_some {configuration : Configuration}
    {outcome : Except Fault Answer} (h : configuration.outcome? = some outcome) :
    configuration = ⟨[], .ended outcome configuration.state⟩ := by
  unfold outcome? at h
  split at h
  · simp_all [Configuration.state, Progress.state]
  · simp at h

theorem Program.runSteps_cons (state : State) (step : Expression) (rest : List Expression) :
    runSteps state (step :: rest) =
      runStep state step :: runSteps (runStep state step).2 rest := rfl

/-- The state that a step of a program reports is a moment of the session of the program, when no
step before it has been cut off. -/
theorem exists_moment_of_mem_runSteps {steps : List Expression} {state : State}
    (hcomplete : ∀ entry ∈ Program.runSteps state steps, entry.1.outcome ≠ .error .exhausted)
    {entry : Report × State} (hentry : entry ∈ Program.runSteps state steps) :
    ∃ index, (Session.moment (steps.map Program.body) state index).state = entry.2 := by
  -- The outcome with which the step before has ended plays no role in what comes next.
  suffices hany : ∀ outcome : Except Fault Answer, ∃ index,
      (Session.step^[index] ⟨⟨[], .ended outcome state⟩, steps.map Program.body⟩).state =
        entry.2 from hany (.ok .done)
  induction steps generalizing state with
  | nil => simp [Program.runSteps] at hentry
  | cons step rest ih =>
    intro outcome
    obtain ⟨moves, hrun, hbefore⟩ :=
      Configuration.exists_run_eq Program.moveLimit (.start (Program.body step) state)
    have hmoves : Session.step^[moves + 1]
        ⟨⟨[], .ended outcome state⟩, (step :: rest).map Program.body⟩ =
          ⟨(Configuration.start (Program.body step) state).run Program.moveLimit,
            rest.map Program.body⟩ := by
      rw [hrun, Function.iterate_succ_apply]
      exact Session.iterate_step_of_outcome?_eq_none hbefore _
    rw [Program.runSteps_cons] at hentry hcomplete
    rcases List.mem_cons.1 hentry with rfl | hrest
    · exact ⟨moves + 1, by rw [hmoves]; rfl⟩
    · have hfirst := hcomplete _ List.mem_cons_self
      cases hended : ((Configuration.start (Program.body step) state).run
          Program.moveLimit).outcome? with
      | none => exact absurd (by simp [Program.runStep, hended, Report.ofTrace]) hfirst
      | some ended =>
        obtain ⟨index, hindex⟩ := ih
          (fun later hlater ↦ hcomplete later (List.mem_cons_of_mem _ hlater)) hrest ended
        refine ⟨index + (moves + 1), ?_⟩
        rw [Function.iterate_add_apply, hmoves, Configuration.eq_ended_of_outcome?_eq_some hended]
        exact hindex

end Programs

end GradualRuntime
