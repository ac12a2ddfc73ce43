import GradualRuntime.Proofs.Session

/-!
# Evaluation

`Progress.EndsWith` is the complete evaluation of a computation: what it ends with and in which
state, when every call that it asks for is carried out to its end. Evaluation has at most one result
(`EndsWith.unique`) and follows the sequencing of computations (`EndsWith.andThen`,
`endsWith_andThen_iff`). It is what the machine does: a session in which a computation is running
reaches the continuation with its result (`EndsWith.exists_iterate_step`). `Progress.Leads` is an
evaluation that stops early, before a call that need not come to an end.

The evaluation of an orderly computation makes transitions of the ledger and leaves the calls that
had been entered before (`EndsWith.transitions`).
-/

set_option autoImplicit false

namespace GradualRuntime

/-- A computation ends with an outcome in a state. -/
inductive Progress.EndsWith : {α : Type} → Progress α → Except Fault α → State → Prop where
  | ended {α : Type} (outcome : Except Fault α) (state : State) :
    EndsWith (.ended outcome state) outcome state
  | paused {α : Type} {state last : State} {resume : State → Progress α}
    {outcome : Except Fault α} (rest : EndsWith (resume state) outcome last) :
    EndsWith (.paused state resume) outcome last
  | calling {α : Type} {call : Call} {state back last : State}
    {resume : Except Fault Value → State → Progress α} {answer : Except Fault Answer}
    {outcome : Except Fault α} (callee : EndsWith (Machine.enter call state) answer back)
    (rest : EndsWith
      (resume (answer.map Answer.toValue)
        (back.record (.returned call (answer.map Answer.toValue)))) outcome last) :
    EndsWith (.calling call state resume) outcome last

/-- A computation gets to another one, when every call on the way is carried out to its end. -/
inductive Progress.Leads {α : Type} : Progress α → Progress α → Prop where
  | refl (progress : Progress α) : Leads progress progress
  | paused {state : State} {resume : State → Progress α} {target : Progress α}
    (rest : Leads (resume state) target) : Leads (.paused state resume) target
  | calling {call : Call} {state back : State} {resume : Except Fault Value → State → Progress α}
    {answer : Except Fault Answer} {target : Progress α}
    (callee : (Machine.enter call state).EndsWith answer back)
    (rest : Leads
      (resume (answer.map Answer.toValue)
        (back.record (.returned call (answer.map Answer.toValue)))) target) :
    Leads (.calling call state resume) target

namespace Progress

section Sequencing

variable {α β : Type}

@[simp]
theorem endsWith_ended_iff {outcome result : Except Fault α} {state last : State} :
    (ended outcome state).EndsWith result last ↔ result = outcome ∧ last = state := by
  constructor
  · intro h
    cases h
    exact ⟨rfl, rfl⟩
  · rintro ⟨rfl, rfl⟩
    exact .ended result last

@[simp]
theorem endsWith_paused_iff {outcome : Except Fault α} {state last : State}
    {resume : State → Progress α} :
    (paused state resume).EndsWith outcome last ↔ (resume state).EndsWith outcome last := by
  constructor
  · intro h
    cases h with
    | paused rest => exact rest
  · exact .paused

theorem endsWith_calling_iff {call : Call} {state last : State}
    {resume : Except Fault Value → State → Progress α} {outcome : Except Fault α} :
    (calling call state resume).EndsWith outcome last ↔
      ∃ answer back, (Machine.enter call state).EndsWith answer back ∧
        (resume (answer.map Answer.toValue)
          (back.record (.returned call (answer.map Answer.toValue)))).EndsWith outcome last := by
  constructor
  · intro h
    cases h with
    | calling callee rest => exact ⟨_, _, callee, rest⟩
  · rintro ⟨answer, back, callee, rest⟩
    exact .calling callee rest

/-- A computation ends in at most one way. -/
theorem EndsWith.unique {progress : Progress α} {outcome other : Except Fault α}
    {state reached : State} (h : progress.EndsWith outcome state)
    (hother : progress.EndsWith other reached) : other = outcome ∧ reached = state := by
  induction h generalizing reached with
  | ended outcome state => exact endsWith_ended_iff.1 hother
  | paused _ ih => exact ih (endsWith_paused_iff.1 hother)
  | calling _ _ ihcallee ihrest =>
    obtain ⟨answer, back, hcallee, hrest⟩ := endsWith_calling_iff.1 hother
    obtain ⟨rfl, rfl⟩ := ihcallee hcallee
    exact ihrest hrest

theorem EndsWith.andThen {progress : Progress α} {outcome : Except Fault α} {state last : State}
    (h : progress.EndsWith outcome state) {next : Except Fault α → State → Progress β}
    {result : Except Fault β} (hnext : (next outcome state).EndsWith result last) :
    (progress.andThen next).EndsWith result last := by
  induction h with
  | ended => exact hnext
  | paused _ ih => exact .paused (ih hnext)
  | calling callee _ _ ih => exact .calling callee (ih hnext)

/-- A sequence gets to its second part, from where its first part ends. -/
theorem EndsWith.leads_andThen {progress : Progress α} {outcome : Except Fault α} {state : State}
    (h : progress.EndsWith outcome state) (next : Except Fault α → State → Progress β) :
    (progress.andThen next).Leads (next outcome state) := by
  induction h with
  | ended => exact .refl _
  | paused _ ih => exact .paused (ih next)
  | calling callee _ _ ih => exact .calling callee (ih next)

/-- A sequence ends exactly as its second part does from where its first part ends. -/
theorem endsWith_andThen_iff {progress : Progress α} {next : Except Fault α → State → Progress β}
    {result : Except Fault β} {last : State} :
    (progress.andThen next).EndsWith result last ↔
      ∃ outcome state, progress.EndsWith outcome state ∧
        (next outcome state).EndsWith result last := by
  constructor
  · intro h
    induction progress with
    | ended outcome state => exact ⟨outcome, state, .ended outcome state, h⟩
    | paused state resume ih =>
      obtain ⟨outcome, reached, hfirst, hnext⟩ := ih state (endsWith_paused_iff.1 h)
      exact ⟨outcome, reached, .paused hfirst, hnext⟩
    | calling call state resume ih =>
      obtain ⟨answer, back, hcallee, hrest⟩ := endsWith_calling_iff.1 h
      obtain ⟨outcome, reached, hfirst, hnext⟩ := ih _ _ hrest
      exact ⟨outcome, reached, .calling hcallee hfirst, hnext⟩
  · rintro ⟨outcome, state, hfirst, hnext⟩
    exact hfirst.andThen hnext

end Sequencing

section Leading

variable {α β : Type} {progress middle target : Progress α} {state : State}

theorem Leads.trans (h : progress.Leads middle) (hnext : middle.Leads target) :
    progress.Leads target := by
  induction h with
  | refl => exact hnext
  | paused _ ih => exact .paused (ih hnext)
  | calling callee _ ih => exact .calling callee (ih hnext)

/-- A computation ends as the computation does that it leads to. -/
theorem Leads.endsWith (h : progress.Leads middle) {outcome : Except Fault α}
    (hmiddle : middle.EndsWith outcome state) : progress.EndsWith outcome state := by
  induction h with
  | refl => exact hmiddle
  | paused _ ih => exact .paused (ih hmiddle)
  | calling callee _ ih => exact .calling callee (ih hmiddle)

/-- A computation that leads to a call goes on with the outcome of the call. -/
theorem Leads.resume {call : Call} {back : State}
    {resume : Except Fault Value → State → Progress α} {answer : Except Fault Answer}
    (h : progress.Leads (.calling call state resume))
    (hcallee : (Machine.enter call state).EndsWith answer back) :
    progress.Leads (resume (answer.map Answer.toValue)
      (back.record (.returned call (answer.map Answer.toValue)))) :=
  h.trans (.calling hcallee (.refl _))

/-- A sequence leads to what follows in its first part, or its first part ends and the second leads
to it. -/
theorem Leads.andThen_cases {first : Progress α}
    {next : Except Fault α → State → Progress β} {target : Progress β}
    (h : (first.andThen next).Leads target) :
    (∃ middle, first.Leads middle ∧ target = middle.andThen next) ∨
      ∃ outcome state, first.EndsWith outcome state ∧ (next outcome state).Leads target := by
  induction first with
  | ended outcome state => exact .inr ⟨outcome, state, .ended outcome state, h⟩
  | paused state resume ih =>
    cases h with
    | refl => exact .inl ⟨_, .refl _, rfl⟩
    | paused rest =>
      rcases ih state rest with ⟨middle, hleads, htarget⟩ | ⟨outcome, reached, hends, hnext⟩
      · exact .inl ⟨middle, .paused hleads, htarget⟩
      · exact .inr ⟨outcome, reached, .paused hends, hnext⟩
  | calling call state resume ih =>
    cases h with
    | refl => exact .inl ⟨_, .refl _, rfl⟩
    | calling callee rest =>
      rcases ih _ _ rest with ⟨middle, hleads, htarget⟩ | ⟨outcome, reached, hends, hnext⟩
      · exact .inl ⟨middle, .calling callee hleads, htarget⟩
      · exact .inr ⟨outcome, reached, .calling callee hends, hnext⟩

end Leading

section Machine

/-- A session that carries the callee of a call out to its end goes on with the outcome. -/
theorem exists_iterate_step_calling {call : Call} {state back : State}
    {answer : Except Fault Answer} {frames : List PendingCall} {pending : List Body}
    {resume : Except Fault Value → State → Progress Answer} {inside : Nat}
    (hinside : Session.step^[inside]
      ⟨⟨⟨call, resume⟩ :: frames, Machine.enter call state⟩, pending⟩ =
        ⟨⟨⟨call, resume⟩ :: frames, .ended answer back⟩, pending⟩) :
    ∃ moves, Session.step^[moves] ⟨⟨frames, .calling call state resume⟩, pending⟩ =
      ⟨⟨frames, resume (answer.map Answer.toValue)
        (back.record (.returned call (answer.map Answer.toValue)))⟩, pending⟩ := by
  refine ⟨1 + (inside + 1), ?_⟩
  rw [Function.iterate_add_apply, Function.iterate_succ_apply _ inside, Session.step_calling,
    hinside]
  rfl

/-- A session carries a computation out to its end and goes on with the result. -/
theorem EndsWith.exists_iterate_step {α : Type} {progress : Progress α}
    {outcome : Except Fault α} {state : State} (h : progress.EndsWith outcome state)
    (frames : List PendingCall) (next : Except Fault α → State → Progress Answer)
    (pending : List Body) :
    ∃ moves, Session.step^[moves] ⟨⟨frames, progress.andThen next⟩, pending⟩ =
      ⟨⟨frames, next outcome state⟩, pending⟩ := by
  induction h generalizing frames with
  | ended => exact ⟨0, rfl⟩
  | paused _ ih =>
    obtain ⟨moves, hmoves⟩ := ih frames next
    refine ⟨moves + 1, ?_⟩
    rw [Function.iterate_succ_apply, andThen_paused, Session.step_paused]
    exact hmoves
  | @calling _ call _ _ _ resume _ _ _ _ ihcallee ihrest =>
    obtain ⟨inside, hinside⟩ :=
      ihcallee (⟨call, fun result later ↦ (resume result later).andThen next⟩ :: frames) .ended
    rw [andThen_ended_self] at hinside
    obtain ⟨before, hbefore⟩ := exists_iterate_step_calling hinside
    obtain ⟨after, hafter⟩ := ihrest frames next
    refine ⟨after + before, ?_⟩
    rw [Function.iterate_add_apply, andThen_calling, hbefore]
    exact hafter

/-- The evaluation of an orderly computation makes transitions of the ledger, above the calls that
had been entered before. -/
theorem EndsWith.transitions {α : Type} {progress : Progress α} {outcome : Except Fault α}
    {before last : State} (h : progress.EndsWith outcome last)
    (horderly : Progress.Orderly before progress) (entered : List Call) :
    Ledger.Transitions ⟨none, entered, before⟩ ⟨none, entered, last⟩ := by
  induction h generalizing before entered with
  | ended => exact horderly.transitions entered
  | paused _ ih =>
    have hreached := horderly.transitions entered
    cases horderly with
    | paused _ rest => exact hreached.trans (ih rest entered)
  | @calling _ call state back _ _ answer _ _ _ ihcallee ihrest =>
    have hback : Ledger.Transitions ⟨none, entered, before⟩ ⟨none, call :: entered, back⟩ :=
      ((horderly.transitions entered).tail (.enter call entered state)).trans
        (ihcallee (orderly_enter call state) (call :: entered))
    cases horderly with
    | calling _ _ _ _ rest =>
      exact (hback.tail (.leave entered back _ rfl)).trans (ihrest (rest _ _) entered)
    | initializing _ _ _ rest =>
      exact (hback.tail (.settle entered back _ _ rfl)).trans (ihrest (rest _ _) entered)

end Machine

end Progress

section Moments

variable {α : Type} {bodies : List Body} {start : State} {index : Nat} {frames : List PendingCall}
  {progress : Progress α} {outcome : Except Fault α} {after : State}
  {next : Except Fault α → State → Progress Answer}

/-- A session in which a computation is running gets to the moment at which it has ended. -/
theorem Session.exists_moment_of_running
    (hmoment : (moment bodies start index).configuration = ⟨frames, progress.andThen next⟩)
    (h : progress.EndsWith outcome after) :
    ∃ reached, index ≤ reached ∧
      (moment bodies start reached).configuration = ⟨frames, next outcome after⟩ := by
  obtain ⟨moves, hmoves⟩ := h.exists_iterate_step frames next (moment bodies start index).pending
  refine ⟨moves + index, Nat.le_add_left index moves, ?_⟩
  rw [← hmoment] at hmoves
  rw [moment, Function.iterate_add_apply]
  exact congrArg Session.configuration hmoves

/-- When the next act of a body is a computation that comes to an end, the session gets to the
moment at which it has ended. -/
theorem Session.exists_moment_of_endsWith {before : State} {resume : State → Progress Answer}
    (hmoment : (moment bodies start index).configuration = ⟨frames, .paused before resume⟩)
    (hresume : resume before = progress.andThen next) (h : progress.EndsWith outcome after) :
    ∃ reached, index ≤ reached ∧
      (moment bodies start reached).configuration = ⟨frames, next outcome after⟩ := by
  have hnext : (moment bodies start (index + 1)).configuration =
      ⟨frames, progress.andThen next⟩ := by
    rw [moment_succ, configuration_step_of_paused hmoment, hresume]
  obtain ⟨reached, hlater, hreached⟩ := exists_moment_of_running hnext h
  exact ⟨reached, Nat.le_of_succ_le hlater, hreached⟩

/-- From where a computation has ended, transitions lead to all later moments, when what follows it
is orderly from there. -/
theorem Session.transitions_of_ended
    (hmoment : (moment bodies start index).configuration = ⟨frames, next outcome after⟩)
    (hnext : Progress.Orderly after (next outcome after)) {later : Nat} (h : index ≤ later) :
    Ledger.Transitions ⟨none, frames.map PendingCall.call, after⟩
      (moment bodies start later).ledger := by
  refine Relation.ReflTransGen.trans ?_ (transitions_moment bodies start h)
  rw [ledger, hmoment]
  exact hnext.transitions (frames.map PendingCall.call)

end Moments

end GradualRuntime
