import GradualRuntime.Proofs.PendingCalls
import GradualRuntime.Proofs.Tandem.Machine
import Mathlib.Data.Set.Card

/-!
# Where reports of dispatches come from

Every report of a dispatch in the trace of a session is traced back to the dispatch that has made
it. A dispatch is an operation that a body asks for at some moment; it enters its callee
(`Session.Enters`) at the later moment at which it has found the callee, which takes the arguments,
and asks for the call. `Session.reports_moment` says that each report was made by a dispatch that
enters its callee, in a realm that traces dispatches; that the entries before the report are those
at the end of the member reads of the dispatch; and that the next entry, once there is one, is the
entry of the callee. Conversely each such dispatch makes one report (`Session.countP_isDispatch`).

All other moves are quiet (`Progress.Quiet`): what a computation does between two calls, outside of
the conclusion of a dispatch, adds no report to the trace. This is a statement about a run in tandem
with itself, in the world of the trace with which it has been resumed.
-/

set_option autoImplicit false

namespace GradualRuntime

section Definitions

/-- The trace of a state has grown from an earlier one without a report of a dispatch. -/
def State.QuietSince (state : State) (earlier : List TraceEntry) : Prop :=
  ∃ added, state.trace = added ++ earlier ∧ ∀ entry ∈ added, entry.isDispatch = false

/-- The states of a run and of the same run, in the world of the trace with which it has been
resumed: no dispatch has been reported since. -/
def quietly : Bond (List TraceEntry) := fun earlier left right ↦
  right = left ∧ left.QuietSince earlier

/-- Between any two calls a computation reports no dispatch, at first from a given trace. -/
def Progress.Quiet {α : Type} (earlier : List TraceEntry) (progress : Progress α) : Prop :=
  Progress.Tandem quietly Eq earlier progress progress

/-- What is left of an operation from a state on: all of it from where it begins, and what is done
with the outcome of a call from where the call has returned. -/
inductive Operation.Rest (place : RealmId) (operation : Operation) (operands : List Value)
    (begun : State) : State → Progress Answer → Prop where
  | all : Rest place operation operands begun begun (operation.execute place operands begun)
  | resumed {call : Call} {asked back : State}
    {resume : Except Fault Value → State → Progress Answer} {answer : Except Fault Answer}
    (leads : (operation.execute place operands begun).Leads (.calling call asked resume))
    (callee : (Machine.enter call asked).EndsWith answer back) :
    Rest place operation operands begun
      (back.record (.returned call (answer.map Answer.toValue)))
      (resume (answer.map Answer.toValue)
        (back.record (.returned call (answer.map Answer.toValue))))

/-- An operation is a dispatch that has found its callee: the reads of members have left a state
behind, and what is left of the operation is to report and to call. -/
inductive Operation.Concludes (place : RealmId) (operation : Operation) (operands : List Value)
    (begun : State) (traced : Bool) (event : Event) (call : Call) (reached : State) :
    Progress Value → Prop where
  | intro {receiver : Value} {site : CallSite}
    (dispatch : operation.dispatch? operands = some (receiver, site, call.arguments))
    (plain : call.purpose = .plain)
    (tracing : (begun.realm place).config.traceDispatch = traced)
    (finds : Dispatch.Finds place receiver site call.arguments begun
      (.ok (call.function, call.this)) reached)
    (fits : acceptsCount (begun.realm place).config.optionalMark
      (reached.heap.formals call.function) call.arguments.length = true)
    (names : event = .dispatched receiver.typeName
      (site.reportedName (begun.realm place).config.members)
      (reached.heap.functionName call.function) call.arguments.length) :
    Concludes place operation operands begun traced event call reached
      (Dispatch.conclude (begun.realm place).config receiver
        (site.reportedName (begun.realm place).config.members) call.arguments
        (.ok (call.function, call.this)) reached)

namespace Session

variable (bodies : List Body) (start : State)

/-- The dispatch for which a body asks at a moment enters its callee at a later one: it is what is
going on at all moments between, and at the later one it has found the callee and asks for it. -/
inductive Enters (began entering : Nat) (traced : Bool) (event : Event) (call : Call)
    (reached : State) : Prop where
  | intro {below : List PendingCall} {place : RealmId} {operation : Operation}
    {operands : List Value} {next : Except Fault Answer → Body} {begun : State}
    {conclusion : Progress Value} (order : began < entering)
    (begins : (moment bodies start began).configuration =
      ⟨below, (Body.perform place operation operands next).run begun⟩)
    (busy : ∀ between, began < between → between ≤ entering →
      (moment bodies start between).configuration.Busy below)
    (concludes : operation.Concludes place operands begun traced event call reached conclusion)
    (enters : (moment bodies start entering).configuration =
      ⟨below, conclusion.andThen fun outcome last ↦ (next (outcome.map .value)).run last⟩) :
    Enters began entering traced event call reached

/-- What the move before a moment carries out above some calls, from a state on. -/
inductive Going (index : Nat) (below : List PendingCall) (before : State) :
    Progress Answer → Prop where
  | body (body : Body) : Going index below before (body.run before)
  | quiet {progress : Progress Answer} (quiet : progress.Quiet before.trace) :
    Going index below before progress
  | operation {began : Nat} {place : RealmId} {operation : Operation} {operands : List Value}
    {next : Except Fault Answer → Body} {begun : State} {progress : Progress Answer}
    (order : began < index)
    (begins : (moment bodies start began).configuration =
      ⟨below, (Body.perform place operation operands next).run begun⟩)
    (rest : operation.Rest place operands begun before progress)
    (busy : ∀ between, began < between → between < index →
      (moment bodies start between).configuration.Busy below) :
    Going index below before (progress.andThen fun outcome last ↦ (next outcome).run last)

/-- What the move after a moment carries out, and from which state on: at most the entry or the
return of a call has been recorded before. -/
def Moves (index : Nat) : Prop :=
  ∃ before, Going bodies start (index + 1)
      (moment bodies start (index + 1)).configuration.frames before
      (moment bodies start (index + 1)).configuration.current ∧
    before.QuietSince (moment bodies start index).state.trace ∧
    ∀ call, (moment bodies start index).ledger.requested = some call →
      before.trace = .entered call :: (moment bodies start index).state.trace

end Session

end Definitions

section Quiet

variable {α : Type} {state : State} {earlier older : List TraceEntry} {progress : Progress α}

namespace State.QuietSince

theorem countP_eq (h : state.QuietSince earlier) :
    state.trace.countP TraceEntry.isDispatch = earlier.countP TraceEntry.isDispatch := by
  obtain ⟨added, htrace, hadded⟩ := h
  have hnone : added.countP TraceEntry.isDispatch = 0 :=
    List.countP_eq_zero.2 fun entry hentry ↦ by simp [hadded entry hentry]
  rw [htrace, List.countP_append, hnone, Nat.zero_add]

theorem refl (state : State) : state.QuietSince state.trace := ⟨[], rfl, List.forall_mem_nil _⟩

theorem record {entry : TraceEntry} (h : state.QuietSince earlier)
    (hentry : entry.isDispatch = false) : (state.record entry).QuietSince earlier := by
  obtain ⟨added, htrace, hadded⟩ := h
  refine ⟨entry :: added, congrArg (entry :: ·) htrace, ?_⟩
  rintro other hother
  rcases List.mem_cons.1 hother with rfl | hother
  · exact hentry
  · exact hadded other hother

theorem fresh (realm : Realm) : (State.fresh realm).QuietSince [] :=
  ⟨[], rfl, List.forall_mem_nil _⟩

/-- A report is in what the trace has grown from. -/
theorem split (h : state.QuietSince earlier) {later : List TraceEntry} {event : Event}
    (htrace : state.trace = later ++ .emitted event :: older) (hevent : event.isDispatch = true) :
    ∃ added between, later = added ++ between ∧ earlier = between ++ .emitted event :: older := by
  obtain ⟨added, hadded, hquiet⟩ := h
  rw [hadded] at htrace
  rcases List.append_eq_append_iff.1 htrace with
    ⟨between, hlater, hearlier⟩ | ⟨extra, hlater, hrest⟩
  · exact ⟨added, between, hlater, hearlier⟩
  · cases extra with
    | nil => exact ⟨added, [], by simpa using hlater.symm, by simpa using hrest.symm⟩
    | cons entry extra =>
      -- the report would be one of the entries that were added
      have hreport := hquiet (.emitted event) (by simp_all)
      simp_all [TraceEntry.isDispatch]

end State.QuietSince

theorem free_quietly : quietly.Free := by
  refine .of_trace ?_ ?_ ?_
  · rintro earlier left _ ⟨rfl, -⟩
    rfl
  · rintro earlier left _ ⟨rfl, hquiet⟩ state
    exact ⟨rfl, hquiet⟩
  · rintro earlier left _ entry ⟨rfl, hquiet⟩ hentry
    exact ⟨rfl, hquiet.record hentry⟩

theorem Run.InTandem.quiet {action : Run α} (h : action.InTandem quietly) (state : State) :
    (action state).Quiet state.trace := h _ _ _ ⟨rfl, .refl state⟩

namespace Progress.Quiet

theorem ended (outcome : Except Fault α) (state : State) :
    (Progress.ended outcome state).Quiet state.trace := Tandem.ended ⟨rfl, .refl state⟩ rfl

theorem since (h : progress.Quiet earlier) : progress.state.QuietSince earlier := h.pair.2

theorem resume {call : Call} {resume : Except Fault Value → State → Progress α}
    (h : (Progress.calling call state resume).Quiet earlier) (outcome : Except Fault Value)
    (later : State) : (resume outcome later).Quiet later.trace := by
  cases h with
  | calling _ rest => exact rest outcome later.trace later later ⟨rfl, .refl later⟩

/-- What a quiet computation leads to is quiet. -/
theorem leads {target : Progress α} (h : progress.Quiet earlier) (hleads : progress.Leads target) :
    ∃ since, target.Quiet since := by
  induction hleads generalizing earlier with
  | refl => exact ⟨earlier, h⟩
  | paused _ ih =>
    cases h with
    | paused pair rest => exact ih (rest earlier _ _ pair)
  | calling _ _ ih => exact ih (h.resume _ _)

end Progress.Quiet

/-- What is entered is a body, or quiet. -/
theorem Machine.enter_quiet (call : Call) (state : State) :
    (∃ body : Body, Machine.enter call state = body.run (state.record (.entered call))) ∨
      (Machine.enter call state).Quiet (state.record (.entered call)).trace := by
  cases hcode : state.procedures.get? call.function.index with
  | none =>
    rw [Machine.enter_of_none hcode]
    exact .inr (.ended _ _)
  | some procedure =>
    rw [Machine.enter_of_procedure hcode]
    by_cases hnative : ∃ body, procedure = .native body
    · obtain ⟨body, rfl⟩ := hnative
      exact .inl ⟨_, rfl⟩
    · exact .inr ((free_quietly.lawful.procedure (not_exists.1 hnative) _ _).quiet _)

end Quiet

section Operations

variable {place : RealmId} {operation : Operation} {operands arguments : List Value}
  {receiver : Value} {site : CallSite} {begun before : State} {progress : Progress Answer}

/-- An operation that is a dispatch finds out what to call, and concludes. -/
theorem Operation.execute_of_dispatch
    (hdispatch : operation.dispatch? operands = some (receiver, site, arguments))
    (hknown : operands.all begun.heap.knows = true) :
    operation.execute place operands begun =
      (Dispatch.find place receiver site arguments
        (site.reportedName (begun.realm place).config.members) begun).andThen fun found reached ↦
          (Dispatch.conclude (begun.realm place).config receiver
            (site.reportedName (begun.realm place).config.members) arguments found
            reached).andThen fun outcome last ↦ .ended (outcome.map .value) last := by
  have hanswer : (Run.onward fun result : Value ↦ (pure (Answer.value result) : Run Answer)) =
      fun outcome last ↦ .ended (outcome.map .value) last := by
    funext outcome last
    cases outcome <;> rfl
  rw [execute_of_known hknown, carryOut_of_dispatch hdispatch, Run.map_apply, hanswer,
    Dispatch.invoke_eq_find, Progress.andThen_assoc]

namespace Operation

theorem Rest.quiet (h : operation.Rest place operands begun before progress)
    (hquiet : (operation.execute place operands begun).Quiet begun.trace) :
    progress.Quiet before.trace := by
  cases h with
  | all => exact hquiet
  | resumed leads =>
    obtain ⟨since, hcalling⟩ := hquiet.leads leads
    exact hcalling.resume _ _

/-- When the callee of a dispatch has returned, nothing is left to do but to answer. -/
theorem quiet_of_conclude_leads {config : Config} {member : String}
    {found : Except Fault (FunctionId × Value)} {reached asked : State} {call : Call}
    {resume : Except Fault Value → State → Progress Answer}
    (h : ((Dispatch.conclude config receiver member arguments found reached).andThen
      fun outcome last ↦ .ended (outcome.map .value) last).Leads (.calling call asked resume))
    (outcome : Except Fault Value) (later : State) : (resume outcome later).Quiet later.trace := by
  rcases found with fault | ⟨callee, this⟩
  · cases h
  · simp only [Dispatch.conclude] at h
    split at h
    · cases h with
      | refl => exact .ended _ _
      | calling _ rest => cases rest
    · cases h

/-- What is left of a dispatch: it is still finding out what to call, or its callee has returned. -/
theorem Rest.dispatch_cases
    (hdispatch : operation.dispatch? operands = some (receiver, site, arguments))
    (hknown : operands.all begun.heap.knows = true)
    (h : operation.Rest place operands begun before progress) :
    (∃ finding, (Dispatch.find place receiver site arguments
        (site.reportedName (begun.realm place).config.members) begun).Leads finding ∧
      finding.Quiet before.trace ∧
      progress = finding.andThen fun found reached ↦
        (Dispatch.conclude (begun.realm place).config receiver
          (site.reportedName (begun.realm place).config.members) arguments found
          reached).andThen fun outcome last ↦ .ended (outcome.map .value) last) ∨
      progress.Quiet before.trace := by
  have hquiet := (free_quietly.lawful.find place receiver site arguments
    (site.reportedName (begun.realm place).config.members)).quiet begun
  cases h with
  | all =>
    rw [execute_of_dispatch hdispatch hknown]
    exact .inl ⟨_, .refl _, hquiet, rfl⟩
  | @resumed call asked _ resume _ leads callee =>
    rw [execute_of_dispatch hdispatch hknown] at leads
    rcases leads.andThen_cases with ⟨middle, hfind, hmiddle⟩ | ⟨found, reached, -, hconclude⟩
    · cases middle with
      | ended found reached =>
        rw [Progress.andThen_ended] at hmiddle
        have hconclude := Progress.Leads.refl (.calling call asked resume)
        nth_rewrite 1 [hmiddle] at hconclude
        exact .inr (quiet_of_conclude_leads hconclude _ _)
      | paused state resume => cases hmiddle
      | calling call state resume =>
        cases hmiddle
        obtain ⟨since, hcalling⟩ := hquiet.leads hfind
        exact .inl ⟨_, hfind.resume callee, hcalling.resume _ _, rfl⟩
    · exact .inr (quiet_of_conclude_leads hconclude _ _)

end Operation

/-- A realm that traces dispatches exists. -/
theorem State.lt_size_of_traceDispatch {state : State} {reference : RealmId}
    (h : (state.realm reference).config.traceDispatch = true) :
    reference.index < state.realms.size := by
  cases hrealm : state.realms.get? reference.index with
  | none =>
    rw [State.realm, hrealm] at h
    cases h
  | some record => exact Arena.lt_of_get?_eq_some hrealm

/-- What is left of an operation makes no report before its next call, or it is the conclusion of a
dispatch that is traced. -/
theorem Operation.Rest.report_cases (h : operation.Rest place operands begun before progress) :
    progress.state.QuietSince before.trace ∨
      ∃ event call reached conclusion,
        operation.Concludes place operands begun true event call reached conclusion ∧
          reached.QuietSince before.trace ∧
            progress = conclusion.andThen fun outcome last ↦ .ended (outcome.map .value) last := by
  cases hdispatch : operation.dispatch? operands with
  | none =>
    have hexecute : (operation.execute place operands).InTandem quietly :=
      free_quietly.lawful.execute fun receiver site arguments hsome ↦ by
        rw [hdispatch] at hsome
        cases hsome
    exact .inl (h.quiet (hexecute.quiet begun)).since
  | some dispatch =>
    obtain ⟨receiver, site, arguments⟩ := dispatch
    cases hknown : operands.all begun.heap.knows with
    | false =>
      have hrefused : operation.execute place operands begun =
          .ended (.error (.unsupported "unknown reference")) begun := by
        simp [Operation.execute, hknown]
      refine .inl (h.quiet ?_).since
      rw [hrefused]
      exact .ended _ _
    | true =>
      rcases h.dispatch_cases hdispatch hknown with ⟨finding, hfind, hquiet, rfl⟩ | hquiet
      · have hsince := hquiet.since
        cases finding with
        | paused state resume => exact .inl hsince
        | calling call state resume => exact .inl hsince
        | ended found reached =>
          rcases found with fault | ⟨callee, this⟩
          · exact .inl hsince
          by_cases hfits : acceptsCount (begun.realm place).config.optionalMark
              (reached.heap.formals callee) arguments.length = true
          · cases htraced : (begun.realm place).config.traceDispatch with
            | false =>
              refine .inl ?_
              simpa [Dispatch.conclude, hfits, htraced, Progress.state] using hsince
            | true =>
              have hexists := State.lt_size_of_traceDispatch htraced
              have hfinds := Dispatch.finds_of_endsWith_find hexists
                (hfind.endsWith (.ended (.ok (callee, this)) reached))
              exact .inr ⟨_, ⟨callee, this, arguments, .plain⟩, reached, _,
                .intro hdispatch rfl htraced hfinds hfits rfl, hsince, rfl⟩
          · refine .inl ?_
            simpa [Dispatch.conclude, hfits, Progress.state] using hsince
      · exact .inl hquiet.since

/-- When a dispatch that is traced asks for its callee, it has made its report. -/
theorem Operation.Concludes.conclusion_eq {traced : Bool} {event : Event} {call : Call}
    {reached : State} {conclusion : Progress Value}
    (h : operation.Concludes place operands begun traced event call reached conclusion) :
    conclusion = .calling call
      (if traced then reached.record (.emitted event) else reached) .ended := by
  cases h with
  | intro dispatch plain tracing finds fits names =>
    simp only [Dispatch.conclude, fits, if_true, tracing, names, ← plain]

end Operations

section Moves

variable {bodies : List Body} {start : State} {index : Nat} {frames : List PendingCall}

theorem Operation.Rest.leads {place : RealmId} {operation : Operation} {operands : List Value}
    {begun before : State} {progress : Progress Answer}
    (h : operation.Rest place operands begun before progress) :
    (operation.execute place operands begun).Leads progress := by
  cases h with
  | all => exact .refl _
  | resumed leads callee => exact leads.resume callee

namespace Session

/-- Where a call has returned, what is left of what has asked for it goes on. -/
theorem Going.resumed {asking : Nat} {before asked last : State} {call : Call}
    {resume : Except Fault Value → State → Progress Answer} {answer : Except Fault Answer}
    (h : Going bodies start asking frames before (.calling call asked resume))
    (order : asking < index)
    (asks : (moment bodies start asking).configuration = ⟨frames, .calling call asked resume⟩)
    (held : ∀ between, asking < between → between ≤ index →
      ⟨call, resume⟩ :: frames <:+ (moment bodies start between).configuration.frames)
    (callee : (Machine.enter call asked).EndsWith answer last) :
    Going bodies start (index + 1) frames
      (last.record (.returned call (answer.map Answer.toValue)))
      (resume (answer.map Answer.toValue)
        (last.record (.returned call (answer.map Answer.toValue)))) := by
  generalize hcurrent : Progress.calling call asked resume = current at h
  cases h with
  | body body => exact absurd hcurrent.symm (body.run_ne_calling _ _ _ _)
  | quiet quiet =>
    subst hcurrent
    exact .quiet (quiet.resume _ _)
  | @operation began _ _ _ next _ progress hbegan begins rest busy =>
    cases progress with
    | ended outcome reached => exact absurd hcurrent.symm ((next outcome).run_ne_calling _ _ _ _)
    | paused state resume => cases hcurrent
    | calling call asked first =>
      cases hcurrent
      refine .operation (by omega) begins (.resumed rest.leads callee)
        fun between hafter hbefore ↦ ?_
      -- the call is asked for first and pending then
      rcases Nat.lt_trichotomy between asking with hasking | rfl | hasking
      · exact busy between hafter hasking
      · exact .inr ⟨_, _, _, congrArg Configuration.current asks⟩
      · exact .inl (Nat.lt_of_succ_le (held between hasking (Nat.le_of_lt_succ hbefore)).length_le)

theorem Moves.of_configuration {before : State} {progress : Progress Answer}
    (h : (moment bodies start (index + 1)).configuration = ⟨frames, progress⟩)
    (going : Going bodies start (index + 1) frames before progress)
    (since : before.QuietSince (moment bodies start index).state.trace)
    (entered : ∀ call, (moment bodies start index).ledger.requested = some call →
      before.trace = .entered call :: (moment bodies start index).state.trace) :
    Moves bodies start index := by
  refine ⟨before, ?_, since, entered⟩
  rw [h]
  exact going

/-- The same when no call is asked for. -/
theorem Moves.of_idle {current : Progress Answer} {before : State} {progress : Progress Answer}
    (hcurrent : (moment bodies start index).configuration.current = current)
    (hidle : current.requested? = none)
    (h : (moment bodies start (index + 1)).configuration = ⟨frames, progress⟩)
    (going : Going bodies start (index + 1) frames before progress)
    (since : before.QuietSince current.state.trace) : Moves bodies start index := by
  subst hcurrent
  refine .of_configuration h going since fun call hcall ↦ ?_
  have hnone : (moment bodies start index).ledger.requested = none := hidle
  rw [hnone] at hcall
  cases hcall

/-- The move after something has ended. -/
theorem moves_of_ended {outcome : Except Fault Answer} {last : State}
    (h : (moment bodies start index).configuration = ⟨frames, .ended outcome last⟩)
    (stack : Stack bodies start index frames (.ended outcome last))
    (ih : ∀ earlier < index, Moves bodies start earlier) : Moves bodies start index := by
  have hcurrent := congrArg Configuration.current h
  cases stack with
  | bottom =>
    rcases configuration_step_of_finished h with hstep | ⟨body, hstep⟩
    · rw [← moment_succ] at hstep
      exact .of_idle hcurrent rfl hstep (.quiet (.ended outcome last)) (.refl last)
    · rw [← moment_succ] at hstep
      exact .of_idle hcurrent rfl hstep (.body body) (.refl last)
  | @call asking below call asked resume _ order asks held _ _ leads =>
    have hstep := configuration_step_of_ended h
    rw [← moment_succ] at hstep
    cases asking with
    | zero => cases asks
    | succ earlier =>
      obtain ⟨before, hgoing, -, -⟩ := ih earlier (Nat.lt_of_succ_lt order)
      rw [asks] at hgoing
      have hcallee := leads.endsWith (.ended outcome last)
      exact .of_idle hcurrent rfl hstep (hgoing.resumed order asks held hcallee)
        ((State.QuietSince.refl last).record rfl)

/-- The move into a call that is asked for. -/
theorem moves_of_calling {call : Call} {asked : State}
    {resume : Except Fault Value → State → Progress Answer}
    (h : (moment bodies start index).configuration = ⟨frames, .calling call asked resume⟩) :
    Moves bodies start index := by
  have hstep := configuration_step_of_calling h
  rw [← moment_succ] at hstep
  have hstate : (moment bodies start index).state = asked := state_of_configuration h
  have hentered : ∀ other, (moment bodies start index).ledger.requested = some other →
      (asked.record (.entered call)).trace =
        .entered other :: (moment bodies start index).state.trace := by
    intro other hother
    rw [ledger, h] at hother
    cases hother
    rw [hstate]
    rfl
  have hsince : (asked.record (.entered call)).QuietSince
      (moment bodies start index).state.trace := by
    rw [hstate]
    exact (State.QuietSince.refl asked).record rfl
  rcases Machine.enter_quiet call asked with ⟨body, hbody⟩ | hquiet
  · rw [hbody] at hstep
    exact .of_configuration hstep (.body body) hsince hentered
  · exact .of_configuration hstep (.quiet hquiet) hsince hentered

/-- What each move of a session carries out. -/
theorem moves (bodies : List Body) (start : State) (index : Nat) : Moves bodies start index := by
  induction index using Nat.strong_induction_on with
  | _ index ih =>
    obtain ⟨stack, running⟩ := traced_moment bodies start index
    generalize hconfiguration : (moment bodies start index).configuration = configuration at *
    obtain ⟨frames, current⟩ := configuration
    cases running with
    | ended outcome last => exact moves_of_ended hconfiguration stack ih
    | calling _ => exact moves_of_calling hconfiguration
    | body body state =>
      obtain ⟨outcome, hrun⟩ | ⟨place, operation, operands, next, hrun⟩ |
        ⟨name, formals, code, next, hrun⟩ := body.run_cases state
      · rw [hrun] at hconfiguration stack
        exact moves_of_ended hconfiguration stack ih
      · rw [hrun] at hconfiguration
        have hpaused := hconfiguration
        rw [Body.run_perform] at hpaused
        have hstep := configuration_step_of_paused hpaused
        rw [← moment_succ] at hstep
        exact .of_idle (congrArg Configuration.current hpaused) rfl hstep
          (.operation (Nat.lt_succ_self index) hconfiguration .all (by omega)) (.refl state)
      · rw [hrun, Body.run_close] at hconfiguration
        have hstep := configuration_step_of_paused hconfiguration
        rw [← moment_succ] at hstep
        exact .of_idle (congrArg Configuration.current hconfiguration) rfl hstep
          (.body (next state.heap.nextFunction)) (.refl state)

/-- What a move adds to the trace, beyond the entry or the return that it begins with: no report, or
the report of a dispatch that enters its callee at the next moment. -/
theorem report_cases (bodies : List Body) (start : State) (index : Nat) :
    ∃ before : State, before.QuietSince (moment bodies start index).state.trace ∧
      (∀ call, (moment bodies start index).ledger.requested = some call →
        before.trace = .entered call :: (moment bodies start index).state.trace) ∧
      ((moment bodies start (index + 1)).state.QuietSince before.trace ∨
        ∃ began event call reached,
          Enters bodies start began (index + 1) true event call reached ∧
            reached.QuietSince before.trace) := by
  obtain ⟨before, hgoing, hsince, hentered⟩ := moves bodies start index
  refine ⟨before, hsince, hentered, ?_⟩
  generalize hconfiguration : (moment bodies start (index + 1)).configuration = configuration
    at hgoing
  obtain ⟨frames, current⟩ := configuration
  have hstate := state_of_configuration hconfiguration
  dsimp only at hgoing
  cases hgoing with
  | body body =>
    rw [hstate, body.state_run]
    exact .inl (.refl before)
  | quiet quiet =>
    rw [hstate]
    exact .inl quiet.since
  | @operation began _ _ _ next _ progress order begins rest busy =>
    rcases rest.report_cases with hquiet | ⟨event, call, reached, conclusion, henters, hquiet, rfl⟩
    · have hsame : (progress.andThen fun outcome last ↦ (next outcome).run last).state =
          progress.state := by
        cases progress with
        | ended outcome last => exact (next outcome).state_run last
        | paused state resume => rfl
        | calling call state resume => rfl
      rw [hstate, hsame]
      exact .inl hquiet
    · rw [Progress.andThen_assoc] at hconfiguration
      refine .inr
        ⟨began, event, call, reached, .intro order begins ?_ henters hconfiguration, hquiet⟩
      intro between hafter hbetween
      rcases Nat.lt_or_eq_of_le hbetween with hbefore | rfl
      · exact busy between hafter hbefore
      · rw [hconfiguration, henters.conclusion_eq]
        exact .inr ⟨_, _, _, rfl⟩

end Session

end Moves

section Reports

variable {bodies : List Body} {start : State} {index began entering : Nat} {traced : Bool}
  {event : Event} {call : Call} {reached : State}

namespace Session

namespace Enters

/-- The configuration in which a dispatch asks for its callee. -/
theorem configuration (h : Enters bodies start began entering traced event call reached) :
    ∃ below resume, (moment bodies start entering).configuration =
      ⟨below,
        .calling call (if traced then reached.record (.emitted event) else reached) resume⟩ := by
  obtain ⟨-, -, -, concludes, enters⟩ := h
  rw [concludes.conclusion_eq] at enters
  exact ⟨_, _, enters⟩

theorem requested (h : Enters bodies start began entering traced event call reached) :
    (moment bodies start entering).ledger.requested = some call := by
  obtain ⟨below, resume, hconfiguration⟩ := h.configuration
  rw [ledger, hconfiguration]
  rfl

/-- A dispatch that is traced has made its report when it asks for its callee. -/
theorem trace (h : Enters bodies start began entering true event call reached) :
    (moment bodies start entering).state.trace = .emitted event :: reached.trace := by
  obtain ⟨below, resume, hconfiguration⟩ := h.configuration
  rw [state_of_configuration hconfiguration]
  rfl

theorem isDispatch (h : Enters bodies start began entering traced event call reached) :
    event.isDispatch = true := by
  obtain ⟨-, -, -, concludes, -⟩ := h
  obtain ⟨-, -, -, -, -, rfl⟩ := concludes
  rfl

/-- One dispatch at most enters its callee at a moment. -/
theorem unique_began {other : Nat} {trace : Bool} {second : Event} {callee : Call} {last : State}
    (h : Enters bodies start began entering traced event call reached)
    (hother : Enters bodies start other entering trace second callee last) : other = began := by
  obtain ⟨horder, hbegins, hbusy, -, henters⟩ := h
  obtain ⟨horder', hbegins', hbusy', -, henters'⟩ := hother
  rw [henters] at henters'
  cases congrArg Configuration.frames henters'
  -- the one that begins first would not be going on any more
  rcases Nat.lt_trichotomy other began with hlt | rfl | hlt
  · exact absurd hbegins ((hbusy' began hlt horder.le).ne_run _ _)
  · rfl
  · exact absurd hbegins' ((hbusy other hlt horder'.le).ne_run _ _)

end Enters

/-- A pending call that is pending no more has returned. -/
theorem exists_resumed {asking later : Nat} {below : List PendingCall} {asked : State}
    {resume : Except Fault Value → State → Progress Answer}
    (asks : (moment bodies start asking).configuration = ⟨below, .calling call asked resume⟩)
    (order : asking < later)
    (hframes : ¬⟨call, resume⟩ :: below <:+ (moment bodies start later).configuration.frames) :
    ∃ between outcome last, asking < between ∧ between ≤ later ∧
      (moment bodies start between).configuration = ⟨below, resume outcome last⟩ := by
  induction later, order using Nat.le_induction with
  | base =>
    have hstep := configuration_step_of_calling asks
    rw [← moment_succ] at hstep
    rw [Nat.succ_eq_add_one, hstep] at hframes
    exact absurd (List.suffix_refl _) hframes
  | succ later horder ih =>
    by_cases hbefore : ⟨call, resume⟩ :: below <:+ (moment bodies start later).configuration.frames
    · generalize hconfiguration : (moment bodies start later).configuration = configuration
        at hbefore
      obtain ⟨frames, current⟩ := configuration
      rw [moment_succ] at hframes
      cases current with
      | paused state resume =>
        rw [configuration_step_of_paused hconfiguration] at hframes
        exact absurd hbefore hframes
      | calling other state resume =>
        rw [configuration_step_of_calling hconfiguration] at hframes
        exact absurd (hbefore.trans (List.suffix_cons _ _)) hframes
      | ended outcome last =>
        cases frames with
        | nil => cases List.suffix_nil.1 hbefore
        | cons frame rest =>
          obtain ⟨other, answer⟩ := frame
          have hstep := configuration_step_of_ended hconfiguration
          rw [hstep] at hframes
          rcases List.suffix_cons_iff.1 hbefore with hsame | hrest
          · cases hsame
            rw [← moment_succ] at hstep
            exact ⟨later + 1, _, _, by omega, Nat.le_refl _, hstep⟩
          · exact absurd hrest hframes
    · obtain ⟨between, outcome, last, hafter, hbetween, hresumed⟩ := ih hbefore
      exact ⟨between, outcome, last, hafter, by omega, hresumed⟩

/-- A dispatch enters its callee once at most. -/
theorem Enters.le_entering {other : Nat} {trace : Bool} {second : Event} {callee : Call}
    {last : State} (h : Enters bodies start began entering traced event call reached)
    (hother : Enters bodies start began other trace second callee last) : other ≤ entering := by
  by_contra hlt
  obtain ⟨horder, hbegins, -, hconcludes, henters⟩ := h
  obtain ⟨-, hbegins', hbusy, -, henters'⟩ := hother
  rw [hbegins] at hbegins'
  cases congrArg Configuration.frames hbegins'
  rw [hconcludes.conclusion_eq, Progress.andThen_calling] at henters
  obtain ⟨between, outcome, reached, hafter, hbetween, hresumed⟩ :=
    exists_resumed henters (Nat.lt_of_not_le hlt) fun hsuffix ↦ by
      rw [henters'] at hsuffix
      exact Nat.not_succ_le_self _ hsuffix.length_le
  -- then the body has gone on before
  have hbegan : began < between := Nat.lt_trans horder hafter
  exact (hbusy between hbegan hbetween).ne_run _ _ hresumed

/-- A report in the trace at a moment, with the entries after it and before it, is that of a
dispatch which enters its callee. The entries before it are there when the member reads of the
dispatch have ended, and the next entry, unless the callee is just being asked for, is the entry of
the callee. -/
def Reports (bodies : List Body) (start : State) (index : Nat) (later : List TraceEntry)
    (event : Event) (earlier : List TraceEntry) : Prop :=
  ∃ began entering call reached, Enters bodies start began entering true event call reached ∧
    reached.trace = earlier ∧
      (entering = index ∧ later = [] ∨ entering < index ∧ [.entered call] <:+ later)

theorem Enters.reports (h : Enters bodies start began index true event call reached) :
    Reports bodies start index [] event reached.trace :=
  ⟨began, index, call, reached, h, rfl, .inl ⟨rfl, rfl⟩⟩

/-- What a report has been made by does not change when the trace grows. -/
theorem Reports.succ {before : State} {added later earlier : List TraceEntry}
    (h : Reports bodies start index later event earlier)
    (hentered : ∀ call, (moment bodies start index).ledger.requested = some call →
      before.trace = .entered call :: (moment bodies start index).state.trace)
    (hindex : (moment bodies start index).state.trace = later ++ .emitted event :: earlier)
    (hbefore : before.trace = added ++ .emitted event :: earlier) (hadded : later <:+ added)
    (more : List TraceEntry) :
    Reports bodies start (index + 1) (more ++ added) event earlier := by
  obtain ⟨began, entering, call, reached, henters, hreads, ⟨rfl, rfl⟩ | ⟨horder, hnext⟩⟩ := h
  · -- the entry of the callee is the first thing that the move records
    have hfirst := hentered call henters.requested
    rw [hbefore, hindex] at hfirst
    have hcallee : added = [.entered call] := List.append_cancel_right
      (show added ++ .emitted event :: earlier = [.entered call] ++ .emitted event :: earlier from
        hfirst)
    exact ⟨began, entering, call, reached, henters, hreads,
      .inr ⟨Nat.lt_succ_self entering, hcallee ▸ List.suffix_append more _⟩⟩
  · exact ⟨began, entering, call, reached, henters, hreads,
      .inr ⟨Nat.lt_succ_of_lt horder, (hnext.trans hadded).trans (List.suffix_append more _)⟩⟩

/-- Every report has been made by a dispatch that enters its callee. -/
theorem reports_moment (hstart : start.QuietSince []) :
    ∀ {later earlier : List TraceEntry},
      (moment bodies start index).state.trace = later ++ .emitted event :: earlier →
        event.isDispatch = true → Reports bodies start index later event earlier := by
  induction index with
  | zero =>
    intro later earlier htrace hevent
    obtain ⟨-, between, -, hempty⟩ := hstart.split htrace hevent
    simp at hempty
  | succ index ih =>
    intro later earlier htrace hevent
    obtain ⟨before, hsince, hentered,
        hquiet | ⟨began, reported, call, reached, henters, hreached⟩⟩ :=
      report_cases bodies start index
    · obtain ⟨more, added, rfl, hbefore⟩ := hquiet.split htrace hevent
      obtain ⟨extra, between, rfl, hindex⟩ := hsince.split hbefore hevent
      exact (ih hindex hevent).succ hentered hindex hbefore (List.suffix_append _ _) more
    · rw [henters.trace] at htrace
      cases later with
      | nil =>
        cases htrace
        exact henters.reports
      | cons entry more =>
        rw [List.cons_append, List.cons.injEq] at htrace
        obtain ⟨-, htrace⟩ := htrace
        obtain ⟨more, added, rfl, hbefore⟩ := hreached.split htrace hevent
        obtain ⟨extra, between, rfl, hindex⟩ := hsince.split hbefore hevent
        exact (ih hindex hevent).succ hentered hindex hbefore (List.suffix_append _ _)
          (entry :: more)

/-- The moments at which a dispatch begins, in a realm that traces dispatches, that has asked for
its callee at a given moment or before. -/
def tracedDispatches (bodies : List Body) (start : State) (index : Nat) : Set Nat :=
  {began | ∃ entering event call reached, entering ≤ index ∧
    Enters bodies start began entering true event call reached}

theorem finite_tracedDispatches (bodies : List Body) (start : State) (index : Nat) :
    (tracedDispatches bodies start index).Finite := by
  refine (Finset.range index).finite_toSet.subset ?_
  rintro began ⟨entering, event, call, reached, hentering, horder, -⟩
  exact Finset.mem_range.2 (Nat.lt_of_lt_of_le horder hentering)

/-- At the end of a move without a report no dispatch that is traced asks for its callee. -/
theorem not_enters_of_quiet (hstart : start.QuietSince []) {before : State}
    (hsince : before.QuietSince (moment bodies start index).state.trace)
    (hentered : ∀ call, (moment bodies start index).ledger.requested = some call →
      before.trace = .entered call :: (moment bodies start index).state.trace)
    (hquiet : (moment bodies start (index + 1)).state.QuietSince before.trace) :
    ¬Enters bodies start began (index + 1) true event call reached := by
  intro henters
  have hlast : (moment bodies start (index + 1)).state.trace =
      [] ++ .emitted event :: reached.trace := henters.trace
  obtain ⟨more, added, hmore, hbefore⟩ := hquiet.split hlast henters.isDispatch
  obtain ⟨-, rfl⟩ := List.append_eq_nil_iff.1 hmore.symm
  obtain ⟨extra, between, hextra, hindex⟩ := hsince.split hbefore henters.isDispatch
  obtain ⟨-, rfl⟩ := List.append_eq_nil_iff.1 hextra.symm
  -- the report would be the last entry at the moment before, when the callee has been asked for
  obtain ⟨_, entering, callee, _, hreported, -, ⟨rfl, -⟩ | ⟨-, hnext⟩⟩ :=
    reports_moment hstart hindex henters.isDispatch
  · rw [hentered callee hreported.requested] at hbefore
    cases hbefore
  · cases List.suffix_nil.1 hnext

/-- There are as many reports as dispatches that are traced and have asked for their callee. -/
theorem countP_isDispatch (hstart : start.QuietSince []) (index : Nat) :
    (moment bodies start index).state.trace.countP TraceEntry.isDispatch =
      (tracedDispatches bodies start index).ncard := by
  induction index with
  | zero =>
    have hnone : tracedDispatches bodies start 0 = ∅ := by
      refine Set.eq_empty_iff_forall_notMem.2 ?_
      rintro began ⟨entering, event, call, reached, hentering, horder, -⟩
      omega
    rw [hnone, Set.ncard_empty]
    exact hstart.countP_eq
  | succ index ih =>
    obtain ⟨before, hsince, hentered, hquiet | ⟨began, event, call, reached, henters, hreached⟩⟩ :=
      report_cases bodies start index
    · have hsame : tracedDispatches bodies start (index + 1) =
          tracedDispatches bodies start index := by
        ext began
        constructor
        · rintro ⟨entering, event, call, reached, hentering, henters⟩
          rcases Nat.le_or_eq_of_le_succ hentering with hbefore | rfl
          · exact ⟨entering, event, call, reached, hbefore, henters⟩
          · exact absurd henters (not_enters_of_quiet hstart hsince hentered hquiet)
        · rintro ⟨entering, event, call, reached, hentering, henters⟩
          exact ⟨entering, event, call, reached, Nat.le_succ_of_le hentering, henters⟩
      rw [hquiet.countP_eq, hsince.countP_eq, ih, hsame]
    · have hinsert : tracedDispatches bodies start (index + 1) =
          insert began (tracedDispatches bodies start index) := by
        ext other
        constructor
        · rintro ⟨entering, event, call, reached, hentering, hother⟩
          rcases Nat.le_or_eq_of_le_succ hentering with hbefore | rfl
          · exact .inr ⟨entering, event, call, reached, hbefore, hother⟩
          · exact .inl (henters.unique_began hother)
        · rintro (rfl | ⟨entering, event, call, reached, hentering, hother⟩)
          · exact ⟨index + 1, event, call, reached, Nat.le_refl _, henters⟩
          · exact ⟨entering, event, call, reached, Nat.le_succ_of_le hentering, hother⟩
      have hnew : began ∉ tracedDispatches bodies start index := by
        rintro ⟨entering, event, call, reached, hentering, hother⟩
        have hlater := hother.le_entering henters
        omega
      have hreport : (TraceEntry.emitted event).isDispatch = true := henters.isDispatch
      rw [henters.trace, List.countP_cons_of_pos hreport, hreached.countP_eq, hsince.countP_eq, ih,
        hinsert,
        Set.ncard_insert_of_notMem hnew (finite_tracedDispatches bodies start index)]

/-- Where no realm traces dispatches, none has been reported. -/
theorem isDispatch_of_untraced (hstart : start.QuietSince [])
    (huntraced : ∀ reference,
      ((moment bodies start index).state.realm reference).config.traceDispatch = false) :
    ∀ entry ∈ (moment bodies start index).state.trace, entry.isDispatch = false := by
  intro entry hentry
  by_contra hdispatch
  cases entry with
  | emitted event =>
    obtain ⟨later, earlier, htrace⟩ := List.append_of_mem hentry
    obtain ⟨began, entering, call, reached, henters, -, hentering⟩ :=
      reports_moment hstart htrace (by simpa [TraceEntry.isDispatch] using hdispatch)
    obtain ⟨horder, hbegins, -, hconcludes, -⟩ := henters
    obtain ⟨-, -, htracing, -, -, -⟩ := hconcludes
    have hbegun := state_of_run hbegins
    rw [← hbegun] at htracing
    -- the realm keeps its configuration
    have hconfig := ((transitions_moment bodies start (by omega : began ≤ index)).config_eq
      (State.lt_size_of_traceDispatch htracing)).2
    exact Bool.false_ne_true
      ((huntraced _).symm.trans ((congrArg Config.traceDispatch hconfig).trans htracing))
  | _ => exact hdispatch rfl

end Session

end Reports

end GradualRuntime
