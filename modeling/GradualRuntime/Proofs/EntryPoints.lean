import GradualRuntime.Proofs.Tandem.Machine

/-!
# The entry points of dispatch

A dispatch fails in two ways: a fault comes out of a member read or out of the callee, or the
dispatch itself finds nothing to call and reports that. `Dispatch.pursue` keeps the two apart: it is
the dispatch with the cause in place of the failure that would be built from it, and
`Dispatch.invoke_eq_pursue` builds the failure. What a dispatch finds depends on its call site only
through what the site obtains from the receiver (`Dispatch.seek`), and the names of the call site
go into the report of the dispatch and into its own failures.

So two dispatches that find the same come to the same (`Dispatch.SameVerdicts`), except for the
names in one report, which nothing else reads. `entryPoints` says this of operators and calls, of
the index operations and calls of the members they are configured to use, and of a bare call of a
value and a call of a slot that holds it; and it says which name each of them reports.
-/

set_option autoImplicit false

namespace GradualRuntime

namespace Dispatch

/-- The function to enter for a resolved value, with its `this`, or why there is none. -/
def reach (realm : RealmId) (resolved this : Value) :
    Run (Except MissingCause (FunctionId × Value)) := do
  match resolved with
  | .function function => return .ok (function, this)
  | other =>
    if other.isNullish then
      return .error .absent
    else
      match ← getMember realm other (← Run.realm realm).config.members.call with
      | .function function => return .ok (function, other)
      | _ => return .error (.notCallable other)

/-- What a call site finds on a receiver. -/
def seek (realm : RealmId) (receiver : Value) (site : CallSite) :
    Run (Except MissingCause (FunctionId × Value)) := do
  let resolved ← resolve realm site receiver
  reach realm resolved (site.thisFor receiver)

/-- The report of a dispatch by the names that it goes by: a type and a member. -/
def report (names : String × String) (heap : Heap) (callee : FunctionId)
    (arguments : List Value) : Event :=
  .dispatched names.1 names.2 (heap.functionName callee) arguments.length

/-- What is done with what has been found: the callee is entered, if the arguments fit. -/
def settle (config : Config) (names : String × String) (arguments : List Value) :
    Except MissingCause (FunctionId × Value) → Run (Except MissingCause Value)
  | .error cause => return .error cause
  | .ok (callee, this) => do
    let heap ← Run.heap
    let formals := heap.formals callee
    if acceptsCount config.optionalMark formals arguments.length then
      if config.traceDispatch then
        Run.emit (report names heap callee arguments)
      return .ok (← Run.call callee this arguments)
    else
      return .error (.arityMismatch (.ofFormals config.optionalMark formals) arguments.length)

/-- The names that a dispatch goes by. -/
def namesOf (members : MemberNames) (receiver : Value) (site : CallSite) : String × String :=
  (receiver.typeName, site.reportedName members)

/-- A dispatch, with the cause in place of the failure that it builds itself. -/
def pursue (realm : RealmId) (receiver : Value) (site : CallSite) (arguments : List Value) :
    Run (Except MissingCause Value) := do
  let config := (← Run.realm realm).config
  let found ← seek realm receiver site
  settle config (namesOf config.members receiver site) arguments found

/-- The failure that a dispatch builds from a cause. -/
def missing (members : MemberNames) (receiver : Value) (site : CallSite) (arguments : List Value)
    (cause : MissingCause) : Fault :=
  .missingMember ⟨receiver, site.reportedName members, arguments, cause⟩

/-- The outcome of a dispatch: a cause of its own becomes a failure that carries the names of the
dispatch, and everything else is passed on. -/
def outcomeOf (members : MemberNames) (receiver : Value) (site : CallSite)
    (arguments : List Value) : Except Fault (Except MissingCause Value) → Except Fault Value
  | .ok (.ok result) => .ok result
  | .ok (.error cause) => .error (missing members receiver site arguments cause)
  | .error fault => .error fault

end Dispatch

/-- Two states are the same, but perhaps for the names in one report of a dispatch. -/
def State.Renamed (names others : String × String) (state other : State) : Prop :=
  other = state ∨ ∃ heap callee arguments later earlier,
    state.trace = later ++ .emitted (Dispatch.report names heap callee arguments) :: earlier ∧
      other = { state with
        trace := later ++ .emitted (Dispatch.report others heap callee arguments) :: earlier }

theorem State.Renamed.symm {names others : String × String} {state other : State}
    (h : state.Renamed names others other) : other.Renamed others names state := by
  rcases h with rfl | ⟨heap, callee, arguments, later, earlier, htrace, rfl⟩
  · exact .inl rfl
  · refine .inr ⟨heap, callee, arguments, later, earlier, rfl, ?_⟩
    rw [← htrace]

namespace Dispatch

/-- Two dispatches with the same arguments, from the same state, come to the same: when one ends so
does the other, with the same result, with the same fault of a read or of the callee, or with the
same cause of a failure of its own. The states in which they end are the same, but for the names in
the report of the dispatch, and those too if dispatches are not traced. -/
structure SameVerdicts (realm : RealmId) (first second : Value × CallSite)
    (arguments : List Value) (state : State) : Prop where
  forth : ∀ verdict after, (pursue realm first.1 first.2 arguments state).EndsWith verdict after →
    ∃ other, (pursue realm second.1 second.2 arguments state).EndsWith verdict other ∧
      after.Renamed (namesOf (state.realm realm).config.members first.1 first.2)
        (namesOf (state.realm realm).config.members second.1 second.2) other ∧
      ((state.realm realm).config.traceDispatch = false → other = after)
  back : ∀ verdict other, (pursue realm second.1 second.2 arguments state).EndsWith verdict other →
    ∃ after, (pursue realm first.1 first.2 arguments state).EndsWith verdict after ∧
      after.Renamed (namesOf (state.realm realm).config.members first.1 first.2)
        (namesOf (state.realm realm).config.members second.1 second.2) other ∧
      ((state.realm realm).config.traceDispatch = false → other = after)

section Pursuit

variable {realm : RealmId} {receiver : Value} {site : CallSite} {arguments : List Value}
  {state : State}

variable {config : Config} {names : String × String} {callee : FunctionId} {this : Value}

/-- A callee that takes the arguments is entered, and its result given. -/
theorem settle_of_fits (hfits : acceptsCount config.optionalMark (state.heap.formals callee)
    arguments.length = true) :
    settle config names arguments (.ok (callee, this)) state =
      .calling ⟨callee, this, arguments, .plain⟩
        (if config.traceDispatch then
          state.record (.emitted (report names state.heap callee arguments))
        else state)
        fun outcome last ↦ .ended (outcome.map .ok) last := by
  simp only [settle, Run.bind_apply, Run.heap_apply, Progress.andThen_ended, Run.onward_ok, hfits,
    if_true]
  split
  all_goals
    simp only [Run.bind_apply, Run.emit_apply, Progress.andThen_ended, Run.onward_ok,
      Run.call_apply, Progress.andThen_calling]
    congr 1
    funext outcome last
    cases outcome <;> rfl

theorem settle_of_not_fits (hfits : ¬acceptsCount config.optionalMark (state.heap.formals callee)
    arguments.length = true) :
    settle config names arguments (.ok (callee, this)) state =
      .ended (.ok (.error (.arityMismatch
        (.ofFormals config.optionalMark (state.heap.formals callee)) arguments.length))) state := by
  simp only [settle, Run.bind_apply, Run.heap_apply, Progress.andThen_ended, Run.onward_ok, hfits,
    Bool.false_eq_true, if_false, Run.pure_apply]

/-- What `callable` finds, with a failure built from a cause. -/
theorem callable_eq_reach (resolved this : Value) (member : String) :
    callable realm resolved this receiver member arguments =
      reach realm resolved this >>= fun
        | .ok found => pure found
        | .error cause => Run.fail (.missingMember ⟨receiver, member, arguments, cause⟩) := by
  have hadapter : ∀ other : Value, ∀ next last : Value → Run (FunctionId × Value),
      next = last → (Run.realm realm >>= fun record ↦
        getMember realm other record.config.members.call >>= next) =
          Run.realm realm >>= fun record ↦
            getMember realm other record.config.members.call >>= last := by
    rintro other next _ rfl
    rfl
  cases resolved with
  | undefined | null | function _ => rfl
  | _ =>
    simp only [callable, reach, Value.isNullish, Bool.false_eq_true, if_false, bind_assoc]
    refine hadapter _ _ _ ?_
    funext found
    cases found <;> rfl

/-- What `find` finds, with a failure built from a cause. -/
theorem find_eq_seek (member : String) :
    find realm receiver site arguments member =
      seek realm receiver site >>= fun
        | .ok found => pure found
        | .error cause => Run.fail (.missingMember ⟨receiver, member, arguments, cause⟩) := by
  simp only [find, seek, callable_eq_reach, bind_assoc]

/-- A dispatch is its pursuit, with a failure built from a cause. -/
theorem invoke_eq_pursue :
    invoke realm receiver site arguments state =
      (pursue realm receiver site arguments state).andThen fun verdict last ↦
        .ended (outcomeOf (state.realm realm).config.members receiver site arguments verdict)
          last := by
  have hpursue : pursue realm receiver site arguments state =
      (seek realm receiver site state).andThen (Run.onward (settle (state.realm realm).config
        (namesOf (state.realm realm).config.members receiver site) arguments)) := rfl
  rw [invoke_eq_find, find_eq_seek, hpursue, Run.bind_apply, Progress.andThen_assoc,
    Progress.andThen_assoc]
  congr 1
  funext outcome middle
  rcases outcome with fault | cause | ⟨callee, this⟩
  · rfl
  · rfl
  · simp only [Run.onward_ok, Run.pure_apply, Progress.andThen_ended, conclude]
    split
    case isTrue hfits =>
      rw [settle_of_fits hfits, Progress.andThen_calling]
      congr 1
      funext answer last
      cases answer <;> rfl
    case isFalse hfits =>
      rw [settle_of_not_fits hfits]
      rfl

end Pursuit

section Names

/-- The states of two runs that differ in one report, which has been made after some entries. -/
def rewording (event other : Event) (earlier : List TraceEntry) : Bond Unit := fun _ left right ↦
  ∃ later, left.trace = later ++ .emitted event :: earlier ∧
    right = { left with trace := later ++ .emitted other :: earlier }

/-- Nothing reads a report. -/
theorem free_rewording (event other : Event) (earlier : List TraceEntry) :
    (rewording event other earlier).Free := by
  refine .of_trace ?_ ?_ ?_
  · rintro _ left _ ⟨later, -, rfl⟩
    rfl
  · rintro _ left _ ⟨later, htrace, rfl⟩ state
    exact ⟨later, htrace, rfl⟩
  · rintro _ left _ entry ⟨later, htrace, rfl⟩ -
    exact ⟨entry :: later, by rw [State.record, htrace]; rfl, rfl⟩

theorem carries_rewording (event other : Event) (earlier : List TraceEntry) :
    Bond.Carries Eq (rewording event other earlier) := by
  refine .of_eq (free_rewording event other earlier).lawful ?_ ?_
  · rintro _ left _ ⟨later, -, rfl⟩
    rfl
  · refine (free_rewording event other earlier).lawful.invoke ?_ ?_
    · rintro _ left _ reference ⟨later, -, rfl⟩
      rfl
    · rintro _ left _ reported ⟨later, htrace, rfl⟩ _
      exact ⟨.emitted reported :: later, by rw [State.record, htrace]; rfl, rfl⟩

variable {config : Config} {names others : String × String} {arguments : List Value}
  {found : Except MissingCause (FunctionId × Value)}
  {verdict : Except Fault (Except MissingCause Value)} {middle last : State}

/-- What a dispatch comes to does not depend on the names that it reports. -/
theorem settle_renamed (others : String × String)
    (h : (settle config names arguments found middle).EndsWith verdict last) :
    ∃ other, (settle config others arguments found middle).EndsWith verdict other ∧
      last.Renamed names others other ∧ (config.traceDispatch = false → other = last) := by
  rcases found with cause | ⟨callee, this⟩
  · exact ⟨last, h, .inl rfl, fun _ ↦ rfl⟩
  by_cases hfits :
      acceptsCount config.optionalMark (middle.heap.formals callee) arguments.length = true
  · rw [settle_of_fits hfits] at h ⊢
    cases htraced : config.traceDispatch with
    | false =>
      rw [htraced] at h
      exact ⟨last, h, .inl rfl, fun _ ↦ rfl⟩
    | true =>
      rw [htraced] at h
      -- the callee runs from two states that differ in the report
      have hstart : Progress.Tandem
          (rewording (report names middle.heap callee arguments)
            (report others middle.heap callee arguments) middle.trace)
          (@Eq (Except Fault (Except MissingCause Value))) ()
          (.calling ⟨callee, this, arguments, .plain⟩
            (middle.record (.emitted (report names middle.heap callee arguments)))
            fun outcome last ↦ .ended (outcome.map Except.ok) last)
          (.calling ⟨callee, this, arguments, .plain⟩
            (middle.record (.emitted (report others middle.heap callee arguments)))
            fun outcome last ↦ .ended (outcome.map Except.ok) last) :=
        .calling ⟨[], rfl, rfl⟩ fun _ _ _ _ hback ↦ .ended hback rfl
      obtain ⟨-, _, other, hother, rfl, later, htrace, rfl⟩ :=
        (carries_rewording _ _ _).endsWith hstart h
      exact ⟨_, hother, .inr ⟨_, _, _, later, _, htrace, rfl⟩, nofun⟩
  · rw [settle_of_not_fits hfits] at h ⊢
    exact ⟨last, h, .inl rfl, fun _ ↦ rfl⟩

end Names

section Agreement

variable {realm : RealmId} {first second : Value × CallSite} {arguments : List Value}
  {state : State}

theorem pursue_apply (receiver : Value) (site : CallSite) :
    pursue realm receiver site arguments state =
      (seek realm receiver site state).andThen (Run.onward (settle (state.realm realm).config
        (namesOf (state.realm realm).config.members receiver site) arguments)) := rfl

/-- A dispatch that finds the same comes to the same. -/
theorem verdict_of_seek (h : seek realm first.1 first.2 state = seek realm second.1 second.2 state)
    {verdict : Except Fault (Except MissingCause Value)} {after : State}
    (hends : (pursue realm first.1 first.2 arguments state).EndsWith verdict after) :
    ∃ other, (pursue realm second.1 second.2 arguments state).EndsWith verdict other ∧
      after.Renamed (namesOf (state.realm realm).config.members first.1 first.2)
        (namesOf (state.realm realm).config.members second.1 second.2) other ∧
      ((state.realm realm).config.traceDispatch = false → other = after) := by
  rw [pursue_apply] at hends ⊢
  obtain ⟨found, middle, hseek, hrest⟩ := Progress.endsWith_andThen_iff.1 hends
  rw [h] at hseek
  cases found with
  | error fault => exact ⟨after, hseek.andThen hrest, .inl rfl, fun _ ↦ rfl⟩
  | ok found =>
    obtain ⟨other, hother, hrenamed⟩ := settle_renamed _ hrest
    exact ⟨other, hseek.andThen hother, hrenamed⟩

theorem sameVerdicts_of_seek
    (h : seek realm first.1 first.2 state = seek realm second.1 second.2 state) :
    SameVerdicts realm first second arguments state where
  forth _ _ hends := verdict_of_seek h hends
  back _ _ hends := by
    obtain ⟨after, hafter, hrenamed, hsame⟩ := verdict_of_seek h.symm hends
    exact ⟨after, hafter, hrenamed.symm, fun hquiet ↦ (hsame hquiet).symm⟩

/-- A slot that holds a value reads as the value. -/
theorem getMember_of_data {receiver held : Value} {name : String} {holder owner : ObjectId}
    {writable enumerable : Bool}
    (hholder : (state.realm realm).holder? state.heap receiver = some holder)
    (hslot : state.heap.lookup holder name = some (owner, .data held writable enumerable)) :
    getMember realm receiver name state = .ended (.ok held) state := by
  simp [getMember, hholder, Member.read_of_data hslot]

/-- Where the functions are other values, `this` does not matter. -/
theorem reach_of_other {value : Value} (hother : ∀ function, value ≠ .function function)
    (this that : Value) : reach realm value this = reach realm value that := by
  cases value with
  | function function => exact absurd rfl (hother function)
  | _ => rfl

theorem invoke_endsWith_iff {receiver : Value} {site : CallSite} {outcome : Except Fault Value}
    {last : State} :
    (invoke realm receiver site arguments state).EndsWith outcome last ↔
      ∃ verdict, (pursue realm receiver site arguments state).EndsWith verdict last ∧
        outcome = outcomeOf (state.realm realm).config.members receiver site arguments verdict := by
  rw [invoke_eq_pursue, Progress.endsWith_andThen_iff]
  constructor
  · rintro ⟨verdict, middle, hpursue, hlast⟩
    obtain ⟨rfl, rfl⟩ := Progress.endsWith_ended_iff.1 hlast
    exact ⟨verdict, hpursue, rfl⟩
  · rintro ⟨verdict, hpursue, rfl⟩
    exact ⟨verdict, last, hpursue, .ended _ _⟩

theorem invoke_endsWith_error {receiver : Value} {site : CallSite} {cause : MissingCause}
    {last : State} {name : String} (hname : site.Reports (state.realm realm).config.members name)
    (hpursue : (pursue realm receiver site arguments state).EndsWith (.ok (.error cause)) last) :
    (invoke realm receiver site arguments state).EndsWith
      (.error (.missingMember ⟨receiver, name, arguments, cause⟩)) last := by
  obtain rfl := CallSite.reports_iff.1 hname
  exact invoke_endsWith_iff.2 ⟨_, hpursue, rfl⟩

theorem invoke_binary (receiver : Value) (name : String) :
    invoke realm receiver (.binary name) arguments =
      invoke realm receiver (.call name) arguments := by
  simp only [invoke, resolve, CallSite.memberName?, CallSite.thisFor, CallSite.reportedName]

/-- Two call sites that read the same member of a receiver, with the same `this`, find the same. -/
theorem seek_of_memberName {receiver : Value} {site other : CallSite} {name : String}
    (hsite : site.memberName? (state.realm realm).config.members = some name)
    (hother : other.memberName? (state.realm realm).config.members = some name)
    (hthis : site.thisFor receiver = other.thisFor receiver) :
    seek realm receiver site state = seek realm receiver other state := by
  rw [seek, seek, Run.bind_apply, Run.bind_apply, resolve_of_memberName hsite,
    resolve_of_memberName hother, hthis]

theorem seek_apply_of_data {receiver held : Value} {name : String} {holder owner : ObjectId}
    {writable enumerable : Bool}
    (hholder : (state.realm realm).holder? state.heap receiver = some holder)
    (hslot : state.heap.lookup holder name = some (owner, .data held writable enumerable))
    (hother : ∀ function, held ≠ .function function) :
    seek realm held .apply state = seek realm receiver (.call name) state := by
  have hread : resolve realm (.call name) receiver state = .ended (.ok held) state :=
    getMember_of_data hholder hslot
  have hself : resolve realm .apply held state = .ended (.ok held) state := rfl
  simp only [seek]
  rw [Run.bind_of_ok hread, Run.bind_of_ok hself]
  exact congrFun (reach_of_other hother _ _) state

/-- How the entry points of dispatch agree with one another. -/
structure EntryPoints : Prop where
  /-- Each of them is a dispatch. -/
  operations : ∀ place operation operands receiver site arguments,
    Operation.dispatch? operation operands = some (receiver, site, arguments) →
      Operation.carryOut place operation operands =
        Answer.value <$> invoke place receiver site arguments
  /-- The failures that a dispatch builds itself are told apart from all other faults by its
  pursuit. -/
  verdicts : ∀ realm receiver site arguments (state : State) outcome last,
    (invoke realm receiver site arguments state).EndsWith outcome last ↔
      ∃ verdict, (pursue realm receiver site arguments state).EndsWith verdict last ∧
        outcome = outcomeOf (state.realm realm).config.members receiver site arguments verdict
  /-- A failure that a dispatch builds itself carries its receiver, its arguments and the name by
  which its call site goes: a symbol for operations on indices, the name of the `call` member for a
  bare call, the name that is written otherwise. -/
  reported : ∀ realm receiver site arguments (state : State) cause last name,
    site.Reports (state.realm realm).config.members name →
      (pursue realm receiver site arguments state).EndsWith (.ok (.error cause)) last →
        (invoke realm receiver site arguments state).EndsWith
          (.error (.missingMember ⟨receiver, name, arguments, cause⟩)) last
  /-- The names that a dispatch goes by are the type of its receiver and that name. -/
  named : ∀ members receiver site name,
    site.Reports members name ↔ namesOf members receiver site = (receiver.typeName, name)
  /-- An operator and a call of its name are one and the same. -/
  binary : ∀ realm receiver name arguments,
    invoke realm receiver (.binary name) arguments = invoke realm receiver (.call name) arguments
  /-- Reading at an index comes to the same as a call of the member configured for it. -/
  indexGet : ∀ realm receiver arguments (state : State),
    SameVerdicts realm (receiver, .indexGet)
      (receiver, .call (state.realm realm).config.members.indexGet) arguments state
  /-- Writing at an index comes to the same as a call of the member configured for it. -/
  indexSet : ∀ realm receiver arguments (state : State),
    SameVerdicts realm (receiver, .indexSet)
      (receiver, .call (state.realm realm).config.members.indexSet) arguments state
  /-- A bare call of a value that is no function comes to the same as a call of a slot that holds
  it, whatever the receiver on which the slot is found. -/
  apply : ∀ realm receiver name arguments (state : State) holder owner held writable enumerable,
    (state.realm realm).holder? state.heap receiver = some holder →
      state.heap.lookup holder name = some (owner, .data held writable enumerable) →
        (∀ function, held ≠ .function function) →
          SameVerdicts realm (held, .apply) (receiver, .call name) arguments state

/-- The entry points of dispatch agree with one another. -/
theorem entryPoints : EntryPoints where
  operations place _ _ _ _ _ hdispatch := Operation.carryOut_of_dispatch hdispatch place
  verdicts _ _ _ _ _ _ _ := invoke_endsWith_iff
  reported _ _ _ _ _ _ _ _ hname hpursue := invoke_endsWith_error hname hpursue
  named _ _ _ _ := by
    rw [CallSite.reports_iff, namesOf, Prod.mk.injEq]
    exact ⟨fun hname ↦ ⟨rfl, hname⟩, And.right⟩
  binary _ receiver name _ := invoke_binary receiver name
  indexGet _ _ _ _ := sameVerdicts_of_seek (seek_of_memberName rfl rfl rfl)
  indexSet _ _ _ _ := sameVerdicts_of_seek (seek_of_memberName rfl rfl rfl)
  apply _ _ _ _ _ _ _ _ _ _ hholder hslot hother :=
    sameVerdicts_of_seek (seek_apply_of_data hholder hslot hother)

end Agreement

end Dispatch

end GradualRuntime
