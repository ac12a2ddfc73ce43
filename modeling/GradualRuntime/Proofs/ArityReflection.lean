import GradualRuntime.Proofs.ArityReports

/-!
# What the arity of a value says of its bare calls

To ask for the arity of a value and to call it bare, that is without a receiver, begin alike: both
find out what a call would enter (`Dispatch.seek`). For a function and for a null sentinel nothing
has to be read; every other value has its `call` member read once. What follows changes nothing in
the case of the question, and is the decision in the case of the call.

So the answer predicts the calls that are made in the state in which it was asked for
(`Dispatch.arityReflection`). A call enters the function whose arity was given exactly when the
formals let its arguments through (`Dispatch.entersCallee_iff`). Under the convention that optional
formals come last, that is when the arity accepts their number. Where there is no arity to give
there is nothing to call either, for the same reason and with the same failure.
-/

set_option autoImplicit false

namespace GradualRuntime

/-- When the second part of a sequence gives no result by itself, a call whose outcome is the
outcome of the sequence is made in the second part. -/
theorem Progress.Leads.exists_of_andThen {α : Type} {first : Progress α}
    {next : Except Fault α → State → Progress Value} {call : Call} {asked : State}
    (hnext : ∀ outcome state result last, next outcome state ≠ .ended (.ok result) last)
    (h : (first.andThen next).Leads (.calling call asked .ended)) :
    ∃ outcome state, first.EndsWith outcome state ∧
      (next outcome state).Leads (.calling call asked .ended) := by
  rcases h.andThen_cases with ⟨middle, hleads, hmiddle⟩ | hsecond
  · cases middle with
    | ended outcome state =>
      refine ⟨outcome, state, hleads.endsWith (.ended outcome state), ?_⟩
      rw [hmiddle]
      exact .refl _
    | paused state resume => cases hmiddle
    | calling other state resume =>
      -- a result of this call would go on into the second part
      rw [Progress.andThen_calling, Progress.calling.injEq] at hmiddle
      have hresult := congrFun (congrFun hmiddle.2.2 (.ok .undefined)) asked
      cases hresume : resume (.ok .undefined) asked with
      | ended outcome reached =>
        rw [hresume, Progress.andThen_ended] at hresult
        exact absurd hresult.symm (hnext outcome reached _ _)
      | paused reached rest => simp [hresume] at hresult
      | calling inner reached rest => simp [hresume] at hresult
  · exact hsecond

namespace Dispatch

/-- The dispatch enters the callee: it comes to a call with exactly its own arguments, and what this
call comes to is what the dispatch comes to. -/
def EntersCallee (realm : RealmId) (receiver : Value) (site : CallSite) (arguments : List Value)
    (state : State) (callee : FunctionId) : Prop :=
  ∃ this asked, (invoke realm receiver site arguments state).Leads
    (.calling ⟨callee, this, arguments, .plain⟩ asked .ended)

/-- What is found in the `call` member of a value that is no function itself. -/
def adapted (value : Value) : Value → Except MissingCause (FunctionId × Value)
  | .function callee => .ok (callee, value)
  | _ => .error (.notCallable value)

variable {realm : RealmId} {receiver value : Value} {site : CallSite} {arguments : List Value}
  {state reached : State} {callee : FunctionId}

section Seek

/-- A dispatch concludes with what it has found, or with the failure that it builds. -/
theorem invoke_eq_seek :
    invoke realm receiver site arguments state =
      (seek realm receiver site state).andThen fun found ↦
        conclude (state.realm realm).config receiver
          (site.reportedName (state.realm realm).config.members) arguments
          (found.bind (Except.mapError
            (missing (state.realm realm).config.members receiver site arguments))) := by
  rw [invoke_eq_find, find_eq_seek, Run.bind_apply, Progress.andThen_assoc]
  congr 1
  funext found last
  rcases found with fault | cause | callee <;> rfl

/-- The question for an arity ends with what it has found. -/
theorem arity_eq_seek :
    arity realm value state =
      (seek realm value .apply state).andThen fun found last ↦
        .ended ((found.bind (Except.mapError
          (missing (state.realm realm).config.members value .apply []))).map fun callee ↦
            .ofFormals (state.realm realm).config.optionalMark
              (last.heap.formals callee.1)) last := by
  have hseek : seek realm value .apply state = reach realm value .undefined state := rfl
  rw [hseek, arity, Run.bind_of_ok (Run.realm_apply realm state), callable_eq_reach, Run.bind_apply,
    Run.bind_apply, Progress.andThen_assoc]
  congr 1
  funext found last
  rcases found with fault | cause | callee <;> rfl

theorem seek_apply_of_nullish (h : value.isNullish = true) :
    seek realm value .apply state = .ended (.ok (.error .absent)) state := by
  cases value with
  | undefined | null => rfl
  | _ => cases h

theorem seek_apply_of_other (hpresent : value.isNullish = false)
    (hother : ∀ function, value ≠ .function function) :
    seek realm value .apply state =
      (getMember realm value (state.realm realm).config.members.call state).andThen
        fun found last ↦ .ended (found.map (adapted value)) last := by
  have hadapt : ∀ next : Value → Run (Except MissingCause (FunctionId × Value)),
      (∀ found, next found = pure (adapted value found)) →
        (getMember realm value (state.realm realm).config.members.call state).andThen
          (Run.onward next) =
        (getMember realm value (state.realm realm).config.members.call state).andThen
          fun found last ↦ .ended (found.map (adapted value)) last := by
    intro next hnext
    congr 1
    funext found last
    cases found with
    | error fault => rfl
    | ok found => rw [Run.onward_ok, hnext]; rfl
  cases value with
  | function callee => exact absurd rfl (hother callee)
  | undefined | null => cases hpresent
  | _ => exact hadapt _ fun found ↦ by cases found <;> rfl

end Seek

section Entering

/-- A dispatch that has found a function enters it when the formals let its arguments through. -/
theorem conclude_of_accepts {config : Config}
    (h : acceptsCount config.optionalMark (reached.heap.formals callee) arguments.length = true)
    (receiver this : Value) (member : String) :
    ∃ asked, conclude config receiver member arguments (.ok (callee, this)) reached =
      .calling ⟨callee, this, arguments, .plain⟩ asked .ended := by
  simp only [conclude, h, if_true]
  exact ⟨_, rfl⟩

/-- The conclusion of a dispatch asks for one call at most, which is that of a function found and
let through. -/
theorem accepts_of_conclude_leads {config : Config} {member : String}
    {found : Except Fault (FunctionId × Value)} {call : Call} {asked : State}
    {resume : Except Fault Value → State → Progress Value}
    (h : (conclude config receiver member arguments found reached).Leads
      (.calling call asked resume)) :
    ∃ this, found = .ok (call.function, this) ∧
      acceptsCount config.optionalMark (reached.heap.formals call.function) arguments.length =
        true := by
  rcases found with fault | ⟨function, this⟩
  · cases h
  · simp only [conclude] at h
    split at h
    case isTrue hfits =>
      cases h with
      | refl => exact ⟨this, rfl, hfits⟩
      | calling _ rest => cases rest
    case isFalse => cases h

/-- The conclusion of a dispatch has no result of its own. -/
theorem conclude_ne_ok {config : Config} {member : String}
    {found : Except Fault (FunctionId × Value)} {result : Value} {last : State} :
    conclude config receiver member arguments found reached ≠ .ended (.ok result) last := by
  intro h
  rcases found with fault | ⟨function, this⟩
  · cases h
  · simp only [conclude] at h
    split at h <;> cases h

/-- A dispatch enters the function that it finds, when the formals let the arguments through, and no
other. -/
theorem entersCallee_iff :
    EntersCallee realm receiver site arguments state callee ↔
      ∃ reached, FindsFunction realm receiver site state callee reached ∧
        acceptsCount (state.realm realm).config.optionalMark (reached.heap.formals callee)
          arguments.length = true := by
  constructor
  · rintro ⟨this, asked, hleads⟩
    rw [invoke_eq_seek] at hleads
    obtain ⟨found, reached, hseek, hconclude⟩ :=
      hleads.exists_of_andThen fun _ _ _ _ ↦ conclude_ne_ok
    obtain ⟨that, hfound, hfits⟩ := accepts_of_conclude_leads hconclude
    rcases found with fault | cause | ⟨function, bound⟩
    · cases hfound
    · cases hfound
    · cases hfound
      exact ⟨reached, ⟨that, hseek⟩, hfits⟩
  · rintro ⟨reached, ⟨this, hseek⟩, hfits⟩
    obtain ⟨asked, hconclude⟩ := conclude_of_accepts hfits receiver this
      (site.reportedName (state.realm realm).config.members)
    refine ⟨this, asked, ?_⟩
    rw [invoke_eq_seek, ← hconclude]
    exact hseek.leads_andThen _

/-- The arity of a value is that which the function declares that a bare call finds. -/
theorem arity_endsWith_ok_iff {bounds : Arity} :
    (arity realm value state).EndsWith (.ok bounds) reached ↔
      ∃ callee, FindsFunction realm value .apply state callee reached ∧
        bounds = .ofFormals (state.realm realm).config.optionalMark
          (reached.heap.formals callee) := by
  rw [arity_eq_seek, Progress.endsWith_andThen_iff]
  constructor
  · rintro ⟨found, last, hseek, hlast⟩
    obtain ⟨hbounds, rfl⟩ := Progress.endsWith_ended_iff.1 hlast
    rcases found with fault | cause | ⟨callee, this⟩
    · cases hbounds
    · cases hbounds
    · cases hbounds
      exact ⟨callee, ⟨this, hseek⟩, rfl⟩
  · rintro ⟨callee, ⟨this, hseek⟩, rfl⟩
    exact ⟨_, reached, hseek, .ended _ _⟩

/-- There is no arity when there is nothing to call, or when the read fails that would tell. -/
theorem arity_endsWith_error_iff {fault : Fault} :
    (arity realm value state).EndsWith (.error fault) reached ↔
      (∃ cause, (seek realm value .apply state).EndsWith (.ok (.error cause)) reached ∧
        fault = missing (state.realm realm).config.members value .apply [] cause) ∨
      (seek realm value .apply state).EndsWith (.error fault) reached := by
  rw [arity_eq_seek, Progress.endsWith_andThen_iff]
  constructor
  · rintro ⟨found, last, hseek, hlast⟩
    obtain ⟨hfault, rfl⟩ := Progress.endsWith_ended_iff.1 hlast
    rcases found with other | cause | callee
    · cases hfault
      exact .inr hseek
    · cases hfault
      exact .inl ⟨cause, hseek, rfl⟩
    · cases hfault
  · rintro (⟨cause, hseek, rfl⟩ | hseek)
    · exact ⟨_, reached, hseek, .ended _ _⟩
    · exact ⟨_, reached, hseek, .ended _ _⟩

end Entering

/-- What the question for the arity of a value says of the bare calls of the value that are made in
the same state. -/
structure ArityReflection (realm : RealmId) (value : Value) (state : State) : Prop where
  /-- The question finds out what a bare call would enter, and ends there. -/
  question : arity realm value state =
    (seek realm value .apply state).andThen fun found last ↦
      .ended ((found.bind (Except.mapError
        (missing (state.realm realm).config.members value .apply []))).map fun callee ↦
          .ofFormals (state.realm realm).config.optionalMark (last.heap.formals callee.1)) last
  /-- A bare call finds out the same, and decides there. -/
  call : ∀ arguments, invoke realm value .apply arguments state =
    (seek realm value .apply state).andThen fun found ↦
      conclude (state.realm realm).config value (state.realm realm).config.members.call arguments
        (found.bind (Except.mapError
          (missing (state.realm realm).config.members value .apply arguments)))
  /-- For a function and for a null sentinel that takes nothing. -/
  unread : (value.isNullish = true ∨ ∃ function, value = .function function) →
    ∃ found, seek realm value .apply state = .ended (.ok found) state
  /-- For every other value that takes one read of its `call` member, and nothing else. -/
  read : value.isNullish = false → (∀ function, value ≠ .function function) →
    seek realm value .apply state =
      (getMember realm value (state.realm realm).config.members.call state).andThen
        fun found last ↦ .ended (found.map (adapted value)) last
  /-- An arity that is given is that of the function which a bare call finds. -/
  given_iff : ∀ {bounds reached}, (arity realm value state).EndsWith (.ok bounds) reached ↔
    ∃ callee, FindsFunction realm value .apply state callee reached ∧
      bounds = .ofFormals (state.realm realm).config.optionalMark (reached.heap.formals callee)
  /-- If its optional formals come last, then a bare call enters it exactly when the arity accepts
  the number of arguments. -/
  enters_iff : ∀ {bounds reached callee},
    (arity realm value state).EndsWith (.ok bounds) reached →
    FindsFunction realm value .apply state callee reached →
    OptionalsLast (state.realm realm).config.optionalMark (reached.heap.formals callee) →
      ∀ arguments, EntersCallee realm value .apply arguments state callee ↔
        bounds.accepts arguments.length = true
  /-- Otherwise the call fails where the arity was given, and reports the same arity. -/
  refused : ∀ {bounds reached callee},
    (arity realm value state).EndsWith (.ok bounds) reached →
    FindsFunction realm value .apply state callee reached →
    OptionalsLast (state.realm realm).config.optionalMark (reached.heap.formals callee) →
      ∀ arguments, bounds.accepts arguments.length = false →
        (invoke realm value .apply arguments state).EndsWith
          (.error (missing (state.realm realm).config.members value .apply arguments
            (.arityMismatch bounds arguments.length))) reached
  /-- The question fails for a cause of its own, or with the fault of the read. -/
  fails_iff : ∀ {fault reached}, (arity realm value state).EndsWith (.error fault) reached ↔
    (∃ cause, (seek realm value .apply state).EndsWith (.ok (.error cause)) reached ∧
      fault = missing (state.realm realm).config.members value .apply [] cause) ∨
    (seek realm value .apply state).EndsWith (.error fault) reached
  /-- Where it fails for a cause of its own, so does every bare call: the reports have the same
  receiver, member and cause. -/
  unanswered : ∀ {cause reached},
    (seek realm value .apply state).EndsWith (.ok (.error cause)) reached →
      ∀ arguments, (invoke realm value .apply arguments state).EndsWith
        (.error (missing (state.realm realm).config.members value .apply arguments cause)) reached
  /-- Where the read fails, the question and every bare call fail with the fault of the read. -/
  failed : ∀ {fault reached}, value.isNullish = false → (∀ function, value ≠ .function function) →
    (getMember realm value (state.realm realm).config.members.call state).EndsWith
      (.error fault) reached →
      (arity realm value state).EndsWith (.error fault) reached ∧
        ∀ arguments, (invoke realm value .apply arguments state).EndsWith (.error fault) reached

/-- A dispatch that finds nothing, or fails to find out, ends there. -/
theorem invoke_of_seek_error {found : Except Fault (Except MissingCause (FunctionId × Value))}
    {fault : Fault} (hseek : (seek realm receiver site state).EndsWith found reached)
    (hfault : found.bind (Except.mapError
      (missing (state.realm realm).config.members receiver site arguments)) = .error fault) :
    (invoke realm receiver site arguments state).EndsWith (.error fault) reached := by
  rw [invoke_eq_seek]
  refine hseek.andThen ?_
  rw [hfault]
  exact .ended _ _

/-- The question for the arity of a value, in any state, predicts what every bare call of the value
comes to in that state. -/
theorem arityReflection (realm : RealmId) (value : Value) (state : State) :
    ArityReflection realm value state where
  question := arity_eq_seek
  call _ := invoke_eq_seek
  unread := by
    rintro (hnullish | ⟨function, rfl⟩)
    · exact ⟨_, seek_apply_of_nullish hnullish⟩
    · exact ⟨.ok (function, .undefined), rfl⟩
  read := seek_apply_of_other
  given_iff := arity_endsWith_ok_iff
  enters_iff {bounds reached callee} harity hfinds hlast arguments := by
    obtain ⟨other, hother, rfl⟩ := arity_endsWith_ok_iff.1 harity
    obtain ⟨rfl, -⟩ := hfinds.unique hother
    rw [← forall_acceptsCount_eq_iff.2 hlast, entersCallee_iff]
    constructor
    · rintro ⟨last, hagain, hfits⟩
      obtain ⟨-, rfl⟩ := hfinds.unique hagain
      exact hfits
    · exact fun hfits ↦ ⟨reached, hfinds, hfits⟩
  refused {bounds reached callee} harity hfinds hlast arguments hrejects := by
    obtain ⟨other, hother, rfl⟩ := arity_endsWith_ok_iff.1 harity
    obtain ⟨rfl, -⟩ := hfinds.unique hother
    rw [← forall_acceptsCount_eq_iff.2 hlast] at hrejects
    exact invoke_endsWith_iff.2 ⟨_, refuses_iff.2 ⟨other, hfinds, hrejects, rfl, rfl⟩, rfl⟩
  fails_iff := arity_endsWith_error_iff
  unanswered hseek _ := invoke_of_seek_error hseek rfl
  failed {fault reached} hpresent hother hread := by
    have hseek : (seek realm value .apply state).EndsWith (.error fault) reached := by
      rw [seek_apply_of_other hpresent hother]
      exact hread.andThen (.ended _ _)
    exact ⟨arity_endsWith_error_iff.2 (.inr hseek), fun _ ↦ invoke_of_seek_error hseek rfl⟩

end Dispatch

end GradualRuntime
