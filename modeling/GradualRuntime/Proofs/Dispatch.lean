import GradualRuntime.Proofs.Access

/-!
# Dynamic dispatch

What a dynamic call does, for every kind of call site and receiver and for any behaviour of the code
that member reads run. The call sites are told apart where they differ: `CallSite.Reports` says by
which name each of them goes in failures, `Dispatch.Obtains` what it gets from its receiver, and
`Dispatch.Finds` which function is to be called for it, with its `this`, or why there is none.
`Dispatch.conclude` is what is done then. `Dispatch.invoke_spec` is the result: a dynamic call goes
exactly through these, so the callee is entered once when the number of arguments fits, and
otherwise nothing is entered and the state is the one that the reads have left.
-/

set_option autoImplicit false

namespace GradualRuntime

section Realms

/-- A realm keeps its configuration while anything is evaluated. -/
theorem Ledger.Transitions.config_eq {before after : Ledger} (h : Ledger.Transitions before after)
    {reference : RealmId} (hexists : reference.index < before.state.realms.size) :
    reference.index < after.state.realms.size ∧
      (after.state.realm reference).config = (before.state.realm reference).config := by
  induction h with
  | refl => exact ⟨hexists, rfl⟩
  | tail _ hlast ih =>
    obtain ⟨hmiddle, hconfig⟩ := ih
    cases hlast with
    | change change =>
      obtain ⟨hafter, hsame⟩ := change.realm hmiddle
      exact ⟨hafter, hsame.trans hconfig⟩
    | @settle call entered state outcome cell name purpose =>
      cases outcome <;> exact ⟨hmiddle, hconfig⟩
    | _ => exact ⟨hmiddle, hconfig⟩

theorem Dispatch.config_of_getMember {realm reference : RealmId} {value : Value} {name : String}
    {state after : State} {found : Except Fault Value}
    (h : (Dispatch.getMember realm value name state).EndsWith found after)
    (hexists : reference.index < state.realms.size) :
    reference.index < after.realms.size ∧
      (after.realm reference).config = (state.realm reference).config :=
  Ledger.Transitions.config_eq (h.transitions (careful_getMember realm value name state).orderly [])
    hexists

end Realms

/-- The name by which a call site goes: calls and operators by the name that they are written with,
a call of the receiver itself by the name of the `call` member, and operations on indices by a
symbol of their own, whatever member they read. -/
inductive CallSite.Reports (members : MemberNames) : CallSite → String → Prop where
  | call (name : String) : Reports members (.call name) name
  | apply : Reports members .apply members.call
  | indexGet : Reports members .indexGet "[]"
  | indexSet : Reports members .indexSet "[]="
  | binary (name : String) : Reports members (.binary name) name

theorem CallSite.reports_iff {members : MemberNames} {site : CallSite} {name : String} :
    site.Reports members name ↔ site.reportedName members = name := by
  constructor
  · intro h
    cases h <;> rfl
  · rintro rfl
    cases site <;> constructor

namespace Dispatch

/-- What a call site gets from its receiver, and the state after: the outcome of one read of the
member that belongs to the call site, or the receiver itself. -/
inductive Obtains (realm : RealmId) (receiver : Value) :
    CallSite → State → Except Fault Value → State → Prop where
  /-- A call reads the member that it names. -/
  | call {name : String} {state middle : State} {found : Except Fault Value}
    (read : (getMember realm receiver name state).EndsWith found middle) :
    Obtains realm receiver (.call name) state found middle
  /-- Nothing is read for a call of the receiver itself. -/
  | apply {state : State} : Obtains realm receiver .apply state (.ok receiver) state
  /-- To read at an index is to read the member configured for that. -/
  | indexGet {state middle : State} {found : Except Fault Value}
    (read : (getMember realm receiver (state.realm realm).config.members.indexGet state).EndsWith
      found middle) :
    Obtains realm receiver .indexGet state found middle
  /-- To write at an index is to read the member configured for that. -/
  | indexSet {state middle : State} {found : Except Fault Value}
    (read : (getMember realm receiver (state.realm realm).config.members.indexSet state).EndsWith
      found middle) :
    Obtains realm receiver .indexSet state found middle
  /-- An operator reads the member of its name. -/
  | binary {name : String} {state middle : State} {found : Except Fault Value}
    (read : (getMember realm receiver name state).EndsWith found middle) :
    Obtains realm receiver (.binary name) state found middle

/-- The function to call, with its `this`, or the failure to report, and the state in which that is
known. -/
inductive Finds (realm : RealmId) (receiver : Value) (site : CallSite) (arguments : List Value)
    (state : State) : Except Fault (FunctionId × Value) → State → Prop where
  /-- The read fails. -/
  | failed {fault : Fault} {middle : State}
    (obtained : Obtains realm receiver site state (.error fault) middle) :
    Finds realm receiver site arguments state (.error fault) middle
  /-- A member that is a function is called on the receiver. -/
  | method {callee : FunctionId} {middle : State} (named : site ≠ .apply)
    (obtained : Obtains realm receiver site state (.ok (.function callee)) middle) :
    Finds realm receiver site arguments state (.ok (callee, receiver)) middle
  /-- A receiver that is a function is itself called, without a `this`. -/
  | function {callee : FunctionId} (bare : site = .apply) (callable : receiver = .function callee) :
    Finds realm receiver site arguments state (.ok (callee, .undefined)) state
  /-- There is nothing. -/
  | absent {value : Value} {middle : State} {member : String}
    (obtained : Obtains realm receiver site state (.ok value) middle)
    (nullish : value = .undefined ∨ value = .null)
    (reported : site.Reports (state.realm realm).config.members member) :
    Finds realm receiver site arguments state
      (.error (.missingMember ⟨receiver, member, arguments, .absent⟩)) middle
  /-- There is some other value, and the read of its `call` member fails. -/
  | adapterFailed {value : Value} {middle last : State} {fault : Fault}
    (obtained : Obtains realm receiver site state (.ok value) middle)
    (present : value ≠ .undefined ∧ value ≠ .null)
    (other : ∀ function, value ≠ .function function)
    (read : (getMember realm value (state.realm realm).config.members.call middle).EndsWith
      (.error fault) last) :
    Finds realm receiver site arguments state (.error fault) last
  /-- There is some other value with a function as its `call` member. -/
  | adapter {value : Value} {middle last : State} {callee : FunctionId}
    (obtained : Obtains realm receiver site state (.ok value) middle)
    (present : value ≠ .undefined ∧ value ≠ .null)
    (other : ∀ function, value ≠ .function function)
    (read : (getMember realm value (state.realm realm).config.members.call middle).EndsWith
      (.ok (.function callee)) last) :
    Finds realm receiver site arguments state (.ok (callee, value)) last
  /-- There is some other value without a function as its `call` member. -/
  | notCallable {value found : Value} {middle last : State} {member : String}
    (obtained : Obtains realm receiver site state (.ok value) middle)
    (present : value ≠ .undefined ∧ value ≠ .null)
    (other : ∀ function, value ≠ .function function)
    (read : (getMember realm value (state.realm realm).config.members.call middle).EndsWith
      (.ok found) last) (unfit : ∀ function, found ≠ .function function)
    (reported : site.Reports (state.realm realm).config.members member) :
    Finds realm receiver site arguments state
      (.error (.missingMember ⟨receiver, member, arguments, .notCallable value⟩)) last

/-- What is left to do when it is known what to call: to enter the callee with exactly the given
arguments and to give its outcome, or to fail. Both go on record under the name `member`. -/
def conclude (config : Config) (receiver : Value) (member : String) (arguments : List Value) :
    Except Fault (FunctionId × Value) → State → Progress Value
  | .error fault, state => .ended (.error fault) state
  | .ok (callee, this), state =>
    let formals := state.heap.formals callee
    if acceptsCount config.optionalMark formals arguments.length then
      let event := Event.dispatched receiver.typeName member (state.heap.functionName callee)
        arguments.length
      .calling ⟨callee, this, arguments, .plain⟩
        (if config.traceDispatch then state.record (.emitted event) else state) .ended
    else
      .ended (.error (.missingMember ⟨receiver, member, arguments,
        .arityMismatch (.ofFormals config.optionalMark formals) arguments.length⟩)) state

variable {realm : RealmId} {receiver : Value} {site : CallSite} {arguments : List Value}
  {state : State}

/-- What a call site resolves to is what the member read yields. -/
theorem resolve_of_memberName {name : String}
    (h : site.memberName? (state.realm realm).config.members = some name) :
    resolve realm site receiver state = getMember realm receiver name state := by
  rw [resolve, Run.bind_apply, Run.realm_apply, Progress.andThen_ended, Run.onward_ok, h]

theorem endsWith_resolve_iff {found : Except Fault Value} {middle : State} :
    (resolve realm site receiver state).EndsWith found middle ↔
      Obtains realm receiver site state found middle := by
  cases site with
  | call name =>
    rw [resolve_of_memberName rfl]
    exact ⟨.call, fun | .call read => read⟩
  | indexGet =>
    rw [resolve_of_memberName rfl]
    exact ⟨.indexGet, fun | .indexGet read => read⟩
  | indexSet =>
    rw [resolve_of_memberName rfl]
    exact ⟨.indexSet, fun | .indexSet read => read⟩
  | binary name =>
    rw [resolve_of_memberName rfl]
    exact ⟨.binary, fun | .binary read => read⟩
  | apply =>
    have hresolve : resolve realm .apply receiver state = .ended (.ok receiver) state := rfl
    rw [hresolve, Progress.endsWith_ended_iff]
    constructor
    · rintro ⟨rfl, rfl⟩
      exact .apply
    · rintro ⟨⟩
      exact ⟨rfl, rfl⟩

/-- The part of a dynamic call that finds out what to call. -/
def find (realm : RealmId) (receiver : Value) (site : CallSite) (arguments : List Value)
    (member : String) : Run (FunctionId × Value) := do
  let resolved ← resolve realm site receiver
  callable realm resolved (site.thisFor receiver) receiver member arguments

theorem invoke_eq_find :
    invoke realm receiver site arguments state =
      (find realm receiver site arguments
        (site.reportedName (state.realm realm).config.members) state).andThen
          (conclude (state.realm realm).config receiver
            (site.reportedName (state.realm realm).config.members) arguments) := by
  simp only [invoke, find, Run.bind_apply, Run.realm_apply, Progress.andThen_ended, Run.onward_ok,
    Progress.andThen_assoc]
  congr 1
  funext outcome middle
  cases outcome with
  | error fault => rfl
  | ok resolved =>
    simp only [Run.onward_ok, Run.bind_apply]
    congr 1
    funext found reached
    rcases found with fault | ⟨callee, this⟩
    · rfl
    · simp only [Run.onward_ok, Run.bind_apply, Run.heap_apply, Progress.andThen_ended, conclude]
      split
      · split <;> simp_all
      · simp

theorem Obtains.config_eq {found : Except Fault Value} {middle : State}
    (h : Obtains realm receiver site state found middle)
    (hexists : realm.index < state.realms.size) :
    (middle.realm realm).config = (state.realm realm).config := by
  cases h with
  | apply => rfl
  | call read | indexGet read | indexSet read | binary read =>
    exact (config_of_getMember read hexists).2

/-- A function that a call site obtains is called, with the `this` that the call site gives. -/
theorem Obtains.finds {callee : FunctionId} {middle : State}
    (h : Obtains realm receiver site state (.ok (.function callee)) middle) :
    Finds realm receiver site arguments state (.ok (callee, site.thisFor receiver)) middle := by
  cases h with
  | apply => exact .function rfl rfl
  | call read => exact .method nofun (.call read)
  | indexGet read => exact .method nofun (.indexGet read)
  | indexSet read => exact .method nofun (.indexSet read)
  | binary read => exact .method nofun (.binary read)

section Callable

variable {value this : Value} {member : String} {middle : State}

/-- What becomes of the `call` member of a value. -/
def adapt (receiver : Value) (member : String) (arguments : List Value) (value : Value) :
    Value → Run (FunctionId × Value)
  | .function callee => pure (callee, value)
  | _ => Run.fail (.missingMember ⟨receiver, member, arguments, .notCallable value⟩)

theorem adapt_of_ne {found : Value} (h : ∀ function, found ≠ .function function) :
    adapt receiver member arguments value found =
      Run.fail (.missingMember ⟨receiver, member, arguments, .notCallable value⟩) := by
  cases found with
  | function callee => exact absurd rfl (h callee)
  | _ => rfl

theorem callable_of_nullish (h : value.isNullish = true) :
    callable realm value this receiver member arguments middle =
      .ended (.error (.missingMember ⟨receiver, member, arguments, .absent⟩)) middle := by
  cases value <;> simp_all [callable, Value.isNullish]

/-- A value that is neither a function nor nullish is called through its `call` member. -/
theorem callable_of_other (hpresent : value.isNullish = false)
    (hother : ∀ function, value ≠ .function function) :
    callable realm value this receiver member arguments middle =
      (getMember realm value (middle.realm realm).config.members.call middle).andThen
        (Run.onward (adapt receiver member arguments value)) := by
  have hadapt : ∀ next : Value → Run (FunctionId × Value),
      (∀ found, next found = adapt receiver member arguments value found) →
        (getMember realm value (middle.realm realm).config.members.call middle).andThen
          (Run.onward next) =
        (getMember realm value (middle.realm realm).config.members.call middle).andThen
          (Run.onward (adapt receiver member arguments value)) :=
    fun next hnext ↦ by rw [funext hnext]
  cases value with
  | function callee => exact absurd rfl (hother callee)
  | undefined | null => simp [Value.isNullish] at hpresent
  | _ => exact hadapt _ fun found ↦ by cases found <;> rfl

end Callable

section Find

variable {found : Except Fault (FunctionId × Value)} {reached : State}

/-- The rules of `Finds` give all the ways in which finding out what to call comes to an end. -/
theorem finds_of_endsWith_find (hexists : realm.index < state.realms.size)
    (h : (find realm receiver site arguments
      (site.reportedName (state.realm realm).config.members) state).EndsWith found reached) :
    Finds realm receiver site arguments state found reached := by
  obtain ⟨obtained, middle, hresolve, hrest⟩ := Progress.endsWith_andThen_iff.1 h
  rw [endsWith_resolve_iff] at hresolve
  cases obtained with
  | error fault =>
    obtain ⟨rfl, rfl⟩ := Progress.endsWith_ended_iff.1 hrest
    exact .failed hresolve
  | ok value =>
    rw [Run.onward_ok] at hrest
    by_cases hfunction : ∃ callee, value = .function callee
    · obtain ⟨callee, rfl⟩ := hfunction
      obtain ⟨rfl, rfl⟩ := Progress.endsWith_ended_iff.1 hrest
      exact hresolve.finds
    have hother : ∀ function, value ≠ .function function := not_exists.1 hfunction
    cases hnullish : value.isNullish with
    | true =>
      rw [callable_of_nullish hnullish] at hrest
      obtain ⟨rfl, rfl⟩ := Progress.endsWith_ended_iff.1 hrest
      exact .absent hresolve (Value.isNullish_iff.1 hnullish) (CallSite.reports_iff.2 rfl)
    | false =>
      have hpresent := Value.isNullish_eq_false_iff.1 hnullish
      rw [callable_of_other hnullish hother, hresolve.config_eq hexists] at hrest
      obtain ⟨read, last, hread, hlast⟩ := Progress.endsWith_andThen_iff.1 hrest
      cases read with
      | error fault =>
        obtain ⟨rfl, rfl⟩ := Progress.endsWith_ended_iff.1 hlast
        exact .adapterFailed hresolve hpresent hother hread
      | ok inner =>
        rw [Run.onward_ok] at hlast
        by_cases hcallee : ∃ callee, inner = .function callee
        · obtain ⟨callee, rfl⟩ := hcallee
          obtain ⟨rfl, rfl⟩ := Progress.endsWith_ended_iff.1 hlast
          exact .adapter hresolve hpresent hother hread
        · have hunfit : ∀ function, inner ≠ .function function := not_exists.1 hcallee
          rw [adapt_of_ne hunfit] at hlast
          obtain ⟨rfl, rfl⟩ := Progress.endsWith_ended_iff.1 hlast
          exact .notCallable hresolve hpresent hother hread hunfit (CallSite.reports_iff.2 rfl)

/-- Of a value that is neither a function nor nullish, the `call` member is read, and what is found
out depends on what has been read. -/
theorem Obtains.endsWith_find {value : Value} {middle last : State} {read : Except Fault Value}
    (h : Obtains realm receiver site state (.ok value) middle)
    (hexists : realm.index < state.realms.size) (hpresent : value ≠ .undefined ∧ value ≠ .null)
    (hother : ∀ function, value ≠ .function function)
    (hread : (getMember realm value (state.realm realm).config.members.call middle).EndsWith
      read last)
    (hadapt : (Run.onward (adapt receiver (site.reportedName (state.realm realm).config.members)
      arguments value) read last).EndsWith found reached) :
    (find realm receiver site arguments
      (site.reportedName (state.realm realm).config.members) state).EndsWith found reached := by
  refine (endsWith_resolve_iff.2 h).andThen ?_
  rw [Run.onward_ok, callable_of_other (Value.isNullish_eq_false_iff.2 hpresent) hother,
    h.config_eq hexists]
  exact hread.andThen hadapt

/-- What the rules of `Finds` give is what finding out what to call comes to. -/
theorem Finds.endsWith_find (hexists : realm.index < state.realms.size)
    (h : Finds realm receiver site arguments state found reached) :
    (find realm receiver site arguments
      (site.reportedName (state.realm realm).config.members) state).EndsWith found reached := by
  cases h with
  | failed obtained =>
    exact (endsWith_resolve_iff.2 obtained).andThen (.ended _ _)
  | method named obtained =>
    refine (endsWith_resolve_iff.2 obtained).andThen ?_
    rw [CallSite.thisFor_of_ne named receiver]
    exact .ended _ _
  | @function callee bare callable =>
    have obtained : Obtains realm receiver site state (.ok (.function callee)) state := by
      rw [bare, callable]
      exact .apply
    refine (endsWith_resolve_iff.2 obtained).andThen ?_
    rw [bare]
    exact .ended _ _
  | absent obtained nullish reported =>
    obtain rfl := CallSite.reports_iff.1 reported
    refine (endsWith_resolve_iff.2 obtained).andThen ?_
    rw [Run.onward_ok, callable_of_nullish (Value.isNullish_iff.2 nullish)]
    exact .ended _ _
  | adapterFailed obtained present other read =>
    exact obtained.endsWith_find hexists present other read (.ended _ _)
  | adapter obtained present other read =>
    exact obtained.endsWith_find hexists present other read (.ended _ _)
  | notCallable obtained present other read unfit reported =>
    obtain rfl := CallSite.reports_iff.1 reported
    refine obtained.endsWith_find hexists present other read ?_
    rw [Run.onward_ok, adapt_of_ne unfit]
    exact .ended _ _

end Find

/-- Assumes: the realm exists.

Once it is found what to call, a dynamic call does what `conclude` says and nothing else: it enters
the callee with the given arguments and gives its outcome, when their number fits, and fails in the
state that the reads have left otherwise, under the name by which its call site goes. Conversely a
dynamic call that comes to an end has found what to call, and has come to its end in that way. -/
theorem invoke_spec (hexists : realm.index < state.realms.size) :
    ∃ member, site.Reports (state.realm realm).config.members member ∧
      (∀ found reached, Finds realm receiver site arguments state found reached →
        (invoke realm receiver site arguments state).Leads
          (conclude (state.realm realm).config receiver member arguments found reached)) ∧
      ∀ outcome last, (invoke realm receiver site arguments state).EndsWith outcome last →
        ∃ found reached, Finds realm receiver site arguments state found reached ∧
          (conclude (state.realm realm).config receiver member arguments found reached).EndsWith
            outcome last := by
  rw [invoke_eq_find]
  refine ⟨_, CallSite.reports_iff.2 rfl, fun found reached hfinds ↦ ?_, fun outcome last h ↦ ?_⟩
  · exact (hfinds.endsWith_find hexists).leads_andThen _
  · obtain ⟨found, reached, hfind, hconclude⟩ := Progress.endsWith_andThen_iff.1 h
    exact ⟨found, reached, finds_of_endsWith_find hexists hfind, hconclude⟩

/-- A state with one function, which takes one argument, an object that is called through it, and an
object that has both as members. -/
def callableState : State :=
  { State.fresh .standard with
    heap := Heap.empty
      |>.addFunction ⟨"single", ["argument"]⟩
      |>.addObject ⟨none, none, .empty⟩
      |>.define ⟨0⟩ "call" (.method ⟨0⟩)
      |>.addObject ⟨none, none, .empty⟩
      |>.define ⟨1⟩ "get" (.method ⟨0⟩)
      |>.define ⟨1⟩ "adapted" (.ordinary (.object ⟨0⟩)) }

/-- The function is entered on the receiver when it is a member, on the object that is called
through it, and without a `this` when it is itself the receiver. With no argument it is not entered,
and the failure goes by the symbol of a read at an index. -/
theorem invoke_callable :
    (invoke ⟨0⟩ (.object ⟨1⟩) (.call "get") [.null] callableState).Leads
        (.calling ⟨⟨0⟩, .object ⟨1⟩, [.null], .plain⟩ callableState .ended) ∧
      (invoke ⟨0⟩ (.object ⟨1⟩) (.binary "adapted") [.null] callableState).Leads
        (.calling ⟨⟨0⟩, .object ⟨0⟩, [.null], .plain⟩ callableState .ended) ∧
      (invoke ⟨0⟩ (.function ⟨0⟩) .apply [.null] callableState).Leads
        (.calling ⟨⟨0⟩, .undefined, [.null], .plain⟩ callableState .ended) ∧
      (invoke ⟨0⟩ (.object ⟨1⟩) .indexGet [] callableState).Leads
        (.ended (.error (.missingMember ⟨.object ⟨1⟩, "[]", [],
          .arityMismatch (.fixed 1) 0⟩)) callableState) := by
  have hexists : (⟨0⟩ : RealmId).index < callableState.realms.size := by decide
  have hget : (getMember ⟨0⟩ (.object ⟨1⟩) "get" callableState).EndsWith
      (.ok (.function ⟨0⟩)) callableState := .ended _ _
  have hadapted : (getMember ⟨0⟩ (.object ⟨1⟩) "adapted" callableState).EndsWith
      (.ok (.object ⟨0⟩)) callableState := .ended _ _
  have hcall : (getMember ⟨0⟩ (.object ⟨0⟩) "call" callableState).EndsWith
      (.ok (.function ⟨0⟩)) callableState := .ended _ _
  refine ⟨?_, ?_, ?_, ?_⟩
  · obtain ⟨_, -, hleads, -⟩ :=
      @invoke_spec ⟨0⟩ (.object ⟨1⟩) (.call "get") [.null] callableState hexists
    exact hleads _ _ (.method nofun (.call hget))
  · obtain ⟨_, -, hleads, -⟩ :=
      @invoke_spec ⟨0⟩ (.object ⟨1⟩) (.binary "adapted") [.null] callableState hexists
    exact hleads _ _ (.adapter (.binary hadapted) ⟨nofun, nofun⟩ nofun hcall)
  · obtain ⟨_, -, hleads, -⟩ :=
      @invoke_spec ⟨0⟩ (.function ⟨0⟩) .apply [.null] callableState hexists
    exact hleads _ _ (.function rfl rfl)
  · obtain ⟨_, ⟨⟩, hleads, -⟩ := @invoke_spec ⟨0⟩ (.object ⟨1⟩) .indexGet [] callableState hexists
    exact hleads _ _ (.method nofun (.indexGet hget))

end Dispatch

end GradualRuntime
