import GradualRuntime.Proofs.AcceptedCounts
import GradualRuntime.Proofs.EntryPoints

/-!
# Reports of a wrong number of arguments

A dispatch that has found a function and does not enter it, because the number of arguments does
not fit, reports the number and the bounds that the function declares (`Dispatch.Refuses`). The
refusal goes by the positional test and the report by the counting bounds. Between them lie the
counts that are at least the number of required formals and yet do not reach the last required
formal. Such a call is refused with a report that has its count within the bounds.

`Dispatch.arityReports` says what can be relied on. The reported number is that of the arguments.
The report is consistent for every function whose optional formals come last. For every other
function there are calls with a contradictory report, from any call site that finds the function.
-/

set_option autoImplicit false

namespace GradualRuntime

namespace Dispatch

/-- The dispatch refuses the number of its arguments: it ends with this report as a cause of its
own. -/
def Refuses (realm : RealmId) (receiver : Value) (site : CallSite) (arguments : List Value)
    (state : State) (expected : Arity) (actual : Nat) (reached : State) : Prop :=
  (pursue realm receiver site arguments state).EndsWith
    (.ok (.error (.arityMismatch expected actual))) reached

/-- The function that a call site finds on a receiver, and the state in which it has been found. -/
def FindsFunction (realm : RealmId) (receiver : Value) (site : CallSite) (state : State)
    (callee : FunctionId) (reached : State) : Prop :=
  ∃ this, (seek realm receiver site state).EndsWith (.ok (.ok (callee, this))) reached

variable {realm : RealmId} {receiver : Value} {site : CallSite} {arguments : List Value}
  {state reached : State} {expected : Arity} {actual : Nat} {callee : FunctionId}

section Seek

/-- The number of arguments is not a reason to find nothing. -/
theorem not_reach_arityMismatch {resolved this : Value} {before : State} :
    ¬(reach realm resolved this before).EndsWith
      (.ok (.error (.arityMismatch expected actual))) reached := by
  intro hreach
  cases resolved with
  | undefined | null | function callee => cases (Progress.endsWith_ended_iff.1 hreach).1
  | _ =>
    obtain ⟨record, before, -, hread⟩ := Progress.endsWith_andThen_iff.1 hreach
    cases record with
    | error fault => cases (Progress.endsWith_ended_iff.1 hread).1
    | ok record =>
      obtain ⟨found, middle, -, hadapter⟩ := Progress.endsWith_andThen_iff.1 hread
      cases found with
      | error fault => cases (Progress.endsWith_ended_iff.1 hadapter).1
      | ok value => cases value <;> cases (Progress.endsWith_ended_iff.1 hadapter).1

theorem not_seek_arityMismatch :
    ¬(seek realm receiver site state).EndsWith
      (.ok (.error (.arityMismatch expected actual))) reached := by
  intro hseek
  obtain ⟨resolved, middle, -, hreach⟩ := Progress.endsWith_andThen_iff.1 hseek
  cases resolved with
  | error fault => cases (Progress.endsWith_ended_iff.1 hreach).1
  | ok value => exact not_reach_arityMismatch hreach

end Seek

/-- A dispatch refuses the number of its arguments exactly when it finds a function whose formals
the arguments do not fill, and then it reports the bounds that the function declares. -/
theorem refuses_iff :
    Refuses realm receiver site arguments state expected actual reached ↔
      ∃ callee, FindsFunction realm receiver site state callee reached ∧
        acceptsCount (state.realm realm).config.optionalMark (reached.heap.formals callee)
          arguments.length = false ∧
        expected = .ofFormals (state.realm realm).config.optionalMark
          (reached.heap.formals callee) ∧
        actual = arguments.length := by
  rw [Refuses, pursue_apply]
  constructor
  · intro hends
    obtain ⟨found, middle, hseek, hsettle⟩ := Progress.endsWith_andThen_iff.1 hends
    rcases found with fault | cause | ⟨callee, this⟩
    · cases (Progress.endsWith_ended_iff.1 hsettle).1
    · obtain ⟨hcause, rfl⟩ := Progress.endsWith_ended_iff.1 hsettle
      cases hcause
      exact absurd hseek not_seek_arityMismatch
    · rw [Run.onward_ok] at hsettle
      cases hfits : acceptsCount (state.realm realm).config.optionalMark
          (middle.heap.formals callee) arguments.length with
      | true =>
        -- what a callee comes to is a result or a fault
        rw [settle_of_fits hfits] at hsettle
        obtain ⟨answer, last, -, hanswer⟩ := Progress.endsWith_calling_iff.1 hsettle
        cases answer <;> cases (Progress.endsWith_ended_iff.1 hanswer).1
      | false =>
        rw [settle_of_not_fits (by simp [hfits])] at hsettle
        obtain ⟨hreport, rfl⟩ := Progress.endsWith_ended_iff.1 hsettle
        cases hreport
        exact ⟨callee, ⟨this, hseek⟩, hfits, rfl, rfl⟩
  · rintro ⟨callee, ⟨this, hseek⟩, hfits, rfl, rfl⟩
    refine hseek.andThen ?_
    rw [Run.onward_ok, settle_of_not_fits (by simp [hfits])]
    exact .ended _ _

/-- What is true of the calls that a dispatch refuses for the number of their arguments. -/
structure ArityReports (realm : RealmId) (receiver : Value) (site : CallSite)
    (state : State) : Prop where
  /-- The call fails with the report, in the state in which the function has been found: nothing has
  been entered. -/
  fails : ∀ {arguments expected actual reached},
    Refuses realm receiver site arguments state expected actual reached →
      (invoke realm receiver site arguments state).EndsWith
        (.error (missing (state.realm realm).config.members receiver site arguments
          (.arityMismatch expected actual))) reached
  /-- The report has the number of the arguments and the bounds that the function found declares. -/
  report : ∀ {arguments expected actual reached},
    Refuses realm receiver site arguments state expected actual reached →
      actual = arguments.length ∧
      ∃ callee, FindsFunction realm receiver site state callee reached ∧
        expected = .ofFormals (state.realm realm).config.optionalMark (reached.heap.formals callee)
  /-- The reported number is within the reported bounds exactly when it is at least the number of
  required formals and does not reach the last of them. -/
  contradicts_iff : ∀ {arguments expected actual reached callee},
    Refuses realm receiver site arguments state expected actual reached →
    FindsFunction realm receiver site state callee reached →
      (expected.accepts actual = true ↔
        requiredCount (state.realm realm).config.optionalMark (reached.heap.formals callee) ≤
            actual ∧
          actual <
            leastCount (state.realm realm).config.optionalMark (reached.heap.formals callee))
  /-- The report is consistent when the optional formals come last. -/
  consistent : ∀ {arguments expected actual reached callee},
    Refuses realm receiver site arguments state expected actual reached →
    FindsFunction realm receiver site state callee reached →
    OptionalsLast (state.realm realm).config.optionalMark (reached.heap.formals callee) →
      expected.accepts actual = false
  /-- Otherwise a call with as many arguments as there are required formals is refused with a report
  that accepts it. -/
  contradicted : ∀ {reached callee}, FindsFunction realm receiver site state callee reached →
    ¬OptionalsLast (state.realm realm).config.optionalMark (reached.heap.formals callee) →
      ∀ arguments : List Value, arguments.length =
          requiredCount (state.realm realm).config.optionalMark (reached.heap.formals callee) →
        ∃ expected, Refuses realm receiver site arguments state expected arguments.length reached ∧
          expected.accepts arguments.length = true

/-- A call site finds one function at most. -/
theorem FindsFunction.unique {other : FunctionId} {last : State}
    (h : FindsFunction realm receiver site state callee reached)
    (hother : FindsFunction realm receiver site state other last) :
    other = callee ∧ last = reached := by
  obtain ⟨this, hseek⟩ := h
  obtain ⟨that, hagain⟩ := hother
  obtain ⟨hfound, rfl⟩ := hagain.unique hseek
  cases hfound
  exact ⟨rfl, rfl⟩

theorem accepts_of_refuses_iff
    (h : Refuses realm receiver site arguments state expected actual reached)
    (hfinds : FindsFunction realm receiver site state callee reached) :
    expected.accepts actual = true ↔
      requiredCount (state.realm realm).config.optionalMark (reached.heap.formals callee) ≤ actual ∧
        actual <
          leastCount (state.realm realm).config.optionalMark (reached.heap.formals callee) := by
  obtain ⟨other, hother, hrefused, rfl, rfl⟩ := refuses_iff.1 h
  obtain ⟨rfl, -⟩ := hfinds.unique hother
  rw [accepts_ofFormals_iff]
  have hbound := leastCount_le_length (state.realm realm).config.optionalMark
    (reached.heap.formals other)
  have hmissed := mt acceptsCount_iff.2 (Bool.eq_false_iff.1 hrefused)
  constructor
  · rintro ⟨hrequired, htotal⟩
    exact ⟨hrequired, Nat.lt_of_not_le fun hle ↦ hmissed ⟨hle, htotal⟩⟩
  · rintro ⟨hrequired, hless⟩
    exact ⟨hrequired, Nat.le_trans (Nat.le_of_lt hless) hbound⟩

/-- For every receiver, call site and state, a refused call reports the number of its arguments and
the declared bounds, and the two fit together for the functions whose optional formals come last
and for no others. -/
theorem arityReports (realm : RealmId) (receiver : Value) (site : CallSite) (state : State) :
    ArityReports realm receiver site state where
  fails h := invoke_endsWith_iff.2 ⟨_, h, rfl⟩
  report h := by
    obtain ⟨callee, hfinds, -, hexpected, hactual⟩ := refuses_iff.1 h
    exact ⟨hactual, callee, hfinds, hexpected⟩
  contradicts_iff := accepts_of_refuses_iff
  consistent h hfinds hlast := by
    rw [Bool.eq_false_iff, Ne, accepts_of_refuses_iff h hfinds,
      leastCount_eq_requiredCount_iff.2 hlast]
    exact fun hbetween ↦ Nat.not_lt.2 hbetween.1 hbetween.2
  contradicted {reached callee} hfinds hmixed arguments hlength := by
    have hless : arguments.length <
        leastCount (state.realm realm).config.optionalMark (reached.heap.formals callee) := by
      rw [hlength]
      exact Nat.lt_of_le_of_ne (requiredCount_le_leastCount _ _)
        fun heq ↦ hmixed (leastCount_eq_requiredCount_iff.1 heq.symm)
    have hrefused : acceptsCount (state.realm realm).config.optionalMark
        (reached.heap.formals callee) arguments.length = false :=
      Bool.eq_false_iff.2 fun hfits ↦ Nat.not_le.2 hless (acceptsCount_iff.1 hfits).1
    have hrefuses := refuses_iff.2 ⟨callee, hfinds, hrefused, rfl, rfl⟩
    have haccepts := (accepts_of_refuses_iff hrefuses hfinds).2 ⟨Nat.le_of_eq hlength.symm, hless⟩
    exact ⟨_, hrefuses, haccepts⟩

/-- A state with one function, whose optional formal comes first. -/
def misplacedState : State :=
  { State.fresh .standard with heap := Heap.empty.addFunction ⟨"f", ["opt$first", "second"]⟩ }

/-- A bare call with one argument fails, and the report expects one argument or two. -/
theorem arityReports_misplaced :
    (invoke ⟨0⟩ (.function ⟨0⟩) .apply [.null] misplacedState).EndsWith
        (.error (.missingMember ⟨.function ⟨0⟩, "call", [.null],
          .arityMismatch (.range 1 2) 1⟩)) misplacedState ∧
      (Arity.range 1 2).accepts 1 = true := by
  have hfinds : FindsFunction ⟨0⟩ (.function ⟨0⟩) .apply misplacedState ⟨0⟩ misplacedState :=
    ⟨.undefined, .ended _ _⟩
  have hmark : (misplacedState.realm ⟨0⟩).config.optionalMark = "opt$" := rfl
  have hformals : misplacedState.heap.formals ⟨0⟩ = ["opt$first", "second"] := rfl
  have hreports := arityReports ⟨0⟩ (.function ⟨0⟩) .apply misplacedState
  obtain ⟨expected, hrefuses, haccepts⟩ := hreports.contradicted hfinds
    (by rw [hmark, hformals]; decide +kernel) [.null] (by rw [hmark, hformals]; decide +kernel)
  obtain rfl : expected = .range 1 2 := by
    obtain ⟨-, callee, hcallee, rfl⟩ := hreports.report hrefuses
    obtain ⟨rfl, -⟩ := hfinds.unique hcallee
    rw [hmark, hformals]
    decide +kernel
  exact ⟨hreports.fails hrefuses, haccepts⟩

end Dispatch

end GradualRuntime
