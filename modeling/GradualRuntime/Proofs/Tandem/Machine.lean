import GradualRuntime.Proofs.Tandem.Operation
import Mathlib.Data.List.Forall2

/-!
# Bodies, evaluations and sessions in tandem

Bodies are alike (`Body.Alike`) when they are the same except for the sources of the configurations
that they install or check, and for what they do with the echoes of these; which sources may stand
for one another is a parameter, and when only equal ones may, alike bodies are equal
(`Body.Alike.eq`). For a bond that carries alike code (`Bond.Carries`), alike bodies go in tandem
(`Bond.Carries.body`), and so does whatever the machine enters (`Bond.Carries.enter`).

Therefore evaluations that go in tandem end together (`Bond.Carries.endsWith`), and sessions of
alike bodies do so move by move (`Session.tandem_moment`).
-/

set_option autoImplicit false

namespace GradualRuntime

section Definitions

variable (twin : ConfigSource → ConfigSource → Prop)

/-- Outcomes are the same or the echoes of two configurations that may stand for one another. -/
inductive Answer.Alike : Except Fault Answer → Except Fault Answer → Prop where
  | same (outcome : Except Fault Answer) : Alike outcome outcome
  | echo {source other : ConfigSource} (twins : twin source other) :
    Alike (.ok (.config source.config)) (.ok (.config other.config))

/-- Operations are the same but for the sources of the configuration that they check or install. -/
inductive RealmOperation.Alike (source other : ConfigSource) :
    RealmOperation → RealmOperation → Prop where
  | checkConfig : Alike source other (.checkConfig source) (.checkConfig other)
  | install (oracle : TypeOracle) :
    Alike source other (.install source oracle) (.install other oracle)

/-- Bodies are the same but for the sources of configurations and what depends on their echoes. -/
inductive Body.Alike : Body → Body → Prop where
  | finish {outcome other : Except Fault Answer} (answers : Answer.Alike twin outcome other) :
    Alike (.finish outcome) (.finish other)
  | withRealm {next other : RealmId → Body} (rest : ∀ realm, Alike (next realm) (other realm)) :
    Alike (.withRealm next) (.withRealm other)
  | perform (realm : RealmId) (operation : Operation) (operands : List Value)
    {next other : Except Fault Answer → Body}
    (rest : ∀ outcome, Alike (next outcome) (other outcome)) :
    Alike (.perform realm operation operands next) (.perform realm operation operands other)
  | configure (realm : RealmId) {source twinSource : ConfigSource} (twins : twin source twinSource)
    {operation twinOperation : RealmOperation}
    (operations : RealmOperation.Alike source twinSource operation twinOperation)
    (operands : List Value) {next other : Except Fault Answer → Body}
    (rest : ∀ outcome twinOutcome, Answer.Alike twin outcome twinOutcome →
      Alike (next outcome) (other twinOutcome)) :
    Alike (.perform realm (.realm operation) operands next)
      (.perform realm (.realm twinOperation) operands other)
  | close (name : String) (formals : List String) {body twinBody : Value → List Value → Body}
    {next other : FunctionId → Body}
    (bodies : ∀ this arguments, Alike (body this arguments) (twinBody this arguments))
    (rest : ∀ function, Alike (next function) (other function)) :
    Alike (.close name formals body next) (.close name formals twinBody other)

/-- Procedures are the same or have alike bodies. -/
inductive Procedure.Alike : Procedure → Procedure → Prop where
  | same (procedure : Procedure) : Alike procedure procedure
  | native {body other : Value → List Value → Body}
    (bodies : ∀ this arguments, Body.Alike twin (body this arguments) (other this arguments)) :
    Alike (.native body) (.native other)

/-- A lawful bond on which alike code can rely: it relates states whose functions are alike, and it
is kept when alike functions are made, when twin configurations are installed, and by dispatches. -/
structure Bond.Carries {World : Type} (bond : Bond World) : Prop extends Bond.Lawful bond where
  code : ∀ {world left right}, bond world left right → ∀ index,
    Option.Rel (Procedure.Alike twin) (left.procedures.get? index) (right.procedures.get? index)
  alikeFunction : ∀ {world left right procedure other} signature, bond world left right →
    Procedure.Alike twin procedure other →
      bond world
        { left with
          heap := left.heap.addFunction signature
          procedures := left.procedures.push procedure }
        { right with
          heap := left.heap.addFunction signature
          procedures := right.procedures.push other }
  installTwins : ∀ {world left right source other} oracle, bond world left right →
    twin source other → ∀ realm,
      Progress.Tandem bond (Answer.Alike twin) world
        (RealmOperation.execute realm (.install source oracle) [] left)
        (RealmOperation.execute realm (.install other oracle) [] right)
  invoke : ∀ realm receiver site arguments,
    (Dispatch.invoke realm receiver site arguments).InTandem bond

/-- Two pending calls are the same call and go on in tandem. -/
structure PendingCall.Tandem {World : Type} (bond : Bond World) (left right : PendingCall) :
    Prop where
  call : left.call = right.call
  resume : ∀ outcome world later last, bond world later last →
    Progress.Tandem bond (Answer.Alike twin) world (left.resume outcome later)
      (right.resume outcome last)

/-- Two sessions are at the same point, and go on in tandem. -/
structure Session.Tandem {World : Type} (bond : Bond World) (left right : Session) : Prop where
  current : ∃ world, Progress.Tandem bond (Answer.Alike twin) world left.configuration.current
    right.configuration.current
  frames : List.Forall₂ (PendingCall.Tandem twin bond) left.configuration.frames
    right.configuration.frames
  pending : List.Forall₂ (Body.Alike twin) left.pending right.pending

end Definitions

section Alike

variable {twin : ConfigSource → ConfigSource → Prop}

/-- A function sees the same value, whichever of two alike outcomes its caller has. -/
theorem Answer.Alike.toValue_eq {outcome other : Except Fault Answer}
    (h : Alike twin outcome other) :
    outcome.map Answer.toValue = other.map Answer.toValue := by
  cases h <;> rfl

theorem Body.Alike.refl (body : Body) : Alike twin body body := by
  induction body with
  | finish outcome => exact .finish (.same outcome)
  | withRealm next ih => exact .withRealm ih
  | perform realm operation operands next ih => exact .perform realm operation operands ih
  | close name formals body next ihbody ihnext => exact .close name formals ihbody ihnext

theorem RealmOperation.Alike.eq {source : ConfigSource} {operation other : RealmOperation}
    (h : Alike source source operation other) : operation = other := by
  cases h <;> rfl

/-- When a configuration has no twin but itself, alike bodies are equal. -/
theorem Body.Alike.eq {body other : Body} (h : Alike Eq body other) : body = other := by
  induction h with
  | finish answers =>
    cases answers with
    | same => rfl
    | echo twins => rw [twins]
  | withRealm _ ih => rw [funext ih]
  | perform realm operation operands _ ih => rw [funext ih]
  | configure realm twins operations operands _ ih =>
    subst twins
    rw [operations.eq, funext fun outcome ↦ ih outcome outcome (.same outcome)]
  | close name formals _ _ ihbody ihnext =>
    rw [funext ihnext, funext fun this ↦ funext (ihbody this)]

theorem Procedure.Alike.eq {procedure other : Procedure} (h : Alike Eq procedure other) :
    procedure = other := by
  cases h with
  | same => rfl
  | native bodies => rw [funext fun this ↦ funext fun arguments ↦ (bodies this arguments).eq]

end Alike

/-- What a function does that is no body goes in tandem. -/
theorem Bond.Lawful.procedure {World : Type} {bond : Bond World} (h : bond.Lawful)
    {procedure : Procedure} (hother : ∀ body, procedure ≠ .native body) (this : Value)
    (arguments : List Value) : (procedure.run this arguments).InTandem bond := by
  cases procedure with
  | native body => exact absurd rfl (hother body)
  | namedConstructor prototype tag initializer => exact .map _ (h.constructNamed _ _ _ _)
  | instantiation generic => exact .map _ (h.instantiate _ _)
  | tableGet table =>
    exact .map _ ((required _ arguments 0).bind fun _ ↦ h.readHeap.bind fun _ ↦ .pure _)
  | tableSet table =>
    exact .map _ ((required _ arguments 0).bind fun key ↦ (required _ arguments 1).bind fun value ↦
      (h.changeHeap fun heap ↦ .writeEntry heap table key value).bind fun _ ↦ .pure _)
  | tableContains table =>
    exact .map _ ((required _ arguments 0).bind fun _ ↦ h.readHeap.bind fun _ ↦ .pure _)
  | tableSize table => exact .map _ (h.readHeap.bind fun _ ↦ .pure _)

namespace Bond.Carries

variable {World : Type} {twin : ConfigSource → ConfigSource → Prop} {bond : Bond World}

/-- A bond of states with the same code carries it, if it is lawful and kept by dispatches. -/
theorem of_eq (h : bond.Lawful)
    (hcode : ∀ {world left right}, bond world left right → right.procedures = left.procedures)
    (hinvoke : ∀ realm receiver site arguments,
      (Dispatch.invoke realm receiver site arguments).InTandem bond) : Carries Eq bond where
  toLawful := h
  code hpair index := by
    rw [hcode hpair]
    generalize Arena.get? _ index = procedure
    cases procedure with
    | none => exact .none
    | some procedure => exact .some (.same procedure)
  alikeFunction signature hpair halike := by
    rw [halike.eq]
    exact h.function signature _ hpair
  installTwins oracle hpair htwins realm := by
    subst htwins
    refine (h.install realm _ oracle _ _ _ hpair).mono ?_
    rintro outcome _ rfl
    exact .same outcome
  invoke := hinvoke

variable (h : Carries twin bond)

include h

theorem execute (realm : RealmId) (operation : Operation) (operands : List Value) :
    (operation.execute realm operands).InTandem bond :=
  h.toLawful.execute fun receiver site arguments _ ↦ h.invoke realm receiver site arguments

/-- Checking or installing twin configurations goes in tandem, up to the echo. -/
theorem configure {realm : RealmId} {source other : ConfigSource} (htwins : twin source other)
    {operation twinOperation : RealmOperation}
    (hoperations : RealmOperation.Alike source other operation twinOperation)
    (operands : List Value) {world : World} {left right : State} (hpair : bond world left right) :
    Progress.Tandem bond (Answer.Alike twin) world
      ((Operation.realm operation).execute realm operands left)
      ((Operation.realm twinOperation).execute realm operands right) := by
  have hmismatch : Progress.Tandem bond (Answer.Alike twin) world
      (Operands.mismatch left) (Operands.mismatch right) := .ended hpair (.same _)
  simp only [Operation.execute, Run.bind_apply, Run.ask_apply, Progress.andThen_ended,
    Run.onward_ok, (h.resembles hpair).heap]
  cases operands.all left.heap.knows with
  | false => exact .ended hpair (.same _)
  | true =>
    cases operands with
    | nil =>
      cases hoperations with
      | checkConfig => exact .ended hpair (.echo htwins)
      | install oracle => exact h.installTwins oracle hpair htwins realm
    | cons first rest => cases hoperations <;> exact hmismatch

/-- Alike bodies go in tandem. -/
theorem body {first second : Body} (halike : Body.Alike twin first second) {world : World}
    {left right : State} (hpair : bond world left right) :
    Progress.Tandem bond (Answer.Alike twin) world (first.run left) (second.run right) := by
  induction halike generalizing world left right with
  | finish answers => exact .ended hpair answers
  | @withRealm next other _ ih =>
    have hrun : (Body.withRealm other).run right = (other left.current).run right := by
      rw [← (h.resembles hpair).current]
      rfl
    rw [hrun]
    exact ih left.current hpair
  | perform realm operation operands _ ih =>
    rw [Body.run_perform, Body.run_perform]
    refine .paused hpair fun next later last hlater ↦
      (h.execute realm operation operands next later last hlater).andThen ?_
    rintro outcome _ world left right rfl hpair
    exact ih outcome hpair
  | configure realm twins operations operands _ ih =>
    rw [Body.run_perform, Body.run_perform]
    exact .paused hpair fun next later last hlater ↦
      (h.configure twins operations operands hlater).andThen
        fun outcome twinOutcome _ _ _ halike hpair ↦ ih outcome twinOutcome halike hpair
  | close name formals bodies _ _ ih =>
    rw [Body.run_close, Body.run_close]
    refine .paused hpair fun next later last hlater ↦ ?_
    have hmade := h.alikeFunction ⟨name, formals⟩ hlater (.native bodies)
    rw [(h.resembles hlater).heap]
    exact ih later.heap.nextFunction hmade

theorem procedure (procedure : Procedure) (this : Value) (arguments : List Value) {world : World}
    {left right : State} (hpair : bond world left right) :
    Progress.Tandem bond (Answer.Alike twin) world (procedure.run this arguments left)
      (procedure.run this arguments right) := by
  by_cases hnative : ∃ body, procedure = .native body
  · obtain ⟨body, rfl⟩ := hnative
    exact h.body (.refl (body this arguments)) hpair
  · refine
      (h.toLawful.procedure (not_exists.1 hnative) this arguments world left right hpair).mono ?_
    rintro outcome _ rfl
    exact .same outcome

/-- What the machine enters goes in tandem. -/
theorem enter (call : Call) {world : World} {left right : State} (hpair : bond world left right) :
    Progress.Tandem bond (Answer.Alike twin) world (Machine.enter call left)
      (Machine.enter call right) := by
  have hentered := h.record (.entered call) hpair rfl
  have hcode := h.code hpair call.function.index
  cases hleft : left.procedures.get? call.function.index with
  | none =>
    cases hright : right.procedures.get? call.function.index with
    | none =>
      rw [Machine.enter_of_none hleft, Machine.enter_of_none hright]
      exact .ended hentered (.same _)
    | some other =>
      rw [hleft, hright] at hcode
      cases hcode
  | some code =>
    cases hright : right.procedures.get? call.function.index with
    | none =>
      rw [hleft, hright] at hcode
      cases hcode
    | some other =>
      rw [Machine.enter_of_procedure hleft, Machine.enter_of_procedure hright]
      rw [hleft, hright] at hcode
      cases hcode with
      | some halike =>
        cases halike with
        | same => exact h.procedure _ _ _ hentered
        | native bodies => exact h.body (bodies call.this call.arguments) hentered

/-- When one of two computations that go in tandem ends, so does the other. -/
theorem endsWith {α : Type} {agree : Except Fault α → Except Fault α → Prop}
    {progress other : Progress α} {world : World} {outcome : Except Fault α} {last : State}
    (htandem : Progress.Tandem bond agree world progress other)
    (hends : progress.EndsWith outcome last) :
    ∃ next result reached, other.EndsWith result reached ∧ agree outcome result ∧
      bond next last reached := by
  induction hends generalizing world with
  | ended outcome state =>
    cases htandem with
    | ended pair same => exact ⟨world, _, _, .ended _ _, same, pair⟩
  | paused _ ih =>
    cases htandem with
    | paused pair rest =>
      obtain ⟨next, result, reached, hother, hagree⟩ := ih (rest world _ _ pair)
      exact ⟨next, result, reached, .paused hother, hagree⟩
  | @calling _ call state back last resume answer outcome _ _ ihcallee ihrest =>
    cases htandem with
    | calling pair rest =>
      obtain ⟨inside, given, returned, hcallee, hgiven, hreturned⟩ := ihcallee (h.enter call pair)
      have hback := h.record (.returned call (answer.map Answer.toValue)) hreturned rfl
      obtain ⟨next, result, reached, hother, hagree⟩ := ihrest (rest _ inside _ _ hback)
      rw [hgiven.toValue_eq] at hother
      exact ⟨next, result, reached, .calling hcallee hother, hagree⟩

end Bond.Carries

namespace Session

variable {World : Type} {twin : ConfigSource → ConfigSource → Prop} {bond : Bond World}

namespace Tandem

variable {left right : Session}

/-- The states belong together. -/
theorem pair (h : Tandem twin bond left right) : ∃ world, bond world left.state right.state :=
  h.current.imp fun _ hcurrent ↦ hcurrent.pair

/-- One move of both sessions keeps them in tandem. -/
theorem step (hbond : Bond.Carries twin bond) (h : Tandem twin bond left right) :
    Tandem twin bond left.step right.step := by
  obtain ⟨⟨frames, current⟩, pending⟩ := left
  obtain ⟨⟨otherFrames, other⟩, otherPending⟩ := right
  obtain ⟨⟨world, hcurrent⟩, hframes, hpending⟩ := h
  cases hcurrent with
  | paused pair rest =>
    rw [step_paused, step_paused]
    exact ⟨⟨world, rest world _ _ pair⟩, hframes, hpending⟩
  | calling pair rest =>
    rw [step_calling, step_calling]
    exact ⟨⟨world, hbond.enter _ pair⟩, .cons ⟨rfl, rest⟩ hframes, hpending⟩
  | @ended _ outcome result last reached pair same =>
    cases hframes with
    | nil =>
      cases hpending with
      | nil => exact ⟨⟨world, .ended pair same⟩, .nil, .nil⟩
      | cons halike hrest => exact ⟨⟨world, hbond.body halike pair⟩, .nil, hrest⟩
    | @cons frame otherFrame frames otherFrames hframe hrest =>
      have hreturned := hbond.record (.returned frame.call (outcome.map Answer.toValue)) pair rfl
      refine ⟨⟨world, ?_⟩, hrest, hpending⟩
      have hresumed := hframe.resume (outcome.map Answer.toValue) world _ _ hreturned
      rw [hframe.call, same.toValue_eq] at hresumed
      simpa only [Session.step, Configuration.step, ← hframe.call, ← same.toValue_eq] using hresumed

end Tandem

/-- Sessions of alike bodies from states that belong together go in tandem. -/
theorem tandem_moment (hbond : Bond.Carries twin bond) {bodies others : List Body}
    (hbodies : List.Forall₂ (Body.Alike twin) bodies others) {world : World} {left right : State}
    (hpair : bond world left right) (index : Nat) :
    Tandem twin bond (moment bodies left index) (moment others right index) := by
  induction index with
  | zero => exact ⟨⟨world, .ended hpair (.same _)⟩, .nil, hbodies⟩
  | succ index ih =>
    rw [moment_succ, moment_succ]
    exact ih.step hbond

end Session

end GradualRuntime
