import GradualRuntime.Proofs.DispatchReports

/-!
# Tracing is inert

Whether dispatches are traced makes no difference but for the reports of dispatches themselves. Two
programs that are the same but for the flags of the configurations that they install, run from fresh
states whose realms are the same but for their flags, go in step: at each moment the same calls are
pending, what has ended has ended alike, and the states are the same but for the code that names
sources of configurations, the flags, and the reports in the trace (`State.Alike`). Nothing but the
echo of a configuration tells the two apart.

In a run in which no realm traces dispatches there are no reports. Its trace is therefore the trace
of the other run without the reports. Each report stands directly before the entry of the callee of
the dispatch that has made it, and directly after all that the member reads of that dispatch have
left in the trace.

`tracingInert` puts this together, for programs, for single operations, and for one and the same
program, where the states are the same altogether but for flags and reports.
-/

set_option autoImplicit false

namespace GradualRuntime

section Definitions

/-- Two configurations that differ in nothing but the flag that says whether dispatches are traced,
or two sources that are refused for the same reason. -/
def ConfigSource.Twins (source other : ConfigSource) : Prop :=
  other.config.map Config.untraced = source.config.map Config.untraced

/-- Two arenas have related records under the same references. -/
def Arena.Related {α : Type} (relation : α → α → Prop) (left right : Arena α) : Prop :=
  ∀ index, Option.Rel relation (left.get? index) (right.get? index)

variable (twin : ConfigSource → ConfigSource → Prop)

/-- Two states are the same, but for code that names sources of configurations, for the flags of
realms, and for reports of dispatches. -/
structure State.Alike (left right : State) : Prop where
  heap : right.heap = left.heap
  code : Arena.Related (Procedure.Alike twin) left.procedures right.procedures
  realms : Arena.Related (fun record other ↦ other.untraced = record.untraced) left.realms
    right.realms
  current : right.current = left.current
  globals : right.globals = left.globals
  cellNames : right.cellNames = left.cellNames
  genericNames : right.genericNames = left.genericNames
  trace : right.trace.filter (fun entry ↦ !entry.isDispatch) =
    left.trace.filter fun entry ↦ !entry.isDispatch

/-- The bond of states that are alike. -/
def inert : Bond Unit := fun _ left right ↦ left.Alike twin right

/-- Two computations are at the same point, and have ended alike if they have. -/
inductive Progress.SamePoint : Progress Answer → Progress Answer → Prop where
  | ended {outcome other : Except Fault Answer} (left right : State)
    (alike : Answer.Alike twin outcome other) : SamePoint (.ended outcome left) (.ended other right)
  | paused (left right : State) (resume other : State → Progress Answer) :
    SamePoint (.paused left resume) (.paused right other)
  | calling (call : Call) (left right : State)
    (resume other : Except Fault Value → State → Progress Answer) :
    SamePoint (.calling call left resume) (.calling call right other)

/-- Two sessions are at the same point: the same calls are pending, what is going on is at the same
point, the bodies that are left are alike, and so are the states. -/
structure Session.InStep (left right : Session) : Prop where
  current : Progress.SamePoint twin left.configuration.current right.configuration.current
  entered : right.ledger.entered = left.ledger.entered
  pending : List.Forall₂ (Body.Alike twin) left.pending right.pending
  state : left.state.Alike twin right.state

end Definitions

namespace Arena

variable {α : Type} {relation : α → α → Prop} {left right : Arena α}

theorem size_le_of_isSome (h : ∀ index, (left.get? index).isSome → (right.get? index).isSome) :
    left.size ≤ right.size := by
  by_contra hlt
  obtain ⟨record, hrecord⟩ := Option.isSome_iff_exists.1
    (h right.size (isSome_get?_of_lt (Nat.lt_of_not_le hlt)))
  exact Nat.lt_irrefl _ (lt_of_get?_eq_some hrecord)

namespace Related

theorem refl (hrefl : ∀ record, relation record record) (arena : Arena α) :
    Related relation arena arena := by
  intro index
  cases arena.get? index with
  | none => exact .none
  | some record => exact .some (hrefl record)

theorem symm (h : Related relation left right)
    (hsymm : ∀ record other, relation record other → relation other record) :
    Related relation right left := by
  intro index
  have hindex := h index
  generalize left.get? index = first at hindex ⊢
  generalize right.get? index = second at hindex ⊢
  cases hindex with
  | none => exact .none
  | some hrelated => exact .some (hsymm _ _ hrelated)

theorem size_eq (h : Related relation left right) : right.size = left.size := by
  have hsame : ∀ index, (right.get? index).isSome = (left.get? index).isSome := by
    intro index
    have hindex := h index
    generalize left.get? index = first at hindex ⊢
    generalize right.get? index = second at hindex ⊢
    cases hindex <;> rfl
  exact Nat.le_antisymm (size_le_of_isSome fun index hright ↦ (hsame index).symm.trans hright)
    (size_le_of_isSome fun index hleft ↦ (hsame index).trans hleft)

/-- Arenas are equal when only equal records are related. -/
theorem eq (h : Related relation left right)
    (heq : ∀ record other, relation record other → other = record) : right = left := by
  refine congrArg Arena.mk (Array.ext_getElem? fun index ↦ ?_)
  have hindex := h index
  change right.get? index = left.get? index
  generalize left.get? index = first at hindex ⊢
  generalize right.get? index = second at hindex ⊢
  cases hindex with
  | none => rfl
  | some hrelated => rw [heq _ _ hrelated]

/-- Related records may be added. -/
theorem push (h : Related relation left right) {record other : α}
    (hrecord : relation record other) :
    Related relation (left.push record) (right.push other) := by
  intro index
  have hindex := h index
  have hsize : right.records.size = left.records.size := h.size_eq
  simp only [Arena.push, Arena.get?, Array.getElem?_push, hsize] at hindex ⊢
  split
  · exact .some hrecord
  · exact hindex

/-- Changes that keep records related may be made. -/
theorem modify (h : Related relation left right) (changed : Nat) {change : α → α}
    (hchange : ∀ record other, relation record other → relation (change record) (change other)) :
    Related relation (left.modify changed change) (right.modify changed change) := by
  intro index
  have hindex := h index
  by_cases hsame : index = changed
  · subst hsame
    rw [get?_modify_self, get?_modify_self]
    generalize left.get? index = first at hindex ⊢
    generalize right.get? index = second at hindex ⊢
    cases hindex with
    | none => exact .none
    | some hrelated => exact .some (hchange _ _ hrelated)
  · rw [get?_modify_of_ne hsame, get?_modify_of_ne hsame]
    exact hindex

end Related

end Arena

section Alike

variable {twin : ConfigSource → ConfigSource → Prop} {left right : State}

/-- Entries that are no reports may be added. -/
theorem State.Alike.record {entry : TraceEntry} (h : left.Alike twin right) :
    (left.record entry).Alike twin (right.record entry) where
  heap := h.heap
  code := h.code
  realms := h.realms
  current := h.current
  globals := h.globals
  cellNames := h.cellNames
  genericNames := h.genericNames
  trace := by simp only [State.record, List.filter_cons, h.trace]

/-- A report may be added on one side only. -/
theorem State.Alike.report {event : Event} (h : left.Alike twin right)
    (hevent : event.isDispatch = true) (traced other : Bool) :
    (if traced then left.record (.emitted event) else left).Alike twin
      (if other then right.record (.emitted event) else right) := by
  have hreport : ∀ (state : State) (condition : Bool),
      (if condition then state.record (.emitted event) else state).trace.filter
        (fun entry ↦ !entry.isDispatch) = state.trace.filter fun entry ↦ !entry.isDispatch := by
    intro state condition
    cases condition with
    | false => rfl
    | true => simp [State.record, TraceEntry.isDispatch, hevent]
  have hrest : ∀ (state : State) (condition : Bool),
      (if condition then state.record (.emitted event) else state) =
        { state with
          trace := (if condition then state.record (.emitted event) else state).trace } := by
    intro state condition
    cases condition <;> rfl
  rw [hrest left, hrest right]
  exact ⟨h.heap, h.code, h.realms, h.current, h.globals, h.cellNames, h.genericNames,
    ((hreport right other).trans h.trace).trans (hreport left traced).symm⟩

/-- The realms that a reference stands for are the same but for their flags. -/
theorem State.Alike.realm (h : left.Alike twin right) (reference : RealmId) :
    (right.realm reference).untraced = (left.realm reference).untraced := by
  have hrealm := h.realms reference.index
  rw [State.realm, State.realm]
  generalize left.realms.get? reference.index = first at hrealm ⊢
  generalize right.realms.get? reference.index = second at hrealm ⊢
  cases hrealm with
  | none => rfl
  | some hsame => exact hsame

theorem free_inert : (inert twin).Free where
  resembles h := ⟨h.heap, h.current, h.globals, h.cellNames, h.genericNames, h.realm⟩
  heap _ h := { h with heap := rfl }
  function _ h := { h with code := h.code.push (.same _) }
  names _ _ _ h := { h with globals := rfl, cellNames := rfl, genericNames := rfl }
  addRealm _ _ h :=
    { h with
      realms := h.realms.push rfl
      current := congrArg RealmId.mk h.realms.size_eq }
  setPrimitivePrototype _ kind prototype h :=
    { h with
      realms := h.realms.modify _ fun _ _ hsame ↦ congrArg
        (fun realm : Realm ↦
          { realm with primitivePrototypes := realm.primitivePrototypes.insert kind prototype })
        hsame }
  record _ h _ := h.record

/-- A dispatch goes in step whether it is traced or not. -/
theorem inTandem_invoke (place : RealmId) (receiver : Value) (site : CallSite)
    (arguments : List Value) :
    (Dispatch.invoke place receiver site arguments).InTandem (inert twin) := by
  intro world left right h
  have hconfig : (right.realm place).config.untraced = (left.realm place).config.untraced :=
    congrArg Realm.config (h.realm place)
  have hmembers : (right.realm place).config.members = (left.realm place).config.members :=
    (congrArg Config.members hconfig :)
  have hmark : (right.realm place).config.optionalMark = (left.realm place).config.optionalMark :=
    (congrArg Config.optionalMark hconfig :)
  rw [Dispatch.invoke_eq_find, Dispatch.invoke_eq_find, hmembers]
  refine (free_inert.lawful.find place receiver site arguments _ world left right h).andThen ?_
  rintro (fault | ⟨callee, this⟩) _ _ middle reached rfl hreached
  · exact .ended hreached rfl
  · simp only [Dispatch.conclude, hmark, hreached.heap]
    split
    · exact .calling (hreached.report rfl _ _) fun _ _ _ _ hback ↦ .ended hback rfl
    · exact .ended hreached rfl

/-- Installing a configuration goes in step with installing a twin. -/
theorem tandem_install {source other : ConfigSource} (htwin : twin source other)
    (hsources : source.Twins other) (oracle : TypeOracle) (place : RealmId)
    (h : left.Alike twin right) :
    Progress.Tandem (inert twin) (Answer.Alike twin) ()
      (RealmOperation.execute place (.install source oracle) [] left)
      (RealmOperation.execute place (.install other oracle) [] right) := by
  have hanswer := Answer.Alike.echo htwin
  rw [ConfigSource.Twins] at hsources
  simp only [RealmOperation.execute]
  generalize source.config = first at hsources hanswer ⊢
  generalize other.config = second at hsources hanswer ⊢
  cases first with
  | error refusal =>
    cases second with
    | error _ => exact .ended h hanswer
    | ok _ => cases hsources
  | ok config =>
    cases second with
    | error _ => cases hsources
    | ok twinConfig =>
      have huntraced : twinConfig.untraced = config.untraced := Except.ok.inj hsources
      have hrealm : (Realm.new twinConfig oracle).untraced = (Realm.new config oracle).untraced :=
        congrArg (Realm.new · oracle) huntraced
      exact .ended
        { h with
          realms := h.realms.push hrealm
          current := congrArg RealmId.mk h.realms.size_eq } hanswer

/-- States that are alike carry alike code. -/
theorem carries_inert (htwins : ∀ source other, twin source other → source.Twins other) :
    Bond.Carries twin (inert twin) where
  toLawful := free_inert.lawful
  code h := h.code
  alikeFunction _ h hcode := { h with heap := rfl, code := h.code.push hcode }
  installTwins oracle h htwin place := tandem_install htwin (htwins _ _ htwin) oracle place h
  invoke := inTandem_invoke

end Alike

section Symmetry

variable {twin : ConfigSource → ConfigSource → Prop}
  (hsymm : ∀ source other, twin source other → twin other source)

include hsymm

theorem Answer.Alike.symm {outcome other : Except Fault Answer} (h : Alike twin outcome other) :
    Alike twin other outcome := by
  cases h with
  | same => exact .same _
  | echo twins => exact .echo (hsymm _ _ twins)

theorem Body.Alike.symm {body other : Body} (h : Alike twin body other) :
    Alike twin other body := by
  induction h with
  | finish answers => exact .finish (answers.symm hsymm)
  | withRealm _ ih => exact .withRealm ih
  | perform place operation operands _ ih => exact .perform place operation operands ih
  | configure place twins operations operands _ ih =>
    refine .configure place (hsymm _ _ twins) ?_ operands fun outcome other halike ↦
      ih other outcome (halike.symm hsymm)
    cases operations with
    | checkConfig => exact .checkConfig
    | install oracle => exact .install oracle
  | close name formals _ _ ihbody ihnext => exact .close name formals ihbody ihnext

theorem Procedure.Alike.symm {procedure other : Procedure} (h : Alike twin procedure other) :
    Alike twin other procedure := by
  cases h with
  | same => exact .same _
  | native bodies => exact .native fun this arguments ↦ (bodies this arguments).symm hsymm

theorem State.Alike.symm {left right : State} (h : left.Alike twin right) :
    right.Alike twin left where
  heap := h.heap.symm
  code := h.code.symm fun _ _ hcode ↦ hcode.symm hsymm
  realms := h.realms.symm fun _ _ hsame ↦ hsame.symm
  current := h.current.symm
  globals := h.globals.symm
  cellNames := h.cellNames.symm
  genericNames := h.genericNames.symm
  trace := h.trace.symm

end Symmetry

section Runs

variable {twin : ConfigSource → ConfigSource → Prop}

/-- Fresh states whose realms are the same but for their flags are alike. -/
theorem State.alike_fresh {realm other : Realm} (h : other.untraced = realm.untraced) :
    (State.fresh realm).Alike twin (.fresh other) where
  heap := rfl
  code := .refl .same _
  realms := Arena.Related.push (fun _ ↦ .none) h
  current := rfl
  globals := rfl
  cellNames := rfl
  genericNames := rfl
  trace := rfl

namespace Session

/-- Sessions in tandem are in step. -/
theorem Tandem.inStep {left right : Session} (h : Tandem twin (inert twin) left right) :
    InStep twin left right where
  current := by
    obtain ⟨_, hcurrent⟩ := h.current
    generalize left.configuration.current = first at hcurrent ⊢
    generalize right.configuration.current = second at hcurrent ⊢
    cases hcurrent with
    | ended _ same => exact .ended _ _ same
    | paused => exact .paused _ _ _ _
    | calling => exact .calling _ _ _ _ _
  entered := by
    have hframes := h.frames
    simp only [ledger, Configuration.ledger]
    generalize left.configuration.frames = frames at hframes ⊢
    generalize right.configuration.frames = others at hframes ⊢
    induction hframes with
    | nil => rfl
    | cons hframe _ ih => rw [List.map_cons, List.map_cons, ih, hframe.call]
  pending := h.pending
  state := h.pair.elim fun _ hpair ↦ hpair

theorem inStep_moment (htwins : ∀ source other, twin source other → source.Twins other)
    {bodies others : List Body} (hbodies : List.Forall₂ (Body.Alike twin) bodies others)
    {realm other : Realm} (hrealm : other.untraced = realm.untraced) (index : Nat) :
    InStep twin (moment bodies (.fresh realm) index) (moment others (.fresh other) index) := by
  have hstart : inert twin () (.fresh realm) (.fresh other) := State.alike_fresh hrealm
  exact (tandem_moment (carries_inert htwins) hbodies hstart index).inStep

end Session

/-- An operation ends alike from states that are alike. -/
theorem State.Alike.endsWith (htwins : ∀ source other, twin source other → source.Twins other)
    {left right last : State} (h : left.Alike twin right) {place : RealmId} {operation : Operation}
    {operands : List Value} {outcome : Except Fault Answer}
    (hends : (operation.execute place operands left).EndsWith outcome last) :
    ∃ reached, (operation.execute place operands right).EndsWith outcome reached ∧
      last.Alike twin reached := by
  have hcarries := carries_inert htwins
  obtain ⟨_, _, reached, hother, rfl, hreached⟩ :=
    hcarries.endsWith (hcarries.execute place operation operands () left right h) hends
  exact ⟨reached, hother, hreached⟩

end Runs

section Statement

theorem ConfigSource.Twins.symm {source other : ConfigSource} (h : source.Twins other) :
    other.Twins source := Eq.symm h

/-- What it means that tracing is inert. -/
structure TracingInert : Prop where
  /-- Programs that are the same but for flags of configurations go in step, if their realms are the
  same but for the flag. -/
  lockstep : ∀ (bodies others : List Body) (realm other : Realm) (index : Nat),
    List.Forall₂ (Body.Alike ConfigSource.Twins) bodies others →
      other.untraced = realm.untraced →
        Session.InStep ConfigSource.Twins (Session.moment bodies (.fresh realm) index)
          (Session.moment others (.fresh other) index)
  /-- For one and the same program, the states are the same but for the flags of realms and for
  reports of dispatches, and so are the outcomes and the bodies that are left. -/
  same : ∀ (bodies : List Body) (realm other : Realm) (index : Nat),
    other.untraced = realm.untraced → ∃ realms trace,
      (Session.moment bodies (.fresh other) index).state =
        { (Session.moment bodies (.fresh realm) index).state with
          realms := realms, trace := trace } ∧
      Arena.Related (fun record other : Realm ↦ other.untraced = record.untraced)
        (Session.moment bodies (.fresh realm) index).state.realms realms ∧
      trace.filter (fun entry ↦ !entry.isDispatch) =
        (Session.moment bodies (.fresh realm) index).state.trace.filter
          (fun entry ↦ !entry.isDispatch) ∧
      (Session.moment bodies (.fresh other) index).configuration.outcome? =
        (Session.moment bodies (.fresh realm) index).configuration.outcome? ∧
      (Session.moment bodies (.fresh other) index).pending =
        (Session.moment bodies (.fresh realm) index).pending
  /-- From states that are alike, an operation succeeds or fails with the same answer or fault, and
  leaves states that are alike. -/
  operations : ∀ {left right : State}, left.Alike ConfigSource.Twins right →
    ∀ (place : RealmId) (operation : Operation) (operands : List Value)
      (outcome : Except Fault Answer),
      (∀ last, (operation.execute place operands left).EndsWith outcome last →
        ∃ reached, (operation.execute place operands right).EndsWith outcome reached ∧
          last.Alike ConfigSource.Twins reached) ∧
      ∀ reached, (operation.execute place operands right).EndsWith outcome reached →
        ∃ last, (operation.execute place operands left).EndsWith outcome last ∧
          last.Alike ConfigSource.Twins reached
  /-- Checking and installing configurations that are the same but for the flag succeed or fail
  alike; only the echoes of the configurations differ. -/
  configurations : ∀ (source other : ConfigSource) (operation twinOperation : RealmOperation),
    source.Twins other → RealmOperation.Alike source other operation twinOperation →
      ∀ {left right : State}, left.Alike ConfigSource.Twins right →
        ∀ (place : RealmId) (operands : List Value) (outcome : Except Fault Answer) (last : State),
          ((Operation.realm operation).execute place operands left).EndsWith outcome last →
            ∃ result reached,
              ((Operation.realm twinOperation).execute place operands right).EndsWith result
                reached ∧
              Answer.Alike ConfigSource.Twins outcome result ∧
              last.Alike ConfigSource.Twins reached
  /-- Where no realm traces dispatches, the trace is that of the other program without its reports
  of dispatches. -/
  events : ∀ (bodies others : List Body) (realm other : Realm) (index : Nat),
    List.Forall₂ (Body.Alike ConfigSource.Twins) bodies others →
      other.untraced = realm.untraced →
        (∀ reference, ((Session.moment others (.fresh other) index).state.realm
          reference).config.traceDispatch = false) →
          (Session.moment others (.fresh other) index).state.trace =
            (Session.moment bodies (.fresh realm) index).state.trace.filter
              fun entry ↦ !entry.isDispatch
  /-- A report stands directly after what the member reads of its dispatch have left in the trace,
  and directly before the entry of its callee. -/
  order : ∀ (bodies : List Body) (realm : Realm) (index : Nat) (later : List TraceEntry)
    (event : Event) (earlier : List TraceEntry),
    (Session.moment bodies (.fresh realm) index).state.trace =
      later ++ .emitted event :: earlier → event.isDispatch = true →
        Session.Reports bodies (.fresh realm) index later event earlier

theorem Answer.Alike.eq {outcome other : Except Fault Answer} (h : Alike Eq outcome other) :
    other = outcome := by
  cases h with
  | same => rfl
  | echo twins => rw [twins]

theorem Body.Alike.eq_of_forall₂ {bodies others : List Body}
    (h : List.Forall₂ (Alike Eq) bodies others) : others = bodies := by
  induction h with
  | nil => rfl
  | cons halike _ ih => rw [halike.eq, ih]

/-- When only equal sources may stand for one another, states that are alike differ in the flags of
realms and in reports only. -/
theorem State.Alike.eq {left right : State} (h : left.Alike Eq right) :
    right = { left with realms := right.realms, trace := right.trace } := by
  have hcode := h.code.eq fun _ _ hcode ↦ hcode.eq.symm
  obtain ⟨hheap, -, -, hcurrent, hglobals, hcellNames, hgenericNames, -⟩ := h
  rw [← hheap, ← hcode, ← hcurrent, ← hglobals, ← hcellNames, ← hgenericNames]

/-- Sessions of one and the same program in step have the same outcome, if any. -/
theorem Session.InStep.outcome?_eq {left right : Session} (h : InStep Eq left right) :
    right.configuration.outcome? = left.configuration.outcome? := by
  have hcurrent := h.current
  have hentered : right.configuration.frames.map PendingCall.call =
      left.configuration.frames.map PendingCall.call := h.entered
  obtain ⟨⟨frames, current⟩, pending⟩ := left
  obtain ⟨⟨others, other⟩, remaining⟩ := right
  cases hcurrent with
  | paused => cases frames <;> cases others <;> rfl
  | calling => cases frames <;> cases others <;> rfl
  | ended _ _ halike =>
    cases frames with
    | nil =>
      cases List.map_eq_nil_iff.1 hentered
      exact congrArg some halike.eq
    | cons frame rest =>
      cases others with
      | nil => cases hentered
      | cons _ _ => rfl

/-- Tracing is inert. -/
theorem tracingInert : TracingInert where
  lockstep _ _ _ _ index hbodies hrealm :=
    Session.inStep_moment (fun _ _ h ↦ h) hbodies hrealm index
  same bodies realm other index hrealm := by
    have hbodies : List.Forall₂ (Body.Alike Eq) bodies bodies :=
      List.forall₂_same.2 fun body _ ↦ .refl body
    have hstep := Session.inStep_moment
      (fun source other (h : source = other) ↦ congrArg _ (congrArg ConfigSource.config h.symm))
      hbodies hrealm index
    exact ⟨_, _, hstep.state.eq, hstep.state.realms, hstep.state.trace, hstep.outcome?_eq,
      Body.Alike.eq_of_forall₂ hstep.pending⟩
  operations h place operation operands outcome := by
    refine ⟨fun last hends ↦ h.endsWith (fun _ _ h ↦ h) hends, fun reached hends ↦ ?_⟩
    have hsymm : ∀ source other : ConfigSource, source.Twins other → other.Twins source :=
      fun _ _ ↦ .symm
    obtain ⟨last, hlast, halike⟩ := (h.symm hsymm).endsWith (fun _ _ h ↦ h) hends
    exact ⟨last, hlast, halike.symm hsymm⟩
  configurations source other operation twinOperation htwins hoperations left right h place operands
      outcome last hends := by
    have hcarries := carries_inert fun source other (h : source.Twins other) ↦ h
    obtain ⟨_, result, reached, hother, halike, hreached⟩ :=
      hcarries.endsWith
        (hcarries.configure htwins hoperations operands (show inert _ () _ _ from h))
        hends
    exact ⟨result, reached, hother, halike, hreached⟩
  events _ _ _ _ index hbodies hrealm huntraced := by
    have hquiet := Session.isDispatch_of_untraced (.fresh _) huntraced
    have hstep := Session.inStep_moment (fun _ _ h ↦ h) hbodies hrealm index
    rw [← hstep.state.trace]
    exact (List.filter_eq_self.2 fun entry hentry ↦ by simp [hquiet entry hentry]).symm
  order bodies realm index later event earlier htrace hevent :=
    Session.reports_moment (.fresh realm) htrace hevent

end Statement

end GradualRuntime
