import GradualRuntime.Proofs.Composition

/-!
# Flattening of mixins

Applying a mixin to a mixin type is the same as applying one mixin with all the sources
(`mixinFlattening`): both types give the same members and statics, call the same constructors in the
same order, and inherit from the base and its superclasses. A mixin without sources is its base.

Members follow from the laws of overlays. For construction, `Heap.plan` lists the constructors that
constructing a class calls, with their arguments; constructing the class follows that plan
(`follows_run`), whatever the constructors do, and the plan of a mixin type is the plan of its base
followed by those of its sources (`plan_of_composition`).
-/

set_option autoImplicit false

namespace GradualRuntime

section Plans

/-- The constructors that constructing a class calls, each with its arguments, descending at most
`bound` classes. -/
def Heap.planWithin (heap : Heap) : Nat → ClassId → List Value → List (FunctionId × List Value)
  | 0, _, _ => []
  | bound + 1, reference, arguments =>
    match heap.class? reference with
    | none => []
    | some ⟨_, _, _, _, _, some composition⟩ =>
      heap.planWithin bound composition.base arguments ++
        composition.sources.flatMap fun source ↦ heap.planWithin bound source []
    | some ⟨_, _, some constructorFunction, _, _, none⟩ => [(constructorFunction, arguments)]
    | some ⟨_, some superclass, none, _, _, none⟩ => heap.planWithin bound superclass arguments
    | some ⟨_, none, none, _, _, none⟩ => []

/-- The constructors that constructing a class calls, each with its arguments. -/
def Heap.plan (heap : Heap) (reference : ClassId) (arguments : List Value) :
    List (FunctionId × List Value) :=
  heap.planWithin (reference.index + 1) reference arguments

variable {heap : Heap}

/-- Beyond the number of the class, the bound of a plan does not matter. -/
theorem Heap.WellFormed.planWithin_eq (h : heap.WellFormed) {bound other : Nat}
    {reference : ClassId} (hbound : reference.index < bound) (hother : reference.index < other)
    (arguments : List Value) :
    heap.planWithin bound reference arguments = heap.planWithin other reference arguments := by
  suffices hsame : heap.planWithin bound reference = heap.planWithin other reference from
    congrFun hsame arguments
  refine eq_of_descending (fun bound other reference hdescends ↦ ?_) hbound hother
  funext arguments
  cases hrecord : heap.class? reference with
  | none => simp only [planWithin, hrecord]
  | some record =>
    have hfits := h.classes reference record hrecord
    simp only [planWithin, hrecord]
    match record, hfits with
    | ⟨_, _, _, _, _, some composition⟩, hfits =>
      obtain ⟨hbase, hsources⟩ := hfits.composition composition rfl
      simp only [hdescends composition.base hbase]
      congr 1
      exact List.flatMap_congr fun source hsource ↦
        congrFun (hdescends source (hsources source hsource)) []
    | ⟨_, _, some _, _, _, none⟩, _ => rfl
    | ⟨_, some superclass, none, _, _, none⟩, hfits =>
      exact congrFun (hdescends superclass (hfits.superclass superclass rfl)) arguments
    | ⟨_, none, none, _, _, none⟩, _ => rfl

/-- The plan of a mixin type is the plan of its base and then those of its sources. -/
theorem Heap.WellFormed.plan_of_composition (h : heap.WellFormed) {reference : ClassId}
    {record : Class} {composition : Composition} (hrecord : heap.class? reference = some record)
    (hcomposition : record.composition = some composition) (arguments : List Value) :
    heap.plan reference arguments =
      heap.plan composition.base arguments ++
        composition.sources.flatMap fun source ↦ heap.plan source [] := by
  have hfits := h.classes reference record hrecord
  obtain ⟨hbase, hsources⟩ := hfits.composition composition hcomposition
  have hdescend : ∀ {next : ClassId}, next.index < reference.index → ∀ arguments,
      heap.planWithin reference.index next arguments = heap.plan next arguments :=
    fun hless arguments ↦ h.planWithin_eq hless (Nat.lt_succ_self _) arguments
  obtain ⟨_, _, _, _, _, _⟩ := record
  cases hcomposition
  rw [plan, planWithin, hrecord]
  simp only [hdescend hbase]
  congr 1
  exact List.flatMap_congr fun source hsource ↦ hdescend (hsources source hsource) []

/-- The plan of a class that exists is the same in a later heap. -/
theorem Heap.WellFormed.plan_of_grows {later : Heap} (h : heap.WellFormed)
    (hlater : heap.Grows later) {reference : ClassId}
    (hreference : reference.index < heap.classes.size) (arguments : List Value) :
    later.plan reference arguments = heap.plan reference arguments := by
  unfold plan
  generalize reference.index + 1 = bound
  induction bound generalizing reference arguments with
  | zero => rfl
  | succ bound ih =>
    obtain ⟨record, hrecord⟩ := exists_class?_of_lt hreference
    have hsame := hlater.classes reference record hrecord
    have hfits := h.classes reference record hrecord
    simp only [planWithin, hrecord, hsame]
    match record, hfits with
    | ⟨_, _, _, _, _, some composition⟩, hfits =>
      obtain ⟨hbase, hsources⟩ := hfits.composition composition rfl
      simp only [ih (Nat.lt_trans hbase hreference)]
      congr 1
      exact List.flatMap_congr fun source hsource ↦
        ih (Nat.lt_trans (hsources source hsource) hreference) []
    | ⟨_, _, some _, _, _, none⟩, _ => rfl
    | ⟨_, some superclass, none, _, _, none⟩, hfits =>
      exact ih (Nat.lt_trans (hfits.superclass superclass rfl) hreference) arguments
    | ⟨_, none, none, _, _, none⟩, _ => rfl

end Plans

section Following

/-- A computation calls the constructors of a plan, one after another, on `this`: it passes the
first fault on, and ends when none is left. Nothing is assumed about what the constructors do,
except that the classes of `heap` are still there when one returns. -/
inductive Progress.Follows (heap : Heap) (this : Value) :
    List (FunctionId × List Value) → State → Progress Unit → Prop where
  | done (state : State) : Follows heap this [] state (.ended (.ok ()) state)
  | call {function : FunctionId} {arguments : List Value} {rest : List (FunctionId × List Value)}
    {state : State} {resume : Except Fault Value → State → Progress Unit}
    (failed : ∀ fault later, resume (.error fault) later = .ended (.error fault) later)
    (continued : ∀ value later, heap.Grows later.heap →
      Follows heap this rest later (resume (.ok value) later)) :
    Follows heap this ((function, arguments) :: rest) state
      (.calling ⟨function, this, arguments, .plain⟩ state resume)

/-- A run follows a plan from every state that has the classes of a heap. -/
def Run.Follows (heap : Heap) (this : Value) (plan : List (FunctionId × List Value))
    (action : Run Unit) : Prop :=
  ∀ state, heap.Grows state.heap → Progress.Follows heap this plan state (action state)

variable {heap : Heap} {this : Value} {plan : List (FunctionId × List Value)}

theorem Progress.Follows.andThen {rest : List (FunctionId × List Value)} {state : State}
    {progress : Progress Unit} (h : Progress.Follows heap this plan state progress)
    (hstate : heap.Grows state.heap) {next : Except Fault Unit → State → Progress Unit}
    (hfailed : ∀ fault later, next (.error fault) later = .ended (.error fault) later)
    (hnext : ∀ later, heap.Grows later.heap →
      Progress.Follows heap this rest later (next (.ok ()) later)) :
    Progress.Follows heap this (plan ++ rest) state (progress.andThen next) := by
  induction h with
  | done state => exact hnext state hstate
  | call failed continued ih =>
    refine .call (fun fault later ↦ ?_) fun value later hlater ↦ ih value later hlater hlater
    simp only [failed, Progress.andThen_ended, hfailed]

namespace Run.Follows

theorem pure : Run.Follows heap this [] (Pure.pure ()) := fun state _ ↦ .done state

theorem bind {rest : List (FunctionId × List Value)} {action : Run Unit} {next : Unit → Run Unit}
    (h : Run.Follows heap this plan action) (hnext : Run.Follows heap this rest (next ())) :
    Run.Follows heap this (plan ++ rest) (action >>= next) :=
  fun state hstate ↦ (h state hstate).andThen hstate (fun _ _ ↦ rfl) hnext

theorem forM {plans : ClassId → List (FunctionId × List Value)} {action : ClassId → Run Unit}
    {sources : List ClassId}
    (h : ∀ source ∈ sources, Run.Follows heap this (plans source) (action source)) :
    Run.Follows heap this (sources.flatMap plans) (sources.forM action) := by
  induction sources with
  | nil => exact pure
  | cons source rest ih =>
    rw [List.flatMap_cons]
    exact (h source List.mem_cons_self).bind
      (ih fun other hother ↦ h other (List.mem_cons_of_mem source hother))

/-- A single constructor call. -/
theorem call (function : FunctionId) (arguments : List Value) :
    Run.Follows heap this [(function, arguments)]
      (Run.call function this arguments >>= fun _ ↦ Pure.pure ()) :=
  fun _ _ ↦ .call (fun _ _ ↦ rfl) fun _ later _ ↦ .done later

end Run.Follows

/-- Constructing a class follows its plan. -/
theorem Construction.follows_runWithin (hwell : heap.WellFormed) (bound : Nat)
    {reference : ClassId} (hreference : reference.index < heap.classes.size)
    (arguments : List Value) :
    Run.Follows heap this (heap.planWithin bound reference arguments)
      (runWithin bound reference this arguments) := by
  induction bound generalizing reference arguments with
  | zero => exact .pure
  | succ bound ih =>
    intro state hstate
    obtain ⟨record, hrecord⟩ := Heap.exists_class?_of_lt hreference
    have hfits := hwell.classes reference record hrecord
    have hsame := hstate.classes reference record hrecord
    rw [runWithin, Run.bind_of_ok (Run.classRecord_of_some hsame), Heap.planWithin, hrecord]
    match record, hfits with
    | ⟨_, _, _, _, _, some composition⟩, hfits =>
      obtain ⟨hbase, hsources⟩ := hfits.composition composition rfl
      have hfirst := ih (Nat.lt_trans hbase hreference) arguments
      have hrest := Run.Follows.forM fun source hsource ↦
        ih (Nat.lt_trans (hsources source hsource) hreference) []
      exact hfirst.bind hrest state hstate
    | ⟨_, _, some constructorFunction, _, _, none⟩, _ =>
      exact Run.Follows.call constructorFunction arguments state hstate
    | ⟨_, some superclass, none, _, _, none⟩, hfits =>
      exact ih (Nat.lt_trans (hfits.superclass superclass rfl) hreference) arguments state hstate
    | ⟨_, none, none, _, _, none⟩, _ => exact .done state

theorem Construction.follows_run (hwell : heap.WellFormed) {reference : ClassId}
    (hreference : reference.index < heap.classes.size) (this : Value) (arguments : List Value) :
    Run.Follows heap this (heap.plan reference arguments) (run reference this arguments) :=
  follows_runWithin hwell (reference.index + 1) hreference arguments

/-- Two computations that follow the same plan come to the same end. -/
theorem Progress.Follows.endsWith {state last : State} {progress other : Progress Unit}
    {outcome : Except Fault Unit} {otherHeap : Heap}
    (h : Progress.Follows heap this plan state progress)
    (hother : Progress.Follows otherHeap this plan state other) (hstate : heap.Grows state.heap)
    (hotherState : otherHeap.Grows state.heap) (hended : progress.EndsWith outcome last) :
    other.EndsWith outcome last := by
  induction h generalizing other with
  | done state =>
    cases hother
    exact hended
  | @call function arguments rest state resume failed continued ih =>
    cases hother with
    | @call _ _ _ _ otherResume otherFailed otherContinued =>
      obtain ⟨answer, back, hcallee, hrest⟩ := Progress.endsWith_calling_iff.1 hended
      have hback : state.heap.Grows back.heap :=
        Machine.grows_of_enter hcallee
      refine .calling hcallee ?_
      cases answer with
      | error fault =>
        change (resume (.error fault) _).EndsWith outcome last at hrest
        change (otherResume (.error fault) _).EndsWith outcome last
        rw [failed] at hrest
        rw [otherFailed]
        exact hrest
      | ok value =>
        let later := back.record (.returned ⟨function, this, arguments, .plain⟩ (.ok value.toValue))
        have hlater : state.heap.Grows later.heap := hback
        exact ih value.toValue later (hstate.trans hlater)
          (otherContinued value.toValue later (hotherState.trans hlater))
          (hstate.trans hlater) (hotherState.trans hlater) hrest

end Following

section Flattening

namespace Mixin

/-- Two classes, each in a heap of its own, that have the same members and statics and whose
construction makes the same calls. -/
structure Alike (firstHeap : Heap) (first : ClassId) (secondHeap : Heap) (second : ClassId) :
    Prop where
  members : ∃ firstRecord secondRecord, firstHeap.class? first = some firstRecord ∧
    secondHeap.class? second = some secondRecord ∧
    (∀ name, (firstHeap.lookup firstRecord.prototype name).map Prod.snd =
      (secondHeap.lookup secondRecord.prototype name).map Prod.snd) ∧
    ∀ name, (firstHeap.lookup firstRecord.statics name).map Prod.snd =
      (secondHeap.lookup secondRecord.statics name).map Prod.snd
  /-- For every `this` and all arguments, one list of constructor calls is followed by both. -/
  construction : ∀ this arguments, ∃ plan,
    Run.Follows firstHeap this plan (Construction.run first this arguments) ∧
      Run.Follows secondHeap this plan (Construction.run second this arguments)
  /-- Where both classes exist, constructing the one ends as constructing the other does. -/
  evaluation : ∀ this arguments state outcome last, firstHeap.Grows state.heap →
    secondHeap.Grows state.heap →
      ((Construction.run first this arguments state).EndsWith outcome last ↔
        (Construction.run second this arguments state).EndsWith outcome last)

variable {state : State} {before after firstHeap secondHeap : Heap} {base derived : ClassId}
  {sources more : List ClassId} {baseRecord record firstRecord secondRecord : Class}
  {first second : ClassId}

/-- Classes with the same members, statics and plans are alike. -/
theorem alike_of_eq (hfirst : firstHeap.WellFormed) (hsecond : secondHeap.WellFormed)
    (hfirstRecord : firstHeap.class? first = some firstRecord)
    (hsecondRecord : secondHeap.class? second = some secondRecord)
    (hmembers : ∀ name, (firstHeap.lookup firstRecord.prototype name).map Prod.snd =
      (secondHeap.lookup secondRecord.prototype name).map Prod.snd)
    (hstatics : ∀ name, (firstHeap.lookup firstRecord.statics name).map Prod.snd =
      (secondHeap.lookup secondRecord.statics name).map Prod.snd)
    (hplan : ∀ arguments, firstHeap.plan first arguments = secondHeap.plan second arguments) :
    Alike firstHeap first secondHeap second where
  members := ⟨firstRecord, secondRecord, hfirstRecord, hsecondRecord, hmembers, hstatics⟩
  construction this arguments := by
    refine ⟨firstHeap.plan first arguments, ?_, ?_⟩
    · exact Construction.follows_run hfirst (Heap.lt_of_class?_eq_some hfirstRecord) this arguments
    · rw [hplan]
      exact Construction.follows_run hsecond (Heap.lt_of_class?_eq_some hsecondRecord) this
        arguments
  evaluation this arguments now outcome last hone htwo := by
    have hfollowsOne := Construction.follows_run hfirst
      (Heap.lt_of_class?_eq_some hfirstRecord) this arguments now hone
    have hfollowsTwo := Construction.follows_run hsecond
      (Heap.lt_of_class?_eq_some hsecondRecord) this arguments now htwo
    rw [← hplan] at hfollowsTwo
    exact ⟨hfollowsOne.endsWith hfollowsTwo hone htwo, hfollowsTwo.endsWith hfollowsOne htwo hone⟩

section Members

variable {heap earlier later : Heap}

/-- The descriptor that the last owner among the prototypes of some classes has for a name. -/
def supplied (heap : Heap) (sources : List ClassId) (name : String) : Option Property :=
  heap.lastOwned (heap.prototypesOf sources) name

/-- Later sources come before earlier ones. -/
theorem supplied_append (heap : Heap) (sources more : List ClassId) (name : String) :
    supplied heap (sources ++ more) name =
      (supplied heap more name).or (supplied heap sources name) := by
  simp only [supplied, Heap.lastOwned, Heap.prototypesOf, List.filterMap_append, List.map_append,
    List.reverse_append, List.findSome?_append]

theorem prototypesOf_of_preserved (h : earlier.Preserved later)
    (hsources : ∀ source ∈ sources, source.index < earlier.classes.size) :
    later.prototypesOf sources = earlier.prototypesOf sources := by
  have hsame : ∀ source ∈ sources, later.class? source = earlier.class? source := by
    intro source hsource
    obtain ⟨record, hrecord⟩ := Heap.exists_class?_of_lt (hsources source hsource)
    rw [hrecord]
    exact h.classes source record hrecord
  rw [Heap.prototypesOf, List.filterMap_congr hsame, Heap.prototypesOf]

/-- What classes supply stays the same while their prototypes do. -/
theorem supplied_of_preserved (hwell : earlier.WellFormed) (h : earlier.Preserved later)
    (hsources : ∀ source ∈ sources, source.index < earlier.classes.size) (name : String) :
    supplied later sources name = supplied earlier sources name := by
  rw [supplied, prototypesOf_of_preserved h hsources, supplied]
  exact Heap.lastOwned_congr fun owner howner ↦
    h.own?_eq (index_lt_of_mem_prototypesOf hwell howner) name

end Members

/-- An application of a mixin, from one heap to another. -/
structure Application (before after : Heap) (base : ClassId) (sources : List ClassId)
    (derived : ClassId) (baseRecord record : Class) : Prop where
  composed : Composed before after base sources derived baseRecord record
  preserved : before.Preserved after
  wellBefore : before.WellFormed
  wellAfter : after.WellFormed
  known : ∀ source ∈ sources, source.index < before.classes.size

/-- Every mixin of classes that exist can be applied. -/
theorem exists_application (sources : List ClassId) (hwell : state.heap.WellFormed)
    (hbase : state.heap.class? base = some baseRecord)
    (hsources : ∀ source ∈ sources, source.index < state.heap.classes.size) :
    ∃ derived record after, compose base sources state = .ended (.ok derived) after ∧
      Application state.heap after.heap base sources derived baseRecord record := by
  have hcompose := compose_of_known hwell hbase hsources
  have horderly := (careful_compose base sources state).orderly
  rw [hcompose] at horderly
  exact ⟨_, _, _, hcompose,
    { composed := composed_applied sources hwell hbase
      preserved := (undisturbed_appliedState state base baseRecord sources).preserved
      wellBefore := hwell
      wellAfter := (horderly.transitions []).wellFormed hwell
      known := hsources }⟩

namespace Application

variable (h : Application before after base sources derived baseRecord record)

include h

/-- The members of the type in terms of the heap in which the mixin was applied. -/
theorem members (name : String) :
    (after.lookup record.prototype name).map Prod.snd =
      (supplied before sources name).or
        ((before.lookup baseRecord.prototype name).map Prod.snd) := by
  have hexists := (h.wellBefore.classes base baseRecord h.composed.known).prototype
  rw [h.composed.lookup_eq h.wellAfter, h.wellBefore.lookup_of_preserved h.preserved hexists,
    Option.map_or, Option.map_map, supplied]
  congr 1
  exact Option.map_id'

theorem statics (name : String) :
    after.lookup record.statics name = before.lookup baseRecord.statics name := by
  have hexists := (h.wellBefore.classes base baseRecord h.composed.known).statics
  rw [h.composed.lookup_statics h.wellAfter,
    h.wellBefore.lookup_of_preserved h.preserved hexists]

/-- The plan of the type in terms of the heap in which the mixin was applied. -/
theorem plan (arguments : List Value) :
    after.plan derived arguments =
      before.plan base arguments ++ sources.flatMap fun source ↦ before.plan source [] := by
  have hbase := Heap.lt_of_class?_eq_some h.composed.known
  rw [h.wellAfter.plan_of_composition h.composed.made h.composed.composition,
    h.wellBefore.plan_of_grows h.preserved.grows hbase]
  congr 1
  exact List.flatMap_congr fun source hsource ↦
    h.wellBefore.plan_of_grows h.preserved.grows (h.known source hsource) []

/-- The type inherits from its base and from the superclasses of its base. -/
theorem isSubclass {ancestor : ClassId} (hancestor : ancestor ∈ before.lineage base) :
    after.isSubclass derived ancestor = true := by
  have hbase := Heap.lt_of_class?_eq_some h.composed.known
  refine h.wellAfter.isSubclass_of_superclass h.composed.made h.composed.superclass ?_
  rw [h.wellBefore.lineage_of_grows h.preserved.grows hbase]
  exact hancestor

end Application

section Comparison

variable {start origin nested last : Heap} {inner outer flat : ClassId}
  {innerRecord outerRecord flatRecord : Class}

/-- A mixin of a mixin type is alike to one mixin with all sources, applied in a heap that has what
was there before. -/
theorem alike_of_applications
    (hinner : Application origin before base sources inner baseRecord innerRecord)
    (houter : Application before nested inner more outer innerRecord outerRecord)
    (hmore : ∀ source ∈ more, source.index < origin.classes.size)
    (hstart : origin.Preserved start)
    (hflat : Application start last base (sources ++ more) flat baseRecord flatRecord) :
    Alike nested outer last flat := by
  have hwell := hinner.wellBefore
  have hknown := Heap.lt_of_class?_eq_some hinner.composed.known
  have hall : ∀ source ∈ sources ++ more, source.index < origin.classes.size := by
    intro source hsource
    rcases List.mem_append.1 hsource with hfirst | hsecond
    · exact hinner.known source hfirst
    · exact hmore source hsecond
  have hfits := hwell.classes base baseRecord hinner.composed.known
  refine alike_of_eq houter.wellAfter hflat.wellAfter houter.composed.made hflat.composed.made
    (fun name ↦ ?_) (fun name ↦ ?_) (fun arguments ↦ ?_)
  · calc (nested.lookup outerRecord.prototype name).map Prod.snd
        = (supplied origin more name).or ((supplied origin sources name).or
            ((origin.lookup baseRecord.prototype name).map Prod.snd)) := by
          rw [houter.members, hinner.members, supplied_of_preserved hwell hinner.preserved hmore]
      _ = (supplied start (sources ++ more) name).or
            ((start.lookup baseRecord.prototype name).map Prod.snd) := by
          rw [supplied_of_preserved hwell hstart hall, supplied_append, Option.or_assoc,
            hwell.lookup_of_preserved hstart hfits.prototype]
      _ = (last.lookup flatRecord.prototype name).map Prod.snd := (hflat.members name).symm
  · rw [houter.statics, hinner.statics, hflat.statics,
      hwell.lookup_of_preserved hstart hfits.statics]
  · have hlater : ∀ source ∈ more, before.plan source [] = origin.plan source [] :=
      fun source hsource ↦ hwell.plan_of_grows hinner.preserved.grows (hmore source hsource) []
    have hthere : ∀ source ∈ sources ++ more, start.plan source [] = origin.plan source [] :=
      fun source hsource ↦ hwell.plan_of_grows hstart.grows (hall source hsource) []
    calc nested.plan outer arguments
        = origin.plan base arguments ++ (sources.flatMap fun source ↦ origin.plan source []) ++
            more.flatMap fun source ↦ origin.plan source [] := by
          rw [houter.plan, hinner.plan, List.flatMap_congr hlater]
      _ = start.plan base arguments ++
            (sources ++ more).flatMap fun source ↦ start.plan source [] := by
          rw [List.flatMap_congr hthere, List.flatMap_append, List.append_assoc,
            hwell.plan_of_grows hstart.grows hknown]
      _ = last.plan flat arguments := (hflat.plan arguments).symm

/-- A mixin without sources is alike to its base. -/
theorem alike_of_application_nil (hwell : origin.WellFormed) (hstart : origin.Preserved start)
    (hbase : origin.class? base = some baseRecord)
    (hflat : Application start last base [] flat baseRecord flatRecord) :
    Alike last flat origin base := by
  have hknown := Heap.lt_of_class?_eq_some hbase
  have hfits := hwell.classes base baseRecord hbase
  refine alike_of_eq hflat.wellAfter hwell hflat.composed.made hbase (fun name ↦ ?_)
    (fun name ↦ ?_) (fun arguments ↦ ?_)
  · rw [hflat.members, hwell.lookup_of_preserved hstart hfits.prototype]
    rfl
  · rw [hflat.statics, hwell.lookup_of_preserved hstart hfits.statics]
  · rw [hflat.plan, hwell.plan_of_grows hstart.grows hknown, List.flatMap_nil, List.append_nil]

/-- Where two mixins have been applied one after the other, one mixin with all sources can be
applied in any state that has what was there before, and makes a type that is alike. -/
theorem exists_alike_of_applications
    (hinner : Application origin before base sources inner baseRecord innerRecord)
    (houter : Application before nested inner more outer innerRecord outerRecord)
    (hmore : ∀ source ∈ more, source.index < origin.classes.size)
    (hstart : origin.Preserved state.heap) (hwell : state.heap.WellFormed) :
    ∃ flat last, compose base (sources ++ more) state = .ended (.ok flat) last ∧
      Alike nested outer last.heap flat ∧
      ∀ ancestor ∈ origin.lineage base, last.heap.isSubclass flat ancestor = true := by
  have hknown : ∀ source ∈ sources ++ more, source.index < state.heap.classes.size := by
    intro source hsource
    refine hstart.lt_classes ?_
    rcases List.mem_append.1 hsource with hfirst | hsecond
    · exact hinner.known source hfirst
    · exact hmore source hsecond
  have hbase := hstart.classes base baseRecord hinner.composed.known
  obtain ⟨flat, flatRecord, last, hcompose, hflat⟩ := exists_application _ hwell hbase hknown
  refine ⟨flat, last, hcompose, alike_of_applications hinner houter hmore hstart hflat,
    fun ancestor hancestor ↦ hflat.isSubclass ?_⟩
  rw [hinner.wellBefore.lineage_of_grows hstart.grows
    (Heap.lt_of_class?_eq_some hinner.composed.known)]
  exact hancestor

/-- A mixin without sources can be applied in any later state, and makes a type that is alike to its
base. -/
theorem exists_alike_of_application_nil (hwell : origin.WellFormed)
    (hbase : origin.class? base = some baseRecord) (hstart : origin.Preserved state.heap)
    (hwellStart : state.heap.WellFormed) :
    ∃ plain last, compose base [] state = .ended (.ok plain) last ∧
      Alike last.heap plain origin base ∧
      ∀ ancestor ∈ origin.lineage base, last.heap.isSubclass plain ancestor = true := by
  obtain ⟨plain, plainRecord, last, hcompose, hplain⟩ :=
    exists_application [] hwellStart (hstart.classes base baseRecord hbase) (by simp)
  refine ⟨plain, last, hcompose, alike_of_application_nil hwell hstart hbase hplain,
    fun ancestor hancestor ↦ hplain.isSubclass ?_⟩
  rw [hwell.lineage_of_grows hstart.grows (Heap.lt_of_class?_eq_some hbase)]
  exact hancestor

end Comparison

end Mixin

/-- For a base and two lists of sources that exist in a state of some run: the mixin of a mixin with
the second list is alike to one mixin with both lists, whether that one is applied in the same state
or after the others, and a mixin without sources is alike to the base. All of them inherit from the
base and from its superclasses. -/
theorem mixinFlattening {state : State} (hstate : state.Reachable) {base : ClassId}
    {sources more : List ClassId} (hbase : base.index < state.heap.classes.size)
    (hsources : ∀ source ∈ sources ++ more, source.index < state.heap.classes.size) :
    ∃ inner nested first second,
      Mixin.compose base sources state = .ended (.ok inner) first ∧
      Mixin.compose inner more first = .ended (.ok nested) second ∧
      (∀ ancestor ∈ state.heap.lineage base, second.heap.isSubclass nested ancestor = true) ∧
      ∀ start, start = state ∨ start = second →
        (∃ flat last, Mixin.compose base (sources ++ more) start = .ended (.ok flat) last ∧
          Mixin.Alike second.heap nested last.heap flat ∧
          ∀ ancestor ∈ state.heap.lineage base, last.heap.isSubclass flat ancestor = true) ∧
        ∃ plain last, Mixin.compose base [] start = .ended (.ok plain) last ∧
          Mixin.Alike last.heap plain state.heap base ∧
          ∀ ancestor ∈ state.heap.lineage base, last.heap.isSubclass plain ancestor = true := by
  have hwell := hstate.wellFormed
  obtain ⟨baseRecord, hrecord⟩ := Heap.exists_class?_of_lt hbase
  have hfirst : ∀ source ∈ sources, source.index < state.heap.classes.size :=
    fun source hsource ↦ hsources source (List.mem_append_left more hsource)
  have hmore : ∀ source ∈ more, source.index < state.heap.classes.size :=
    fun source hsource ↦ hsources source (List.mem_append_right sources hsource)
  obtain ⟨inner, innerRecord, first, hinner, hinnerApplication⟩ :=
    Mixin.exists_application _ hwell hrecord hfirst
  obtain ⟨nested, nestedRecord, second, hnested, hnestedApplication⟩ :=
    Mixin.exists_application _ hinnerApplication.wellAfter hinnerApplication.composed.made
      fun source hsource ↦ hinnerApplication.preserved.lt_classes (hmore source hsource)
  refine ⟨inner, nested, first, second, hinner, hnested, fun ancestor hancestor ↦ ?_,
    fun start hstart ↦ ?_⟩
  · have hbetween := hinnerApplication.isSubclass hancestor
    rw [Heap.isSubclass, decide_eq_true_iff] at hbetween
    exact hnestedApplication.isSubclass hbetween
  · have hpreserved : state.heap.Preserved start.heap := by
      rcases hstart with rfl | rfl
      · exact .refl start.heap
      · exact hinnerApplication.preserved.trans hnestedApplication.preserved
    have hwellStart : start.heap.WellFormed := by
      rcases hstart with rfl | rfl
      · exact hwell
      · exact hnestedApplication.wellAfter
    exact ⟨Mixin.exists_alike_of_applications hinnerApplication hnestedApplication hmore hpreserved
      hwellStart, Mixin.exists_alike_of_application_nil hwell hrecord hpreserved hwellStart⟩

/-- Three classes, two of which are sources: applied one after the other, or at once. -/
theorem mixinFlattening_overlapping :
    Overlapping.state.Reachable ∧ 0 < Overlapping.state.heap.classes.size ∧
      (∀ source ∈ ([⟨1⟩] ++ [⟨2⟩] : List ClassId),
        source.index < Overlapping.state.heap.classes.size) ∧
      ∃ inner nested flat first second last,
        Mixin.compose ⟨0⟩ [⟨1⟩] Overlapping.state = .ended (.ok inner) first ∧
        Mixin.compose inner [⟨2⟩] first = .ended (.ok nested) second ∧
        Mixin.compose ⟨0⟩ [⟨1⟩, ⟨2⟩] second = .ended (.ok flat) last ∧
        Mixin.Alike second.heap nested last.heap flat := by
  have hstate : Overlapping.state.Reachable :=
    ⟨[Overlapping.program], .standard, 4, Session.state_of_run Overlapping.moment_program⟩
  have hbase : 0 < Overlapping.state.heap.classes.size := by decide +kernel
  have hsources : ∀ source ∈ ([⟨1⟩] ++ [⟨2⟩] : List ClassId),
      source.index < Overlapping.state.heap.classes.size := by decide +kernel
  refine ⟨hstate, hbase, hsources, ?_⟩
  obtain ⟨inner, nested, first, second, hinner, hnested, -, hflat⟩ :=
    mixinFlattening hstate hbase hsources
  obtain ⟨⟨flat, last, hcompose, halike, -⟩, -⟩ := hflat second (.inr rfl)
  exact ⟨inner, nested, flat, first, second, last, hinner, hnested, hcompose, halike⟩

end Flattening

end GradualRuntime
