import GradualRuntime.Proofs.MixinFlattening

/-!
# Construction as a plan

Constructing a class is carrying out its plan, the finite list of constructor calls that
`Heap.plan` reads off the class. `constructionPlan` says so for every class of every state that a
run passes through: how the plan of a class is put together from those of its base, sources or
superclass, that at most its first call has the arguments of the caller and all others have none,
and that a construction makes these calls in order, all on the same `this`, until the first one
fails (`Construction.Performs`). What the constructors do and return plays no role.

An instance is allocated before the first call. It is new, its prototype is that of the class and
its tag the name of the class, and it keeps both (`Ledger.Transitions.tag?`).
-/

set_option autoImplicit false

namespace GradualRuntime

section Plans

variable {heap : Heap} {reference : ClassId} {record : Class}

/-- How the plan of a class is put together. -/
theorem Heap.WellFormed.plan_eq (h : heap.WellFormed)
    (hrecord : heap.class? reference = some record) (arguments : List Value) :
    heap.plan reference arguments =
      match record.composition, record.ownConstructor, record.superclass with
      | some composition, _, _ =>
        heap.plan composition.base arguments ++
          composition.sources.flatMap fun source ↦ heap.plan source []
      | none, some constructorFunction, _ => [(constructorFunction, arguments)]
      | none, none, some superclass => heap.plan superclass arguments
      | none, none, none => [] := by
  have hfits := h.classes reference record hrecord
  match record, hrecord, hfits with
  | ⟨_, _, _, _, _, some composition⟩, hrecord, _ =>
    exact h.plan_of_composition hrecord rfl arguments
  | ⟨_, _, some _, _, _, none⟩, hrecord, _ => simp only [plan, planWithin, hrecord]
  | ⟨_, some superclass, none, _, _, none⟩, hrecord, hfits =>
    have hless := hfits.superclass superclass rfl
    simp only [plan, planWithin, hrecord]
    exact h.planWithin_eq hless (Nat.lt_succ_self _) arguments
  | ⟨_, none, none, _, _, none⟩, hrecord, _ => simp only [plan, planWithin, hrecord]

/-- A plan made without arguments passes none on. -/
theorem Heap.arguments_eq_nil_of_mem_planWithin {bound : Nat} {call : FunctionId × List Value}
    (h : call ∈ heap.planWithin bound reference []) : call.2 = [] := by
  induction bound generalizing reference with
  | zero => simp [planWithin] at h
  | succ bound ih =>
    cases hrecord : heap.class? reference with
    | none => simp [planWithin, hrecord] at h
    | some record =>
      simp only [planWithin, hrecord] at h
      obtain ⟨name, superclass, ownConstructor, prototype, statics, composition⟩ := record
      cases composition with
      | some composition =>
        rcases List.mem_append.1 h with hbase | hsources
        · exact ih hbase
        · obtain ⟨source, -, hsource⟩ := List.mem_flatMap.1 hsources
          exact ih hsource
      | none =>
        cases ownConstructor with
        | some constructorFunction => rw [List.mem_singleton.1 h]
        | none =>
          cases superclass with
          | some superclass => exact ih h
          | none => cases h

/-- The calls of a plan: the arguments go to one constructor at most, which is called first, and all
other constructors get none. -/
theorem Heap.exists_receiver_planWithin (heap : Heap) (bound : Nat) (reference : ClassId) :
    ∃ (receiver : Option FunctionId) (others : List FunctionId), ∀ arguments,
      heap.planWithin bound reference arguments =
        receiver.toList.map (fun function ↦ (function, arguments)) ++
          others.map fun function ↦ (function, []) := by
  induction bound generalizing reference with
  | zero => exact ⟨none, [], fun _ ↦ rfl⟩
  | succ bound ih =>
    cases hrecord : heap.class? reference with
    | none => exact ⟨none, [], fun _ ↦ by simp [planWithin, hrecord]⟩
    | some record =>
      simp only [planWithin, hrecord]
      obtain ⟨name, superclass, ownConstructor, prototype, statics, composition⟩ := record
      cases composition with
      | some composition =>
        obtain ⟨receiver, others, hbase⟩ := ih composition.base
        let rest := composition.sources.flatMap fun source ↦ heap.planWithin bound source []
        have hrest : rest = (rest.map Prod.fst).map fun function ↦ (function, []) := by
          rw [List.map_map]
          refine (List.map_id' rest).symm.trans (List.map_congr_left fun call hcall ↦ ?_)
          obtain ⟨source, -, hsource⟩ := List.mem_flatMap.1 hcall
          exact Prod.ext rfl (arguments_eq_nil_of_mem_planWithin hsource)
        refine ⟨receiver, others ++ rest.map Prod.fst, fun arguments ↦ ?_⟩
        simp only [hbase arguments, List.map_append, List.append_assoc]
        rw [← hrest]
      | none =>
        cases ownConstructor with
        | some constructorFunction => exact ⟨some constructorFunction, [], fun _ ↦ rfl⟩
        | none =>
          cases superclass with
          | some superclass => exact ih superclass
          | none => exact ⟨none, [], fun _ ↦ rfl⟩

end Plans

section Performance

/-- The calls of a plan are made one after another on `this`, each carried out to its end. What they
return is dropped; the first one that fails ends the sequence with its fault. -/
inductive Construction.Performs (this : Value) :
    List (FunctionId × List Value) → State → Except Fault Unit → State → Prop where
  | done (state : State) : Performs this [] state (.ok ()) state
  | failed {function : FunctionId} {arguments : List Value}
    (rest : List (FunctionId × List Value)) {state last : State} {fault : Fault}
    (call : (Run.call function this arguments state).EndsWith (.error fault) last) :
    Performs this ((function, arguments) :: rest) state (.error fault) last
  | continued {function : FunctionId} {arguments : List Value}
    {rest : List (FunctionId × List Value)} {state middle last : State} {value : Value}
    {outcome : Except Fault Unit}
    (call : (Run.call function this arguments state).EndsWith (.ok value) middle)
    (remaining : Performs this rest middle outcome last) :
    Performs this ((function, arguments) :: rest) state outcome last

variable {heap : Heap} {this : Value} {plan : List (FunctionId × List Value)}
  {state last : State} {outcome : Except Fault Unit}

theorem Run.endsWith_call_iff {function : FunctionId} {arguments : List Value}
    {result : Except Fault Value} :
    (Run.call function this arguments state).EndsWith result last ↔
      ∃ answer back, (Machine.enter ⟨function, this, arguments, .plain⟩ state).EndsWith
        answer back ∧ result = answer.map Answer.toValue ∧
          last = back.record (.returned ⟨function, this, arguments, .plain⟩ result) := by
  rw [Run.call_apply, Progress.endsWith_calling_iff]
  constructor
  · rintro ⟨answer, back, hcallee, hended⟩
    obtain ⟨rfl, rfl⟩ := Progress.endsWith_ended_iff.1 hended
    exact ⟨answer, back, hcallee, rfl, rfl⟩
  · rintro ⟨answer, back, hcallee, rfl, rfl⟩
    exact ⟨answer, back, hcallee, .ended _ _⟩

/-- The classes of a heap are still there when a call has returned. -/
theorem Run.grows_of_call {function : FunctionId} {arguments : List Value}
    {result : Except Fault Value} (hstate : heap.Grows state.heap)
    (h : (Run.call function this arguments state).EndsWith result last) :
    heap.Grows last.heap := by
  obtain ⟨answer, back, hcallee, -, rfl⟩ := Run.endsWith_call_iff.1 h
  have hback : state.heap.Grows back.heap := Machine.grows_of_enter hcallee
  exact hstate.trans hback

namespace Progress.Follows

variable {progress : Progress Unit}

/-- A computation that follows a plan comes to an end exactly as the calls of the plan do. -/
theorem endsWith_iff (h : Progress.Follows heap this plan state progress)
    (hstate : heap.Grows state.heap) :
    progress.EndsWith outcome last ↔ Construction.Performs this plan state outcome last := by
  induction h with
  | done state =>
    rw [Progress.endsWith_ended_iff]
    constructor
    · rintro ⟨rfl, rfl⟩
      exact .done last
    · rintro ⟨⟩
      exact ⟨rfl, rfl⟩
  | @call function arguments rest state resume failed continued ih =>
    constructor
    · intro hended
      obtain ⟨answer, back, hcallee, hrest⟩ := Progress.endsWith_calling_iff.1 hended
      have hcall := Run.endsWith_call_iff.2 ⟨answer, back, hcallee, rfl, rfl⟩
      cases answer with
      | error fault =>
        rw [Except.map, failed] at hrest
        obtain ⟨rfl, rfl⟩ := Progress.endsWith_ended_iff.1 hrest
        exact .failed rest hcall
      | ok value =>
        have hlater := Run.grows_of_call hstate hcall
        exact .continued hcall ((ih value.toValue _ hlater hlater).1 hrest)
    · intro hperforms
      cases hperforms with
      | failed _ hcall =>
        obtain ⟨answer, back, hcallee, hanswer, rfl⟩ := Run.endsWith_call_iff.1 hcall
        refine .calling hcallee ?_
        rw [← hanswer, failed]
        exact .ended _ _
      | continued hcall hremaining =>
        have hlater := Run.grows_of_call hstate hcall
        obtain ⟨answer, back, hcallee, hanswer, rfl⟩ := Run.endsWith_call_iff.1 hcall
        refine .calling hcallee ?_
        rw [← hanswer]
        exact (ih _ _ hlater hlater).2 hremaining

/-- A computation that follows a plan gets to each call of the plan when the calls before it have
returned, whether or not that call ever returns. -/
theorem leads (h : Progress.Follows heap this plan state progress)
    (hstate : heap.Grows state.heap) {earlier later : List (FunctionId × List Value)}
    {function : FunctionId} {arguments : List Value} {middle : State}
    (hplan : plan = earlier ++ (function, arguments) :: later)
    (hearlier : Construction.Performs this earlier state (.ok ()) middle) :
    ∃ resume, progress.Leads (.calling ⟨function, this, arguments, .plain⟩ middle resume) := by
  induction h generalizing earlier with
  | done state => simp at hplan
  | @call first given rest state resume failed continued ih =>
    cases hearlier with
    | done =>
      obtain ⟨hcall, -⟩ := List.cons.inj hplan
      cases hcall
      exact ⟨resume, .refl _⟩
    | continued hcall hremaining =>
      obtain ⟨hfirst, hrest⟩ := List.cons.inj hplan
      cases hfirst
      have hlater := Run.grows_of_call hstate hcall
      obtain ⟨answer, back, hcallee, hanswer, rfl⟩ := Run.endsWith_call_iff.1 hcall
      obtain ⟨next, hleads⟩ := ih _ _ hlater hlater hrest hremaining
      rw [hanswer] at hleads
      exact ⟨next, .calling hcallee hleads⟩

end Progress.Follows

end Performance

section Instances

variable {state last : State} {reference : ClassId} {record : Class}

theorem Heap.tag?_addObject_of_lt (heap : Heap) {object : ObjectId}
    (h : object.index < heap.objects.size) (added : Object) :
    (heap.addObject added).tag? object = heap.tag? object := by
  simp only [tag?, addObject, Arena.get?_push_of_lt h]

theorem Heap.Change.tag? {may : Heap.Permission} {before after : Heap}
    (h : Heap.Change may before after) {object : ObjectId}
    (hobject : object.index < before.objects.size) : after.tag? object = before.tag? object := by
  cases h with
  | define target name property allowed =>
    by_cases hsame : object.index = target.index
    · cases hrecord : before.objects.get? target.index <;>
        simp [Heap.tag?, Heap.define, hsame, hrecord]
    · simp [Heap.tag?, Heap.define, Arena.get?_modify_of_ne hsame]
  | addObject added _ => exact before.tag?_addObject_of_lt hobject added
  | declare record members statics fits ofPrototype ofStatics known =>
    refine (Heap.tag?_addObject_of_lt _ ?_ _).trans (before.tag?_addObject_of_lt hobject _)
    simpa [Heap.addObject] using Nat.lt_succ_of_lt hobject
  | _ => rfl

theorem Ledger.Transition.tag? {before after : Ledger} (h : Ledger.Transition before after)
    {object : ObjectId} (hobject : object.index < before.state.heap.objects.size) :
    after.state.heap.tag? object = before.state.heap.tag? object := by
  cases h with
  | change change =>
    cases change with
    | heap change => exact change.tag? hobject
    | addMap contents => exact Heap.tag?_addObject_of_lt _ hobject _
    | _ => rfl
  | settle entered state outcome name purpose => cases outcome <;> rfl
  | _ => rfl

/-- Objects keep their tags. -/
theorem Ledger.Transitions.tag? {before after : Ledger} (h : Ledger.Transitions before after)
    {object : ObjectId} (hobject : object.index < before.state.heap.objects.size) :
    after.state.heap.tag? object = before.state.heap.tag? object := by
  induction h with
  | refl => rfl
  | tail hfirst hlast ih =>
    exact (hlast.tag? (Nat.lt_of_lt_of_le hobject (Transitions.grows hfirst).objects)).trans ih

/-- The state in which an instance of a class has been allocated, and no constructor called. -/
def Construction.allocated (state : State) (record : Class) : State :=
  { state with
    heap := state.heap.addObject ⟨some record.prototype, some record.name, .empty⟩ }

/-- An instance of a class that exists is allocated at once. -/
theorem Construction.allocate_eq (hwell : state.heap.WellFormed)
    (hrecord : state.heap.class? reference = some record) :
    allocate reference state =
      .ended (.ok state.heap.nextObject) (allocated state record) := by
  have hprototype := (hwell.classes reference record hrecord).prototype
  have hknown : ((some record.prototype).all fun parent ↦ state.heap.knows (.object parent)) =
      true := by
    simpa [Heap.knows] using hprototype
  rw [allocate, Run.bind_of_ok (Run.classRecord_of_some hrecord)]
  exact Run.allocate_of_known hknown _

/-- A construction allocates an instance, runs the constructors on it and returns it, whatever they
return. -/
theorem Construction.construct_eq (hwell : state.heap.WellFormed)
    (hrecord : state.heap.class? reference = some record) (arguments : List Value) :
    construct reference arguments state =
      (run reference (.object state.heap.nextObject) arguments (allocated state record)).andThen
        fun outcome later ↦ .ended (outcome.map fun _ ↦ state.heap.nextObject) later := by
  rw [construct, Run.bind_of_ok (allocate_eq hwell hrecord), Run.bind_apply]
  congr 1
  funext outcome later
  cases outcome <;> rfl

/-- An instance keeps the prototype that it has been allocated on. -/
theorem Construction.prototype?_of_allocated {later : Heap}
    (h : (allocated state record).heap.Grows later) :
    later.prototype? state.heap.nextObject = some record.prototype := by
  have hexists : state.heap.nextObject.index < (allocated state record).heap.objects.size := by
    simp [allocated, Heap.addObject, Heap.nextObject]
  rw [h.prototypes _ hexists]
  exact Heap.prototype?_addObject_self _ _

/-- An instance keeps the prototype and the tag that it has been allocated with. -/
theorem Construction.instance_of_transitions {before after : Ledger}
    (h : Ledger.Transitions before after) (hbefore : before.state = allocated state record) :
    after.state.heap.prototype? state.heap.nextObject = some record.prototype ∧
      after.state.heap.tag? state.heap.nextObject = some record.name := by
  have hexists : state.heap.nextObject.index < before.state.heap.objects.size := by
    simp [hbefore, allocated, Heap.addObject, Heap.nextObject]
  refine ⟨prototype?_of_allocated (hbefore ▸ h.grows), ?_⟩
  rw [h.tag? hexists, hbefore]
  simp [allocated, Heap.tag?, Heap.addObject, Heap.nextObject]

/-- The instance has the prototype and the tag of the class when its construction ends. -/
theorem Construction.instance_of_endsWith {this : Value} {arguments : List Value}
    {outcome : Except Fault Unit}
    (h : (run reference this arguments (allocated state record)).EndsWith outcome last) :
    last.heap.prototype? state.heap.nextObject = some record.prototype ∧
      last.heap.tag? state.heap.nextObject = some record.name :=
  instance_of_transitions
    (h.transitions (careful_runWithin _ reference this arguments _).orderly []) rfl

end Instances

section Main

/-- What constructing a class does, in terms of its plan in a state. -/
structure ConstructionPlan (state : State) (reference : ClassId) (record : Class) : Prop where
  /-- The plan is put together from those of the base and the sources, or is the call of the own
  constructor, or else the plan of the superclass. -/
  composed : ∀ arguments, state.heap.plan reference arguments =
    match record.composition, record.ownConstructor, record.superclass with
    | some composition, _, _ =>
      state.heap.plan composition.base arguments ++
        composition.sources.flatMap fun source ↦ state.heap.plan source []
    | none, some constructorFunction, _ => [(constructorFunction, arguments)]
    | none, none, some superclass => state.heap.plan superclass arguments
    | none, none, none => []
  /-- At most one constructor gets the arguments, as the first of the plan; the others get none. -/
  routed : ∃ (receiver : Option FunctionId) (others : List FunctionId), ∀ arguments,
    state.heap.plan reference arguments =
      receiver.toList.map (fun function ↦ (function, arguments)) ++
        others.map fun function ↦ (function, [])
  /-- The plan stays the same for the rest of the run. -/
  lasting : ∀ later, state.heap.Grows later → ∀ arguments,
    later.plan reference arguments = state.heap.plan reference arguments
  /-- In this state and in every later one, running the constructors ends as carrying out the plan
  does. -/
  performed : ∀ this arguments now outcome last, state.heap.Grows now.heap →
    ((Construction.run reference this arguments now).EndsWith outcome last ↔
      Construction.Performs this (state.heap.plan reference arguments) now outcome last)
  /-- Each call of the plan is made when the calls before it have returned. -/
  reached : ∀ this arguments now middle earlier function given rest, state.heap.Grows now.heap →
    state.heap.plan reference arguments = earlier ++ (function, given) :: rest →
      Construction.Performs this earlier now (.ok ()) middle →
        ∃ resume, (Construction.run reference this arguments now).Leads
          (.calling ⟨function, this, given, .plain⟩ middle resume)
  /-- Nothing else is done between the calls, whatever they give back. -/
  followed : ∀ this arguments, Run.Follows state.heap this (state.heap.plan reference arguments)
    (Construction.run reference this arguments)
  /-- A construction runs the constructors on an instance that did not exist, and returns it or the
  fault of the constructors. -/
  constructed : state.heap.knows (.object state.heap.nextObject) = false ∧
    ∀ arguments, Construction.construct reference arguments state =
      (Construction.run reference (.object state.heap.nextObject) arguments
        (Construction.allocated state record)).andThen
          fun outcome later ↦ .ended (outcome.map fun _ ↦ state.heap.nextObject) later
  /-- The instance has the prototype of the class, and the name of the class as its tag. -/
  made : ∀ arguments object last,
    (Construction.construct reference arguments state).EndsWith (.ok object) last →
      object = state.heap.nextObject ∧
        last.heap.prototype? object = some record.prototype ∧
        last.heap.tag? object = some record.name

/-- In every state of every run, constructing a class carries out its plan. -/
theorem constructionPlan {state : State} (hstate : state.Reachable) {reference : ClassId}
    (hreference : reference.index < state.heap.classes.size) :
    ∃ record, state.heap.class? reference = some record ∧
      ConstructionPlan state reference record := by
  have hwell := hstate.wellFormed
  obtain ⟨record, hrecord⟩ := Heap.exists_class?_of_lt hreference
  have hfollows := fun this arguments ↦ Construction.follows_run hwell hreference this arguments
  refine ⟨record, hrecord,
    { composed := hwell.plan_eq hrecord
      routed := state.heap.exists_receiver_planWithin _ reference
      lasting := fun later hlater ↦ hwell.plan_of_grows hlater hreference
      performed := fun this arguments now _ _ hnow ↦
        (hfollows this arguments now hnow).endsWith_iff hnow
      reached := fun this arguments now _ _ _ _ _ hnow ↦
        (hfollows this arguments now hnow).leads hnow
      followed := hfollows
      constructed :=
        ⟨by simp [Heap.knows, Heap.nextObject], Construction.construct_eq hwell hrecord⟩
      made := fun arguments object last h ↦ ?_ }⟩
  rw [Construction.construct_eq hwell hrecord] at h
  obtain ⟨outcome, reached, hrun, hended⟩ := Progress.endsWith_andThen_iff.1 h
  obtain ⟨houtcome, rfl⟩ := Progress.endsWith_ended_iff.1 hended
  cases outcome with
  | error fault => cases houtcome
  | ok _ =>
    cases houtcome
    exact ⟨rfl, Construction.instance_of_endsWith hrun⟩

/-! A program with a mixin of two classes that each have a constructor. -/

namespace Constructors

/-- A constructor that does nothing. -/
def idle (_this : Value) (_arguments : List Value) : Body := .finish (.ok .done)

/-- Makes a class that has a constructor and no members. -/
def buildOperation : Operation := .type (.build false true 0 [] [])

/-- Makes the two classes and applies the mixin. -/
def program : Body :=
  .close "base" ["first"] idle fun baseConstructor ↦
  .close "source" [] idle fun sourceConstructor ↦
  .perform ⟨0⟩ buildOperation [.string "Base", .function baseConstructor] fun _ ↦
  .perform ⟨0⟩ buildOperation [.string "Source", .function sourceConstructor] fun _ ↦
  .perform ⟨0⟩ (.type .mixin) [.type ⟨0⟩, .type ⟨1⟩] .finish

/-- The state in which the mixin has been applied. -/
def state : State := (Session.moment [program] (.fresh .standard) 6).state

end Constructors

/-- The constructor of the base gets the arguments, and the one of the source comes after it. -/
theorem constructionPlan_constructors :
    Constructors.state.Reachable ∧ 2 < Constructors.state.heap.classes.size ∧
      ∃ record, ConstructionPlan Constructors.state ⟨2⟩ record ∧
        Constructors.state.heap.plan ⟨2⟩ [.integer 1] = [(⟨0⟩, [.integer 1]), (⟨1⟩, [])] := by
  have hstate : Constructors.state.Reachable := ⟨[Constructors.program], .standard, 6, rfl⟩
  have hclass : (⟨2⟩ : ClassId).index < Constructors.state.heap.classes.size := by decide +kernel
  obtain ⟨record, -, hplan⟩ := constructionPlan hstate hclass
  exact ⟨hstate, hclass, record, hplan, by decide +kernel⟩

end Main

end GradualRuntime
