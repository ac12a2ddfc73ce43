import GradualRuntime.Proofs.ClassOrder
import Mathlib.Data.Set.Finite.Basic
import Mathlib.Order.Interval.Finset.Nat

/-!
# Ancestry

Objects and classes refer to what is older than they are. `ancestry` says so for every run of every
program: at some point of the run an object is the next one to be made, and its prototype exists
already (`Heap.MakesObject`); a class is the next one to be made, and its prototype, its statics,
its superclass and the classes that it is composed of exist already (`Heap.MakesClass`). From then
on an object keeps its prototype and its tag, and a class stays what it is.

So the ways up are finite and without cycles in every state (`Founded`), and walking up ends without
a bound. The walks are given here as relations that know of no bound: the search for a member
(`Heap.Searches`), the test for a subclass (`Heap.Climbs`) and the descent of a construction into
base, sources and superclass (`Heap.Unfolds`). Each has exactly one result, and it is what the
functions of the library compute; a construction comes to an end when the constructors do that it
calls.
-/

set_option autoImplicit false

namespace GradualRuntime

section Descending

variable {Node : Type}

/-- Links lead to smaller numbers. -/
def Descends (number : Node → Nat) (link : Node → Node → Prop) : Prop :=
  ∀ node next, link node next → number next < number node

/-- Everything that is reached from a node, the node included, without repetition. -/
structure Lists (link : Node → Node → Prop) (node : Node) (nodes : List Node) : Prop where
  complete : ∀ other, other ∈ nodes ↔ Relation.ReflTransGen link node other
  nodup : nodes.Nodup

/-- The list at a node is the node followed by the list at the next node, if there is one. -/
structure Walks (next? : Node → Option Node) (walk : Node → List Node) : Prop where
  last : ∀ node, next? node = none → walk node = [node]
  link : ∀ node next, next? node = some next → walk node = node :: walk next

variable {number : Node → Nat} {link : Node → Node → Prop}

namespace Descends

theorem lt_of_transGen (h : Descends number link) {node other : Node}
    (hreached : Relation.TransGen link node other) : number other < number node := by
  induction hreached with
  | single hlink => exact h _ _ hlink
  | tail _ hlink ih => exact Nat.lt_trans (h _ _ hlink) ih

theorem le_of_reflTransGen (h : Descends number link) {node other : Node}
    (hreached : Relation.ReflTransGen link node other) : number other ≤ number node := by
  rcases Relation.reflTransGen_iff_eq_or_transGen.1 hreached with rfl | hreached
  · exact Nat.le_refl _
  · exact Nat.le_of_lt (h.lt_of_transGen hreached)

/-- There are no cycles. -/
theorem acyclic (h : Descends number link) (node : Node) : ¬Relation.TransGen link node node :=
  fun hcycle ↦ Nat.lt_irrefl _ (h.lt_of_transGen hcycle)

/-- Finitely many nodes are reached from a node, when no two have the same number. -/
theorem finite (h : Descends number link) (hnumber : Function.Injective number) (node : Node) :
    {other | Relation.ReflTransGen link node other}.Finite :=
  ((Set.finite_Iic (number node)).preimage hnumber.injOn).subset fun _ hreached ↦
    h.le_of_reflTransGen hreached

/-- Induction along the links from a node. -/
theorem induction {next? : Node → Option Node}
    (h : Descends number fun node next ↦ next? node = some next) {motive : Node → Prop}
    (last : ∀ node, next? node = none → motive node)
    (step : ∀ node next, next? node = some next → motive next → motive node) (node : Node) :
    motive node := by
  induction hnumber : number node using Nat.strong_induction_on generalizing node with
  | _ bound ih =>
    cases hnext : next? node with
    | none => exact last node hnext
    | some next => exact step node next hnext (ih _ (hnumber ▸ h node next hnext) next rfl)

/-- A walk lists everything that is reached. -/
theorem lists_walk {next? : Node → Option Node} {walk : Node → List Node}
    (h : Descends number fun node next ↦ next? node = some next) (hwalk : Walks next? walk)
    (node : Node) : Lists (fun node next ↦ next? node = some next) node (walk node) := by
  induction node using h.induction with
  | last node hnone =>
    rw [hwalk.last node hnone]
    refine ⟨fun other ↦ ?_, List.nodup_singleton node⟩
    rw [List.mem_singleton, Relation.ReflTransGen.cases_head_iff]
    simp [hnone, eq_comm]
  | step node next hnext ih =>
    rw [hwalk.link node next hnext]
    refine ⟨fun other ↦ ?_, List.nodup_cons.2 ⟨fun hmem ↦ ?_, ih.nodup⟩⟩
    · rw [List.mem_cons, Relation.ReflTransGen.cases_head_iff, ih.complete]
      simp [hnext, eq_comm]
    · exact h.acyclic node (.head' hnext ((ih.complete node).1 hmem))

end Descends

end Descending

namespace Heap

section Links

/-- An object has another one as its prototype. -/
def ChainsTo (heap : Heap) (object parent : ObjectId) : Prop := heap.prototype? object = some parent

/-- A class has another one as its superclass. -/
def Extends (heap : Heap) (reference parent : ClassId) : Prop :=
  heap.superclass? reference = some parent

/-- A class has another one as its superclass, as the base of its composition or among the sources
of it. -/
inductive MadeFrom (heap : Heap) (reference : ClassId) : ClassId → Prop where
  | superclass {record : Class} {parent : ClassId} (made : heap.class? reference = some record)
    (above : record.superclass = some parent) : MadeFrom heap reference parent
  | base {record : Class} {composition : Composition}
    (made : heap.class? reference = some record)
    (composed : record.composition = some composition) : MadeFrom heap reference composition.base
  | source {record : Class} {composition : Composition} {source : ClassId}
    (made : heap.class? reference = some record)
    (composed : record.composition = some composition) (listed : source ∈ composition.sources) :
    MadeFrom heap reference source

variable {heap : Heap}

theorem WellFormed.chainsTo_descends (h : heap.WellFormed) :
    Descends ObjectId.index heap.ChainsTo := h.prototypes

/-- Whatever a class is made from has a smaller number. -/
theorem WellFormed.madeFrom_descends (h : heap.WellFormed) :
    Descends ClassId.index heap.MadeFrom := by
  intro reference other hother
  cases hother with
  | @superclass record _ made above => exact (h.classes reference record made).superclass _ above
  | @base record _ made composed =>
    exact ((h.classes reference record made).composition _ composed).1
  | @source record _ _ made composed listed =>
    exact ((h.classes reference record made).composition _ composed).2 _ listed

theorem Extends.madeFrom {reference parent : ClassId} (h : heap.Extends reference parent) :
    heap.MadeFrom reference parent := by
  obtain ⟨record, hrecord, habove⟩ := Option.bind_eq_some_iff.1 h
  exact .superclass hrecord habove

theorem WellFormed.extends_descends (h : heap.WellFormed) : Descends ClassId.index heap.Extends :=
  fun reference parent hparent ↦ h.madeFrom_descends reference parent hparent.madeFrom

theorem WellFormed.walks_chain (h : heap.WellFormed) : Walks heap.prototype? heap.chain where
  last object hnone := by simp only [chain, chainWithin, hnone]
  link _ _ hparent := h.chain_eq_cons hparent

theorem WellFormed.walks_lineage (h : heap.WellFormed) : Walks heap.superclass? heap.lineage where
  last reference hnone := by simp only [lineage, lineageWithin, hnone]
  link reference parent hparent := by
    obtain ⟨record, hrecord, habove⟩ := Option.bind_eq_some_iff.1 hparent
    exact h.lineage_eq_cons hrecord habove

/-- The prototype chain of an object lists the object and everything above it. -/
theorem WellFormed.lists_chain (h : heap.WellFormed) (object : ObjectId) :
    Lists heap.ChainsTo object (heap.chain object) :=
  h.chainsTo_descends.lists_walk h.walks_chain object

/-- The lineage of a class lists the class and everything above it. -/
theorem WellFormed.lists_lineage (h : heap.WellFormed) (reference : ClassId) :
    Lists heap.Extends reference (heap.lineage reference) :=
  h.extends_descends.lists_walk h.walks_lineage reference

end Links

section Walking

/-- The search for a name: it looks at an object, goes on with its prototype as long as the name is
missing, and gives up when there is no prototype. -/
inductive Searches (heap : Heap) (name : String) :
    Option ObjectId → Option (ObjectId × Property) → Prop where
  | exhausted : Searches heap name none none
  | found {object : ObjectId} {property : Property}
    (owned : heap.own? object name = some property) :
    Searches heap name (some object) (some (object, property))
  | next {object : ObjectId} {result : Option (ObjectId × Property)}
    (missing : heap.own? object name = none)
    (rest : Searches heap name (heap.prototype? object) result) :
    Searches heap name (some object) result

/-- The test for a subclass: it compares a class, goes on with its superclass as long as it is
another one, and fails when there is no superclass. -/
inductive Climbs (heap : Heap) (other : ClassId) : Option ClassId → Bool → Prop where
  | exhausted : Climbs heap other none false
  | arrived : Climbs heap other (some other) true
  | next {reference : ClassId} {result : Bool} (different : reference ≠ other)
    (rest : Climbs heap other (heap.superclass? reference) result) :
    Climbs heap other (some reference) result

/-- The descent of a construction, with the constructor calls that it comes to. -/
inductive Unfolds (heap : Heap) :
    ClassId → List Value → List (FunctionId × List Value) → Prop where
  | composed {reference : ClassId} {record : Class} {composition : Composition}
    {arguments : List Value} {calls : List (FunctionId × List Value)}
    {callsOf : ClassId → List (FunctionId × List Value)}
    (made : heap.class? reference = some record)
    (composed : record.composition = some composition)
    (base : Unfolds heap composition.base arguments calls)
    (sources : ∀ source ∈ composition.sources, Unfolds heap source [] (callsOf source)) :
    Unfolds heap reference arguments (calls ++ composition.sources.flatMap callsOf)
  | own {reference : ClassId} {record : Class} {constructorFunction : FunctionId}
    {arguments : List Value} (made : heap.class? reference = some record)
    (plain : record.composition = none) (own : record.ownConstructor = some constructorFunction) :
    Unfolds heap reference arguments [(constructorFunction, arguments)]
  | inherited {reference superclass : ClassId} {record : Class} {arguments : List Value}
    {calls : List (FunctionId × List Value)} (made : heap.class? reference = some record)
    (plain : record.composition = none) (without : record.ownConstructor = none)
    (above : record.superclass = some superclass)
    (rest : Unfolds heap superclass arguments calls) : Unfolds heap reference arguments calls
  | nothing {reference : ClassId} {record : Class} {arguments : List Value}
    (made : heap.class? reference = some record) (plain : record.composition = none)
    (without : record.ownConstructor = none) (root : record.superclass = none) :
    Unfolds heap reference arguments []

variable {heap : Heap}

theorem Searches.unique {name : String} {object : Option ObjectId}
    {result other : Option (ObjectId × Property)} (h : heap.Searches name object result)
    (hother : heap.Searches name object other) : other = result := by
  induction h with
  | exhausted =>
    cases hother
    rfl
  | found owned =>
    cases hother with
    | found again => rw [Option.some.inj (again.symm.trans owned)]
    | next missing _ => cases missing.symm.trans owned
  | next missing _ ih =>
    cases hother with
    | found owned => cases missing.symm.trans owned
    | next _ rest => exact ih rest

/-- The search ends on every object, with the nearest owner of the name. -/
theorem WellFormed.searches_lookup (h : heap.WellFormed) (name : String) (object : ObjectId) :
    heap.Searches name (some object) (heap.lookup object name) := by
  induction object using h.chainsTo_descends.induction with
  | last object hnone =>
    cases hown : heap.own? object name with
    | some property =>
      rw [lookup_of_own?_eq_some hown]
      exact .found hown
    | none =>
      rw [lookup, h.walks_chain.last object hnone, firstOwner, hown]
      refine .next hown ?_
      rw [hnone]
      exact .exhausted
  | step object parent hparent ih =>
    rw [h.lookup_eq_or hparent]
    cases hown : heap.own? object name with
    | some property => exact .found hown
    | none =>
      refine .next hown ?_
      rw [hparent]
      exact ih

theorem WellFormed.searches_iff (h : heap.WellFormed) (name : String) (object : ObjectId)
    (result : Option (ObjectId × Property)) :
    heap.Searches name (some object) result ↔ result = heap.lookup object name := by
  constructor
  · intro hsearches
    exact (h.searches_lookup name object).unique hsearches
  · rintro rfl
    exact h.searches_lookup name object

theorem Climbs.unique {other : ClassId} {reference : Option ClassId} {result second : Bool}
    (h : heap.Climbs other reference result) (hsecond : heap.Climbs other reference second) :
    second = result := by
  induction h with
  | exhausted =>
    cases hsecond
    rfl
  | arrived =>
    cases hsecond with
    | arrived => rfl
    | next different _ => exact absurd rfl different
  | next different _ ih =>
    cases hsecond with
    | arrived => exact absurd rfl different
    | next _ rest => exact ih rest

/-- The test for a subclass ends on every class, with the answer of the lineage. -/
theorem WellFormed.climbs_isSubclass (h : heap.WellFormed) (other reference : ClassId) :
    heap.Climbs other (some reference) (heap.isSubclass reference other) := by
  induction reference using h.extends_descends.induction with
  | last reference hnone =>
    rw [isSubclass, h.walks_lineage.last reference hnone]
    by_cases hsame : reference = other
    · subst hsame
      simpa using Climbs.arrived
    · have hdifferent : decide (other ∈ [reference]) = false := by
        simpa using fun heq ↦ hsame heq.symm
      rw [hdifferent]
      refine .next hsame ?_
      rw [hnone]
      exact .exhausted
  | step reference parent hparent ih =>
    rw [isSubclass, h.walks_lineage.link reference parent hparent]
    by_cases hsame : reference = other
    · subst hsame
      simpa using Climbs.arrived
    · have hrest : decide (other ∈ reference :: heap.lineage parent) =
          heap.isSubclass parent other := by
        rw [isSubclass]
        simp [Ne.symm hsame]
      rw [hrest]
      refine .next hsame ?_
      rw [hparent]
      exact ih

theorem WellFormed.climbs_iff (h : heap.WellFormed) (other reference : ClassId) (result : Bool) :
    heap.Climbs other (some reference) result ↔ result = heap.isSubclass reference other := by
  constructor
  · intro hclimbs
    exact (h.climbs_isSubclass other reference).unique hclimbs
  · rintro rfl
    exact h.climbs_isSubclass other reference

/-- The descent comes to the calls of the plan. -/
theorem Unfolds.eq_plan {reference : ClassId} {arguments : List Value}
    {calls : List (FunctionId × List Value)} (h : heap.Unfolds reference arguments calls)
    (hwell : heap.WellFormed) : calls = heap.plan reference arguments := by
  induction h with
  | @composed _ _ composition _ _ callsOf made composed _ _ ihbase ihsources =>
    rw [hwell.plan_of_composition made composed, ihbase]
    exact congrArg (_ ++ ·) (List.flatMap_congr ihsources)
  | own made plain own => simp only [hwell.plan_eq made, plain, own]
  | inherited made plain without above _ ih =>
    simp only [hwell.plan_eq made, plain, without, above, ih]
  | nothing made plain without root => simp only [hwell.plan_eq made, plain, without, root]

/-- The descent ends on every class. -/
theorem WellFormed.unfolds_plan (h : heap.WellFormed) (reference : ClassId)
    (hreference : reference.index < heap.classes.size) (arguments : List Value) :
    heap.Unfolds reference arguments (heap.plan reference arguments) := by
  induction hnumber : reference.index using Nat.strong_induction_on
    generalizing reference arguments with
  | _ number ih =>
    subst hnumber
    obtain ⟨record, hrecord⟩ := exists_class?_of_lt hreference
    have hbelow : ∀ other, heap.MadeFrom reference other → ∀ given,
        heap.Unfolds other given (heap.plan other given) := by
      intro other hother given
      have hless := h.madeFrom_descends reference other hother
      exact ih other.index hless other (Nat.lt_trans hless hreference) given rfl
    cases hcomposition : record.composition with
    | some composition =>
      rw [h.plan_of_composition hrecord hcomposition]
      exact .composed hrecord hcomposition (hbelow _ (.base hrecord hcomposition) arguments)
        fun source hsource ↦ hbelow source (.source hrecord hcomposition hsource) []
    | none =>
      rw [h.plan_eq hrecord, hcomposition]
      cases hown : record.ownConstructor with
      | some constructorFunction => exact .own hrecord hcomposition hown
      | none =>
        cases habove : record.superclass with
        | some superclass =>
          exact .inherited hrecord hcomposition hown habove
            (hbelow superclass (.superclass hrecord habove) arguments)
        | none => exact .nothing hrecord hcomposition hown habove

end Walking

section Making

/-- A later heap: the objects of the earlier one have the prototypes and the tags that they had, and
its classes are what they were. -/
structure Keeps (earlier later : Heap) : Prop extends Grows earlier later where
  tags : ∀ object, object.index < earlier.objects.size → later.tag? object = earlier.tag? object

/-- In the earlier heap an object is the next one to be made, and its prototype exists. In the later
one it has been made. -/
structure MakesObject (before after : Heap) (object : ObjectId) (record : Object) : Prop where
  next : object = before.nextObject
  prototype : ∀ parent, record.prototype = some parent → parent.index < before.objects.size
  made : (before.addObject record).Keeps after

/-- In the earlier heap a class is the next one to be made, and everything that it refers to exists.
In the later one it has been made. -/
structure MakesClass (before after : Heap) (reference : ClassId) (record : Class) : Prop where
  next : reference = before.nextClass
  parts : record.Fits before.objects.size before.classes.size
  made : (before.addClass record).Keeps after

variable {before middle after : Heap}

theorem Keeps.refl (heap : Heap) : heap.Keeps heap := ⟨.refl heap, fun _ _ ↦ rfl⟩

theorem Keeps.trans (h : before.Keeps middle) (hnext : middle.Keeps after) :
    before.Keeps after where
  toGrows := h.toGrows.trans hnext.toGrows
  tags object hobject :=
    (hnext.tags object (Nat.lt_of_lt_of_le hobject h.objects)).trans (h.tags object hobject)

theorem size_objects_addObject (heap : Heap) (added : Object) :
    (heap.addObject added).objects.size = heap.objects.size + 1 := Arena.size_push _ _

theorem size_objects_addClass (heap : Heap) (added : Class) :
    (heap.addClass added).objects.size = heap.objects.size := rfl

theorem size_classes_addClass (heap : Heap) (added : Class) :
    (heap.addClass added).classes.size = heap.classes.size + 1 := Arena.size_push _ _

theorem keeps_addObject (heap : Heap) (added : Object) : heap.Keeps (heap.addObject added) :=
  ⟨heap.grows_addObject added, fun _ hobject ↦ heap.tag?_addObject_of_lt hobject added⟩

theorem keeps_addClass (heap : Heap) (added : Class) : heap.Keeps (heap.addClass added) :=
  ⟨heap.grows_addClass added, fun _ _ ↦ rfl⟩

theorem MakesObject.trans {object : ObjectId} {record : Object}
    (h : before.MakesObject middle object record) (hnext : middle.Keeps after) :
    before.MakesObject after object record := ⟨h.next, h.prototype, h.made.trans hnext⟩

theorem MakesClass.trans {reference : ClassId} {record : Class}
    (h : before.MakesClass middle reference record) (hnext : middle.Keeps after) :
    before.MakesClass after reference record := ⟨h.next, h.parts, h.made.trans hnext⟩

/-- Making a class adds two objects on prototypes that exist, and then the class. -/
theorem exists_declare_eq {record : Class} (members statics : OrderedMap String Property)
    (known : ∀ parent, before.parent? record = some parent →
      parent.prototype.index < before.objects.size ∧
        parent.statics.index < before.objects.size + 1) :
    ∃ first second, before.declare record members statics =
        ((before.addObject first).addObject second).addClass record ∧
      (∀ parent, first.prototype = some parent → parent.index < before.objects.size) ∧
      ∀ parent, second.prototype = some parent →
        parent.index < (before.addObject first).objects.size := by
  refine ⟨⟨(before.parent? record).map Class.prototype, none, members⟩,
    ⟨(before.parent? record).map Class.statics, none, statics⟩, rfl, ?_, ?_⟩
  · intro object hobject
    obtain ⟨parent, hparent, rfl⟩ := Option.map_eq_some_iff.1 hobject
    exact (known parent hparent).1
  · intro object hobject
    obtain ⟨parent, hparent, rfl⟩ := Option.map_eq_some_iff.1 hobject
    rw [size_objects_addObject]
    exact (known parent hparent).2

/-- An object that a change adds is made on a prototype that exists. -/
theorem Change.exists_makesObject {may : Permission} (h : Change may before after)
    {object : ObjectId} (hnew : before.objects.size ≤ object.index)
    (hobject : object.index < after.objects.size) :
    ∃ middle record, Changes .anything before middle ∧
      middle.MakesObject after object record := by
  cases h with
  | define target name property allowed =>
    rw [size_objects_define] at hobject
    omega
  | addObject added known =>
    rw [size_objects_addObject] at hobject
    have hnext : object = before.nextObject := congrArg ObjectId.mk (by omega)
    exact ⟨before, added, .refl, hnext, known, .refl _⟩
  | declare record members statics fits ofPrototype ofStatics known =>
    obtain ⟨first, second, heq, hfirst, hsecond⟩ := exists_declare_eq members statics known
    rw [heq] at hobject ⊢
    rw [size_objects_addClass, size_objects_addObject, size_objects_addObject] at hobject
    rcases Nat.eq_or_lt_of_le hnew with hequal | hless
    · refine ⟨before, first, .refl, congrArg ObjectId.mk hequal.symm, hfirst, ?_⟩
      exact (keeps_addObject _ second).trans (keeps_addClass _ record)
    · refine ⟨before.addObject first, second, .single (.addObject before first hfirst), ?_,
        hsecond, keeps_addClass _ record⟩
      refine congrArg ObjectId.mk ?_
      rw [size_objects_addObject]
      omega
  | addCell name isMutable initializer => exact absurd hobject (Nat.not_lt_of_le hnew)
  | addGeneric constructorFunction => exact absurd hobject (Nat.not_lt_of_le hnew)

/-- A class that a change adds is made of what exists, once its prototype and its statics have been
made. -/
theorem Change.exists_makesClass {may : Permission} (h : Change may before after)
    {reference : ClassId} (hnew : before.classes.size ≤ reference.index)
    (hreference : reference.index < after.classes.size) :
    ∃ middle record, Changes .anything before middle ∧
      middle.MakesClass after reference record := by
  cases h with
  | declare record members statics fits ofPrototype ofStatics known =>
    obtain ⟨first, second, heq, hfirst, hsecond⟩ := exists_declare_eq members statics known
    rw [heq] at hreference ⊢
    rw [size_classes_addClass] at hreference
    refine ⟨(before.addObject first).addObject second, record,
      .head (.addObject before first hfirst) (.single (.addObject _ second hsecond)), ?_, ?_,
      .refl _⟩
    · exact congrArg ClassId.mk (Nat.le_antisymm (Nat.le_of_lt_succ hreference) hnew)
    · rw [size_objects_addObject, size_objects_addObject]
      exact fits
  | _ => exact absurd hreference (Nat.not_lt_of_le hnew)

end Making

end Heap

section Sessions

namespace Ledger

/-- A heap that there is on the way from a ledger. -/
def Passes (before : Ledger) (heap : Heap) : Prop :=
  ∃ entered state, before.Transitions ⟨none, entered, state⟩ ∧
    Heap.Changes .anything state.heap heap

variable {before middle after : Ledger}

theorem Passes.of_transitions {heap : Heap} (h : middle.Passes heap)
    (htransitions : before.Transitions middle) : before.Passes heap := by
  obtain ⟨entered, state, hstate, hheap⟩ := h
  exact ⟨entered, state, htransitions.trans hstate, hheap⟩

theorem Transition.keeps (h : Transition before after) :
    before.state.heap.Keeps after.state.heap := ⟨h.grows, fun _ hobject ↦ h.tag? hobject⟩

theorem Transitions.keeps (h : Transitions before after) :
    before.state.heap.Keeps after.state.heap := ⟨h.grows, fun _ hobject ↦ h.tag? hobject⟩

/-- Whenever a transition takes a size beyond a number, it makes something, and what it makes
lasts. -/
structure Makes (size : Heap → Nat) (number : Nat) (made : Heap → Heap → Prop) : Prop where
  step : ∀ before after, Transition before after → size before.state.heap ≤ number →
    number < size after.state.heap → ∃ middle, before.Passes middle ∧ made middle after.state.heap
  lasts : ∀ before middle after, made before middle → middle.Keeps after → made before after

/-- A transition that adds an object makes it. -/
theorem makes_object (object : ObjectId) :
    Makes (fun heap ↦ heap.objects.size) object.index fun before after ↦
      ∃ record, before.MakesObject after object record where
  step before after h hnew hobject := by
    cases h with
    | @change _ entered state _ change =>
      cases change with
      | heap change =>
        obtain ⟨middle, record, hmiddle, hmade⟩ := change.exists_makesObject hnew hobject
        exact ⟨middle, ⟨entered, state, .refl, hmiddle⟩, record, hmade⟩
      | addMap contents =>
        have hnext : object = state.heap.nextObject := by
          rw [State.addMap, Arena.size_push] at hobject
          exact congrArg ObjectId.mk (Nat.le_antisymm (Nat.le_of_lt_succ hobject) hnew)
        exact ⟨state.heap, ⟨entered, state, .refl, .refl⟩,
          ⟨none, some LinkedMap.tag, LinkedMap.slots state.heap.functions.size⟩, hnext,
          fun _ hnone ↦ absurd hnone.symm (Option.some_ne_none _), .of_eq rfl rfl, fun _ _ ↦ rfl⟩
      | _ => exact absurd hobject (Nat.not_lt_of_le hnew)
    | settle entered state outcome name purpose =>
      cases outcome <;> exact absurd hobject (Nat.not_lt_of_le hnew)
    | _ => exact absurd hobject (Nat.not_lt_of_le hnew)
  lasts _ _ _ := fun ⟨record, hmade⟩ hnext ↦ ⟨record, hmade.trans hnext⟩

/-- A transition that adds a class makes it. -/
theorem makes_class (reference : ClassId) :
    Makes (fun heap ↦ heap.classes.size) reference.index fun before after ↦
      ∃ record, before.MakesClass after reference record where
  step before after h hnew hreference := by
    cases h with
    | @change _ entered state _ change =>
      cases change with
      | heap change =>
        obtain ⟨middle, record, hmiddle, hmade⟩ := change.exists_makesClass hnew hreference
        exact ⟨middle, ⟨entered, state, .refl, hmiddle⟩, record, hmade⟩
      | _ => exact absurd hreference (Nat.not_lt_of_le hnew)
    | settle entered state outcome name purpose =>
      cases outcome <;> exact absurd hreference (Nat.not_lt_of_le hnew)
    | _ => exact absurd hreference (Nat.not_lt_of_le hnew)
  lasts _ _ _ := fun ⟨record, hmade⟩ hnext ↦ ⟨record, hmade.trans hnext⟩

variable {size : Heap → Nat} {number : Nat} {made : Heap → Heap → Prop}

/-- It has been made on the way from a size up to the number to a size beyond it. -/
theorem Makes.of_transitions (hmakes : Makes size number made) (h : Transitions before after)
    (hnew : size before.state.heap ≤ number) (hnumber : number < size after.state.heap) :
    ∃ middle, before.Passes middle ∧ made middle after.state.heap := by
  induction h with
  | refl => exact absurd hnumber (Nat.not_lt_of_le hnew)
  | @tail reached last hfirst hlast ih =>
    by_cases hexists : number < size reached.state.heap
    · obtain ⟨middle, hmiddle, hmade⟩ := ih hexists
      exact ⟨middle, hmiddle, hmakes.lasts _ _ _ hmade hlast.keeps⟩
    · obtain ⟨middle, hmiddle, hmade⟩ :=
        hmakes.step _ _ hlast (Nat.le_of_not_lt hexists) hnumber
      exact ⟨middle, hmiddle.of_transitions hfirst, hmade⟩

/-- At a moment when the size is beyond the number, it has been made in some move. -/
theorem Makes.exists_move (hmakes : Makes size number made) {bodies : List Body} {start : State}
    (hstart : size start.heap ≤ number) {later : Nat}
    (hnumber : number < size (Session.moment bodies start later).state.heap) :
    ∃ index < later, ∃ before, (Session.moment bodies start index).ledger.Passes before ∧
      made before (Session.moment bodies start (index + 1)).state.heap := by
  induction later with
  | zero => exact absurd hnumber (Nat.not_lt_of_le hstart)
  | succ later ih =>
    by_cases hexists : number < size (Session.moment bodies start later).state.heap
    · obtain ⟨index, hindex, hmade⟩ := ih hexists
      exact ⟨index, Nat.lt_succ_of_lt hindex, hmade⟩
    · exact ⟨later, Nat.lt_succ_self later, hmakes.of_transitions
        (Session.transitions_moment bodies start (Nat.le_succ later))
        (Nat.le_of_not_lt hexists) hnumber⟩

end Ledger

end Sessions

section Main

/-- A plan is carried out to its end when each of its calls comes to an end. -/
theorem Construction.exists_performs {heap : Heap} {this : Value}
    {plan : List (FunctionId × List Value)}
    (hends : ∀ call ∈ plan, ∀ later, heap.Grows later.heap →
      ∃ outcome last, (Run.call call.1 this call.2 later).EndsWith outcome last)
    {state : State} (hstate : heap.Grows state.heap) :
    ∃ outcome last, Performs this plan state outcome last := by
  induction plan generalizing state with
  | nil => exact ⟨.ok (), state, .done state⟩
  | cons call rest ih =>
    obtain ⟨outcome, middle, hcall⟩ := hends call List.mem_cons_self state hstate
    cases outcome with
    | error fault => exact ⟨.error fault, middle, .failed rest hcall⟩
    | ok value =>
      obtain ⟨result, last, hrest⟩ := ih
        (fun other hother ↦ hends other (List.mem_cons_of_mem call hother))
        (Run.grows_of_call hstate hcall)
      exact ⟨result, last, .continued hcall hrest⟩

/-- The ways up of a state are finite, and what walks up ends. -/
structure Founded (state : State) : Prop where
  /-- No object is on its own way up, which its chain lists. -/
  prototypes : ∀ object, ¬Relation.TransGen state.heap.ChainsTo object object ∧
    Lists state.heap.ChainsTo object (state.heap.chain object)
  /-- No class is on its own way up, which its lineage lists. -/
  superclasses : ∀ reference, ¬Relation.TransGen state.heap.Extends reference reference ∧
    Lists state.heap.Extends reference (state.heap.lineage reference)
  /-- No class takes part in making itself, and finitely many do. -/
  composition : ∀ reference, ¬Relation.TransGen state.heap.MadeFrom reference reference ∧
    {other | Relation.ReflTransGen state.heap.MadeFrom reference other}.Finite
  /-- The search for a member ends with one result. -/
  lookup : ∀ object name result, state.heap.Searches name (some object) result ↔
    result = state.heap.lookup object name
  /-- A name is there when the search for it has found an owner. -/
  has : ∀ object name, state.heap.has object name = true ↔
    ∃ owner, state.heap.Searches name (some object) (some owner)
  /-- The test for a subclass ends with one answer. -/
  subclass : ∀ reference other result, state.heap.Climbs other (some reference) result ↔
    result = state.heap.isSubclass reference other
  /-- The descent of a construction ends with one list of constructor calls. These are the calls
  that the construction makes, in this state or a later one, and it ends when they do. -/
  construction : ∀ reference, reference.index < state.heap.classes.size → ∀ arguments, ∃ calls,
    (∀ other, state.heap.Unfolds reference arguments other ↔ other = calls) ∧
      ∀ this, Run.Follows state.heap this calls (Construction.run reference this arguments) ∧
        ((∀ call ∈ calls, ∀ later, state.heap.Grows later.heap →
          ∃ outcome last, (Run.call call.1 this call.2 later).EndsWith outcome last) →
        ∀ now, state.heap.Grows now.heap → ∃ outcome last,
          (Construction.run reference this arguments now).EndsWith outcome last)

theorem Heap.WellFormed.founded {state : State} (h : state.heap.WellFormed) : Founded state where
  prototypes object := ⟨h.chainsTo_descends.acyclic object, h.lists_chain object⟩
  superclasses reference := ⟨h.extends_descends.acyclic reference, h.lists_lineage reference⟩
  composition reference := by
    have hinjective : Function.Injective ClassId.index := by
      rintro ⟨first⟩ ⟨second⟩ rfl
      rfl
    exact ⟨h.madeFrom_descends.acyclic reference, h.madeFrom_descends.finite hinjective reference⟩
  lookup object name result := h.searches_iff name object result
  has object name := by
    rw [Heap.has, Option.isSome_iff_exists]
    exact exists_congr fun owner ↦ eq_comm.trans (h.searches_iff name object (some owner)).symm
  subclass reference other result := h.climbs_iff other reference result
  construction reference hreference arguments := by
    refine ⟨state.heap.plan reference arguments, fun other ↦ ⟨fun hother ↦ hother.eq_plan h, ?_⟩,
      fun this ↦ ?_⟩
    · rintro rfl
      exact h.unfolds_plan reference hreference arguments
    · have hfollows := Construction.follows_run h hreference this arguments
      refine ⟨hfollows, fun hends now hnow ↦ ?_⟩
      obtain ⟨outcome, last, hperforms⟩ := Construction.exists_performs hends hnow
      exact ⟨outcome, last, ((hfollows now hnow).endsWith_iff hnow).2 hperforms⟩

/-- What the objects and classes of a run refer to. -/
structure Ancestry (bodies : List Body) (start : State) : Prop where
  /-- Every object is made in some move, after its prototype. -/
  objects : ∀ later object,
    object.index < (Session.moment bodies start later).state.heap.objects.size →
      ∃ index < later, ∃ before record,
        (Session.moment bodies start index).ledger.Passes before ∧
        before.MakesObject (Session.moment bodies start (index + 1)).state.heap object record
  /-- Every class is made in some move, after everything that it refers to. -/
  classes : ∀ later reference,
    reference.index < (Session.moment bodies start later).state.heap.classes.size →
      ∃ index < later, ∃ before record,
        (Session.moment bodies start index).ledger.Passes before ∧
        before.MakesClass (Session.moment bodies start (index + 1)).state.heap reference record
  /-- Objects keep their prototypes and tags, and classes stay what they are. -/
  lasting : ∀ earlier later, earlier ≤ later →
    (Session.moment bodies start earlier).state.heap.Keeps
      (Session.moment bodies start later).state.heap
  /-- At every moment the ways up are finite, and what walks up ends. -/
  founded : ∀ index, Founded (Session.moment bodies start index).state

/-- In every run, objects and classes refer to what is older than they are, for good. -/
theorem ancestry (bodies : List Body) (realm : Realm) : Ancestry bodies (.fresh realm) where
  objects _ _ hobject := by
    obtain ⟨index, hindex, before, hpasses, record, hmade⟩ :=
      (Ledger.makes_object _).exists_move (Nat.zero_le _) hobject
    exact ⟨index, hindex, before, record, hpasses, hmade⟩
  classes _ _ hreference := by
    obtain ⟨index, hindex, before, hpasses, record, hmade⟩ :=
      (Ledger.makes_class _).exists_move (Nat.zero_le _) hreference
    exact ⟨index, hindex, before, record, hpasses, hmade⟩
  lasting _ _ h := (Session.transitions_moment bodies (.fresh realm) h).keeps
  founded index := (Session.wellFormed_moment bodies realm index).founded

end Main

end GradualRuntime
