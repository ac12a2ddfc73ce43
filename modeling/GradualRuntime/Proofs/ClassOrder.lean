import GradualRuntime.Proofs.ConstructionPlan

/-!
# The order of classes

A class has three ways up: the links to superclasses, the prototype chain of its prototype, and the
prototype chain of its statics. They are parallel (`Heap.Parallel`): the prototype of a class chains
to the prototype of its superclass, its statics to the statics of its superclass, and no two classes
share either object. Classes are made this way (`Heap.declare`), links and classes never change, and
so it holds in every state that a run passes through (`State.Reachable.parallel`).

`classOrder` says what follows. A class is a subclass of another exactly when the prototype of the
other is on the chain of its prototype, and exactly when the statics of the other are on the chain
of its statics; this is a partial order. A member that an instance does not own is found in the
nearest class whose prototype owns it, and a member of the class itself in the nearest class whose
statics own it (`Heap.inherited`).
-/

set_option autoImplicit false

namespace GradualRuntime

namespace Heap

section Definitions

/-- One of the two objects of each class chains like the classes do, and no two classes share it. -/
structure Parallel (heap : Heap) (part : Class → ObjectId) : Prop where
  links : ∀ reference record, heap.class? reference = some record →
    heap.prototype? (part record) = (heap.parent? record).map part
  unshared : ∀ reference other record otherRecord, heap.class? reference = some record →
    heap.class? other = some otherRecord → part record = part otherRecord → reference = other

/-- What the nearest class, on the way up from a class, owns under a name in one of its objects. -/
def inherited (heap : Heap) (part : Class → ObjectId) (reference : ClassId) (name : String) :
    Option (ObjectId × Property) :=
  (heap.lineage reference).findSome? fun ancestor ↦
    ((heap.class? ancestor).map part).bind fun object ↦
      (heap.own? object name).map fun property ↦ (object, property)

end Definitions

section Preservation

variable {before after : Heap} {part : Class → ObjectId} {record : Class} {reference : ClassId}

theorem parallel_empty (part : Class → ObjectId) : Parallel .empty part := by
  constructor
  · intro reference record hrecord
    cases hrecord
  · intro reference other record otherRecord hrecord
    cases hrecord

/-- The superclass of a class that exists has the same record in a later heap. -/
theorem WellFormed.parent?_of_grows (h : before.WellFormed) (hgrows : before.Grows after)
    (hrecord : before.class? reference = some record) :
    after.parent? record = before.parent? record := by
  unfold parent?
  cases hparent : record.superclass with
  | none => rfl
  | some parent =>
    have hless := (h.classes reference record hrecord).superclass parent hparent
    obtain ⟨parentRecord, hparentRecord⟩ :=
      exists_class?_of_lt (Nat.lt_trans hless (lt_of_class?_eq_some hrecord))
    rw [Option.bind_some, Option.bind_some, hparentRecord,
      hgrows.classes parent parentRecord hparentRecord]

/-- Classes that were parallel before are linked alike in a later heap. -/
theorem Parallel.links_of_grows (h : before.Parallel part) (hwell : before.WellFormed)
    (hgrows : before.Grows after) (hrecord : before.class? reference = some record)
    (hexists : (part record).index < before.objects.size) :
    after.prototype? (part record) = (after.parent? record).map part := by
  rw [hgrows.prototypes _ hexists, hwell.parent?_of_grows hgrows hrecord]
  exact h.links reference record hrecord

/-- As long as no class is made, the classes stay parallel. -/
theorem Parallel.of_grows (h : before.Parallel part) (hwell : before.WellFormed)
    (hpart : ∀ record objects classes, record.Fits objects classes → (part record).index < objects)
    (hgrows : before.Grows after) (hclasses : after.classes = before.classes) :
    after.Parallel part := by
  have hsame : ∀ reference, after.class? reference = before.class? reference := by
    intro reference
    rw [class?, hclasses, class?]
  constructor
  · intro reference record hrecord
    rw [hsame] at hrecord
    exact h.links_of_grows hwell hgrows hrecord
      (hpart record _ _ (hwell.classes reference record hrecord))
  · intro reference other record otherRecord hrecord hother
    rw [hsame] at hrecord hother
    exact h.unshared reference other record otherRecord hrecord hother

/-- A class that is made with new objects, linked as it is, keeps the classes parallel. -/
theorem Parallel.of_declare (h : before.Parallel part) (hwell : before.WellFormed)
    (hpart : ∀ record objects classes, record.Fits objects classes → (part record).index < objects)
    (members statics : OrderedMap String Property)
    (hgrows : before.Grows (before.declare record members statics))
    (hsuperclass : ∀ parent, record.superclass = some parent →
      parent.index < before.classes.size)
    (hnew : before.objects.size ≤ (part record).index)
    (hlink : (before.declare record members statics).prototype? (part record) =
      (before.parent? record).map part) :
    (before.declare record members statics).Parallel part := by
  have hcases : ∀ reference found,
      (before.declare record members statics).class? reference = some found →
        before.class? reference = some found ∨ reference = before.nextClass ∧ found = record := by
    intro reference found hfound
    by_cases hlt : reference.index < before.classes.size
    · exact .inl ((class?_addClass_of_lt hlt record).symm.trans hfound)
    · have hbound : reference.index < before.classes.size + 1 := by
        simpa [declare, addClass, addObject] using lt_of_class?_eq_some hfound
      have hself : reference = before.nextClass := congrArg ClassId.mk (by omega)
      subst hself
      exact .inr ⟨rfl, Option.some.inj (hfound.symm.trans (class?_addClass_self _ record))⟩
  have hold : ∀ reference found, before.class? reference = some found →
      (part found).index < before.objects.size := fun reference found hfound ↦
    hpart found _ _ (hwell.classes reference found hfound)
  constructor
  · intro reference found hfound
    rcases hcases reference found hfound with hbefore | ⟨-, rfl⟩
    · exact h.links_of_grows hwell hgrows hbefore (hold reference found hbefore)
    · rw [hlink]
      unfold parent?
      cases hparent : found.superclass with
      | none => rfl
      | some parent =>
        obtain ⟨parentRecord, hparentRecord⟩ := exists_class?_of_lt (hsuperclass parent hparent)
        rw [Option.bind_some, Option.bind_some, hparentRecord,
          hgrows.classes parent parentRecord hparentRecord]
  · intro reference other found otherFound hfound hother hsame
    rcases hcases reference found hfound with hbefore | ⟨rfl, rfl⟩
    · rcases hcases other otherFound hother with hotherBefore | ⟨rfl, rfl⟩
      · exact h.unshared reference other found otherFound hbefore hotherBefore hsame
      · have hless := hold reference found hbefore
        rw [hsame] at hless
        omega
    · rcases hcases other otherFound hother with hotherBefore | ⟨rfl, -⟩
      · have hless := hold other otherFound hotherBefore
        rw [← hsame] at hless
        omega
      · rfl

/-- The prototype and the statics of a class that is made chain to those of its superclass. -/
theorem prototype?_declare (members statics : OrderedMap String Property)
    (hprototype : record.prototype = before.nextObject)
    (hstatics : record.statics = ⟨before.objects.size + 1⟩) :
    (before.declare record members statics).prototype? record.prototype =
        (before.parent? record).map Class.prototype ∧
      (before.declare record members statics).prototype? record.statics =
        (before.parent? record).map Class.statics := by
  let first := before.addObject ⟨(before.parent? record).map Class.prototype, none, members⟩
  have hsize : first.objects.size = before.objects.size + 1 := Arena.size_push _ _
  have hnext : record.statics = first.nextObject := by
    rw [hstatics, nextObject, hsize]
  constructor
  · have hless : record.prototype.index < first.objects.size := by
      rw [hprototype, hsize]
      exact Nat.lt_succ_self _
    refine (prototype?_addObject_of_lt hless _).trans ?_
    rw [hprototype]
    exact prototype?_addObject_self _ _
  · rw [hnext]
    exact prototype?_addObject_self first _

/-- Every change keeps the classes parallel, in both of their objects. -/
theorem Change.parallel {may : Permission} (h : Change may before after) (hwell : before.WellFormed)
    (hprototypes : before.Parallel Class.prototype) (hstatics : before.Parallel Class.statics) :
    after.Parallel Class.prototype ∧ after.Parallel Class.statics := by
  have hgrows := h.grows
  have hkept : after.classes = before.classes →
      after.Parallel Class.prototype ∧ after.Parallel Class.statics := fun hclasses ↦
    ⟨hprototypes.of_grows hwell (fun _ _ _ hfits ↦ hfits.prototype) hgrows hclasses,
      hstatics.of_grows hwell (fun _ _ _ hfits ↦ hfits.statics) hgrows hclasses⟩
  cases h with
  | declare record members statics fits ofPrototype ofStatics known =>
    obtain ⟨hprototype, hstatic⟩ := prototype?_declare members statics ofPrototype ofStatics
    constructor
    · exact hprototypes.of_declare hwell (fun _ _ _ hfits ↦ hfits.prototype) members statics hgrows
        fits.superclass (by simp [ofPrototype, nextObject]) hprototype
    · exact hstatics.of_declare hwell (fun _ _ _ hfits ↦ hfits.statics) members statics hgrows
        fits.superclass (by simp [ofStatics]) hstatic
  | _ => exact hkept rfl

end Preservation

section Walks

variable {heap : Heap} {part : Class → ObjectId} {reference other : ClassId} {record : Class}

theorem mem_lineage_self (heap : Heap) (reference : ClassId) :
    reference ∈ heap.lineage reference := by
  rw [lineage, lineageWithin]
  exact List.mem_cons_self

/-- A class without superclass is its whole lineage. -/
theorem lineage_of_root (hrecord : heap.class? reference = some record)
    (hroot : record.superclass = none) : heap.lineage reference = [reference] := by
  have hnone : heap.superclass? reference = none := by
    rw [superclass?, hrecord, Option.bind_some, hroot]
  rw [lineage, lineageWithin, hnone]

/-- Induction along the links to superclasses, which have smaller numbers. -/
theorem WellFormed.class_induction (h : heap.WellFormed) {motive : ClassId → Prop}
    (root : ∀ reference record, heap.class? reference = some record → record.superclass = none →
      motive reference)
    (child : ∀ reference record parent, heap.class? reference = some record →
      record.superclass = some parent → parent.index < reference.index →
        parent.index < heap.classes.size → motive parent → motive reference)
    (reference : ClassId) (hreference : reference.index < heap.classes.size) :
    motive reference := by
  induction hnumber : reference.index using Nat.strong_induction_on generalizing reference with
  | _ number ih =>
    obtain ⟨record, hrecord⟩ := exists_class?_of_lt hreference
    cases hparent : record.superclass with
    | none => exact root reference record hrecord hparent
    | some parent =>
      have hless := (h.classes reference record hrecord).superclass parent hparent
      have hexists := Nat.lt_trans hless hreference
      exact child reference record parent hrecord hparent hless hexists
        (ih parent.index (hnumber ▸ hless) parent hexists rfl)

/-- The chain of an object of a class goes through the objects of its superclasses. -/
theorem WellFormed.chain_eq_lineage (h : heap.WellFormed) (hparallel : heap.Parallel part)
    (hrecord : heap.class? reference = some record) :
    heap.chain (part record) =
      (heap.lineage reference).filterMap fun ancestor ↦ (heap.class? ancestor).map part := by
  have hall := h.class_induction (motive := fun reference ↦ ∀ record,
    heap.class? reference = some record → heap.chain (part record) =
      (heap.lineage reference).filterMap fun ancestor ↦ (heap.class? ancestor).map part)
    ?root ?child reference (lt_of_class?_eq_some hrecord)
  · exact hall record hrecord
  case root =>
    intro reference found hfound hparent record hrecord
    obtain rfl := Option.some.inj (hfound.symm.trans hrecord)
    have hlink := hparallel.links reference found hfound
    rw [parent?, hparent, Option.bind_none, Option.map_none] at hlink
    rw [lineage_of_root hfound hparent]
    simp [chain, chainWithin, hlink, hfound]
  case child =>
    intro reference found parent hfound hparent _ hexists ih record hrecord
    obtain rfl := Option.some.inj (hfound.symm.trans hrecord)
    obtain ⟨parentRecord, hparentRecord⟩ := exists_class?_of_lt hexists
    have hlink := hparallel.links reference found hfound
    rw [parent?, hparent, Option.bind_some, hparentRecord, Option.map_some] at hlink
    rw [h.chain_eq_cons hlink, h.lineage_eq_cons hfound hparent, ih parentRecord hparentRecord]
    simp [hfound]

/-- Classes on the way up have smaller numbers. -/
theorem WellFormed.eq_or_lt_of_mem_lineage (h : heap.WellFormed)
    (hreference : reference.index < heap.classes.size) (hother : other ∈ heap.lineage reference) :
    other = reference ∨ other.index < reference.index := by
  have hall := h.class_induction (motive := fun reference ↦ other ∈ heap.lineage reference →
    other = reference ∨ other.index < reference.index) ?root ?child reference hreference
  · exact hall hother
  case root =>
    intro reference record hrecord hparent hmem
    rw [lineage_of_root hrecord hparent] at hmem
    exact .inl (List.mem_singleton.1 hmem)
  case child =>
    intro reference record parent hrecord hparent hless _ ih hmem
    rw [h.lineage_eq_cons hrecord hparent] at hmem
    rcases List.mem_cons.1 hmem with rfl | habove
    · exact .inl rfl
    · rcases ih habove with rfl | hmore
      · exact .inr hless
      · exact .inr (Nat.lt_trans hmore hless)

/-- The way up from a class on the way up is part of it. -/
theorem WellFormed.lineage_subset (h : heap.WellFormed)
    (hreference : reference.index < heap.classes.size) (hother : other ∈ heap.lineage reference) :
    heap.lineage other ⊆ heap.lineage reference := by
  have hall := h.class_induction (motive := fun reference ↦ other ∈ heap.lineage reference →
    heap.lineage other ⊆ heap.lineage reference) ?root ?child reference hreference
  · exact hall hother
  case root =>
    intro reference record hrecord hparent hmem
    rw [lineage_of_root hrecord hparent] at hmem
    rw [List.mem_singleton.1 hmem]
    exact List.Subset.refl _
  case child =>
    intro reference record parent hrecord hparent _ _ ih hmem
    have hcons := h.lineage_eq_cons hrecord hparent
    rw [hcons] at hmem
    rcases List.mem_cons.1 hmem with rfl | habove
    · exact List.Subset.refl _
    · rw [hcons]
      exact List.subset_cons_of_subset reference (ih habove)

/-- The nearest owner among the objects of some classes. -/
theorem firstOwner_filterMap (heap : Heap) (name : String) (object? : ClassId → Option ObjectId)
    (references : List ClassId) :
    heap.firstOwner name (references.filterMap object?) =
      references.findSome? fun reference ↦ (object? reference).bind fun object ↦
        (heap.own? object name).map fun property ↦ (object, property) := by
  induction references with
  | nil => rfl
  | cons reference rest ih =>
    cases hobject : object? reference with
    | none => simp [hobject, ih]
    | some object =>
      cases hown : heap.own? object name <;> simp [hobject, hown, firstOwner, ih]

/-- A lookup on an object of a class finds what the class inherits. -/
theorem WellFormed.lookup_eq_inherited (h : heap.WellFormed) (hparallel : heap.Parallel part)
    (hrecord : heap.class? reference = some record) (name : String) :
    heap.lookup (part record) name = heap.inherited part reference name := by
  rw [lookup, h.chain_eq_lineage hparallel hrecord, firstOwner_filterMap, inherited]

/-- The subclass relation, read off the chain of one of the objects. -/
theorem WellFormed.isSubclass_iff_mem_chain (h : heap.WellFormed) (hparallel : heap.Parallel part)
    (hrecord : heap.class? reference = some record) {otherRecord : Class}
    (hother : heap.class? other = some otherRecord) :
    heap.isSubclass reference other = true ↔ part otherRecord ∈ heap.chain (part record) := by
  rw [isSubclass, decide_eq_true_iff, h.chain_eq_lineage hparallel hrecord, List.mem_filterMap]
  constructor
  · intro hmem
    exact ⟨other, hmem, by rw [hother, Option.map_some]⟩
  · rintro ⟨ancestor, hmem, hfound⟩
    obtain ⟨ancestorRecord, hancestor, hsame⟩ := Option.map_eq_some_iff.1 hfound
    rwa [hparallel.unshared other ancestor otherRecord ancestorRecord hother hancestor hsame.symm]

end Walks

end Heap

section Sessions

/-- A well-formed heap whose classes are parallel in both of their objects. -/
structure Heap.Ordered (heap : Heap) : Prop where
  wellFormed : heap.WellFormed
  prototypes : heap.Parallel Class.prototype
  statics : heap.Parallel Class.statics

theorem Heap.ordered_empty : Heap.Ordered .empty :=
  ⟨wellFormed_empty, parallel_empty _, parallel_empty _⟩

theorem Heap.Ordered.of_grows {before after : Heap} (h : before.Ordered)
    (hwell : after.WellFormed) (hgrows : before.Grows after)
    (hclasses : after.classes = before.classes) : after.Ordered where
  wellFormed := hwell
  prototypes := h.prototypes.of_grows h.wellFormed (fun _ _ _ hfits ↦ hfits.prototype) hgrows
    hclasses
  statics := h.statics.of_grows h.wellFormed (fun _ _ _ hfits ↦ hfits.statics) hgrows hclasses

theorem State.Change.ordered {may : Heap.Permission} {before after : State}
    (h : State.Change may before after) (hbefore : before.heap.Ordered) : after.heap.Ordered := by
  have hwell := h.wellFormed hbefore.wellFormed
  have hgrows := h.grows
  cases h with
  | heap change =>
    obtain ⟨hprototypes, hstatics⟩ :=
      change.parallel hbefore.wellFormed hbefore.prototypes hbefore.statics
    exact ⟨hwell, hprototypes, hstatics⟩
  | _ => exact hbefore.of_grows hwell hgrows rfl

theorem Ledger.Transition.ordered {before after : Ledger} (h : Ledger.Transition before after)
    (hbefore : before.state.heap.Ordered) : after.state.heap.Ordered := by
  have hwell := h.wellFormed hbefore.wellFormed
  have hgrows := h.grows
  cases h with
  | change change => exact change.ordered hbefore
  | settle entered state outcome name purpose =>
    cases outcome <;> exact hbefore.of_grows hwell hgrows rfl
  | _ => exact hbefore.of_grows hwell hgrows rfl

theorem Ledger.Transitions.ordered {before after : Ledger} (h : Ledger.Transitions before after)
    (hbefore : before.state.heap.Ordered) : after.state.heap.Ordered := by
  induction h with
  | refl => exact hbefore
  | tail _ hlast ih => exact hlast.ordered ih

theorem State.Reachable.ordered {state : State} (h : state.Reachable) : state.heap.Ordered := by
  obtain ⟨bodies, realm, index, rfl⟩ := h
  exact Ledger.Transitions.ordered (Session.transitions_moment bodies _ (Nat.zero_le index))
    Heap.ordered_empty

end Sessions

section Main

/-- What the classes of a state are to each other. -/
structure ClassOrder (state : State) : Prop where
  /-- The subclass relation is what the prototypes say. -/
  prototypes : ∀ reference other record otherRecord,
    state.heap.class? reference = some record → state.heap.class? other = some otherRecord →
      (state.heap.isSubclass reference other = true ↔
        otherRecord.prototype ∈ state.heap.chain record.prototype)
  /-- The subclass relation is what the statics say. -/
  statics : ∀ reference other record otherRecord,
    state.heap.class? reference = some record → state.heap.class? other = some otherRecord →
      (state.heap.isSubclass reference other = true ↔
        otherRecord.statics ∈ state.heap.chain record.statics)
  refl : ∀ reference, state.heap.isSubclass reference reference = true
  antisymm : ∀ reference other, reference.index < state.heap.classes.size →
    other.index < state.heap.classes.size → state.heap.isSubclass reference other = true →
      state.heap.isSubclass other reference = true → reference = other
  trans : ∀ reference other third, reference.index < state.heap.classes.size →
    state.heap.isSubclass reference other = true → state.heap.isSubclass other third = true →
      state.heap.isSubclass reference third = true
  /-- An instance that a class allocates has the prototype of the class, for good. -/
  allocated : ∀ reference record, state.heap.class? reference = some record →
    Construction.allocate reference state =
      .ended (.ok state.heap.nextObject) (Construction.allocated state record) ∧
      ∀ later, (Construction.allocated state record).heap.Grows later →
        later.class? reference = some record ∧
          later.prototype? state.heap.nextObject = some record.prototype
  /-- What an instance of a class does not own is found in the nearest prototype that owns it. -/
  ofInstance : ∀ reference record object name, state.heap.class? reference = some record →
    state.heap.prototype? object = some record.prototype → state.heap.own? object name = none →
      state.heap.lookup object name = state.heap.inherited Class.prototype reference name
  /-- A member of a class is looked up on its statics and found in the nearest statics that own
  it. -/
  ofClass : ∀ (realm : Realm) reference record name, state.heap.class? reference = some record →
    realm.holder? state.heap (.type reference) = some record.statics ∧
      state.heap.lookup record.statics name = state.heap.inherited Class.statics reference name

/-- In every state of every run, the superclasses, prototypes and statics of the classes are in the
same order. -/
theorem classOrder {state : State} (hstate : state.Reachable) : ClassOrder state := by
  obtain ⟨hwell, hprototypes, hstatics⟩ := hstate.ordered
  have hmem : ∀ reference other, state.heap.isSubclass reference other = true ↔
      other ∈ state.heap.lineage reference := fun reference other ↦ decide_eq_true_iff
  constructor
  case prototypes =>
    intro reference other record otherRecord hrecord hother
    exact hwell.isSubclass_iff_mem_chain hprototypes hrecord hother
  case statics =>
    intro reference other record otherRecord hrecord hother
    exact hwell.isSubclass_iff_mem_chain hstatics hrecord hother
  case refl =>
    intro reference
    exact (hmem reference reference).2 (state.heap.mem_lineage_self reference)
  case antisymm =>
    intro reference other hreference hother hup hdown
    rcases hwell.eq_or_lt_of_mem_lineage hreference ((hmem _ _).1 hup) with heq | hless
    · exact heq.symm
    · rcases hwell.eq_or_lt_of_mem_lineage hother ((hmem _ _).1 hdown) with heq | hmore
      · exact heq
      · omega
  case trans =>
    intro reference other third hreference hfirst hsecond
    have hsubset := hwell.lineage_subset hreference ((hmem _ _).1 hfirst)
    exact (hmem _ _).2 (hsubset ((hmem _ _).1 hsecond))
  case allocated =>
    intro reference record hrecord
    refine ⟨Construction.allocate_eq hwell hrecord, ?_⟩
    intro later hlater
    exact ⟨hlater.classes reference record hrecord, Construction.prototype?_of_allocated hlater⟩
  case ofInstance =>
    intro reference record object name hrecord hobject hown
    rw [hwell.lookup_eq_or hobject, hown, Option.map_none, Option.none_or]
    exact hwell.lookup_eq_inherited hprototypes hrecord name
  case ofClass =>
    intro realm reference record name hrecord
    refine ⟨?_, hwell.lookup_eq_inherited hstatics hrecord name⟩
    rw [Realm.holder?, hrecord, Option.map_some]

/-- The state in which the mixin of the base with both sources has been applied. -/
def Overlapping.mixedState : State :=
  (Session.moment [Overlapping.program] (.fresh .standard) 5).state

/-- The base of a mixin type is above it, the sources are not. -/
theorem classOrder_overlapping :
    Overlapping.mixedState.Reachable ∧ ClassOrder Overlapping.mixedState ∧
      Overlapping.mixedState.heap.isSubclass ⟨3⟩ ⟨0⟩ = true ∧
      Overlapping.mixedState.heap.isSubclass ⟨3⟩ ⟨1⟩ = false := by
  have hstate : Overlapping.mixedState.Reachable := ⟨[Overlapping.program], .standard, 5, rfl⟩
  exact ⟨hstate, classOrder hstate, by decide +kernel, by decide +kernel⟩

end Main

end GradualRuntime
