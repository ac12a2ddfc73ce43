import GradualRuntime.Proofs.CellLifecycle

/-!
# Well-formed heaps

References point to what is older. In a well-formed heap (`Heap.WellFormed`) the prototype of an
object has a smaller number than the object, and whatever a class refers to has been made before it.
The heap of every moment of every session is well-formed (`Session.wellFormed_moment`).

This makes the bounded walks of the library complete: the prototype chain of an object is the object
followed by the chain of its prototype (`chain_eq_cons`), a lookup asks the object and then its
prototype (`lookup_eq_or`), and the lineage of a class continues with that of its superclass
(`lineage_eq_cons`).

Prototype links and classes are never changed: a later heap has the links and classes of an earlier
one (`Heap.Grows`). A heap that also leaves the slots of the earlier objects as they were
(`Heap.Preserved`) answers every lookup through these objects alike (`lookup_of_preserved`).
-/

set_option autoImplicit false

namespace GradualRuntime

namespace Heap

section Definitions

/-- References point to what is older. -/
structure WellFormed (heap : Heap) : Prop where
  prototypes : ∀ object parent, heap.prototype? object = some parent →
    parent.index < object.index
  classes : ∀ reference record, heap.class? reference = some record →
    record.Fits heap.objects.size reference.index

/-- A later heap: the objects of the earlier one have the prototypes that they had, and its classes
are what they were. -/
structure Grows (earlier later : Heap) : Prop where
  objects : earlier.objects.size ≤ later.objects.size
  prototypes : ∀ object, object.index < earlier.objects.size →
    later.prototype? object = earlier.prototype? object
  classes : ∀ reference record, earlier.class? reference = some record →
    later.class? reference = some record

/-- Everything in the earlier heap is in the later one as it was. -/
structure Preserved (earlier later : Heap) : Prop where
  size : earlier.objects.size ≤ later.objects.size
  objects : ∀ object : ObjectId, object.index < earlier.objects.size →
    later.objects.get? object.index = earlier.objects.get? object.index
  classes : ∀ reference record, earlier.class? reference = some record →
    later.class? reference = some record

end Definitions

section Growth

variable {heap before after : Heap}

/-- A heap with the same objects and classes. -/
theorem Grows.of_eq (hobjects : after.objects = before.objects)
    (hclasses : after.classes = before.classes) : before.Grows after := by
  refine ⟨Nat.le_of_eq (congrArg Arena.size hobjects.symm), fun object _ ↦ ?_,
    fun reference record hrecord ↦ ?_⟩
  · rw [prototype?, hobjects, prototype?]
  · rw [class?, hclasses]
    exact hrecord

theorem Grows.refl (heap : Heap) : heap.Grows heap := .of_eq rfl rfl

theorem Grows.trans {first second third : Heap} (h : first.Grows second)
    (hnext : second.Grows third) : first.Grows third := by
  refine ⟨Nat.le_trans h.objects hnext.objects, fun object hobject ↦ ?_,
    fun reference record hrecord ↦ hnext.classes reference record
      (h.classes reference record hrecord)⟩
  rw [hnext.prototypes object (Nat.lt_of_lt_of_le hobject h.objects), h.prototypes object hobject]

theorem prototype?_addObject_of_lt {object : ObjectId} (h : object.index < heap.objects.size)
    (added : Object) : (heap.addObject added).prototype? object = heap.prototype? object := by
  simp only [prototype?, addObject, Arena.get?_push_of_lt h]

theorem prototype?_addObject_self (heap : Heap) (added : Object) :
    (heap.addObject added).prototype? heap.nextObject = added.prototype := by
  simp [prototype?, addObject, nextObject]

theorem class?_addClass_of_lt {reference : ClassId} (h : reference.index < heap.classes.size)
    (added : Class) : (heap.addClass added).class? reference = heap.class? reference :=
  Arena.get?_push_of_lt h added

theorem class?_addClass_self (heap : Heap) (added : Class) :
    (heap.addClass added).class? heap.nextClass = some added :=
  Arena.get?_push_size heap.classes added

theorem grows_define (heap : Heap) (object : ObjectId) (name : String) (property : Property) :
    heap.Grows (heap.define object name property) := by
  refine ⟨Nat.le_of_eq ?_, fun other _ ↦ heap.prototype?_define object other name property,
    fun _ _ h ↦ h⟩
  rw [size_objects_define]

theorem grows_addObject (heap : Heap) (added : Object) : heap.Grows (heap.addObject added) := by
  refine ⟨?_, fun _ h ↦ prototype?_addObject_of_lt h added, fun _ _ h ↦ h⟩
  rw [addObject, Arena.size_push]
  exact Nat.le_succ _

theorem grows_addClass (heap : Heap) (added : Class) : heap.Grows (heap.addClass added) :=
  ⟨Nat.le_refl _, fun _ _ ↦ rfl, fun _ _ h ↦
    (class?_addClass_of_lt (lt_of_class?_eq_some h) added).trans h⟩

/-- Every change of the heap leaves prototype links and classes alone. -/
theorem Change.grows {may : Permission} (h : Change may before after) : before.Grows after := by
  cases h with
  | define object name property allowed => exact before.grows_define object name property
  | addObject object known => exact before.grows_addObject object
  | declare record members statics fits ofPrototype ofStatics known =>
    exact ((grows_addObject _ _).trans (grows_addObject _ _)).trans (grows_addClass _ record)
  | _ => exact .of_eq rfl rfl

namespace Preserved

variable {earlier later : Heap} {object : ObjectId}

theorem refl (heap : Heap) : heap.Preserved heap :=
  ⟨Nat.le_refl _, fun _ _ ↦ rfl, fun _ _ h ↦ h⟩

theorem trans {first second third : Heap} (h : first.Preserved second)
    (hnext : second.Preserved third) : first.Preserved third := by
  refine ⟨Nat.le_trans h.size hnext.size, fun object hobject ↦ ?_, fun reference record hrecord ↦
    hnext.classes reference record (h.classes reference record hrecord)⟩
  rw [hnext.objects object (Nat.lt_of_lt_of_le hobject h.size), h.objects object hobject]

theorem slots_eq (h : earlier.Preserved later) (hobject : object.index < earlier.objects.size) :
    later.slots object = earlier.slots object := by
  simp only [slots, h.objects object hobject]

theorem own?_eq (h : earlier.Preserved later) (hobject : object.index < earlier.objects.size)
    (name : String) : later.own? object name = earlier.own? object name := by
  rw [own?, h.slots_eq hobject, own?]

theorem prototype?_eq (h : earlier.Preserved later)
    (hobject : object.index < earlier.objects.size) :
    later.prototype? object = earlier.prototype? object := by
  simp only [prototype?, h.objects object hobject]

theorem lt_classes (h : earlier.Preserved later) {reference : ClassId}
    (hreference : reference.index < earlier.classes.size) :
    reference.index < later.classes.size := by
  obtain ⟨record, hrecord⟩ := exists_class?_of_lt hreference
  exact lt_of_class?_eq_some (h.classes reference record hrecord)

theorem grows (h : earlier.Preserved later) : earlier.Grows later :=
  ⟨h.size, fun _ hobject ↦ h.prototype?_eq hobject, h.classes⟩

end Preserved

theorem preserved_addObject (heap : Heap) (added : Object) :
    heap.Preserved (heap.addObject added) := by
  refine ⟨?_, fun _ hobject ↦ Arena.get?_push_of_lt hobject added, fun _ _ h ↦ h⟩
  rw [addObject, Arena.size_push]
  exact Nat.le_succ _

theorem preserved_addClass (heap : Heap) (added : Class) : heap.Preserved (heap.addClass added) :=
  ⟨Nat.le_refl _, fun _ _ ↦ rfl, (heap.grows_addClass added).classes⟩

end Growth

section Preservation

variable {before after : Heap}

theorem wellFormed_empty : WellFormed .empty := by
  constructor
  · rintro object parent ⟨⟩
  · rintro reference record ⟨⟩

/-- A heap with the objects and classes of a well-formed one is well-formed. -/
theorem WellFormed.of_eq (h : before.WellFormed) (hobjects : after.objects = before.objects)
    (hclasses : after.classes = before.classes) : after.WellFormed := by
  constructor
  · intro object parent hparent
    rw [prototype?, hobjects] at hparent
    exact h.prototypes object parent hparent
  · intro reference record hrecord
    rw [class?, hclasses] at hrecord
    rw [hobjects]
    exact h.classes reference record hrecord

theorem WellFormed.define (h : before.WellFormed) (object : ObjectId) (name : String)
    (property : Property) : (before.define object name property).WellFormed := by
  constructor
  · intro other parent hparent
    rw [prototype?_define] at hparent
    exact h.prototypes other parent hparent
  · intro reference record hrecord
    rw [size_objects_define]
    exact h.classes reference record hrecord

theorem WellFormed.addObject (h : before.WellFormed) {added : Object}
    (hknown : ∀ parent, added.prototype = some parent → parent.index < before.objects.size) :
    (before.addObject added).WellFormed := by
  constructor
  · intro object parent hparent
    have hexists : object.index < before.objects.size + 1 := by
      simpa [Heap.addObject] using exists_of_prototype?_eq_some hparent
    rcases Nat.lt_succ_iff_lt_or_eq.1 hexists with hold | hnew
    · rw [prototype?_addObject_of_lt hold] at hparent
      exact h.prototypes object parent hparent
    · have hself : object = before.nextObject := congrArg ObjectId.mk hnew
      rw [hself, prototype?_addObject_self] at hparent
      rw [hnew]
      exact hknown parent hparent
  · intro reference record hrecord
    refine (h.classes reference record hrecord).mono ?_
    rw [Heap.addObject, Arena.size_push]
    exact Nat.le_succ _

theorem WellFormed.addClass (h : before.WellFormed) {added : Class}
    (hfits : added.Fits before.objects.size before.classes.size) :
    (before.addClass added).WellFormed := by
  refine ⟨h.prototypes, fun reference record hrecord ↦ ?_⟩
  have hexists : reference.index < before.classes.size + 1 := by
    simpa [Heap.addClass] using lt_of_class?_eq_some hrecord
  rcases Nat.lt_succ_iff_lt_or_eq.1 hexists with hold | hnew
  · rw [class?_addClass_of_lt hold] at hrecord
    exact h.classes reference record hrecord
  · have hself : reference = before.nextClass := congrArg ClassId.mk hnew
    rw [hself, class?_addClass_self, Option.some.injEq] at hrecord
    rw [← hrecord, hnew]
    exact hfits

/-- Making a class on objects that exist keeps a heap well-formed. -/
theorem WellFormed.declare (h : before.WellFormed) {record : Class}
    (members statics : OrderedMap String Property)
    (hfits : record.Fits (before.objects.size + 2) before.classes.size)
    (hknown : ∀ parent, before.parent? record = some parent →
      parent.prototype.index < before.objects.size ∧
        parent.statics.index < before.objects.size + 1) :
    (before.declare record members statics).WellFormed := by
  refine ((h.addObject ?_).addObject ?_).addClass ?_
  · intro object hobject
    obtain ⟨parent, hparent, rfl⟩ := Option.map_eq_some_iff.1 hobject
    exact (hknown parent hparent).1
  · intro object hobject
    obtain ⟨parent, hparent, rfl⟩ := Option.map_eq_some_iff.1 hobject
    simpa [Heap.addObject] using (hknown parent hparent).2
  · simpa [Heap.addObject] using hfits

/-- Every change keeps a heap well-formed. -/
theorem Change.wellFormed {may : Permission} (h : Change may before after)
    (hbefore : before.WellFormed) : after.WellFormed := by
  cases h with
  | define object name property allowed => exact hbefore.define object name property
  | addObject object known => exact hbefore.addObject known
  | declare record members statics fits ofPrototype ofStatics known =>
    exact hbefore.declare members statics fits known
  | _ => exact hbefore.of_eq rfl rfl

end Preservation

section Walks

variable {heap : Heap}

/-- The bound of a walk that goes to smaller numbers only does not matter beyond the number at which
the walk starts. -/
theorem eq_of_descending {Node Result : Type} {number : Node → Nat} {walk : Nat → Node → Result}
    (hdescends : ∀ bound other node,
      (∀ next, number next < number node → walk bound next = walk other next) →
        walk (bound + 1) node = walk (other + 1) node)
    {bound other : Nat} {node : Node} (hbound : number node < bound)
    (hother : number node < other) :
    walk bound node = walk other node := by
  induction bound generalizing other node with
  | zero => exact absurd hbound (Nat.not_lt_zero _)
  | succ bound ih =>
    cases other with
    | zero => exact absurd hother (Nat.not_lt_zero _)
    | succ other =>
      refine hdescends bound other node fun next hless ↦ ?_
      exact ih (Nat.lt_of_lt_of_le hless (Nat.le_of_lt_succ hbound))
        (Nat.lt_of_lt_of_le hless (Nat.le_of_lt_succ hother))

/-- Beyond the number of the object, the bound of a chain does not matter. -/
theorem WellFormed.chainWithin_eq (h : heap.WellFormed) {bound other : Nat} {object : ObjectId}
    (hbound : object.index < bound) (hother : object.index < other) :
    heap.chainWithin bound object = heap.chainWithin other object := by
  refine eq_of_descending (fun bound other object hdescends ↦ ?_) hbound hother
  cases hparent : heap.prototype? object with
  | none => simp only [chainWithin, hparent]
  | some parent =>
    simp only [chainWithin, hparent, hdescends parent (h.prototypes object parent hparent)]

/-- A prototype chain is the object followed by the chain of its prototype. -/
theorem WellFormed.chain_eq_cons (h : heap.WellFormed) {object parent : ObjectId}
    (hparent : heap.prototype? object = some parent) :
    heap.chain object = object :: heap.chain parent := by
  have hrest : heap.chainWithin object.index parent = heap.chain parent :=
    h.chainWithin_eq (h.prototypes object parent hparent) (Nat.lt_succ_self _)
  rw [← hrest]
  simp only [chain, chainWithin, hparent]

/-- A lookup asks the object itself and then its prototype. -/
theorem WellFormed.lookup_eq_or (h : heap.WellFormed) {object parent : ObjectId}
    (hparent : heap.prototype? object = some parent) (name : String) :
    heap.lookup object name =
      ((heap.own? object name).map fun property ↦ (object, property)).or
        (heap.lookup parent name) := by
  rw [lookup, h.chain_eq_cons hparent, firstOwner]
  cases heap.own? object name <;> rfl

/-- What existed is found alike in a heap that preserves it. -/
theorem WellFormed.lookup_of_preserved {later : Heap} (h : heap.WellFormed)
    (hlater : heap.Preserved later) {object : ObjectId}
    (hobject : object.index < heap.objects.size) (name : String) :
    later.lookup object name = heap.lookup object name := by
  unfold lookup chain
  generalize object.index + 1 = bound
  induction bound generalizing object with
  | zero => rfl
  | succ bound ih =>
    simp only [chainWithin, firstOwner, hlater.own?_eq hobject, hlater.prototype?_eq hobject]
    cases hown : heap.own? object name with
    | some property => rfl
    | none =>
      cases hparent : heap.prototype? object with
      | none => rfl
      | some parent => exact ih (Nat.lt_trans (h.prototypes object parent hparent) hobject)

/-- Beyond the number of the class, the bound of a lineage does not matter. -/
theorem WellFormed.lineageWithin_eq (h : heap.WellFormed) {bound other : Nat}
    {reference : ClassId} (hbound : reference.index < bound) (hother : reference.index < other) :
    heap.lineageWithin bound reference = heap.lineageWithin other reference := by
  refine eq_of_descending (fun bound other reference hdescends ↦ ?_) hbound hother
  cases hparent : heap.superclass? reference with
  | none => simp only [lineageWithin, hparent]
  | some parent =>
    obtain ⟨record, hrecord, hsuper⟩ := Option.bind_eq_some_iff.1 hparent
    have hless := (h.classes reference record hrecord).superclass parent hsuper
    simp only [lineageWithin, hparent, hdescends parent hless]

/-- The superclass of a class that exists is the same in a later heap, and so is its lineage. -/
theorem WellFormed.lineage_of_grows {later : Heap} (h : heap.WellFormed) (hlater : heap.Grows later)
    {reference : ClassId} (hreference : reference.index < heap.classes.size) :
    later.lineage reference = heap.lineage reference := by
  unfold lineage
  generalize reference.index + 1 = bound
  induction bound generalizing reference with
  | zero => rfl
  | succ bound ih =>
    obtain ⟨record, hrecord⟩ := exists_class?_of_lt hreference
    have hsame := hlater.classes reference record hrecord
    simp only [lineageWithin, superclass?, hrecord, hsame, Option.bind_some]
    cases hparent : record.superclass with
    | none => rfl
    | some parent =>
      have hless := (h.classes reference record hrecord).superclass parent hparent
      exact congrArg (reference :: ·) (ih (Nat.lt_trans hless hreference))

/-- The lineage of a class continues with the lineage of its superclass. -/
theorem WellFormed.lineage_eq_cons (h : heap.WellFormed) {reference parent : ClassId}
    {record : Class} (hrecord : heap.class? reference = some record)
    (hparent : record.superclass = some parent) :
    heap.lineage reference = reference :: heap.lineage parent := by
  have hlink : heap.superclass? reference = some parent := by
    rw [superclass?, hrecord, Option.bind_some, hparent]
  have hless := (h.classes reference record hrecord).superclass parent hparent
  have hrest : heap.lineageWithin reference.index parent = heap.lineage parent :=
    h.lineageWithin_eq hless (Nat.lt_succ_self _)
  rw [← hrest]
  simp only [lineage, lineageWithin, hlink]

/-- A class inherits from whatever its superclass inherits from. -/
theorem WellFormed.isSubclass_of_superclass (h : heap.WellFormed) {reference parent : ClassId}
    {record : Class} (hrecord : heap.class? reference = some record)
    (hparent : record.superclass = some parent) {other : ClassId}
    (hother : other ∈ heap.lineage parent) : heap.isSubclass reference other = true := by
  rw [isSubclass, decide_eq_true_iff, h.lineage_eq_cons hrecord hparent]
  exact List.mem_cons_of_mem reference hother

end Walks

end Heap

section Sessions

theorem State.Change.grows {may : Heap.Permission} {before after : State}
    (h : State.Change may before after) : before.heap.Grows after.heap := by
  cases h with
  | heap change => exact change.grows
  | addMap contents => exact (Heap.grows_addObject _ _).trans (.of_eq rfl rfl)
  | _ => exact .of_eq rfl rfl

theorem State.Change.wellFormed {may : Heap.Permission} {before after : State}
    (h : State.Change may before after) (hbefore : before.heap.WellFormed) :
    after.heap.WellFormed := by
  cases h with
  | heap change => exact change.wellFormed hbefore
  | addMap contents =>
    have hadded : (before.heap.addObject ⟨none, some LinkedMap.tag,
        LinkedMap.slots before.heap.functions.size⟩).WellFormed := hbefore.addObject nofun
    exact hadded.of_eq rfl rfl
  | _ => exact hbefore.of_eq rfl rfl

namespace Ledger

variable {before after : Ledger}

theorem Transition.grows (h : Transition before after) :
    before.state.heap.Grows after.state.heap := by
  cases h with
  | change change => exact change.grows
  | settle entered state outcome name purpose => cases outcome <;> exact .of_eq rfl rfl
  | _ => exact .of_eq rfl rfl

theorem Transition.wellFormed (h : Transition before after)
    (hbefore : before.state.heap.WellFormed) : after.state.heap.WellFormed := by
  cases h with
  | change change => exact change.wellFormed hbefore
  | settle entered state outcome name purpose => cases outcome <;> exact hbefore.of_eq rfl rfl
  | _ => exact hbefore.of_eq rfl rfl

theorem Transitions.grows (h : Transitions before after) :
    before.state.heap.Grows after.state.heap := by
  induction h with
  | refl => exact .refl _
  | tail _ hlast ih => exact ih.trans hlast.grows

theorem Transitions.wellFormed (h : Transitions before after)
    (hbefore : before.state.heap.WellFormed) : after.state.heap.WellFormed := by
  induction h with
  | refl => exact hbefore
  | tail _ hlast ih => exact hlast.wellFormed ih

end Ledger

/-- When a call has returned, what there was before is still there. -/
theorem Machine.grows_of_enter {call : Call} {state back : State} {answer : Except Fault Answer}
    (h : (Machine.enter call state).EndsWith answer back) : state.heap.Grows back.heap := by
  have hentered : state.heap.Grows (state.enter call).heap := .of_eq rfl rfl
  exact hentered.trans (h.transitions (orderly_enter call state) []).grows

/-- A state that some run of some program passes through. -/
def State.Reachable (state : State) : Prop :=
  ∃ bodies realm index, (Session.moment bodies (.fresh realm) index).state = state

theorem Session.wellFormed_moment (bodies : List Body) (realm : Realm) (index : Nat) :
    (moment bodies (.fresh realm) index).state.heap.WellFormed :=
  Ledger.Transitions.wellFormed (transitions_moment bodies _ (Nat.zero_le index))
    Heap.wellFormed_empty

theorem State.Reachable.wellFormed {state : State} (h : state.Reachable) :
    state.heap.WellFormed := by
  obtain ⟨bodies, realm, index, rfl⟩ := h
  exact Session.wellFormed_moment bodies realm index

end Sessions

end GradualRuntime
