import GradualRuntime.Proofs.Evaluation
import GradualRuntime.Proofs.Overlay
import Mathlib.Data.List.Infix

/-!
# The growth of names

The names that an object owns are a list that only grows at its end. Storing a property is the one
thing that is done to the names of an object that exists: it keeps the list when the name is there
and appends the name when it is not (`ownNames_define_self`). So after every change of a state the
names of every object are what they were, with maybe more names behind them (`Heap.NamesGrow`), and
with them the list of names grows along every run.

`nameGrowth` says so for all moments of all runs, and for each operation, body and call carried out
in whatever state. Since prototype chains never change (`WellFormed.chain_of_grows`), a name that is
there for an object, its own or inherited, is there for good.
-/

set_option autoImplicit false

namespace GradualRuntime

namespace Heap

section Names

/-- Every object owns the names that it owned, in their order, and maybe more behind them. -/
def NamesGrow (earlier later : Heap) : Prop :=
  ∀ object, earlier.ownNames object <+: later.ownNames object

variable {heap before middle after : Heap} {object : ObjectId} {name : String}

theorem NamesGrow.refl (heap : Heap) : heap.NamesGrow heap := fun _ ↦ List.prefix_rfl

theorem NamesGrow.trans (h : before.NamesGrow middle) (hnext : middle.NamesGrow after) :
    before.NamesGrow after := fun object ↦ (h object).trans (hnext object)

theorem NamesGrow.of_eq (hobjects : after.objects = before.objects) : before.NamesGrow after := by
  intro object
  rw [ownNames, ownNames, slots, slots, hobjects]

theorem NamesGrow.hasOwn (h : before.NamesGrow after) (hown : before.hasOwn object name = true) :
    after.hasOwn object name = true := by
  rw [hasOwn_iff_mem_ownNames] at hown ⊢
  exact (h object).subset hown

theorem ownNames_nodup (heap : Heap) (object : ObjectId) : (heap.ownNames object).Nodup :=
  (heap.slots object).keys_nodup

/-- A reference that was never given out has no names. -/
theorem ownNames_of_unknown (h : ¬object.index < heap.objects.size) :
    heap.ownNames object = [] := by
  have hnone : heap.objects.get? object.index = none := by
    simpa [Arena.get?, Arena.size] using h
  rw [ownNames, slots, hnone]
  rfl

theorem prefix_includeName (names : List String) (name : String) :
    names <+: includeName names name := by
  unfold includeName
  split
  · exact List.prefix_rfl
  · exact List.prefix_append names [name]

/-- A store leaves the names of the object as they are, or appends one. -/
theorem namesGrow_define (heap : Heap) (target : ObjectId) (name : String) (property : Property) :
    heap.NamesGrow (heap.define target name property) := by
  intro object
  by_cases hobject : object = target
  · subst hobject
    by_cases hexists : object.index < heap.objects.size
    · rw [ownNames_define_self hexists]
      exact prefix_includeName _ name
    · rw [ownNames_of_unknown hexists]
      exact List.nil_prefix
  · rw [(edits_define target heap name property).ownNames_eq hobject]

/-- A store appends the name to the names of the object when it is new, and does nothing else to the
names of any object. -/
theorem ownNames_define (heap : Heap) {target : ObjectId}
    (htarget : target.index < heap.objects.size) (name : String) (property : Property)
    (object : ObjectId) :
    (heap.define target name property).ownNames object =
      if object = target ∧ heap.hasOwn target name = false then heap.ownNames object ++ [name]
      else heap.ownNames object := by
  by_cases hobject : object = target
  · subst hobject
    have hmem := heap.hasOwn_iff_mem_ownNames object name
    rw [ownNames_define_self htarget, includeName]
    cases hown : heap.hasOwn object name with
    | true => rw [if_pos (hmem.1 hown), if_neg (by simp)]
    | false => rw [if_neg fun h ↦ by simp [hmem.2 h] at hown, if_pos ⟨rfl, rfl⟩]
  · rw [(edits_define target heap name property).ownNames_eq hobject, if_neg (by simp [hobject])]

/-- What exists keeps its names when everything that exists is preserved. -/
theorem Preserved.namesGrow (h : before.Preserved after) : before.NamesGrow after := by
  intro object
  by_cases hexists : object.index < before.objects.size
  · rw [ownNames, ownNames, h.slots_eq hexists]
  · rw [ownNames_of_unknown hexists]
    exact List.nil_prefix

theorem Change.namesGrow {may : Permission} (h : Change may before after) :
    before.NamesGrow after := by
  cases h with
  | define target name property allowed => exact before.namesGrow_define target name property
  | addObject object known => exact (before.preserved_addObject object).namesGrow
  | declare record members statics fits ofPrototype ofStatics known =>
    exact (((before.preserved_addObject _).trans (preserved_addObject _ _)).trans
      (preserved_addClass _ record)).namesGrow
  | addCell cellName isMutable initializer => exact .of_eq rfl
  | addGeneric constructorFunction => exact .of_eq rfl

end Names

section Inherited

variable {heap later : Heap} {object : ObjectId} {name : String}

/-- The prototype chain of an object that exists stays the same. -/
theorem WellFormed.chain_of_grows (h : heap.WellFormed) (hlater : heap.Grows later)
    (hobject : object.index < heap.objects.size) : later.chain object = heap.chain object := by
  unfold chain
  generalize object.index + 1 = bound
  induction bound generalizing object with
  | zero => rfl
  | succ bound ih =>
    simp only [chainWithin, hlater.prototypes object hobject]
    cases hparent : heap.prototype? object with
    | none => rfl
    | some parent =>
      have hless := h.prototypes object parent hparent
      exact congrArg (object :: ·) (ih (Nat.lt_trans hless hobject))

theorem isSome_firstOwner_iff (heap : Heap) (name : String) (objects : List ObjectId) :
    (heap.firstOwner name objects).isSome = true ↔
      ∃ holder ∈ objects, heap.hasOwn holder name = true := by
  induction objects with
  | nil => simp [firstOwner]
  | cons object rest ih =>
    cases hown : heap.own? object name with
    | none => simp [firstOwner, hown, hasOwn_eq_isSome, ih]
    | some property => simp [firstOwner, hown, hasOwn_eq_isSome]

/-- A name that is there for an object is there in every later heap that has kept the names. -/
theorem WellFormed.has_of_namesGrow (h : heap.WellFormed) (hlater : heap.Grows later)
    (hnames : heap.NamesGrow later) (hhas : heap.has object name = true) :
    later.has object name = true := by
  obtain ⟨found, hfound⟩ := Option.isSome_iff_exists.1 hhas
  rw [has, lookup, isSome_firstOwner_iff, h.chain_of_grows hlater (exists_of_lookup hfound)]
  rw [has, lookup, isSome_firstOwner_iff] at hhas
  obtain ⟨holder, hholder, hown⟩ := hhas
  exact ⟨holder, hholder, hnames.hasOwn hown⟩

end Inherited

end Heap

section Runs

theorem State.Change.namesGrow {may : Heap.Permission} {before after : State}
    (h : State.Change may before after) : before.heap.NamesGrow after.heap := by
  cases h with
  | heap change => exact change.namesGrow
  | addMap contents =>
    exact (before.heap.preserved_addObject _).namesGrow.trans (.of_eq rfl)
  | _ => exact .of_eq rfl

theorem Ledger.Transition.namesGrow {before after : Ledger} (h : Ledger.Transition before after) :
    before.state.heap.NamesGrow after.state.heap := by
  cases h with
  | change change => exact change.namesGrow
  | settle entered state outcome name purpose => cases outcome <;> exact .of_eq rfl
  | _ => exact .of_eq rfl

theorem Ledger.Transitions.namesGrow {before after : Ledger}
    (h : Ledger.Transitions before after) : before.state.heap.NamesGrow after.state.heap := by
  induction h with
  | refl => exact .refl _
  | tail _ hlast ih => exact ih.trans hlast.namesGrow

/-- The names of all objects grow when an orderly computation is carried out. -/
theorem Progress.EndsWith.namesGrow {α : Type} {progress : Progress α} {outcome : Except Fault α}
    {before after : State} (h : progress.EndsWith outcome after)
    (horderly : Progress.Orderly before progress) : before.heap.NamesGrow after.heap :=
  (h.transitions horderly []).namesGrow

/-- The names that objects own and inherit in the course of a run. -/
structure NameGrowth (bodies : List Body) (start : State) : Prop where
  /-- No object owns a name twice. -/
  distinct : ∀ index object,
    ((Session.moment bodies start index).state.heap.ownNames object).Nodup
  /-- The names that an object owns at a moment stand first, in the same order, at every later
  moment. -/
  growing : ∀ earlier later, earlier ≤ later → ∀ object,
    (Session.moment bodies start earlier).state.heap.ownNames object <+:
      (Session.moment bodies start later).state.heap.ownNames object
  /-- A store keeps the names of the object when it owns the name already, and otherwise appends the
  name. The names of other objects stay the same. -/
  stored : ∀ (heap : Heap) target name property, target.index < heap.objects.size → ∀ object,
    (heap.define target name property).ownNames object =
      if object = target ∧ heap.hasOwn target name = false then heap.ownNames object ++ [name]
      else heap.ownNames object
  /-- Whatever an operation does, carried out in any state, the names grow. -/
  operation : ∀ realm (operation : Operation) operands before outcome after,
    (operation.execute realm operands before).EndsWith outcome after →
      before.heap.NamesGrow after.heap
  /-- Whatever a body does, carried out in any state, the names grow. -/
  body : ∀ (body : Body) before outcome after,
    (body.run before).EndsWith outcome after → before.heap.NamesGrow after.heap
  /-- Whatever a function does that is called in any state, the names grow. -/
  call : ∀ call before outcome after,
    (Machine.enter call before).EndsWith outcome after → before.heap.NamesGrow after.heap
  /-- A name that an object owns is its own for good. -/
  own : ∀ earlier later, earlier ≤ later → ∀ object name,
    (Session.moment bodies start earlier).state.heap.hasOwn object name = true →
      (Session.moment bodies start later).state.heap.hasOwn object name = true
  /-- A name that is there for an object, its own or inherited, is there for good. -/
  inherited : ∀ earlier later, earlier ≤ later → ∀ object name,
    (Session.moment bodies start earlier).state.heap.has object name = true →
      (Session.moment bodies start later).state.heap.has object name = true

/-- In every run, names are only ever added behind the ones that are there. -/
theorem nameGrowth (bodies : List Body) (realm : Realm) : NameGrowth bodies (.fresh realm) where
  distinct _ object := Heap.ownNames_nodup _ object
  growing _ _ h := (Session.transitions_moment bodies (.fresh realm) h).namesGrow
  stored heap _ name property htarget object := heap.ownNames_define htarget name property object
  operation realm operation operands before _ _ h :=
    h.namesGrow (careful_execute realm operation operands before).orderly
  body body before _ _ h := h.namesGrow (orderly_body body before)
  call call before _ _ h := by
    have hentered : before.heap.NamesGrow (before.enter call).heap := .of_eq rfl
    exact hentered.trans (h.namesGrow (orderly_enter call before))
  own _ _ h _ _ hown := (Session.transitions_moment bodies (.fresh realm) h).namesGrow.hasOwn hown
  inherited earlier _ h _ _ hhas := by
    have htransitions := Session.transitions_moment bodies (.fresh realm) h
    exact (Session.wellFormed_moment bodies realm earlier).has_of_namesGrow htransitions.grows
      htransitions.namesGrow hhas

end Runs

end GradualRuntime
