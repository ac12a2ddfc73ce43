import GradualRuntime.Proofs.Composition

/-!
# The table of a mixin type

A mixin application fixes the members of its type once and for all, and leaves everything else to
the base. `mixinTable` follows an application through the rest of its run. When it happens it makes
the class that `Mixin.Composed` describes, at once and without touching anything that exists
(`Mixin.Undisturbed`). At every later moment, as long as nothing has been stored into the prototype
but the values of its own lazy slots (`Heap.Spares`), the table stands (`Mixin.Stands`): the names
that the sources supplied are found in the prototype itself, every other name is whatever the
prototype of the base then gives, and no edit of an object that is not on that chain is seen.
-/

set_option autoImplicit false

namespace GradualRuntime

section Materialization

/-- What a descriptor can be later on, when nothing is stored over it: itself or, for a binding
whose cell has its value, the slot that holds the value. -/
inductive Property.Becomes (heap : Heap) : Property → Property → Prop where
  | same (property : Property) : Becomes heap property property
  | materialized {cell : CellId} {record : LazyCell} {value : Value}
    (present : heap.cell? cell = some record) (done : record.state = .initialized value) :
    Becomes heap (.binding cell) (record.materialized value)

/-- From one heap to another, the own slots of an object have at most been materialized. -/
structure Heap.Spares (object : ObjectId) (earlier later : Heap) : Prop where
  owned : ∀ name property, earlier.own? object name = some property →
    ∃ current, later.own? object name = some current ∧ property.Becomes later current
  absent : ∀ name, earlier.own? object name = none → later.own? object name = none

/-- A cell that has its value stays exactly as it is. -/
def Heap.KeepsValues (earlier later : Heap) : Prop :=
  ∀ cell record value, earlier.cell? cell = some record → record.state = .initialized value →
    later.cell? cell = some record

variable {earlier middle later heap : Heap} {object : ObjectId}

theorem Property.Becomes.trans {original between current : Property}
    (h : original.Becomes earlier between) (hvalues : earlier.KeepsValues later)
    (hnext : between.Becomes later current) : original.Becomes later current := by
  cases h with
  | same => exact hnext
  | materialized present done =>
    -- a slot that holds a value is no binding any more
    cases hnext with
    | same => exact .materialized (hvalues _ _ _ present done) done

theorem Heap.Spares.refl (object : ObjectId) (heap : Heap) : Heap.Spares object heap heap :=
  ⟨fun _ property hproperty ↦ ⟨property, hproperty, .same property⟩, fun _ hnone ↦ hnone⟩

theorem Heap.Spares.trans (h : Heap.Spares object earlier middle)
    (hvalues : middle.KeepsValues later) (hnext : Heap.Spares object middle later) :
    Heap.Spares object earlier later := by
  refine ⟨fun name property hproperty ↦ ?_, fun name hnone ↦
    hnext.absent name (h.absent name hnone)⟩
  obtain ⟨between, hbetween, hfirst⟩ := h.owned name property hproperty
  obtain ⟨current, hcurrent, hsecond⟩ := hnext.owned name between hbetween
  exact ⟨current, hcurrent, hfirst.trans hvalues hsecond⟩

/-- Editing an object that is not on a prototype chain changes no lookup along that chain. -/
theorem Heap.lookup_define_of_notMem {edited : ObjectId} (h : edited ∉ heap.chain object)
    (name other : String) (property : Property) :
    (heap.define edited name property).lookup object other = heap.lookup object other := by
  rw [lookup, chain_define, lookup]
  generalize heap.chain object = objects at h
  induction objects with
  | nil => rfl
  | cons first rest ih =>
    have hfirst : first ≠ edited := fun heq ↦ h (heq ▸ List.mem_cons_self)
    have hrest : edited ∉ rest := fun hmem ↦ h (List.mem_cons_of_mem first hmem)
    simp only [firstOwner, own?_define_of_ne heap hfirst, ih hrest]

end Materialization

section Sessions

variable {bodies : List Body} {realm : Realm} {object : ObjectId}

theorem Session.keepsValues_moment {earlier later : Nat} (h : earlier ≤ later) :
    (moment bodies (.fresh realm) earlier).state.heap.KeepsValues
      (moment bodies (.fresh realm) later).state.heap := by
  intro cell record value hrecord hvalue
  obtain ⟨moved, hmoved, hadvances⟩ := advances_moment h hrecord
  have hsame : moved = record := by
    have hstate := hadvances.eq_of_initialized hvalue
    obtain ⟨name, isMutable, state⟩ := record
    obtain ⟨movedName, movedMutable, movedState⟩ := moved
    obtain ⟨hname, hmutable, -⟩ := hadvances
    simp_all
  rw [hmoved, hsame]

/-- An object that is spared from each moment to the next is spared altogether. -/
theorem Session.spares_moment {first later : Nat} (h : first ≤ later)
    (hspares : ∀ between, first ≤ between → between < later →
      Heap.Spares object (moment bodies (.fresh realm) between).state.heap
        (moment bodies (.fresh realm) (between + 1)).state.heap) :
    Heap.Spares object (moment bodies (.fresh realm) first).state.heap
      (moment bodies (.fresh realm) later).state.heap := by
  induction later, h using Nat.le_induction with
  | base => exact .refl object _
  | succ later hlater ih =>
    have hbefore := ih fun between hfirst hbetween ↦
      hspares between hfirst (Nat.lt_succ_of_lt hbetween)
    exact hbefore.trans (keepsValues_moment (Nat.le_succ later))
      (hspares later hlater (Nat.lt_succ_self later))

end Sessions

section Tables

/-- The table of a mixin type, as it was made in `made`, still decides the lookups through its
prototype in `now`. -/
structure Mixin.Stands (made now : Heap) (base prototype : ObjectId) : Prop where
  /-- What the sources supplied is found in the prototype itself. -/
  supplied : ∀ name property, made.own? prototype name = some property →
    ∃ current, now.lookup prototype name = some (prototype, current) ∧
      property.Becomes now current
  /-- Every other name is what the prototype of the base gives now. -/
  inherited : ∀ name, made.own? prototype name = none →
    now.lookup prototype name = now.lookup base name
  /-- Edits of other objects that are not on the chain of the base are not seen. -/
  detached : ∀ edited, edited ≠ prototype → edited ∉ now.chain base →
    ∀ name property other,
      (now.define edited name property).lookup prototype other = now.lookup prototype other

theorem Mixin.stands_of_spares {made now : Heap} {base prototype : ObjectId}
    (hwell : now.WellFormed) (hlink : now.prototype? prototype = some base)
    (hspares : Heap.Spares prototype made now) : Mixin.Stands made now base prototype where
  supplied name property hproperty := by
    obtain ⟨current, hcurrent, hbecomes⟩ := hspares.owned name property hproperty
    exact ⟨current, Heap.lookup_of_own?_eq_some hcurrent, hbecomes⟩
  inherited name hnone := by
    rw [hwell.lookup_eq_or hlink, hspares.absent name hnone]
    rfl
  detached edited hother hchain name property other := by
    refine Heap.lookup_define_of_notMem ?_ name other property
    rw [hwell.chain_eq_cons hlink, List.mem_cons, not_or]
    exact ⟨hother, hchain⟩

/-- The history of a mixin application: it happens between `before` and `after`, and the moment
after it is the one after `index`. -/
structure MixinTable (bodies : List Body) (start : State) (index : Nat) (before after : State)
    (base : ClassId) (sources : List ClassId) (derived : ClassId) (baseRecord record : Class) :
    Prop where
  composed :
    Mixin.Composed before.heap after.heap base sources derived baseRecord record
  undisturbed : Mixin.Undisturbed before after record
  /-- The prototypes of the sources are other objects. -/
  apart : ∀ owner ∈ before.heap.prototypesOf sources, owner ≠ record.prototype
  /-- A name that no source owns is what the prototype of the base gives. -/
  inherited : ∀ name, name ∉ after.heap.ownNames record.prototype →
    after.heap.lookup record.prototype name = before.heap.lookup baseRecord.prototype name
  /-- The table stands as long as nothing is stored into the prototype but the values of its lazy
  slots. -/
  stands : ∀ later, index < later →
    (∀ between, index < between → between < later →
      Heap.Spares record.prototype (Session.moment bodies start between).state.heap
        (Session.moment bodies start (between + 1)).state.heap) →
      Mixin.Stands after.heap (Session.moment bodies start later).state.heap
        baseRecord.prototype record.prototype

theorem Operands.classes_map (references : List ClassId) (state : State) :
    Operands.classes (references.map .type) state = .ended (.ok references) state := by
  induction references with
  | nil => rfl
  | cons reference rest ih => simp [Operands.classes, ih]

/-- The operation of a body that applies a mixin. -/
theorem Operation.execute_mixin {place : RealmId} {base derived : ClassId}
    {sources : List ClassId} {before after : State}
    (hknown : (Value.type base :: sources.map Value.type).all before.heap.knows = true)
    (hcompose : Mixin.compose base sources before = .ended (.ok derived) after) :
    (Operation.type .mixin).execute place (.type base :: sources.map .type) before =
      .ended (.ok (.value (.type derived))) after := by
  rw [execute_of_known hknown]
  have hcarry : (Operation.type .mixin).carryOut place (.type base :: sources.map .type) =
      Operands.classes (sources.map .type) >>= fun sources ↦
        Mixin.compose base sources >>= fun derived ↦ pure (.value (.type derived)) := rfl
  rw [hcarry, Run.bind_of_ok (Operands.classes_map sources before), Run.bind_of_ok hcompose]
  rfl

/-- A class made as described, in a run that goes on from there, has a table that stands. -/
theorem Mixin.Composed.table {bodies : List Body} {realm : Realm} {index : Nat}
    {before after : State} {base derived : ClassId} {sources : List ClassId}
    {baseRecord record : Class}
    (hcomposed : Mixin.Composed before.heap after.heap base sources derived baseRecord record)
    (hundisturbed : Mixin.Undisturbed before after record)
    (hwell : before.heap.WellFormed)
    (hafter : (Session.moment bodies (.fresh realm) (index + 1)).state = after) :
    MixinTable bodies (.fresh realm) index before after base sources derived baseRecord
      record where
  composed := hcomposed
  undisturbed := hundisturbed
  apart owner howner := by
    rw [hcomposed.fresh]
    exact Mixin.ne_nextObject (Mixin.index_lt_of_mem_prototypesOf hwell howner)
  inherited name hname := by
    have hwellAfter : after.heap.WellFormed :=
      hafter ▸ Session.wellFormed_moment bodies realm (index + 1)
    have hnone : after.heap.own? record.prototype name = none :=
      (after.heap.own?_eq_none_iff record.prototype name).2 hname
    have hfits := hwell.classes base baseRecord hcomposed.known
    rw [hwellAfter.lookup_eq_or hcomposed.link, hnone, Option.map_none, Option.none_or,
      hwell.lookup_of_preserved hundisturbed.preserved hfits.prototype]
  stands later hlater hspares := by
    have hgrows := (Session.transitions_moment bodies (.fresh realm) hlater).grows
    have hspared := Session.spares_moment hlater hspares
    have hstart : (Session.moment bodies (.fresh realm) (index + 1)).ledger.state = after := hafter
    rw [hafter] at hspared
    rw [hstart] at hgrows
    refine Mixin.stands_of_spares (Session.wellFormed_moment bodies realm later) ?_ hspared
    exact (hgrows.prototypes record.prototype hcomposed.prototype_lt).trans hcomposed.link

/-- Every application of a mixin to classes that exist makes the class described, and its table
stands for the rest of the run. -/
theorem mixinTable {bodies : List Body} {realm : Realm} {index : Nat} {frames : List PendingCall}
    {place : RealmId} {base : ClassId} {sources : List ClassId}
    {next : Except Fault Answer → Body} {before : State}
    (hmoment : (Session.moment bodies (.fresh realm) index).configuration =
      ⟨frames, (Body.perform place (.type .mixin) (.type base :: sources.map .type) next).run
        before⟩)
    (hbase : base.index < before.heap.classes.size)
    (hsources : ∀ source ∈ sources, source.index < before.heap.classes.size) :
    ∃ derived baseRecord record after,
      (Session.moment bodies (.fresh realm) (index + 1)).configuration =
        ⟨frames, (next (.ok (.value (.type derived)))).run after⟩ ∧
      MixinTable bodies (.fresh realm) index before after base sources derived baseRecord
        record := by
  have hstate : (Session.moment bodies (.fresh realm) index).state = before :=
    Session.state_of_run hmoment
  have hwell : before.heap.WellFormed := hstate ▸ Session.wellFormed_moment bodies realm index
  obtain ⟨baseRecord, hrecord⟩ := Heap.exists_class?_of_lt hbase
  have hcompose := Mixin.compose_of_known hwell hrecord hsources
  have hknown : (Value.type base :: sources.map Value.type).all before.heap.knows = true := by
    simpa [Heap.knows] using ⟨hbase, hsources⟩
  have hnext : (Session.moment bodies (.fresh realm) (index + 1)).configuration =
      ⟨frames, (next (.ok (.value (.type before.heap.nextClass)))).run
        (Mixin.appliedState before base baseRecord sources)⟩ :=
    Session.configuration_of_perform hmoment (Operation.execute_mixin hknown hcompose)
  have hcomposed := Mixin.composed_applied sources hwell hrecord
  exact ⟨before.heap.nextClass, baseRecord, _, _, hnext, hcomposed.table
    (Mixin.undisturbed_appliedState before base baseRecord sources) hwell
      (Session.state_of_run hnext)⟩

/-- Of two sources that own `m`, the last one supplies it. -/
theorem mixinTable_overlapping :
    (Session.moment [Overlapping.program] (.fresh .standard) 4).configuration =
        ⟨[], Overlapping.application.run Overlapping.state⟩ ∧
      (0 < Overlapping.state.heap.classes.size ∧
        ∀ source ∈ ([⟨1⟩, ⟨2⟩] : List ClassId),
          source.index < Overlapping.state.heap.classes.size) ∧
      ∃ derived baseRecord record after,
        MixinTable [Overlapping.program] (.fresh .standard) 4 Overlapping.state after ⟨0⟩ [⟨1⟩, ⟨2⟩]
          derived baseRecord record ∧
        after.heap.ownNames record.prototype = ["m", "one"] ∧
        after.heap.own? record.prototype "m" = some (.ordinary (.integer 2)) := by
  have hbase : 0 < Overlapping.state.heap.classes.size := by decide +kernel
  have hsources : ∀ source ∈ ([⟨1⟩, ⟨2⟩] : List ClassId),
      source.index < Overlapping.state.heap.classes.size := by decide +kernel
  obtain ⟨derived, baseRecord, record, after, -, htable⟩ :=
    mixinTable Overlapping.moment_program hbase hsources
  refine ⟨Overlapping.moment_program, ⟨hbase, hsources⟩, derived, baseRecord, record, after, htable,
    ?_, ?_⟩
  · rw [htable.composed.names]
    decide +kernel
  · rw [htable.composed.entries]
    decide +kernel

end Tables

end GradualRuntime
