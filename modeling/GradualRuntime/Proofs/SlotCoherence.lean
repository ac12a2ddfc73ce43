import GradualRuntime.Proofs.MixinTable
import GradualRuntime.Proofs.PendingCalls

/-!
# Slots that share a lazy cell

A lazy binding may sit in any number of slots, on any objects and under any names, and each slot is
materialized by its own first read. Two facts keep them together. A slot that nothing is stored into
turns into nothing but what its binding stands for (`Heap.SparesSlot`), through a careful
computation as through a whole move (`Session.Carries.sparesSlot`). And a read that was asked for
earlier puts its value into the slot when the initializer returns, whatever the slot holds by then;
it does no harm when it is a read of the same binding (`Session.shows_succ`).

`slotCoherence` is the result for the moments of a session. From the moment at which a slot has
received the binding of a cell until something is stored into it, the slot holds the binding or the
value of the cell (`Heap.Shows`), provided that no read of another binding of the slot was pending
at first. Whatever is read through such slots is therefore one and the same value.
-/

set_option autoImplicit false

namespace GradualRuntime

section Slots

variable {before after : Heap} {object : ObjectId} {name : String} {property : Property}

/-- A slot shows a cell: it holds the binding of the cell or the value of the cell in its place. -/
def Heap.Shows (heap : Heap) (object : ObjectId) (name : String) (cell : CellId) : Prop :=
  heap.own? object name = some (.binding cell) ∨
    ∃ record value, heap.cell? cell = some record ∧ record.state = .initialized value ∧
      heap.own? object name = some (.data value record.isMutable true)

/-- A slot shows a cell exactly when it holds what the binding of the cell can become. -/
theorem Heap.shows_iff {heap : Heap} {cell : CellId} :
    heap.Shows object name cell ↔
      ∃ current, heap.own? object name = some current ∧
        (Property.binding cell).Becomes heap current := by
  constructor
  · rintro (hbinding | ⟨record, value, hrecord, hvalue, hslot⟩)
    · exact ⟨_, hbinding, .same _⟩
    · exact ⟨_, hslot, .materialized hrecord hvalue⟩
  · rintro ⟨current, hslot, hbecomes⟩
    cases hbecomes with
    | same => exact .inl hslot
    | materialized present done => exact .inr ⟨_, _, present, done, hslot⟩

theorem Heap.Shows.exists_object {heap : Heap} {cell : CellId} (h : heap.Shows object name cell) :
    object.index < heap.objects.size := by
  obtain ⟨current, hslot, -⟩ := shows_iff.1 h
  exact exists_of_own?_eq_some hslot

/-- A slot that shows a cell holds no other binding. -/
theorem Heap.Shows.eq_of_binding {heap : Heap} {cell other : CellId}
    (h : heap.Shows object name cell) (hother : heap.own? object name = some (.binding other)) :
    other = cell := by
  rcases h with hbinding | ⟨record, value, -, -, hslot⟩
  · rw [hbinding] at hother
    cases hother
    rfl
  · rw [hslot] at hother
    cases hother

/-- The slots of a heap depend on its objects only. -/
theorem Heap.own?_congr {earlier later : Heap} (h : later.objects = earlier.objects)
    (object : ObjectId) (name : String) : later.own? object name = earlier.own? object name := by
  simp only [own?, slots, h]

/-- From one heap to another, a slot has at most been materialized; cells have kept their values. -/
structure Heap.SparesSlot (object : ObjectId) (name : String) (earlier later : Heap) : Prop where
  values : earlier.KeepsValues later
  owned : ∀ property, earlier.own? object name = some property →
    ∃ current, later.own? object name = some current ∧ property.Becomes later current

theorem Heap.SparesSlot.of_eq {earlier later : Heap} (hvalues : earlier.KeepsValues later)
    (hslot : later.own? object name = earlier.own? object name) :
    SparesSlot object name earlier later :=
  ⟨hvalues, fun property hproperty ↦ ⟨property, hslot.trans hproperty, .same property⟩⟩

theorem Heap.SparesSlot.refl (object : ObjectId) (name : String) (heap : Heap) :
    SparesSlot object name heap heap := .of_eq (fun _ _ _ hrecord _ ↦ hrecord) rfl

theorem Heap.SparesSlot.trans {first second third : Heap} (h : SparesSlot object name first second)
    (hnext : SparesSlot object name second third) : SparesSlot object name first third := by
  refine ⟨fun cell record value hrecord hvalue ↦ ?_, fun property hproperty ↦ ?_⟩
  · exact hnext.values cell record value (h.values cell record value hrecord hvalue) hvalue
  · obtain ⟨between, hbetween, hfirst⟩ := h.owned property hproperty
    obtain ⟨current, hcurrent, hsecond⟩ := hnext.owned between hbetween
    exact ⟨current, hcurrent, hfirst.trans hnext.values hsecond⟩

/-- After a change of the heap, a slot holds what it held or what it was allowed to get. -/
theorem Heap.Change.slot {may : Heap.Permission} (h : Heap.Change may before after)
    (hproperty : before.own? object name = some property) :
    after.own? object name = some property ∨
      ∃ stored, may before object name stored ∧ after.own? object name = some stored := by
  have hexists := exists_of_own?_eq_some hproperty
  cases h with
  | define target other stored allowed =>
    by_cases hobject : object = target
    · subst hobject
      by_cases hname : name = other
      · subst hname
        exact .inr ⟨stored, allowed, own?_define_self hexists name stored⟩
      · exact .inl ((own?_define_of_name_ne before object object hname stored).trans hproperty)
    · exact .inl ((own?_define_of_ne before hobject other name stored).trans hproperty)
  | addObject added known =>
    exact .inl (((before.preserved_addObject added).own?_eq hexists name).trans hproperty)
  | declare record members statics fits ofPrototype ofStatics known =>
    have hpreserved : before.Preserved (before.declare record members statics) :=
      ((before.preserved_addObject _).trans (preserved_addObject _ _)).trans
        (preserved_addClass _ record)
    exact .inl ((hpreserved.own?_eq hexists name).trans hproperty)
  | addCell cellName isMutable initializer => exact .inl hproperty
  | addGeneric constructorFunction => exact .inl hproperty

end Slots

section Changes

variable {before after : State} {object : ObjectId} {name : String} {property : Property}

theorem State.Change.slot {may : Heap.Permission} (h : State.Change may before after)
    (hproperty : before.heap.own? object name = some property) :
    after.heap.own? object name = some property ∨
      ∃ stored, may before.heap object name stored ∧
        after.heap.own? object name = some stored := by
  cases h with
  | heap change => exact change.slot hproperty
  | addMap contents =>
    have hkept : (before.addMap contents).heap.objects.get? object.index =
        before.heap.objects.get? object.index :=
      Arena.get?_push_of_lt (Heap.exists_of_own?_eq_some hproperty) _
    refine .inl (Eq.trans ?_ hproperty)
    simp only [Heap.own?, Heap.slots, hkept]
  | _ => exact .inl hproperty

theorem State.Change.keepsValues {may : Heap.Permission} (h : State.Change may before after) :
    before.heap.KeepsValues after.heap := by
  intro cell record value hrecord _
  rcases h.cell? cell with hsame | ⟨hnone, -⟩
  · exact hsame.trans hrecord
  · rw [hnone] at hrecord
    cases hrecord

/-- One change spares a slot that nothing is stored into. -/
theorem State.Change.sparesSlot {stored : ObjectId → String → Prop}
    (h : State.Change (.storing stored) before after) (hspared : ¬stored object name) :
    Heap.SparesSlot object name before.heap after.heap := by
  refine ⟨h.keepsValues, fun property hproperty ↦ ?_⟩
  rcases h.slot hproperty with hsame | ⟨current, hallowed, hcurrent⟩
  · exact ⟨property, hsame, .same property⟩
  · refine ⟨current, hcurrent, ?_⟩
    cases hallowed.resolve_left hspared with
    | intro held present done =>
      obtain rfl := Option.some.inj (held.symm.trans hproperty)
      exact .materialized (h.keepsValues _ _ _ present done) done

theorem State.Changes.sparesSlot {stored : ObjectId → String → Prop}
    (h : State.Changes (.storing stored) before after) (hspared : ¬stored object name) :
    Heap.SparesSlot object name before.heap after.heap := by
  induction h with
  | refl => exact .refl object name _
  | tail _ hlast ih => exact ih.trans (hlast.sparesSlot hspared)

theorem State.Changes.sparesSlot_of_materializes
    (h : State.Changes Heap.Materializes before after) (object : ObjectId) (name : String) :
    Heap.SparesSlot object name before.heap after.heap := by
  have hnothing : State.Changes (.storing fun _ _ ↦ False) before after :=
    Progress.Careful.changes_storing h
  exact hnothing.sparesSlot id

/-- Starting a cell that has not been accessed touches no slot and no value. -/
theorem State.sparesSlot_startCell {state : State} {cell : CellId} {record : LazyCell}
    {initializer : FunctionId} (present : state.heap.cell? cell = some record)
    (waiting : record.state = .uninitialized initializer) (cellName : String) :
    Heap.SparesSlot object name state.heap (state.startCell cell cellName).heap := by
  refine .of_eq (fun other found value hfound hvalue ↦ ?_) rfl
  by_cases hother : other = cell
  · subst hother
    obtain rfl := Option.some.inj (present.symm.trans hfound)
    rw [waiting] at hvalue
    cases hvalue
  · exact (state.heap.cell?_setCellState_of_ne hother .inProgress).trans hfound

/-- A careful computation spares the slots that it does not store into at its end. -/
theorem Progress.Careful.sparesSlot {α : Type} {slots : Footprint α} {progress : Progress α}
    (h : Progress.Careful slots before progress)
    (hspared : ∀ outcome last, progress = .ended outcome last → ¬slots outcome object name) :
    Heap.SparesSlot object name before.heap progress.state.heap := by
  cases h with
  | ended changes => exact State.Changes.sparesSlot changes (hspared _ _ rfl)
  | calling function this arguments changes _ =>
    exact changes.sparesSlot_of_materializes object name
  | forcing changes present waiting _ | reading changes _ present waiting _ =>
    exact (changes.sparesSlot_of_materializes object name).trans
      (State.sparesSlot_startCell present waiting _)

end Changes

section Sessions

variable {bodies : List Body} {realm : Realm} {index : Nat} {object : ObjectId} {name : String}
  {cell : CellId}

/-- What the move after a moment carries out spares the slots that no operation stores into. -/
theorem Session.Carries.sparesSlot {start before : State} (h : Carries bodies start index before)
    (hspared : ¬Stores bodies start index object name) :
    Heap.SparesSlot object name before.heap (moment bodies start (index + 1)).state.heap := by
  obtain ⟨slots, progress, hcareful, hreached, hstores⟩ := h
  rw [hreached]
  exact hcareful.sparesSlot fun outcome last hended hstored ↦
    hspared (hstores outcome last hended object name hstored)

/-- A slot that shows a cell still does when it has at most been materialized since the objects were
as they are. -/
theorem Session.shows_of_sparesSlot {settled : Heap}
    (h : (moment bodies (.fresh realm) index).state.heap.Shows object name cell)
    (hslot : settled.own? object name =
      (moment bodies (.fresh realm) index).state.heap.own? object name)
    (hspares : Heap.SparesSlot object name settled
      (moment bodies (.fresh realm) (index + 1)).state.heap) :
    (moment bodies (.fresh realm) (index + 1)).state.heap.Shows object name cell := by
  obtain ⟨between, hbetween, hfirst⟩ := Heap.shows_iff.1 h
  obtain ⟨current, hcurrent, hsecond⟩ := hspares.owned between (hslot.trans hbetween)
  have hvalues : Heap.KeepsValues (moment bodies (.fresh realm) index).state.heap
      (moment bodies (.fresh realm) (index + 1)).state.heap :=
    keepsValues_moment (Nat.le_succ index)
  exact Heap.shows_iff.2 ⟨current, hcurrent, hfirst.trans hvalues hsecond⟩

/-- A slot that gets the value of a cell shows the cell at the next moment. -/
theorem Session.shows_of_kept {settled : Heap} {record : LazyCell} {value : Value}
    (hexists : object.index < settled.objects.size) (present : settled.cell? cell = some record)
    (done : record.state = .initialized value)
    (hspares : Heap.SparesSlot object name
      (settled.define object name (record.materialized value))
      (moment bodies (.fresh realm) (index + 1)).state.heap) :
    (moment bodies (.fresh realm) (index + 1)).state.heap.Shows object name cell := by
  obtain ⟨current, hcurrent, hbecomes⟩ :=
    hspares.owned _ (Heap.own?_define_self hexists name (record.materialized value))
  refine .inr ⟨record, value, hspares.values cell record value present done, done, ?_⟩
  cases hbecomes with
  | same => exact hcurrent

/-- A slot that shows a cell still does after a move that stores nothing into it, when every read
through it that has been pending since the slot held a binding is a read of this cell. -/
theorem Session.shows_succ
    (h : (moment bodies (.fresh realm) index).state.heap.Shows object name cell)
    (hspared : ¬Stores bodies (.fresh realm) index object name)
    (hown : ∀ asking other, asking < index →
      (moment bodies (.fresh realm) asking).state.heap.own? object name = some (.binding other) →
        (∀ between, asking < between → between ≤ index →
          ∃ pending ∈ (moment bodies (.fresh realm) between).configuration.frames,
            pending.Reads object name other) → other = cell) :
    (moment bodies (.fresh realm) (index + 1)).state.heap.Shows object name cell := by
  cases move_moment bodies (.fresh realm) index with
  | idle objects => exact shows_of_sparesSlot h (Heap.own?_congr objects object name) (.refl _ _ _)
  | carrying objects carries =>
    exact shows_of_sparesSlot h (Heap.own?_congr objects object name) (carries.sparesSlot hspared)
  | @keeping settled holder other kept record value asking order held pending objects present done
      carries =>
    have hspares := carries.sparesSlot hspared
    by_cases hsame : holder = object ∧ other = name
    · obtain ⟨rfl, rfl⟩ := hsame
      obtain rfl := hown asking kept order held pending
      refine shows_of_kept ?_ present done hspares
      rw [objects]
      exact h.exists_object
    · refine shows_of_sparesSlot h ?_ hspares
      rw [← Heap.own?_congr objects object name]
      by_cases hobject : object = holder
      · exact Heap.own?_define_of_name_ne _ _ _ (fun hname ↦ hsame ⟨hobject.symm, hname.symm⟩) _
      · exact Heap.own?_define_of_ne _ hobject other name _

/-- A slot has received the binding of a cell by a moment, and nothing is stored into it until a
later one. -/
structure Session.Shares (bodies : List Body) (start : State) (cell : CellId) (object : ObjectId)
    (name : String) (first later : Nat) : Prop where
  order : first ≤ later
  received : (moment bodies start first).state.heap.own? object name = some (.binding cell)
  /-- No read of another binding of the slot was pending. -/
  alone : ∀ pending ∈ (moment bodies start first).configuration.frames, ∀ other,
    pending.Reads object name other → other = cell
  spared : ∀ between, first ≤ between → between < later →
    ¬Stores bodies start between object name

/-- A slot that shares a cell shows it. -/
theorem Session.Shares.shows {first later : Nat}
    (h : Shares bodies (.fresh realm) cell object name first later) :
    (moment bodies (.fresh realm) later).state.heap.Shows object name cell := by
  obtain ⟨order, received, alone, spared⟩ := h
  -- all moments since the first one are needed, since a read may have been asked for at any of them
  suffices hall : ∀ between, first ≤ between → between ≤ later →
      (moment bodies (.fresh realm) between).state.heap.Shows object name cell from
    hall later order (Nat.le_refl later)
  intro between
  induction between using Nat.strong_induction_on with
  | _ between ih =>
    intro hfirst hlater
    rcases Nat.eq_or_lt_of_le hfirst with rfl | hafter
    · exact .inl received
    obtain ⟨index, rfl⟩ : ∃ index, between = index + 1 :=
      Nat.exists_eq_add_one_of_ne_zero (Nat.ne_of_gt (Nat.zero_lt_of_lt hafter))
    have hindex : first ≤ index := Nat.le_of_lt_succ hafter
    refine shows_succ (ih index (Nat.lt_succ_self index) hindex (Nat.le_of_succ_le hlater))
      (spared index hindex hlater) fun asking other horder hheld hpending ↦ ?_
    rcases Nat.lt_or_ge asking first with hearlier | hsince
    · obtain ⟨pending, hmem, hreads⟩ := hpending first hearlier hindex
      exact alone pending hmem other hreads
    · have hshows := ih asking (Nat.lt_succ_of_lt horder) hsince
        (Nat.le_trans (Nat.le_of_lt horder) (Nat.le_of_succ_le hlater))
      exact hshows.eq_of_binding hheld

end Sessions

section Reads

variable {bodies : List Body} {realm : Realm} {index : Nat} {frames : List PendingCall}
  {before after : State} {next : Except Fault Value → State → Progress Answer} {object : ObjectId}
  {name : String} {cell : CellId} {value : Value}

/-- A read of a binding that returns a value has forced the cell and kept the value. -/
theorem LazyBinding.force_of_read
    (h : (read object name cell before).EndsWith (.ok value) after) :
    ∃ middle, (force cell before).EndsWith (.ok value) middle ∧
      keep object name cell value middle = .ended (.ok value) after := by
  have hread : read object name cell before =
      (force cell before).andThen (Run.onward (keep object name cell)) := rfl
  rw [hread] at h
  obtain ⟨outcome, middle, hforce, hkeep⟩ := Progress.endsWith_andThen_iff.1 h
  cases outcome with
  | error fault => cases hkeep
  | ok forced =>
    rw [Run.onward_ok] at hkeep
    rcases keep_cases object name cell forced middle with ⟨-, heq⟩ | ⟨record, -, heq⟩
    · rw [heq] at hkeep
      cases hkeep
    · rw [heq] at hkeep
      cases hkeep
      exact ⟨middle, hforce, heq⟩

/-- The next act of a body at a moment is to read a member, which a slot of an object supplies; the
read returns a value in a state, and something is done next. -/
inductive Session.ReadsNext (bodies : List Body) (start : State) (index : Nat)
    (frames : List PendingCall) (object : ObjectId) (name : String) (value : Value) (after : State)
    (next : Except Fault Value → State → Progress Answer) : Prop where
  | intro {before : State} {resume : State → Progress Answer} {target : ObjectId}
    {receiver : Value} {property : Property}
    (control : (moment bodies start index).configuration = ⟨frames, .paused before resume⟩)
    (act : resume before = (Member.read target name receiver before).andThen next)
    (supplied : before.heap.lookup target name = some (object, property))
    (returns : (Member.read target name receiver before).EndsWith (.ok value) after) :
    ReadsNext bodies start index frames object name value after next

/-- A body that asks for a member of an object reads it next. -/
theorem Session.readsNext_of_get {start : State} {place : RealmId} {target : ObjectId}
    {follow : Except Fault Answer → Body} {property : Property}
    (h : (moment bodies start index).configuration = ⟨frames,
      (Body.perform place (.object .get) [.object target, .string name] follow).run before⟩)
    (hknown : target.index < before.heap.objects.size)
    (hsupplied : before.heap.lookup target name = some (object, property))
    (hreturns : (Member.get target name before).EndsWith (.ok value) after) :
    ReadsNext bodies start index frames object name value after
      fun outcome later ↦ (follow (outcome.map .value)).run later := by
  rw [Body.run_perform] at h
  refine .intro h ?_ hsupplied hreturns
  have hoperands : [Value.object target, .string name].all before.heap.knows = true := by
    simpa [Heap.knows] using hknown
  rw [Operation.execute_of_known hoperands]
  show ((Member.get target name before).andThen
    (Run.onward fun value ↦ pure (Answer.value value))).andThen _ = _
  rw [Progress.andThen_assoc, Member.get]
  congr 1
  funext outcome later
  cases outcome <;> rfl

/-- A session gets from a moment on to a configuration, and from there on a cell has a value. -/
def Session.Delivers (bodies : List Body) (start : State) (cell : CellId) (index : Nat)
    (value : Value) (configuration : Configuration) : Prop :=
  ∃ reached, index ≤ reached ∧ (moment bodies start reached).configuration = configuration ∧
    ∀ later, reached ≤ later →
      ∃ record, (moment bodies start later).state.heap.cell? cell = some record ∧
        record.state = .initialized value

/-- Two values that a cell has from some moments on are the same. -/
theorem Session.Delivers.eq_of_delivers {start : State} {configuration other : Configuration}
    {otherIndex : Nat} {otherValue : Value}
    (h : Delivers bodies start cell index value configuration)
    (hother : Delivers bodies start cell otherIndex otherValue other) : otherValue = value := by
  obtain ⟨reached, -, -, hfinal⟩ := h
  obtain ⟨otherReached, -, -, hotherFinal⟩ := hother
  obtain ⟨record, hrecord, hvalue⟩ := hfinal _ (Nat.le_max_left reached otherReached)
  obtain ⟨found, hfound, hotherValue⟩ := hotherFinal _ (Nat.le_max_right reached otherReached)
  obtain rfl := Option.some.inj (hrecord.symm.trans hfound)
  rw [hvalue] at hotherValue
  cases hotherValue
  rfl

/-- A read of a binding that comes next is carried out, and the cell keeps the value. -/
theorem Session.delivers_of_read {resume : State → Progress Answer}
    (hmoment : (moment bodies (.fresh realm) index).configuration = ⟨frames, .paused before resume⟩)
    (hresume : resume before = (LazyBinding.read object name cell before).andThen next)
    (hread : (LazyBinding.read object name cell before).EndsWith (.ok value) after) :
    Delivers bodies (.fresh realm) cell index value ⟨frames, next (.ok value) after⟩ := by
  obtain ⟨middle, hforce, hkeep⟩ := LazyBinding.force_of_read hread
  have hforcing : resume before = (LazyBinding.force cell before).andThen fun outcome later ↦
      (Run.onward (LazyBinding.keep object name cell) outcome later).andThen next :=
    hresume.trans (Progress.andThen_assoc _ _ _)
  obtain ⟨reached, hlater, hreached, hfinal⟩ := force_final hmoment hforcing hforce
  refine ⟨reached, hlater, ?_, fun later horder ↦ ?_⟩
  · rw [hreached, Run.onward_ok, hkeep]
    rfl
  · have hends : (LazyBinding.force cell (moment bodies (.fresh realm) later).state).EndsWith
        (.ok value) (moment bodies (.fresh realm) later).state := by
      rw [hfinal later horder]
      exact .ended _ _
    exact LazyBinding.initialized_of_force hends

/-- A read through a slot that shows a cell returns the value of the cell, which stays. -/
theorem Session.ReadsNext.delivers
    (h : ReadsNext bodies (.fresh realm) index frames object name value after next)
    (hshows : (moment bodies (.fresh realm) index).state.heap.Shows object name cell) :
    Delivers bodies (.fresh realm) cell index value ⟨frames, next (.ok value) after⟩ := by
  obtain ⟨hmoment, hresume, hlookup, hread⟩ := h
  rename_i before resume target receiver property
  have hstate : (moment bodies (.fresh realm) index).state = before :=
    state_of_configuration hmoment
  have hslot := Heap.own?_of_lookup hlookup
  rw [hstate] at hshows
  rcases hshows with hbinding | ⟨record, kept, hrecord, hkept, hdata⟩
  · obtain rfl : property = .binding cell := Option.some.inj (hslot.symm.trans hbinding)
    rw [Member.read_of_binding hlookup] at hresume hread
    exact delivers_of_read hmoment hresume hread
  · obtain rfl := Option.some.inj (hslot.symm.trans hdata)
    have hvalue : Member.read target name receiver before = .ended (.ok kept) before :=
      Member.read_of_data hlookup receiver
    obtain ⟨reached, hlater, hreached⟩ := exists_moment_of_endsWith hmoment hresume hread
    rw [hvalue] at hread
    cases hread
    refine ⟨reached, hlater, hreached, fun later horder ↦ ?_⟩
    exact ⟨record, keepsValues_moment (Nat.le_trans hlater horder) cell record _
      (hstate ▸ hrecord) hkept, hkept⟩

end Reads

/-- How the slots that share a lazy cell behave in a session. -/
structure SlotCoherence (bodies : List Body) (start : State) (cell : CellId) : Prop where
  /-- A slot that has received the binding holds it or the value of the cell, until something else
  is stored into it. -/
  coherent : ∀ object name first later,
    Session.Shares bodies start cell object name first later →
      (Session.moment bodies start later).state.heap.Shows object name cell
  /-- A read through such a slot that returns a value returns that of the cell. -/
  read : ∀ object name first index frames value after next,
    Session.Shares bodies start cell object name first index →
      Session.ReadsNext bodies start index frames object name value after next →
        Session.Delivers bodies start cell index value ⟨frames, next (.ok value) after⟩
  /-- All reads through such slots return the same value, whenever they are made. -/
  agree : ∀ object name first index frames value after next,
    Session.Shares bodies start cell object name first index →
      Session.ReadsNext bodies start index frames object name value after next →
        ∀ other otherName otherFirst otherIndex otherFrames otherValue otherAfter otherNext,
          Session.Shares bodies start cell other otherName otherFirst otherIndex →
            Session.ReadsNext bodies start otherIndex otherFrames other otherName otherValue
                otherAfter otherNext →
              otherValue = value

/-- In every run of any program, from a fresh state, slots that share a lazy cell are coherent. -/
theorem slotCoherence (bodies : List Body) (realm : Realm) (cell : CellId) :
    SlotCoherence bodies (.fresh realm) cell where
  coherent _ _ _ _ hshares := hshares.shows
  read _ _ _ _ _ _ _ _ hshares hreads := hreads.delivers hshares.shows
  agree _ _ _ _ _ _ _ _ hshares hreads _ _ _ _ _ _ _ _ hother hotherReads :=
    (hreads.delivers hshares.shows).eq_of_delivers (hotherReads.delivers hother.shows)

/-! A program in which a binding is copied while its initializer is running. -/

namespace CopyWhileRunning

/-- Copies the slot `a` of the first object to the second one as `b`, and gives a value. -/
def initializer : Body :=
  .perform ⟨0⟩ (.object .copyOwn) [.object ⟨0⟩, .object ⟨1⟩, .string "a", .string "b"] fun _ ↦
  .finish (.ok (.value (.integer 7)))

/-- Makes two objects and a binding on the first one, whose first read runs the initializer, and
then reads the copy. -/
def program : Body :=
  .close "initializer" [] (fun _ _ ↦ initializer) fun function ↦
  .perform ⟨0⟩ (.object (.allocate false none)) [] fun _ ↦
  .perform ⟨0⟩ (.object (.allocate false none)) [] fun _ ↦
  .perform ⟨0⟩ (.binding (.bind false)) [.object ⟨0⟩, .string "a", .function function] fun _ ↦
  .perform ⟨0⟩ (.object .get) [.object ⟨0⟩, .string "a"] fun _ ↦
  .perform ⟨0⟩ (.object .get) [.object ⟨1⟩, .string "b"] .finish

/-- The moments of the program. -/
def moment (index : Nat) : Session := .moment [program] (.fresh .standard) index

/-- The state in which the copy is about to be read. -/
def state : State := (moment 9).state

/-- The slot of the copy shares the cell from any moment on at which it holds the binding. -/
theorem shares {index : Nat}
    (hreceived : (moment index).state.heap.own? ⟨1⟩ "b" = some (.binding ⟨0⟩))
    (hpurpose : ∀ pending ∈ (moment index).configuration.frames,
      pending.call.purpose = .initializing ⟨0⟩) :
    Session.Shares [program] (.fresh .standard) ⟨0⟩ ⟨1⟩ "b" index index := by
  refine ⟨Nat.le_refl index, hreceived, ?_, ?_⟩
  · intro pending hpending other hreads
    have hsame := hreads.purpose
    rw [hpurpose pending hpending] at hsame
    cases hsame
    rfl
  · intro between hfirst hlater
    exact absurd hlater (Nat.not_lt_of_le hfirst)

end CopyWhileRunning

/-- The copy shares the cell while the initializer is running and after it has returned, and a read
of the copy then returns the value that the first read has returned. -/
theorem slotCoherence_copied :
    Session.Shares [CopyWhileRunning.program] (.fresh .standard) ⟨0⟩ ⟨1⟩ "b" 8 8 ∧
      Session.Shares [CopyWhileRunning.program] (.fresh .standard) ⟨0⟩ ⟨1⟩ "b" 9 9 ∧
        CopyWhileRunning.state.heap.own? ⟨0⟩ "a" = some (.data (.integer 7) false true) ∧
          ∃ after, Session.Delivers [CopyWhileRunning.program] (.fresh .standard) ⟨0⟩ 9 (.integer 7)
            ⟨[], .ended (.ok (.value (.integer 7))) after⟩ := by
  have hrunning : Session.Shares [CopyWhileRunning.program] (.fresh .standard) ⟨0⟩ ⟨1⟩ "b" 8 8 := by
    refine CopyWhileRunning.shares (by decide +kernel) fun pending hpending ↦ ?_
    obtain rfl := List.mem_singleton.1 hpending
    rfl
  have hreturned :
      Session.Shares [CopyWhileRunning.program] (.fresh .standard) ⟨0⟩ ⟨1⟩ "b" 9 9 := by
    refine CopyWhileRunning.shares (by decide +kernel) fun pending hpending ↦ ?_
    cases hpending
  have hmoment : (CopyWhileRunning.moment 9).configuration =
      ⟨[], (Body.perform ⟨0⟩ (.object .get) [.object ⟨1⟩, .string "b"] .finish).run
        CopyWhileRunning.state⟩ := rfl
  have hget : (Member.get ⟨1⟩ "b" CopyWhileRunning.state).EndsWith (.ok (.integer 7))
      { CopyWhileRunning.state with
        heap := CopyWhileRunning.state.heap.define ⟨1⟩ "b" (.data (.integer 7) false true) } :=
    .ended _ _
  have hreads := Session.readsNext_of_get hmoment (by decide +kernel) rfl hget
  exact ⟨hrunning, hreturned, by decide +kernel, _,
    (slotCoherence [CopyWhileRunning.program] .standard ⟨0⟩).read _ _ _ _ _ _ _ _ hreturned hreads⟩

end GradualRuntime
