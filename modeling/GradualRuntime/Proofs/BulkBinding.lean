import GradualRuntime.Proofs.Access
import GradualRuntime.Proofs.Overlay

/-!
# Binding all properties of an object lazily

`LazyBinding.installAll` goes through the own properties of a source and puts a lazy binding on a
target for each, until one has no initializer to contribute. Every binding gets a cell of its own,
numbered in the order of the names (`Heap.Installed`). The properties are read when their turn
comes, but no name comes twice, so each is still what it was at the start, also when the target is
the source and its properties are replaced on the way (`Heap.exists_installed`).

It succeeds when every property contributes an initializer. Otherwise it fails for the first one
that does not, and has installed the ones before (`bulkBinding`). Nothing is called in either case.
-/

set_option autoImplicit false

namespace GradualRuntime

/-- What a property contributes to a lazy binding: an accessor its getter, for a binding that is
mutable if there is a setter, and a function itself, for an immutable one. -/
inductive Property.Initializes : Property → FunctionId → Bool → Prop where
  | getter (getter : FunctionId) (setter : Option FunctionId) (enumerable : Bool) :
    Initializes (.accessor (some getter) setter enumerable) getter setter.isSome
  | function (function : FunctionId) (writable enumerable : Bool) :
    Initializes (.data (.function function) writable enumerable) function false

theorem Property.initializer?_eq_some_iff {property : Property} {initializer : FunctionId}
    {isMutable : Bool} :
    property.initializer? = some (initializer, isMutable) ↔
      property.Initializes initializer isMutable := by
  constructor
  · intro h
    rcases property with ⟨value, writable, enumerable⟩ | ⟨_ | getter, setter, enumerable⟩ | cell
    · cases value with
      | function function =>
        cases h
        exact .function _ writable enumerable
      | _ => cases h
    · cases h
    · cases h
      exact .getter _ setter enumerable
    · cases h
  · rintro (_ | _) <;> rfl

namespace Heap

/-- A source contributes an initializer for a binding of a name. -/
def Contributes (heap : Heap) (source : ObjectId) (name : String) (initializer : FunctionId)
    (isMutable : Bool) : Prop :=
  ∃ property, heap.own? source name = some property ∧ property.Initializes initializer isMutable

/-- A source contributes some initializer for a name. -/
def HasInitializer (heap : Heap) (source : ObjectId) (name : String) : Prop :=
  ∃ initializer isMutable, heap.Contributes source name initializer isMutable

/-- From one heap to another, bindings that a source contributes have been put on a target under
some names, with the next cells in the order of the names. -/
structure Installed (target source : ObjectId) (names : List String) (before after : Heap) :
    Prop where
  /-- The target keeps its names in their order, and those that are new follow in theirs. -/
  ownNames : after.ownNames target =
    before.ownNames target ++ names.filter fun name ↦ name ∉ before.ownNames target
  /-- Under each name there is a binding whose cell has not been accessed. -/
  bound : ∀ index name, names[index]? = some name →
    ∃ initializer isMutable, before.Contributes source name initializer isMutable ∧
      after.own? target name = some (.binding ⟨before.cells.size + index⟩) ∧
      after.cell? ⟨before.cells.size + index⟩ =
        some ⟨name, isMutable, .uninitialized initializer⟩
  kept : ∀ name ∉ names, after.own? target name = before.own? target name
  /-- There are that many more cells, and those that there were are what they were. -/
  size : after.cells.size = before.cells.size + names.length
  cells : ∀ cell : CellId, cell.index < before.cells.size → after.cell? cell = before.cell? cell
  /-- No other object changes, and of the target only the slots. -/
  others : ∀ object : ObjectId, object ≠ target →
    after.objects.get? object.index = before.objects.get? object.index
  record : ∀ record, before.objects.get? target.index = some record →
    ∃ slots, after.objects.get? target.index = some { record with slots := slots }
  /-- Nothing else in the heap changes. -/
  rest : after = { before with objects := after.objects, cells := after.cells }

variable {heap before after : Heap} {target source : ObjectId} {name : String}
  {names : List String} {initializer : FunctionId} {isMutable : Bool}

section Contributions

theorem bind_initializer?_eq_some_iff :
    (heap.own? source name).bind Property.initializer? = some (initializer, isMutable) ↔
      heap.Contributes source name initializer isMutable := by
  simp only [Option.bind_eq_some_iff, Property.initializer?_eq_some_iff, Contributes]

theorem isSome_bind_initializer?_iff :
    ((heap.own? source name).bind Property.initializer?).isSome = true ↔
      heap.HasInitializer source name := by
  rw [Option.isSome_iff_exists]
  constructor
  · rintro ⟨⟨initializer, isMutable⟩, hsome⟩
    exact ⟨initializer, isMutable, bind_initializer?_eq_some_iff.1 hsome⟩
  · rintro ⟨initializer, isMutable, hcontributes⟩
    exact ⟨(initializer, isMutable), bind_initializer?_eq_some_iff.2 hcontributes⟩

instance : Decidable (heap.HasInitializer source name) :=
  decidable_of_iff _ isSome_bind_initializer?_iff

/-- What a source contributes depends on what it owns under the name. -/
theorem contributes_congr (h : after.own? source name = before.own? source name) :
    after.Contributes source name = before.Contributes source name := by
  funext initializer isMutable
  rw [Contributes, h, Contributes]

theorem hasInitializer_congr (h : after.own? source name = before.own? source name) :
    after.HasInitializer source name = before.HasInitializer source name := by
  rw [HasInitializer, contributes_congr h, HasInitializer]

/-- Every property contributes an initializer, or there is a first one that does not. -/
theorem forall_hasInitializer_or_exists_first (heap : Heap) (source : ObjectId)
    (names : List String) :
    (∀ name ∈ names, heap.HasInitializer source name) ∨
      ∃ earlier name rest, names = earlier ++ name :: rest ∧
        (∀ other ∈ earlier, heap.HasInitializer source other) ∧
          ¬heap.HasInitializer source name := by
  induction names with
  | nil => exact .inl nofun
  | cons first rest ih =>
    by_cases hfirst : heap.HasInitializer source first
    · rcases ih with hrest | ⟨earlier, name, later, rfl, hearlier, hname⟩
      · exact .inl (List.forall_mem_cons.2 ⟨hfirst, hrest⟩)
      · exact .inr ⟨first :: earlier, name, later, rfl,
          List.forall_mem_cons.2 ⟨hfirst, hearlier⟩, hname⟩
    · exact .inr ⟨[], first, rest, rfl, nofun, hfirst⟩

end Contributions

namespace Installed

theorem nil (target source : ObjectId) (heap : Heap) : Installed target source [] heap heap where
  ownNames := by simp
  bound := by simp
  kept _ _ := rfl
  size := rfl
  cells _ _ := rfl
  others _ _ := rfl
  record record hrecord := ⟨record.slots, hrecord⟩
  rest := rfl

/-- What the source owns under a name to which nothing was bound is what it owned. -/
theorem own?_source (h : Installed target source names before after) (hname : name ∉ names) :
    after.own? source name = before.own? source name := by
  by_cases hsource : source = target
  · subst hsource
    exact h.kept name hname
  · simp only [own?, slots, h.others source hsource]

end Installed

section Binding

theorem own?_bindLazily_of_name_ne (heap : Heap) (object target : ObjectId) {other : String}
    (h : other ≠ name) (initializer : FunctionId) (isMutable : Bool) :
    (heap.bindLazily target name initializer isMutable).own? object other =
      heap.own? object other :=
  own?_define_of_name_ne _ target object h _

/-- One binding after which others have been installed. -/
theorem Installed.cons (htarget : target.index < heap.objects.size)
    (hcontributes : heap.Contributes source name initializer isMutable)
    (hname : name ∉ names) (hnodup : names.Nodup)
    (h : Installed target source names (heap.bindLazily target name initializer isMutable) after) :
    Installed target source (name :: names) heap after := by
  let bound := heap.bindLazily target name initializer isMutable
  have hsize : bound.cells.size = heap.cells.size + 1 := by
    simp [bound, bindLazily, addCell, define]
  have hnames : bound.ownNames target = includeName (heap.ownNames target) name :=
    ownNames_define_self htarget name _
  have hcell :
      bound.cell? ⟨heap.cells.size⟩ = some ⟨name, isMutable, .uninitialized initializer⟩ := by
    simp [bound, bindLazily, addCell, define, cell?]
  have hkept : ∀ other, other ≠ name → bound.own? source other = heap.own? source other :=
    fun other hother ↦ own?_bindLazily_of_name_ne heap source target hother initializer isMutable
  constructor
  · have hall : (name :: names).Nodup := List.nodup_cons.2 ⟨hname, hnodup⟩
    rw [h.ownNames, ← foldl_includeName_of_nodup hnodup, ← foldl_includeName_of_nodup hall,
      List.foldl_cons, ← hnames]
  · rintro (_ | index) other hother
    · obtain rfl : name = other := Option.some.inj hother
      refine ⟨initializer, isMutable, hcontributes, ?_, ?_⟩
      · rw [h.kept name hname]
        exact own?_define_self htarget name _
      · rw [Nat.add_zero, h.cells ⟨heap.cells.size⟩ (hsize ▸ Nat.lt_succ_self _)]
        exact hcell
    · obtain ⟨first, mutability, hfirst, hown, hfresh⟩ := h.bound index other hother
      have hmem : other ∈ names := List.mem_of_getElem? hother
      have hshift : bound.cells.size + index = heap.cells.size + (index + 1) := by omega
      rw [contributes_congr (hkept other fun heq ↦ hname (heq ▸ hmem))] at hfirst
      rw [hshift] at hown hfresh
      exact ⟨first, mutability, hfirst, hown, hfresh⟩
  · intro other hother
    obtain ⟨hne, hrest⟩ := not_or.1 (List.mem_cons.not.1 hother)
    rw [h.kept other hrest]
    exact own?_bindLazily_of_name_ne heap target target hne initializer isMutable
  · rw [h.size, hsize, List.length_cons, Nat.add_assoc, Nat.add_comm 1]
  · intro cell hold
    rw [h.cells cell (hsize ▸ Nat.lt_succ_of_lt hold)]
    exact Arena.get?_push_of_lt hold _
  · intro object hobject
    rw [h.others object hobject]
    exact (edits_define target _ name _).others object hobject
  · intro record hrecord
    have hdefined : bound.objects.get? target.index = some { record with
        slots := record.slots.insert name (.binding heap.nextCell) } := by
      simp [bound, bindLazily, addCell, define, hrecord]
    obtain ⟨slots, hslots⟩ := h.record _ hdefined
    exact ⟨slots, hslots⟩
  · exact h.rest

/-- Names for which the source contributes initializers are bound one after another, and what comes
after them is dealt with afterwards. -/
theorem exists_installed (hnodup : names.Nodup) (htarget : target.index < heap.objects.size)
    (hall : ∀ name ∈ names, heap.HasInitializer source name) :
    ∃ after, Installed target source names heap after ∧
      ∀ rest,
        bindNames target source (names ++ rest) heap = bindNames target source rest after := by
  induction names generalizing heap with
  | nil => exact ⟨heap, .nil target source heap, fun _ ↦ rfl⟩
  | cons name names ih =>
    obtain ⟨hname, hdistinct⟩ := List.nodup_cons.1 hnodup
    obtain ⟨initializer, isMutable, hcontributes⟩ := hall name List.mem_cons_self
    have hexists :
        target.index < (heap.bindLazily target name initializer isMutable).objects.size :=
      Nat.lt_of_lt_of_eq htarget (size_objects_define _ target name _).symm
    obtain ⟨after, hinstalled, hrest⟩ := ih hdistinct hexists fun other hother ↦ by
      have hne : other ≠ name := fun heq ↦ hname (heq ▸ hother)
      rw [hasInitializer_congr
        (own?_bindLazily_of_name_ne heap source target hne initializer isMutable)]
      exact hall other (List.mem_cons_of_mem name hother)
    refine ⟨after, hinstalled.cons htarget hcontributes hname hdistinct, fun rest ↦ ?_⟩
    rw [List.cons_append, bindNames, bind_initializer?_eq_some_iff.2 hcontributes]
    exact hrest rest

end Binding

end Heap

namespace LazyBinding

/-- The failure for a property that has no initializer to contribute. -/
def uninitializable (name : String) : Fault :=
  .invariantViolation ("lazy property '" ++ name ++ "' has no initializer")

variable {state : State} {target source : ObjectId}

/-- When every property contributes an initializer, all are bound. -/
theorem installAll_of_forall (htarget : target.index < state.heap.objects.size)
    (hall : ∀ name ∈ state.heap.ownNames source, state.heap.HasInitializer source name) :
    ∃ after, Heap.Installed target source (state.heap.ownNames source) state.heap after ∧
      installAll target source state = .ended (.ok ()) { state with heap := after } := by
  have hnodup : (state.heap.ownNames source).Nodup := (state.heap.slots source).keys_nodup
  obtain ⟨after, hinstalled, hrest⟩ := Heap.exists_installed hnodup htarget hall
  have hbound := hrest []
  rw [List.append_nil, Heap.bindNames] at hbound
  refine ⟨after, hinstalled, ?_⟩
  simp [installAll, hbound]

/-- Otherwise the properties before the first one that does not are bound, and nothing else is. -/
theorem installAll_of_first (htarget : target.index < state.heap.objects.size)
    {earlier rest : List String} {name : String}
    (hnames : state.heap.ownNames source = earlier ++ name :: rest)
    (hearlier : ∀ other ∈ earlier, state.heap.HasInitializer source other)
    (hname : ¬state.heap.HasInitializer source name) :
    ∃ after, Heap.Installed target source earlier state.heap after ∧
      installAll target source state =
        .ended (.error (uninitializable name)) { state with heap := after } := by
  have hnodup : (state.heap.ownNames source).Nodup := (state.heap.slots source).keys_nodup
  rw [hnames] at hnodup
  obtain ⟨hdistinct, -, hdisjoint⟩ := List.nodup_append.1 hnodup
  have hnew : name ∉ earlier := fun hmem ↦ hdisjoint name hmem name List.mem_cons_self rfl
  obtain ⟨after, hinstalled, hrest⟩ := Heap.exists_installed hdistinct htarget hearlier
  have hnone : (after.own? source name).bind Property.initializer? = none := by
    rw [hinstalled.own?_source hnew, ← Option.not_isSome_iff_eq_none,
      Heap.isSome_bind_initializer?_iff]
    exact hname
  have hbound := hrest (name :: rest)
  rw [Heap.bindNames, hnone] at hbound
  refine ⟨after, hinstalled, ?_⟩
  simp [installAll, hnames, hbound, uninitializable]

/-- What the installation comes to, in either case. -/
theorem installAll_cases (source : ObjectId) (htarget : target.index < state.heap.objects.size) :
    ((∀ name ∈ state.heap.ownNames source, state.heap.HasInitializer source name) ∧
      ∃ after, Heap.Installed target source (state.heap.ownNames source) state.heap after ∧
        installAll target source state = .ended (.ok ()) { state with heap := after }) ∨
    ∃ earlier name rest, (state.heap.ownNames source = earlier ++ name :: rest ∧
      (∀ other ∈ earlier, state.heap.HasInitializer source other) ∧
        ¬state.heap.HasInitializer source name) ∧
      ∃ after, Heap.Installed target source earlier state.heap after ∧
        installAll target source state =
          .ended (.error (uninitializable name)) { state with heap := after } := by
  rcases state.heap.forall_hasInitializer_or_exists_first source (state.heap.ownNames source) with
    hall | ⟨earlier, name, rest, hnames, hearlier, hname⟩
  · exact .inl ⟨hall, installAll_of_forall htarget hall⟩
  · exact .inr ⟨earlier, name, rest, ⟨hnames, hearlier, hname⟩,
      installAll_of_first htarget hnames hearlier hname⟩

end LazyBinding

open LazyBinding in
/-- What it comes to when all own properties of a source are to be bound lazily on a target, which
may be the source itself. -/
structure BulkBinding (place : RealmId) (state : State) (target source : ObjectId) : Prop where
  /-- The operation is over at once: nothing is called. -/
  ends : ∃ outcome after, installAll target source state =
    .ended outcome { state with heap := after }
  answers : source.index < state.heap.objects.size →
    Operation.execute place (.binding .bindAll) [.object target, .object source] state =
      ((fun _ ↦ Answer.done) <$> installAll target source) state
  /-- It succeeds exactly when every own property contributes an initializer. -/
  succeeds_iff : (∃ last, (installAll target source state).EndsWith (.ok ()) last) ↔
    ∀ name ∈ state.heap.ownNames source, state.heap.HasInitializer source name
  /-- It fails exactly for the first own property that contributes none. -/
  fails_iff : ∀ {fault}, (∃ last, (installAll target source state).EndsWith (.error fault) last) ↔
    ∃ earlier name rest, state.heap.ownNames source = earlier ++ name :: rest ∧
      (∀ other ∈ earlier, state.heap.HasInitializer source other) ∧
        ¬state.heap.HasInitializer source name ∧
      fault = uninitializable name
  /-- All properties are bound when it succeeds. -/
  complete : (∀ name ∈ state.heap.ownNames source, state.heap.HasInitializer source name) →
    ∃ after, Heap.Installed target source (state.heap.ownNames source) state.heap after ∧
      installAll target source state = .ended (.ok ()) { state with heap := after }
  /-- Those before the first that cannot be are bound when it fails. -/
  partly : ∀ {earlier name rest}, state.heap.ownNames source = earlier ++ name :: rest →
    (∀ other ∈ earlier, state.heap.HasInitializer source other) →
      ¬state.heap.HasInitializer source name →
      ∃ after, Heap.Installed target source earlier state.heap after ∧
        installAll target source state =
          .ended (.error (uninitializable name)) { state with heap := after }
  /-- A source that is not the target is left as it is. -/
  spares : source ≠ target → ∀ {outcome last},
    (installAll target source state).EndsWith outcome last →
      last.heap.objects.get? source.index = state.heap.objects.get? source.index

/-- Assumes: the target exists.

All own properties of the source are bound lazily on the target, or those before the first that
contributes no initializer. -/
theorem bulkBinding (place : RealmId) (state : State) (target source : ObjectId)
    (htarget : target.index < state.heap.objects.size) : BulkBinding place state target source where
  ends := by
    rcases LazyBinding.installAll_cases source htarget with
      ⟨-, after, -, hends⟩ | ⟨_, _, _, -, after, -, hends⟩
    · exact ⟨_, after, hends⟩
    · exact ⟨_, after, hends⟩
  answers hsource := by
    have hknown : [Value.object target, .object source].all state.heap.knows = true := by
      simp [Heap.knows, htarget, hsource]
    rw [Operation.execute_of_known hknown]
    rfl
  succeeds_iff := by
    constructor
    · rintro ⟨last, hlast⟩
      rcases LazyBinding.installAll_cases source htarget with
        ⟨hall, -⟩ | ⟨_, _, _, -, after, -, hends⟩
      · exact hall
      · rw [hends] at hlast
        cases hlast
    · intro hall
      obtain ⟨after, -, hends⟩ := LazyBinding.installAll_of_forall htarget hall
      refine ⟨{ state with heap := after }, ?_⟩
      rw [hends]
      exact .ended _ _
  fails_iff {fault} := by
    constructor
    · rintro ⟨last, hlast⟩
      rcases LazyBinding.installAll_cases source htarget with
        ⟨-, after, -, hends⟩ | ⟨earlier, name, rest, ⟨hnames, hearlier, hname⟩, after, -, hends⟩
      · rw [hends] at hlast
        cases hlast
      · rw [hends] at hlast
        cases hlast
        exact ⟨earlier, name, rest, hnames, hearlier, hname, rfl⟩
    · rintro ⟨earlier, name, rest, hnames, hearlier, hname, rfl⟩
      obtain ⟨after, -, hends⟩ := LazyBinding.installAll_of_first htarget hnames hearlier hname
      refine ⟨{ state with heap := after }, ?_⟩
      rw [hends]
      exact .ended _ _
  complete := LazyBinding.installAll_of_forall htarget
  partly := LazyBinding.installAll_of_first htarget
  spares hsource {outcome last} hlast := by
    rcases LazyBinding.installAll_cases source htarget with
      ⟨-, after, hinstalled, hends⟩ | ⟨_, _, _, -, after, hinstalled, hends⟩
    all_goals
      rw [hends] at hlast
      cases hlast
      exact hinstalled.others source hsource

/-- An object with an accessor, a method, a value and another method. -/
def BulkBinding.state : State :=
  { State.fresh .standard with
    heap := Heap.empty.addObject ⟨none, none, OrderedMap.empty.insertAll
      [("counter", .ofAccessors (some ⟨0⟩) (some ⟨1⟩)), ("name", .method ⟨2⟩),
        ("plain", .ordinary (.integer 1)), ("late", .method ⟨3⟩)]⟩ }

/-- Bound onto itself, the object keeps what comes from the value on. -/
theorem bulkBinding_itself :
    ∃ after, Heap.Installed ⟨0⟩ ⟨0⟩ ["counter", "name"] BulkBinding.state.heap after ∧
      LazyBinding.installAll ⟨0⟩ ⟨0⟩ BulkBinding.state =
        .ended (.error (LazyBinding.uninitializable "plain"))
          { BulkBinding.state with heap := after } := by
  have hnames : BulkBinding.state.heap.ownNames ⟨0⟩ =
      ["counter", "name"] ++ "plain" :: ["late"] := by decide
  have hbinding := bulkBinding ⟨0⟩ BulkBinding.state ⟨0⟩ ⟨0⟩ (by decide)
  exact hbinding.partly hnames (by decide) (by decide)

end GradualRuntime
