import GradualRuntime.Proofs.Ancestry
import GradualRuntime.Proofs.Equality
import GradualRuntime.Proofs.MemberRead
import GradualRuntime.Proofs.NameGrowth

/-!
# Presence and reading of members

Whether a value has a member and what the member reads as are answered by two walks over the same
objects: those of the chain of the value itself, of the statics of a class, or of the prototype
registered for its kind of primitives (`Dispatch.searched`, `Value.HasKind`). The first walk stops
at any owner of the name, the second at the nearest one, and both agree on whether there is one
(`Dispatch.isSome_slot?_iff`, `Heap.firstOwner_eq_some_iff`). What the slot contains plays no part
in presence. It decides what a read does (`Member.Reads`), and then at most one function is called:
a getter on the value read from, whoever holds the getter, or an initializer.

A registration changes one prototype of one realm, so a read of any other value starts from the same
slot and does the same (`Dispatch.getMember_register`). `Dispatch.memberPresence` is the whole
account.
-/

set_option autoImplicit false

namespace GradualRuntime

/-- The nearest owner of a name owns it, and no object before it does. -/
theorem Heap.firstOwner_eq_some_iff {heap : Heap} {name : String} {objects : List ObjectId}
    {holder : ObjectId} {property : Property} :
    heap.firstOwner name objects = some (holder, property) ↔
      ∃ nearer farther, objects = nearer ++ holder :: farther ∧
        (∀ object ∈ nearer, heap.own? object name = none) ∧
        heap.own? holder name = some property := by
  induction objects with
  | nil => simp [firstOwner]
  | cons object rest ih =>
    cases hown : heap.own? object name with
    | some owned =>
      simp only [firstOwner, hown, Option.some.injEq, Prod.mk.injEq]
      constructor
      · rintro ⟨rfl, rfl⟩
        exact ⟨[], rest, rfl, by simp, hown⟩
      · rintro ⟨nearer, farther, hsplit, hnearer, hholder⟩
        cases nearer with
        | nil =>
          obtain ⟨rfl, -⟩ := List.cons.inj hsplit
          exact ⟨rfl, Option.some.inj (hown.symm.trans hholder)⟩
        | cons first _ =>
          obtain ⟨rfl, -⟩ := List.cons.inj hsplit
          simp [hnearer object] at hown
    | none =>
      simp only [firstOwner, hown, ih]
      constructor
      · rintro ⟨nearer, farther, rfl, hnearer, hholder⟩
        exact ⟨object :: nearer, farther, rfl, List.forall_mem_cons.2 ⟨hown, hnearer⟩, hholder⟩
      · rintro ⟨nearer, farther, hsplit, hnearer, hholder⟩
        cases nearer with
        | nil =>
          obtain ⟨rfl, -⟩ := List.cons.inj hsplit
          cases hown.symm.trans hholder
        | cons first nearer =>
          obtain ⟨rfl, rfl⟩ := List.cons.inj hsplit
          exact ⟨nearer, farther, rfl, fun other hother ↦ hnearer other (.tail _ hother), hholder⟩

/-- The kind of primitives to which a value belongs: both representations of numbers belong to one
kind, and sentinels, objects and classes to none. -/
inductive Value.HasKind : Value → PrimitiveKind → Prop where
  | boolean (truth : Bool) : HasKind (.boolean truth) .boolean
  | integer (number : Int64) : HasKind (.integer number) .number
  | float (number : Binary64) : HasKind (.float number) .number
  | string (text : String) : HasKind (.string text) .string
  | function (reference : FunctionId) : HasKind (.function reference) .function

theorem Value.hasKind_iff {value : Value} {kind : PrimitiveKind} :
    value.HasKind kind ↔ value.primitiveKind? = some kind := by
  constructor
  · intro h
    cases h <;> rfl
  · intro h
    cases value <;> cases h <;> constructor

/-- A computation from another state on. -/
def Progress.startingFrom {α : Type} (change : State → State) : Progress α → Progress α
  | ended outcome state => .ended outcome (change state)
  | paused state resume => .paused (change state) resume
  | calling call state resume => .calling call (change state) resume

section Registration

/-- The state after a prototype has been registered for a kind of primitives in a realm. -/
def State.register (state : State) (place : RealmId) (kind : PrimitiveKind)
    (prototype : ObjectId) : State :=
  { state with
    realms := state.realms.modify place.index fun record ↦
      { record with primitivePrototypes := record.primitivePrototypes.insert kind prototype } }

variable {state : State} {place reader : RealmId} {kind other : PrimitiveKind}
  {prototype : ObjectId} {value : Value}

theorem State.realm_register_of_ne (h : reader ≠ place) :
    (state.register place kind prototype).realm reader = state.realm reader := by
  have hindex : reader.index ≠ place.index := fun heq ↦ h (by cases reader; cases place; simp_all)
  simp [realm, register, Arena.get?_modify_of_ne hindex]

/-- Registering a prototype keeps the prototypes of all other kinds and of all other realms. -/
theorem State.prototypes_register (h : reader ≠ place ∨ other ≠ kind) :
    ((state.register place kind prototype).realm reader).primitivePrototypes.find? other =
      (state.realm reader).primitivePrototypes.find? other := by
  by_cases hreader : reader = place
  · subst hreader
    have hkind : other ≠ kind := h.resolve_left fun hne ↦ hne rfl
    cases hrecord : state.realms.get? reader.index with
    | none => simp [realm, register, Arena.get?_modify_self, hrecord]
    | some record =>
      simp [realm, register, Arena.get?_modify_self, hrecord, OrderedMap.find?_insert_of_ne _ hkind]
  · rw [realm_register_of_ne hreader]

theorem State.prototypes_register_self (hplace : place.index < state.realms.size) :
    ((state.register place kind prototype).realm place).primitivePrototypes.find? kind =
      some prototype := by
  obtain ⟨record, hrecord⟩ := Option.isSome_iff_exists.1 (Arena.isSome_get?_of_lt hplace)
  simp [realm, register, Arena.get?_modify_self, hrecord, OrderedMap.find?_insert_self]

/-- The members of a value are looked up where they were, unless its kind has been given another
prototype in the very realm. -/
theorem State.holder?_register (h : reader ≠ place ∨ ¬value.HasKind kind) :
    ((state.register place kind prototype).realm reader).holder?
        (state.register place kind prototype).heap value =
      (state.realm reader).holder? state.heap value := by
  have hprimitive : value.primitiveKind?.bind
        ((state.register place kind prototype).realm reader).primitivePrototypes.find? =
      value.primitiveKind?.bind (state.realm reader).primitivePrototypes.find? := by
    cases hkind : value.primitiveKind? with
    | none => rfl
    | some other =>
      refine State.prototypes_register (h.imp id fun hne heq ↦ hne ?_)
      rw [Value.hasKind_iff, hkind, heq]
  cases value with
  | object reference | type reference => rfl
  | _ => exact hprimitive

end Registration

namespace Dispatch

section Searching

/-- The objects on which a member of a value is searched, in this order. -/
def searched (realm : RealmId) (value : Value) (state : State) : List ObjectId :=
  ((state.realm realm).holder? state.heap value).elim [] state.heap.chain

variable {realm : RealmId} {value : Value} {name : String} {state : State}

theorem slot?_eq_firstOwner :
    slot? realm value name state = state.heap.firstOwner name (searched realm value state) := by
  rw [slot?, searched]
  cases (state.realm realm).holder? state.heap value <;> rfl

theorem hasMember_apply :
    hasMember realm value name state =
      .ended (.ok (slot? realm value name state).isSome) state := by
  simp only [hasMember, slot?, Run.bind_apply, Run.heap_apply, Run.realm_apply,
    Progress.andThen_ended, Run.onward_ok, Run.pure_apply]
  cases (state.realm realm).holder? state.heap value <;> rfl

/-- A value has a member exactly when some object that is searched owns it. -/
theorem isSome_slot?_iff : (slot? realm value name state).isSome = true ↔
    ∃ object ∈ searched realm value state, ∃ property,
      state.heap.own? object name = some property := by
  rw [slot?_eq_firstOwner, Heap.isSome_firstOwner_iff]
  simp only [Heap.hasOwn_eq_isSome, Option.isSome_iff_exists]

theorem dynamicGet_of_present (h : (slot? realm value name state).isSome = true) :
    dynamicGet realm value name state = getMember realm value name state := by
  simp [dynamicGet, hasMember_apply, h]

theorem dynamicGet_of_absent (h : (slot? realm value name state).isSome = false) :
    dynamicGet realm value name state =
      .ended (.error (.missingMember ⟨value, name, [], .absent⟩)) state := by
  simp [dynamicGet, hasMember_apply, h]

end Searching

section Reading

variable {realm : RealmId} {value : Value} {name : String} {state : State}

theorem reads_getMember :
    Member.Reads (slot? realm value name state) value name state
      (getMember realm value name state) := by
  simp only [getMember, slot?, Run.bind_apply, Run.realm_apply, Run.heap_apply,
    Progress.andThen_ended, Run.onward_ok]
  cases (state.realm realm).holder? state.heap value with
  | none => exact .absent rfl
  | some object => exact Member.reads_read

/-- The failure that a member is missing is the failure of `dynamicGet` itself exactly when the
value does not have the member. -/
theorem dynamicGet_eq_missing_iff :
    dynamicGet realm value name state =
        .ended (.error (.missingMember ⟨value, name, [], .absent⟩)) state ↔
      (slot? realm value name state).isSome = false := by
  constructor
  · intro h
    by_contra hpresent
    rw [dynamicGet_of_present (Bool.eq_true_of_not_eq_false hpresent)] at h
    exact reads_getMember.ne_missing _ _ h
  · exact dynamicGet_of_absent

end Reading

section Registering

variable {place reader : RealmId} {kind : PrimitiveKind} {prototype : ObjectId} {value : Value}
  {name : String} {state : State}

/-- A read of a lazy binding does not depend on what is registered. -/
theorem read_register {holder : ObjectId} {cell : CellId} :
    LazyBinding.read holder name cell (state.register place kind prototype) =
      (LazyBinding.read holder name cell state).startingFrom fun reached ↦
        reached.register place kind prototype := by
  have hsame : (state.register place kind prototype).heap.cell? cell = state.heap.cell? cell := rfl
  cases hcell : state.heap.cell? cell with
  | none =>
    rw [LazyBinding.read_of_unknown hcell, LazyBinding.read_of_unknown (hsame.trans hcell)]
    rfl
  | some record =>
    cases hstate : record.state with
    | initialized held =>
      rw [LazyBinding.read_of_initialized hcell hstate,
        LazyBinding.read_of_initialized (hsame.trans hcell) hstate]
      rfl
    | inProgress =>
      rw [LazyBinding.read_of_inProgress hcell hstate,
        LazyBinding.read_of_inProgress (hsame.trans hcell) hstate]
      rfl
    | uninitialized initializer =>
      rw [LazyBinding.read_of_uninitialized hcell hstate,
        LazyBinding.read_of_uninitialized (hsame.trans hcell) hstate]
      rfl

variable (h : reader ≠ place ∨ ¬value.HasKind kind)

include h

theorem slot?_register :
    slot? reader value name (state.register place kind prototype) =
      slot? reader value name state := by
  rw [slot?, slot?, State.holder?_register h]
  rfl

theorem hasMember_register :
    hasMember reader value name (state.register place kind prototype) =
      (hasMember reader value name state).startingFrom fun reached ↦
        reached.register place kind prototype := by
  rw [hasMember_apply, hasMember_apply, slot?_register h]
  rfl

theorem getMember_register :
    getMember reader value name (state.register place kind prototype) =
      (getMember reader value name state).startingFrom fun reached ↦
        reached.register place kind prototype := by
  rw [getMember_apply, getMember_apply, slot?_register h]
  rcases slot? reader value name state with
    _ | ⟨holder, held | ⟨_ | getter, setter, enumerable⟩ | cell⟩
  · rfl
  · rfl
  · rfl
  · rfl
  · exact read_register

theorem dynamicGet_register :
    dynamicGet reader value name (state.register place kind prototype) =
      (dynamicGet reader value name state).startingFrom fun reached ↦
        reached.register place kind prototype := by
  have hslot : slot? reader value name (state.register place kind prototype) =
      slot? reader value name state := slot?_register h
  cases hpresent : (slot? reader value name state).isSome with
  | true =>
    rw [dynamicGet_of_present hpresent, dynamicGet_of_present (hslot ▸ hpresent),
      getMember_register h]
  | false =>
    rw [dynamicGet_of_absent hpresent, dynamicGet_of_absent (hslot ▸ hpresent)]
    rfl

end Registering

/-- How the presence of a member of a value and its reading go together. -/
structure MemberPresence (realm : RealmId) : Prop where
  /-- A value has a member exactly when one of the objects searched owns it, whatever the slot
  contains. To ask changes nothing. -/
  has_iff : ∀ value name state, ∃ answer,
    hasMember realm value name state = .ended (.ok answer) state ∧
      (answer = true ↔ ∃ object ∈ searched realm value state, ∃ property,
        state.heap.own? object name = some property)
  /-- The members of an object are searched on its own chain. -/
  searched_object : ∀ object state, searched realm (.object object) state = state.heap.chain object
  /-- Those of a class on the chain of its statics. -/
  searched_type : ∀ reference record state, state.heap.class? reference = some record →
    searched realm (.type reference) state = state.heap.chain record.statics
  /-- Those of a primitive on the chain of the prototype registered for its kind. -/
  searched_primitive : ∀ value kind state, value.HasKind kind →
    searched realm value state =
      ((state.realm realm).primitivePrototypes.find? kind).elim [] state.heap.chain
  /-- Null sentinels have no members. -/
  searched_nullish : ∀ value state, value = .undefined ∨ value = .null →
    searched realm value state = []
  /-- A chain is made of everything that an object gets to by prototypes. -/
  chain_iff : ∀ state : State, state.Reachable → ∀ object other,
    other ∈ state.heap.chain object ↔ Relation.ReflTransGen state.heap.ChainsTo object other
  /-- The failure of `dynamicGet` itself, at once and without effect, comes exactly when the member
  is absent. -/
  missing_iff : ∀ value name state, dynamicGet realm value name state =
      .ended (.error (.missingMember ⟨value, name, [], .absent⟩)) state ↔
    hasMember realm value name state = .ended (.ok false) state
  /-- Otherwise it is the read of the member. -/
  present : ∀ value name state, hasMember realm value name state = .ended (.ok true) state →
    dynamicGet realm value name state = getMember realm value name state
  /-- A member is read from the nearest object searched that owns it. -/
  nearest_iff : ∀ value name state holder property,
    slot? realm value name state = some (holder, property) ↔
      ∃ nearer farther, searched realm value state = nearer ++ holder :: farther ∧
        (∀ object ∈ nearer, state.heap.own? object name = none) ∧
        state.heap.own? holder name = some property
  /-- What the read does, by what it finds there. -/
  reads : ∀ value name state, Member.Reads (slot? realm value name state) value name state
    (getMember realm value name state)
  /-- At most one function is called, a getter on the value itself or an initializer. -/
  once : ∀ value name state,
    (getMember realm value name state).CallsAtMostOnce
      (Member.ReadCalls (slot? realm value name state) value state)
  /-- It fails only in the function that it calls, or at a binding that is being initialized. -/
  fails_iff : ∀ value name state fault last,
    (getMember realm value name state).EndsWith (.error fault) last ↔
      ReadFails realm value name state fault last
  /-- Registering a prototype for a kind of primitives sets it. -/
  registered : ∀ kind prototype state, realm.index < state.realms.size →
    state.heap.knows (.object prototype) = true →
      (Operation.realm (.setPrimitivePrototype kind)).execute realm [.object prototype] state =
        .ended (.ok .done) (state.register realm kind prototype) ∧
      ∀ value, value.HasKind kind →
        searched realm value (state.register realm kind prototype) = state.heap.chain prototype
  /-- The answers for values of all other kinds, and in all other realms, stay what they were. -/
  unaffected : ∀ reader kind prototype value name state,
    reader ≠ realm ∨ ¬value.HasKind kind →
      let register : State → State := fun reached ↦ reached.register realm kind prototype
      searched reader value (register state) = searched reader value state ∧
      slot? reader value name (register state) = slot? reader value name state ∧
      hasMember reader value name (register state) =
        (hasMember reader value name state).startingFrom register ∧
      getMember reader value name (register state) =
        (getMember reader value name state).startingFrom register ∧
      dynamicGet reader value name (register state) =
        (dynamicGet reader value name state).startingFrom register

/-- Presence is decided by the objects searched, and a member that is present is read from the
nearest of them that owns it. -/
theorem memberPresence (realm : RealmId) : MemberPresence realm where
  has_iff value name state := ⟨_, hasMember_apply, isSome_slot?_iff⟩
  searched_object object state := rfl
  searched_type reference record state hrecord := by
    simp [searched, Realm.holder?, hrecord]
  searched_primitive value kind state hkind := by
    rw [searched, holder?_of_primitiveKind (Value.hasKind_iff.1 hkind)]
  searched_nullish value state hnullish := by
    rcases hnullish with rfl | rfl <;> rfl
  chain_iff state h object other := (h.wellFormed.lists_chain object).complete other
  missing_iff value name state := by
    rw [dynamicGet_eq_missing_iff, hasMember_apply]
    simp
  present value name state h := by
    rw [hasMember_apply] at h
    exact dynamicGet_of_present (by simpa using h)
  nearest_iff value name state holder property := by
    rw [slot?_eq_firstOwner, Heap.firstOwner_eq_some_iff]
  reads _ _ _ := reads_getMember
  once _ _ _ := reads_getMember.callsAtMostOnce
  fails_iff _ _ _ _ _ := getMember_endsWith_error_iff
  registered kind prototype state hrealm hknown := by
    refine ⟨?_, fun value hkind ↦ ?_⟩
    · rw [Operation.execute_of_known (by simpa using hknown)]
      rfl
    · rw [searched, holder?_of_primitiveKind (Value.hasKind_iff.1 hkind),
        State.prototypes_register_self hrealm]
      rfl
  unaffected reader kind prototype value name state h :=
    ⟨by rw [searched, searched, State.holder?_register h]; rfl, slot?_register h,
      hasMember_register h, getMember_register h, dynamicGet_register h⟩

/-- A state with an object that owns a member. -/
def memberState : State :=
  { State.fresh .standard with
    heap := Heap.empty
      |>.addObject ⟨none, none, .empty⟩
      |>.define ⟨0⟩ "unit" (.ordinary (.integer 1)) }

/-- The state in which the object has been registered for numbers. -/
def numberState : State := memberState.register ⟨0⟩ .number ⟨0⟩

/-- Registered for numbers, the object gives its member to both representations of numbers, and to
no text. -/
theorem memberPresence_number :
    (Operation.realm (.setPrimitivePrototype .number)).execute ⟨0⟩ [.object ⟨0⟩] memberState =
        .ended (.ok .done) numberState ∧
      (∀ value ∈ [Value.integer 2, .float ⟨0⟩],
        hasMember ⟨0⟩ value "unit" numberState = .ended (.ok true) numberState) ∧
      hasMember ⟨0⟩ (.string "2") "unit" numberState = .ended (.ok false) numberState := by
  have hpresence := memberPresence ⟨0⟩
  obtain ⟨hexecute, hsearched⟩ :=
    hpresence.registered .number ⟨0⟩ memberState (by decide) (by decide)
  refine ⟨hexecute, fun value hvalue ↦ ?_, ?_⟩
  · have hkind : value.HasKind .number := by
      rcases List.mem_pair.1 hvalue with rfl | rfl
      · exact .integer 2
      · exact .float ⟨0⟩
    have hobject : (⟨0⟩ : ObjectId) ∈ searched ⟨0⟩ value numberState := by
      rw [numberState, hsearched value hkind]
      decide +kernel
    have howns : numberState.heap.own? ⟨0⟩ "unit" = some (.ordinary (.integer 1)) := by
      decide +kernel
    obtain ⟨answer, hanswer, hiff⟩ := hpresence.has_iff value "unit" numberState
    rw [hanswer, hiff.2 ⟨_, hobject, _, howns⟩]
  · have hkind : ¬(Value.string "2").HasKind .number := nofun
    obtain ⟨-, -, hhas, -⟩ :=
      hpresence.unaffected ⟨0⟩ .number ⟨0⟩ (.string "2") "unit" memberState (.inr hkind)
    rw [numberState, hhas]
    rfl

end Dispatch

end GradualRuntime
