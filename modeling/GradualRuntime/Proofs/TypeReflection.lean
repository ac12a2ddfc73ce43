import GradualRuntime.Proofs.GenericLifecycle
import GradualRuntime.Proofs.Identity

/-!
# Reflection on types

A generic type can be asked for the arguments that gave a type (`GenericType.typeArguments?`). The
question goes through the cache by the types that its entries hold, while an instantiation goes by
the key of its arguments; the two fit together because every entry stands under the key of its own
arguments. More than that holds: an entry is what the first success with its key has filed
(`State.Founded`), also when that success came in the middle of another instantiation.

`typeReflection` is the main statement. Instantiating again with arguments that reflection may give
yields an identical type at once (`inverts`). Of every type that was given and is a number if it is
a double, reflection knows arguments, and if only one entry holds such a type, these are the
arguments of the call that made the entry (`known`, `given`, `created`).
-/

set_option autoImplicit false

namespace GradualRuntime

section Founded

/-- The first instantiation of a generic type that has succeeded with a key. -/
def State.firstSuccess? (state : State) (generic : GenericId) (key : List IdentityKey) :
    Option (List Value × Value) :=
  (state.successes generic).reverse.find? fun success ↦ decide (GenericType.key success.1 = key)

/-- Every entry of the cache of a generic type holds the arguments and the type of the first success
with its key. -/
def State.Founded (state : State) (generic : GenericId) : Prop :=
  ∀ key entry, (state.heap.instantiations generic).find? key = some entry →
    state.firstSuccess? generic key = some (entry.arguments, entry.result)

variable {before after state : State} {generic : GenericId} {key : List IdentityKey}
  {arguments : List Value} {result : Value}

theorem State.mem_of_firstSuccess? {success : List Value × Value}
    (h : state.firstSuccess? generic key = some success) :
    success ∈ state.successes generic ∧ GenericType.key success.1 = key :=
  ⟨List.mem_reverse.1 (List.mem_of_find?_eq_some h), by simpa using List.find?_some h⟩

theorem State.firstSuccess?_of_cons
    (h : after.successes generic = (arguments, result) :: before.successes generic) :
    after.firstSuccess? generic key =
      (before.firstSuccess? generic key).or
        (if GenericType.key arguments = key then some (arguments, result) else none) := by
  rw [firstSuccess?, h, List.reverse_cons, List.find?_append, firstSuccess?]
  by_cases hkey : GenericType.key arguments = key <;> simp [hkey]

/-- A later success does not come first. -/
theorem State.firstSuccess?_of_some {success : List Value × Value}
    (h : after.successes generic = (arguments, result) :: before.successes generic)
    (hfirst : before.firstSuccess? generic key = some success) :
    after.firstSuccess? generic key = some success := by
  rw [firstSuccess?_of_cons h, hfirst, Option.some_or]

/-- Where nothing is filed, no success has come before. -/
theorem State.Books.firstSuccess?_eq_none (h : state.Books generic)
    (hnone : (state.heap.instantiations generic).find? key = none) :
    state.firstSuccess? generic key = none := by
  cases hfirst : state.firstSuccess? generic key with
  | none => rfl
  | some success =>
    obtain ⟨hmem, rfl⟩ := mem_of_firstSuccess? hfirst
    obtain ⟨entry, hentry, -⟩ := h.filed success.1 success.2 hmem
    rw [hnone] at hentry
    cases hentry

namespace State.Founded

/-- Every entry stands under the key of its own arguments. -/
theorem key_eq (h : state.Founded generic) {entry : Instantiation}
    (hentry : (state.heap.instantiations generic).find? key = some entry) :
    GenericType.key entry.arguments = key :=
  (mem_of_firstSuccess? (h key entry hentry)).2

theorem step (h : before.Founded generic) (hbooks : before.Books generic)
    (hstep : Generic.Step generic before after) : after.Founded generic := by
  intro key entry hentry
  cases hstep with
  | idle same successes =>
    rw [Heap.instantiations, same] at hentry
    rw [firstSuccess?, successes]
    exact h key entry hentry
  | made _ present _ =>
    rw [Heap.instantiations_of_some present] at hentry
    cases hentry
  | reused _ same successes =>
    rw [Heap.instantiations, same] at hentry
    exact firstSuccess?_of_some successes (h key entry hentry)
  | @constructed record arguments result known fresh present successes =>
    rw [Heap.instantiations_of_some present] at hentry
    rw [← Heap.instantiations_of_some known] at fresh hentry
    by_cases hkey : key = GenericType.key arguments
    · subst hkey
      rw [OrderedMap.find?_insert_self] at hentry
      cases hentry
      rw [firstSuccess?_of_cons successes, hbooks.firstSuccess?_eq_none fresh, if_pos rfl]
      rfl
    · rw [OrderedMap.find?_insert_of_ne _ hkey] at hentry
      exact firstSuccess?_of_some successes (h key entry hentry)

theorem transitions {first last : Ledger} (hrun : first.Transitions last)
    (h : first.state.Founded generic) (hbooks : first.state.Books generic) :
    last.state.Founded generic := by
  induction hrun with
  | refl => exact h
  | tail hearlier hlast ih =>
    exact ih.step (Ledger.Transitions.books hearlier hbooks) (hlast.step generic)

end State.Founded

theorem Session.founded_moment (bodies : List Body) (realm : Realm) (generic : GenericId)
    (index : Nat) : (moment bodies (.fresh realm) index).state.Founded generic := by
  have hrun := transitions_moment bodies (.fresh realm) (Nat.zero_le index)
  have hstart : (State.fresh realm).Founded generic := by
    rintro key entry ⟨⟩
  have hlast := State.Founded.transitions hrun hstart (State.books_fresh realm generic)
  exact hlast

end Founded

section Reflection

/-- The arguments that reflection on a type may give: those of an entry of the cache that holds a
type identical to it. -/
def GenericType.Reflects (heap : Heap) (generic : GenericId) (type : Value)
    (arguments : List Value) : Prop :=
  ∃ entry ∈ (heap.instantiations generic).entries,
    entry.2.result.identical type = true ∧ entry.2.arguments = arguments

namespace GenericType

variable {heap : Heap} {state : State} {generic : GenericId} {type : Value}
  {arguments : List Value}

theorem typeArguments?_eq_some (h : typeArguments? heap generic type = some arguments) :
    Reflects heap generic type arguments := by
  obtain ⟨entry, hentry, rfl⟩ := Option.map_eq_some_iff.1 h
  exact ⟨entry, List.mem_of_find?_eq_some hentry, by simpa using List.find?_some hentry, rfl⟩

theorem typeArguments?_eq_none_iff :
    typeArguments? heap generic type = none ↔
      ∀ entry ∈ (heap.instantiations generic).entries,
        entry.2.result.identical type = false := by
  simp [typeArguments?]

theorem typeArguments?_isSome {entry : List IdentityKey × Instantiation}
    (hentry : entry ∈ (heap.instantiations generic).entries)
    (htype : entry.2.result.identical type = true) :
    (typeArguments? heap generic type).isSome = true := by
  rw [Option.isSome_iff_ne_none, ne_eq, typeArguments?_eq_none_iff]
  intro hnone
  rw [hnone entry hentry] at htype
  cases htype

/-- When one entry holds types identical to a value and no other does, reflection gives its
arguments. -/
theorem typeArguments?_of_unique {key : List IdentityKey} {entry : Instantiation}
    (hentry : (heap.instantiations generic).find? key = some entry)
    (htype : entry.result.identical type = true)
    (hothers : ∀ other ∈ (heap.instantiations generic).entries, other.1 ≠ key →
      other.2.result.identical type = false) :
    typeArguments? heap generic type = some entry.arguments := by
  have hmem := (OrderedMap.find?_eq_some_iff _ _ _).1 hentry
  obtain ⟨arguments, hsome⟩ := Option.isSome_iff_exists.1 (typeArguments?_isSome hmem htype)
  obtain ⟨chosen, hchosen, hidentical, rfl⟩ := typeArguments?_eq_some hsome
  have hkey : chosen.1 = key := by
    by_contra hne
    rw [hothers chosen hchosen hne] at hidentical
    cases hidentical
  have hfound := (OrderedMap.find?_eq_some_iff _ chosen.1 chosen.2).2 hchosen
  rw [hkey, hentry] at hfound
  rw [hsome, Option.some.inj hfound]

/-- Instantiating with arguments that reflection may give comes back to the type. -/
theorem instantiate_of_reflects (hfounded : state.Founded generic)
    (h : Reflects state.heap generic type arguments) :
    ∃ result, result.identical type = true ∧
      instantiate generic arguments state =
        .ended (.ok result) (state.record (.instantiated generic arguments result)) := by
  obtain ⟨entry, hmem, htype, rfl⟩ := h
  have hentry := (OrderedMap.find?_eq_some_iff _ entry.1 entry.2).2 hmem
  rw [← hfounded.key_eq hentry] at hentry
  exact ⟨entry.2.result, htype, instantiate_of_filed hentry⟩

end GenericType

/-- Reflection on the types of a generic type in the course of a session. -/
structure TypeReflection (bodies : List Body) (start : State) (generic : GenericId) : Prop where
  /-- A program that asks is given what the cache says. -/
  asked : ∀ index name type,
    let now := (Session.moment bodies start index).state
    now.genericNames.find? name = some generic →
      GenericOperation.execute (.typeArguments name) [type] now =
        .ended (.ok (.arguments (GenericType.typeArguments? now.heap generic type))) now
  /-- The arguments that are given are those of an entry whose type is identical. -/
  chosen : ∀ index type arguments,
    let now := (Session.moment bodies start index).state
    GenericType.typeArguments? now.heap generic type = some arguments →
      GenericType.Reflects now.heap generic type arguments
  /-- Whichever of the matching entries is chosen, instantiating with its arguments gives an
  identical type. It is given at once, without a call, and the heap is the same afterwards. -/
  inverts : ∀ index type arguments,
    let now := (Session.moment bodies start index).state
    GenericType.Reflects now.heap generic type arguments →
      ∃ result, result.identical type = true ∧
        GenericType.instantiate generic arguments now =
          .ended (.ok result) (now.record (.instantiated generic arguments result))
  /-- There are no arguments exactly when no entry holds an identical type. -/
  unknown : ∀ index type,
    let now := (Session.moment bodies start index).state
    GenericType.typeArguments? now.heap generic type = none ↔
      ∀ entry ∈ (now.heap.instantiations generic).entries, entry.2.result.identical type = false
  /-- An instantiation that gives a type goes on record. -/
  recorded : ∀ state arguments type after,
    (GenericType.instantiate generic arguments state).EndsWith (.ok type) after →
      (arguments, type) ∈ after.successes generic
  /-- Of a type that was given, unless it is a double that is not a number, arguments are known. -/
  known : ∀ index arguments type,
    let now := (Session.moment bodies start index).state
    (arguments, type) ∈ now.successes generic → type.isNaN = false →
      (GenericType.typeArguments? now.heap generic type).isSome = true
  /-- If moreover no entry under another key holds an identical type, what is given are the
  arguments of the first success with the key. They are as many as those of the instantiation, and
  agree with them by their keys place by place. -/
  given : ∀ index arguments type,
    let now := (Session.moment bodies start index).state
    (arguments, type) ∈ now.successes generic → type.isNaN = false →
      (∀ entry ∈ (now.heap.instantiations generic).entries,
        entry.1 ≠ GenericType.key arguments → entry.2.result.identical type = false) →
        ∃ first, now.firstSuccess? generic (GenericType.key arguments) = some (first, type) ∧
          GenericType.typeArguments? now.heap generic type = some first ∧
          first.length = arguments.length ∧
          List.Forall₂ (fun left right ↦ left.identityKey = right.identityKey) first arguments
  /-- The first success with a key is the call that made the entry: in the move in which the entry
  appears, the instantiation with its arguments succeeds with its type, and none with the key has
  succeeded before. -/
  created : ∀ index key entry,
    ((Session.moment bodies start index).state.heap.instantiations generic).find? key =
        some entry →
      ∃ earlier < index,
        ((Session.moment bodies start earlier).state.heap.instantiations generic).find? key =
          none ∧
        (∀ success ∈ (Session.moment bodies start earlier).state.successes generic,
          GenericType.key success.1 ≠ key) ∧
        ((Session.moment bodies start (earlier + 1)).state.heap.instantiations generic).find? key =
          some entry ∧
        (entry.arguments, entry.result) ∈
          (Session.moment bodies start (earlier + 1)).state.successes generic ∧
        (Session.moment bodies start index).state.firstSuccess? generic key =
          some (entry.arguments, entry.result)

/-- A query of the arguments of a type, as a body makes it. -/
theorem GenericOperation.execute_typeArguments {state : State} {generic : GenericId}
    {name : String} (hname : state.genericNames.find? name = some generic) (type : Value) :
    execute (.typeArguments name) [type] state =
      .ended (.ok (.arguments (GenericType.typeArguments? state.heap generic type))) state := by
  have hnamed : Operands.genericNamed name state = .ended (.ok generic) state := by
    simp [Operands.genericNamed, hname]
  have hexecute : execute (.typeArguments name) [type] =
      Operands.genericNamed name >>= fun generic ↦ Run.heap >>= fun heap ↦
        pure (.arguments (GenericType.typeArguments? heap generic type)) := rfl
  rw [hexecute, Run.bind_of_ok hnamed]
  rfl

/-- The move in which an entry appears. -/
theorem Session.exists_created {bodies : List Body} {start : State} {generic : GenericId}
    {key : List IdentityKey} {entry : Instantiation} {index : Nat}
    (hstart : (start.heap.instantiations generic).find? key = none)
    (hentry : ((moment bodies start index).state.heap.instantiations generic).find? key =
      some entry) :
    ∃ earlier < index,
      ((moment bodies start earlier).state.heap.instantiations generic).find? key = none ∧
      ((moment bodies start (earlier + 1)).state.heap.instantiations generic).find? key =
        some entry := by
  induction index with
  | zero =>
    rw [show (moment bodies start 0).state = start from rfl, hstart] at hentry
    cases hentry
  | succ index ih =>
    cases hbefore : ((moment bodies start index).state.heap.instantiations generic).find? key with
    | none => exact ⟨index, Nat.lt_succ_self index, hbefore, hentry⟩
    | some filed =>
      have hkept := (transitions_moment bodies start (Nat.le_succ index)).find?_instantiations
        hbefore
      rw [show (moment bodies start index.succ).ledger.state =
        (moment bodies start (index + 1)).state from rfl, hentry] at hkept
      cases hkept
      obtain ⟨earlier, hearlier, hmove⟩ := ih hbefore
      exact ⟨earlier, Nat.lt_succ_of_lt hearlier, hmove⟩

/-- In every run of any program, from a fresh state, reflection on the types of a generic type
inverts instantiation. -/
theorem typeReflection (bodies : List Body) (realm : Realm) (generic : GenericId) :
    TypeReflection bodies (.fresh realm) generic where
  asked _ _ type hname := GenericOperation.execute_typeArguments hname type
  chosen _ _ _ hsome := GenericType.typeArguments?_eq_some hsome
  inverts index _ _ hreflects :=
    GenericType.instantiate_of_reflects
      (Session.founded_moment bodies realm generic index) hreflects
  unknown _ _ := GenericType.typeArguments?_eq_none_iff
  recorded _ _ _ _ hended := (GenericType.returned_of_instantiate hended).2
  known index arguments type := by
    intro now hsuccess hnumber
    obtain ⟨entry, hentry, rfl⟩ :=
      (Session.books_moment bodies realm generic index).filed arguments type hsuccess
    exact GenericType.typeArguments?_isSome ((OrderedMap.find?_eq_some_iff _ _ _).1 hentry)
      ((Value.identical_self_iff _).2 hnumber)
  given index arguments type := by
    intro now hsuccess hnumber hothers
    obtain ⟨entry, hentry, rfl⟩ :=
      (Session.books_moment bodies realm generic index).filed arguments type hsuccess
    have hfounded : now.Founded generic := Session.founded_moment bodies realm generic index
    have hagree := GenericType.key_eq_iff.1 (hfounded.key_eq hentry)
    exact ⟨entry.arguments, hfounded _ entry hentry,
      GenericType.typeArguments?_of_unique hentry ((Value.identical_self_iff _).2 hnumber) hothers,
      hagree.length_eq, hagree⟩
  created index key entry hentry := by
    have hempty : ((State.fresh realm).heap.instantiations generic).find? key = none := rfl
    obtain ⟨earlier, hearlier, hbefore, hafter⟩ := Session.exists_created hempty hentry
    refine ⟨earlier, hearlier, hbefore, ?_, hafter, ?_,
      Session.founded_moment bodies realm generic index key entry hentry⟩
    · rintro ⟨arguments, type⟩ hsuccess rfl
      obtain ⟨filed, hfiled, -⟩ :=
        (Session.books_moment bodies realm generic earlier).filed arguments type hsuccess
      rw [hbefore] at hfiled
      cases hfiled
    · exact (State.mem_of_firstSuccess?
        (Session.founded_moment bodies realm generic (earlier + 1) key entry hafter)).1

end Reflection

end GradualRuntime
