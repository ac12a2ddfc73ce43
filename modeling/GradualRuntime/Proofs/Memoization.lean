import GradualRuntime.Proofs.Access
import Mathlib.Data.Finset.Card

/-!
# Memoization

What a run does with a generic type. The trace of a state says which instantiations have succeeded
(`State.successes`), and the cache is the book of these successes (`State.Books`): under the key of
every success stands the type that was given, and nothing else is there. A transition does one of
four things to a generic type (`Generic.Step`): nothing, making it, giving a type that is filed, or
filing a new type and giving it. From this follows that the book is kept and only grows, and that it
has one entry for each key with a success (`State.Books.size_eq`).
-/

set_option autoImplicit false

namespace GradualRuntime

section Successes

/-- The instantiation of a generic type that an entry of the trace reports: arguments and type. -/
def TraceEntry.success? (generic : GenericId) : TraceEntry → Option (List Value × Value)
  | instantiated other arguments result =>
    if other = generic then some (arguments, result) else none
  | _ => none

/-- The instantiations of a generic type that have succeeded, the latest first. -/
def State.successes (state : State) (generic : GenericId) : List (List Value × Value) :=
  state.trace.filterMap (TraceEntry.success? generic)

/-- The keys for which an instantiation of a generic type has succeeded. -/
def State.successKeys (state : State) (generic : GenericId) : Finset (List IdentityKey) :=
  ((state.successes generic).map fun success ↦ GenericType.key success.1).toFinset

variable {generic other : GenericId} {arguments : List Value} {result : Value}

theorem State.successes_record_of_eq_none (state : State) {entry : TraceEntry}
    (h : entry.success? generic = none) :
    (state.record entry).successes generic = state.successes generic :=
  List.filterMap_cons_none h

theorem State.successes_record_instantiated (state : State) :
    (state.record (.instantiated generic arguments result)).successes generic =
      (arguments, result) :: state.successes generic :=
  List.filterMap_cons_some (by simp [TraceEntry.success?])

theorem TraceEntry.success?_of_ne (h : other ≠ generic) :
    (instantiated other arguments result).success? generic = none := by
  simp [TraceEntry.success?, h]

end Successes

section Steps

/-- A generic type later on: it has the same constructor, and every entry of its cache is still
there. -/
structure Generic.Extends (earlier later : Generic) : Prop where
  constructorFunction : later.constructorFunction = earlier.constructorFunction
  entries : ∀ key entry, earlier.cache.find? key = some entry → later.cache.find? key = some entry

/-- What can happen to a generic type between two states. -/
inductive Generic.Step (generic : GenericId) (before after : State) : Prop where
  | idle (same : after.heap.generic? generic = before.heap.generic? generic)
    (successes : after.successes generic = before.successes generic)
  | made {constructorFunction : FunctionId} (absent : before.heap.generic? generic = none)
    (present : after.heap.generic? generic = some ⟨constructorFunction, .empty⟩)
    (successes : after.successes generic = before.successes generic)
  | reused {arguments : List Value} {entry : Instantiation}
    (filed : (before.heap.instantiations generic).find? (GenericType.key arguments) = some entry)
    (same : after.heap.generic? generic = before.heap.generic? generic)
    (successes : after.successes generic = (arguments, entry.result) :: before.successes generic)
  | constructed {record : Generic} {arguments : List Value} {result : Value}
    (known : before.heap.generic? generic = some record)
    (fresh : record.cache.find? (GenericType.key arguments) = none)
    (present : after.heap.generic? generic =
      some { record with
        cache := record.cache.insert (GenericType.key arguments) ⟨arguments, result⟩ })
    (successes : after.successes generic = (arguments, result) :: before.successes generic)

variable {generic : GenericId}

theorem Heap.instantiations_of_some {heap : Heap} {record : Generic}
    (h : heap.generic? generic = some record) : heap.instantiations generic = record.cache := by
  simp [Heap.instantiations, h]

theorem Heap.instantiations_of_none {heap : Heap} (h : heap.generic? generic = none) :
    heap.instantiations generic = .empty := by
  simp [Heap.instantiations, h]

theorem Heap.generic?_storeInstantiation_self {heap : Heap} {record : Generic}
    (h : heap.generic? generic = some record) (key : List IdentityKey) (entry : Instantiation) :
    (heap.storeInstantiation generic key entry).generic? generic =
      some { record with cache := record.cache.insert key entry } := by
  have hmodified : (heap.storeInstantiation generic key entry).generic? generic =
      (heap.generic? generic).map fun record ↦
        { record with cache := record.cache.insert key entry } := Arena.get?_modify_self _ _ _
  rw [hmodified, h]
  rfl

/-- Filing an entry puts it under its key. -/
theorem Heap.instantiations_storeInstantiation {heap : Heap} {record : Generic}
    (h : heap.generic? generic = some record) (key : List IdentityKey) (entry : Instantiation) :
    (heap.storeInstantiation generic key entry).instantiations generic =
      (heap.instantiations generic).insert key entry := by
  rw [instantiations_of_some (generic?_storeInstantiation_self h key entry),
    instantiations_of_some h]

/-- A change of the heap may add a generic type and leaves the others alone. -/
theorem Heap.Change.generic? {may : Heap.Permission} {before after : Heap}
    (h : Heap.Change may before after) (generic : GenericId) :
    after.generic? generic = before.generic? generic ∨
      before.generic? generic = none ∧ ∃ constructorFunction,
        after.generic? generic = some ⟨constructorFunction, .empty⟩ := by
  cases h with
  | addGeneric constructorFunction =>
    rcases Nat.lt_trichotomy generic.index before.generics.size with hlt | heq | hgt
    · exact .inl (Arena.get?_push_of_lt hlt _)
    · refine .inr ⟨?_, constructorFunction, ?_⟩
      · simp [Heap.generic?, Arena.get?, Arena.size, heq]
      · simp [Heap.generic?, Heap.addGeneric, heq]
    · refine .inl ?_
      have hbefore : ¬ generic.index < before.generics.records.size := Nat.not_lt.2 hgt.le
      have hafter : ¬ generic.index < before.generics.records.size + 1 := Nat.not_lt.2 hgt
      simp [Heap.generic?, Heap.addGeneric, Arena.get?, Arena.push, hbefore, hafter]
  | _ => exact .inl rfl

theorem State.Change.step {may : Heap.Permission} {before after : State}
    (h : State.Change may before after) (generic : GenericId) :
    Generic.Step generic before after := by
  cases h with
  | heap change =>
    rcases change.generic? generic with hsame | ⟨habsent, constructorFunction, hpresent⟩
    · exact .idle hsame rfl
    · exact .made habsent hpresent rfl
  | @reused other arguments entry present =>
    by_cases hother : other = generic
    · subst hother
      exact .reused present rfl (State.successes_record_instantiated before)
    · exact .idle rfl (State.successes_record_of_eq_none before (TraceEntry.success?_of_ne hother))
  | @constructed other record arguments made fresh result =>
    by_cases hother : other = generic
    · subst hother
      exact .constructed made fresh (Heap.generic?_storeInstantiation_self made _ _)
        (State.successes_record_instantiated _)
    · refine .idle ?_ (State.successes_record_of_eq_none _ (TraceEntry.success?_of_ne hother))
      have hindex : generic.index ≠ other.index :=
        fun hindex ↦ hother (congrArg GenericId.mk hindex.symm)
      exact Arena.get?_modify_of_ne hindex _
  | _ => exact .idle rfl rfl

theorem Ledger.Transition.step {before after : Ledger} (h : before.Transition after)
    (generic : GenericId) : Generic.Step generic before.state after.state := by
  cases h with
  | change change => exact change.step generic
  | settle entered state outcome name purpose => cases outcome <;> exact .idle rfl rfl
  | _ => exact .idle rfl rfl

namespace Generic

variable {before after : State} {record : Generic}

theorem Extends.refl (record : Generic) : record.Extends record := ⟨rfl, fun _ _ h ↦ h⟩

theorem Extends.trans {first second third : Generic} (h : first.Extends second)
    (hnext : second.Extends third) : first.Extends third :=
  ⟨hnext.constructorFunction.trans h.constructorFunction,
    fun key entry hentry ↦ hnext.entries key entry (h.entries key entry hentry)⟩

/-- A new entry goes where there was none, so all others stay. -/
theorem extends_insert {key : List IdentityKey} (hfresh : record.cache.find? key = none)
    (entry : Instantiation) :
    record.Extends { record with cache := record.cache.insert key entry } := by
  refine ⟨rfl, fun other kept hkept ↦ ?_⟩
  have hother : other ≠ key := by
    rintro rfl
    rw [hfresh] at hkept
    cases hkept
  rw [OrderedMap.find?_insert_of_ne record.cache hother]
  exact hkept

theorem Step.extends (h : Step generic before after)
    (hrecord : before.heap.generic? generic = some record) :
    ∃ grown, after.heap.generic? generic = some grown ∧ record.Extends grown := by
  cases h with
  | idle same _ => exact ⟨record, same.trans hrecord, .refl record⟩
  | made absent _ _ =>
    rw [hrecord] at absent
    cases absent
  | reused _ same _ => exact ⟨record, same.trans hrecord, .refl record⟩
  | constructed known fresh present _ =>
    rw [hrecord] at known
    cases known
    exact ⟨_, present, extends_insert fresh _⟩

/-- Successes are only ever added. -/
theorem Step.successes_suffix (h : Step generic before after) :
    before.successes generic <:+ after.successes generic := by
  cases h with
  | idle _ successes => exact successes ▸ List.suffix_refl _
  | made _ _ successes => exact successes ▸ List.suffix_refl _
  | reused _ _ successes => exact successes ▸ List.suffix_cons _ _
  | constructed _ _ _ successes => exact successes ▸ List.suffix_cons _ _

end Generic

end Steps

section Books

/-- The cache of a generic type is the book of its successes. -/
structure State.Books (state : State) (generic : GenericId) : Prop where
  /-- The type that was given for some arguments is filed under their key. -/
  filed : ∀ arguments result, (arguments, result) ∈ state.successes generic →
    ∃ entry, (state.heap.instantiations generic).find? (GenericType.key arguments) = some entry ∧
      entry.result = result
  /-- Whatever is filed has been given. -/
  used : ∀ key, key ∈ (state.heap.instantiations generic).keys →
    ∃ success ∈ state.successes generic, GenericType.key success.1 = key

namespace State.Books

variable {state before after : State} {generic : GenericId}

/-- There is one entry for every key for which an instantiation has succeeded. -/
theorem size_eq (h : state.Books generic) :
    (state.heap.instantiations generic).size = (state.successKeys generic).card := by
  have hkeys : (state.heap.instantiations generic).keys.toFinset = state.successKeys generic := by
    ext key
    simp only [State.successKeys, List.mem_toFinset, List.mem_map]
    constructor
    · intro hkey
      exact h.used key hkey
    · rintro ⟨⟨arguments, result⟩, hsuccess, rfl⟩
      obtain ⟨entry, hentry, -⟩ := h.filed arguments result hsuccess
      rw [← OrderedMap.contains_iff_mem_keys, OrderedMap.contains, hentry]
      rfl
  have hnodup : (state.heap.instantiations generic).keys.Nodup :=
    (state.heap.instantiations generic).keys_nodup
  rw [← hkeys, List.toFinset_card_of_nodup hnodup, OrderedMap.keys, List.length_map]
  rfl

/-- Successes with one key gave one type. -/
theorem agree (h : state.Books generic) {first second : List Value × Value}
    (hfirst : first ∈ state.successes generic) (hsecond : second ∈ state.successes generic)
    (hkey : GenericType.key first.1 = GenericType.key second.1) : first.2 = second.2 := by
  obtain ⟨entry, hentry, hresult⟩ := h.filed first.1 first.2 hfirst
  obtain ⟨other, hother, hsame⟩ := h.filed second.1 second.2 hsecond
  rw [hkey, hother] at hentry
  cases hentry
  exact hresult.symm.trans hsame

/-- The book is kept while nothing happens to the generic type. -/
theorem of_eq (h : before.Books generic)
    (hcache : after.heap.instantiations generic = before.heap.instantiations generic)
    (hsuccesses : after.successes generic = before.successes generic) : after.Books generic := by
  refine ⟨fun arguments result hsuccess ↦ ?_, fun key hkey ↦ ?_⟩
  · rw [hcache]
    rw [hsuccesses] at hsuccess
    exact h.filed arguments result hsuccess
  · rw [hsuccesses]
    rw [hcache] at hkey
    exact h.used key hkey

/-- Giving a filed type once more keeps the book. -/
theorem reused (h : before.Books generic) {arguments : List Value} {entry : Instantiation}
    (hfiled : (before.heap.instantiations generic).find? (GenericType.key arguments) = some entry)
    (hcache : after.heap.instantiations generic = before.heap.instantiations generic)
    (hsuccesses : after.successes generic =
      (arguments, entry.result) :: before.successes generic) : after.Books generic := by
  refine ⟨fun given result hsuccess ↦ ?_, fun key hkey ↦ ?_⟩
  · rw [hcache]
    rw [hsuccesses] at hsuccess
    rcases List.mem_cons.1 hsuccess with hnew | hold
    · cases hnew
      exact ⟨entry, hfiled, rfl⟩
    · exact h.filed given result hold
  · rw [hcache] at hkey
    obtain ⟨success, hsuccess, hsame⟩ := h.used key hkey
    exact ⟨success, hsuccesses ▸ List.mem_cons_of_mem _ hsuccess, hsame⟩

/-- Filing a type and giving it keeps the book. -/
theorem constructed (h : before.Books generic) {arguments : List Value} {result : Value}
    (hfresh : (before.heap.instantiations generic).find? (GenericType.key arguments) = none)
    (hcache : after.heap.instantiations generic =
      (before.heap.instantiations generic).insert (GenericType.key arguments) ⟨arguments, result⟩)
    (hsuccesses : after.successes generic = (arguments, result) :: before.successes generic) :
    after.Books generic := by
  refine ⟨fun given type hsuccess ↦ ?_, fun key hkey ↦ ?_⟩
  · rw [hcache]
    rw [hsuccesses] at hsuccess
    rcases List.mem_cons.1 hsuccess with hnew | hold
    · cases hnew
      exact ⟨_, OrderedMap.find?_insert_self _ _ _, rfl⟩
    · obtain ⟨entry, hentry, htype⟩ := h.filed given type hold
      have hother : GenericType.key given ≠ GenericType.key arguments := by
        intro hsame
        rw [hsame, hfresh] at hentry
        cases hentry
      exact ⟨entry, (OrderedMap.find?_insert_of_ne _ hother _).trans hentry, htype⟩
  · have habsent : (before.heap.instantiations generic).contains (GenericType.key arguments) =
        false := by
      rw [OrderedMap.contains, hfresh]
      rfl
    rw [hcache, OrderedMap.keys_insert, habsent] at hkey
    rcases List.mem_append.1 hkey with hold | hnew
    · obtain ⟨success, hsuccess, hsame⟩ := h.used key hold
      exact ⟨success, hsuccesses ▸ List.mem_cons_of_mem _ hsuccess, hsame⟩
    · exact ⟨(arguments, result), hsuccesses ▸ List.mem_cons_self, (List.mem_singleton.1 hnew).symm⟩

/-- Every step keeps the book. -/
theorem step (h : before.Books generic) (hstep : Generic.Step generic before after) :
    after.Books generic := by
  cases hstep with
  | idle same successes => exact h.of_eq (by simp only [Heap.instantiations, same]) successes
  | made absent present successes =>
    refine h.of_eq ?_ successes
    rw [Heap.instantiations_of_some present, Heap.instantiations_of_none absent]
  | reused filed same successes =>
    exact h.reused filed (by simp only [Heap.instantiations, same]) successes
  | constructed known fresh present successes =>
    have hcache := Heap.instantiations_of_some known
    refine h.constructed (hcache ▸ fresh) ?_ successes
    rw [Heap.instantiations_of_some present, hcache]

end State.Books

namespace Ledger

variable {before after : Ledger} {generic : GenericId}

theorem Transitions.books (h : Transitions before after) (hbooks : before.state.Books generic) :
    after.state.Books generic := by
  induction h with
  | refl => exact hbooks
  | tail _ hlast ih => exact ih.step (hlast.step generic)

theorem Transitions.extends (h : Transitions before after) {record : Generic}
    (hrecord : before.state.heap.generic? generic = some record) :
    ∃ grown, after.state.heap.generic? generic = some grown ∧ record.Extends grown := by
  induction h with
  | refl => exact ⟨record, hrecord, .refl record⟩
  | tail _ hlast ih =>
    obtain ⟨middle, hmiddle, hfirst⟩ := ih
    obtain ⟨grown, hgrown, hsecond⟩ := (hlast.step generic).extends hmiddle
    exact ⟨grown, hgrown, hfirst.trans hsecond⟩

/-- What is filed stays filed. -/
theorem Transitions.find?_instantiations (h : Transitions before after) {key : List IdentityKey}
    {entry : Instantiation}
    (hentry : (before.state.heap.instantiations generic).find? key = some entry) :
    (after.state.heap.instantiations generic).find? key = some entry := by
  cases hrecord : before.state.heap.generic? generic with
  | none => simp [Heap.instantiations_of_none hrecord] at hentry
  | some record =>
    rw [Heap.instantiations_of_some hrecord] at hentry
    obtain ⟨grown, hgrown, hextends⟩ := h.extends hrecord
    rw [Heap.instantiations_of_some hgrown]
    exact hextends.entries key entry hentry

theorem Transitions.successes_suffix (h : Transitions before after) :
    before.state.successes generic <:+ after.state.successes generic := by
  induction h with
  | refl => exact List.suffix_refl _
  | tail _ hlast ih => exact ih.trans (hlast.step generic).successes_suffix

end Ledger

end Books

end GradualRuntime
