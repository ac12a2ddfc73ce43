/-!
# Finite maps that remember the order of insertion

An `OrderedMap` is a finite map whose keys stand in the order in which they first arrived. Writing
to a key that is already present replaces its value and leaves the key where it stands; writing to
a new key appends it. No operation removes a key, so the key list of a map only ever grows at its
end (`keys_insert`), and it never holds a key twice (`keys_nodup`).

Lookup is determined by the last write: `find?_insert_self` and `find?_insert_of_ne` give the value
at the written key and at every other key. `contains_iff_mem_keys` ties lookup to the key list.
-/

set_option autoImplicit false

namespace GradualRuntime

/-- The value stored at `key`, taken from a list of entries. -/
@[specialize]
def lookupEntry {κ ν : Type} [DecidableEq κ] (key : κ) : List (κ × ν) → Option ν
  | [] => none
  | entry :: rest => if entry.1 = key then some entry.2 else lookupEntry key rest

/-- The entries after a write: the entry of a present key is replaced where it stands, a new key is
appended. -/
@[specialize]
def insertEntry {κ ν : Type} [DecidableEq κ] (key : κ) (value : ν) : List (κ × ν) → List (κ × ν)
  | [] => [(key, value)]
  | entry :: rest =>
    if entry.1 = key then (key, value) :: rest else entry :: insertEntry key value rest

section Entries

variable {κ ν : Type} [DecidableEq κ]

theorem lookupEntry_isSome_iff (key : κ) (entries : List (κ × ν)) :
    (lookupEntry key entries).isSome ↔ key ∈ entries.map Prod.fst := by
  induction entries with
  | nil => simp [lookupEntry]
  | cons entry rest ih =>
    by_cases h : entry.1 = key
    · simp [lookupEntry, h]
    · simp [lookupEntry, h, ih, Ne.symm h]

theorem lookupEntry_eq_some_iff {key : κ} {value : ν} {entries : List (κ × ν)}
    (h : (entries.map Prod.fst).Nodup) :
    lookupEntry key entries = some value ↔ (key, value) ∈ entries := by
  induction entries with
  | nil => simp [lookupEntry]
  | cons entry rest ih =>
    obtain ⟨hfirst, hrest⟩ := List.nodup_cons.1 h
    by_cases hkey : entry.1 = key
    · subst hkey
      have hnone : (entry.1, value) ∉ rest := fun hmem ↦
        hfirst (List.mem_map.2 ⟨_, hmem, rfl⟩)
      simp [lookupEntry, hnone, Prod.ext_iff, eq_comm]
    · have hne : (key, value) ≠ entry := fun heq ↦ hkey (heq ▸ rfl)
      simp [lookupEntry, hkey, ih hrest, hne]

theorem lookupEntry_insertEntry_self (key : κ) (value : ν) (entries : List (κ × ν)) :
    lookupEntry key (insertEntry key value entries) = some value := by
  induction entries with
  | nil => simp [insertEntry, lookupEntry]
  | cons entry rest ih =>
    by_cases h : entry.1 = key <;> simp [insertEntry, lookupEntry, h, ih]

theorem lookupEntry_insertEntry_of_ne {key other : κ} (h : other ≠ key) (value : ν)
    (entries : List (κ × ν)) :
    lookupEntry other (insertEntry key value entries) = lookupEntry other entries := by
  induction entries with
  | nil => simp [insertEntry, lookupEntry, Ne.symm h]
  | cons entry rest ih =>
    by_cases hkey : entry.1 = key
    · simp [insertEntry, lookupEntry, hkey, Ne.symm h]
    · by_cases hother : entry.1 = other <;> simp [insertEntry, lookupEntry, hkey, hother, ih, h]

theorem insertEntry_insertEntry_self (key : κ) (first second : ν) (entries : List (κ × ν)) :
    insertEntry key second (insertEntry key first entries) = insertEntry key second entries := by
  induction entries with
  | nil => simp [insertEntry]
  | cons entry rest ih =>
    by_cases h : entry.1 = key
    · simp [insertEntry, h]
    · simp [insertEntry, h, ih]

theorem map_fst_insertEntry_of_mem {key : κ} (value : ν) {entries : List (κ × ν)}
    (h : key ∈ entries.map Prod.fst) :
    (insertEntry key value entries).map Prod.fst = entries.map Prod.fst := by
  induction entries with
  | nil => simp at h
  | cons entry rest ih =>
    by_cases hkey : entry.1 = key
    · simp [insertEntry, hkey]
    · have hrest : key ∈ rest.map Prod.fst := by
        rcases List.mem_cons.1 h with hhead | htail
        · exact absurd hhead.symm hkey
        · exact htail
      simp only [insertEntry, hkey, if_false, List.map_cons, ih hrest]

theorem map_fst_insertEntry_of_notMem {key : κ} (value : ν) {entries : List (κ × ν)}
    (h : key ∉ entries.map Prod.fst) :
    (insertEntry key value entries).map Prod.fst = entries.map Prod.fst ++ [key] := by
  induction entries with
  | nil => rfl
  | cons entry rest ih =>
    simp only [List.map_cons, List.mem_cons, not_or] at h
    simp only [insertEntry, Ne.symm h.1, if_false, List.map_cons, ih h.2, List.cons_append]

theorem nodup_insertEntry (key : κ) (value : ν) {entries : List (κ × ν)}
    (h : (entries.map Prod.fst).Nodup) : ((insertEntry key value entries).map Prod.fst).Nodup := by
  by_cases hkey : key ∈ entries.map Prod.fst
  · rw [map_fst_insertEntry_of_mem value hkey]
    exact h
  · rw [map_fst_insertEntry_of_notMem value hkey]
    refine List.nodup_append.2 ⟨h, by simp, ?_⟩
    intro left hleft right hright heq
    exact hkey (by simpa [← List.mem_singleton.1 hright, heq] using hleft)

end Entries

/-- A finite map with a fixed order of keys: the order of their first insertion. -/
structure OrderedMap (κ ν : Type) where
  /-- Keys with their values, oldest key first. -/
  entries : List (κ × ν)
  /-- No key stands twice. -/
  keys_nodup : (entries.map Prod.fst).Nodup
  deriving DecidableEq

namespace OrderedMap

variable {κ ν : Type}

/-- The map without entries. -/
def empty : OrderedMap κ ν := ⟨[], by simp⟩

instance : EmptyCollection (OrderedMap κ ν) := ⟨empty⟩

instance : Inhabited (OrderedMap κ ν) := ⟨empty⟩

/-- The keys in the order of their first insertion. -/
def keys (map : OrderedMap κ ν) : List κ := map.entries.map Prod.fst

/-- The number of keys. -/
def size (map : OrderedMap κ ν) : Nat := map.entries.length

variable [DecidableEq κ]

/-- The value at `key`, if there is one. -/
@[inline]
def find? (map : OrderedMap κ ν) (key : κ) : Option ν := lookupEntry key map.entries

/-- Whether `key` has a value. -/
@[inline]
def contains (map : OrderedMap κ ν) (key : κ) : Bool := (map.find? key).isSome

/-- Writes `value` at `key`. A present key keeps its place in the order, a new key comes last. -/
@[inline]
def insert (map : OrderedMap κ ν) (key : κ) (value : ν) : OrderedMap κ ν :=
  ⟨insertEntry key value map.entries, nodup_insertEntry key value map.keys_nodup⟩

/-- Writes a list of entries, first to last. -/
def insertAll (map : OrderedMap κ ν) (entries : List (κ × ν)) : OrderedMap κ ν :=
  entries.foldl (fun partialMap entry ↦ partialMap.insert entry.1 entry.2) map

theorem contains_iff_mem_keys (map : OrderedMap κ ν) (key : κ) :
    map.contains key = true ↔ key ∈ map.keys :=
  lookupEntry_isSome_iff key map.entries

/-- What a map holds under a key is the entry with that key. -/
theorem find?_eq_some_iff (map : OrderedMap κ ν) (key : κ) (value : ν) :
    map.find? key = some value ↔ (key, value) ∈ map.entries :=
  lookupEntry_eq_some_iff map.keys_nodup

@[simp]
theorem find?_empty (key : κ) : (empty : OrderedMap κ ν).find? key = none := rfl

@[simp]
theorem find?_insert_self (map : OrderedMap κ ν) (key : κ) (value : ν) :
    (map.insert key value).find? key = some value :=
  lookupEntry_insertEntry_self key value map.entries

theorem find?_insert_of_ne (map : OrderedMap κ ν) {key other : κ} (h : other ≠ key) (value : ν) :
    (map.insert key value).find? other = map.find? other :=
  lookupEntry_insertEntry_of_ne h value map.entries

/-- A second write to a key leaves nothing of the first. -/
theorem insert_insert_self (map : OrderedMap κ ν) (key : κ) (first second : ν) :
    (map.insert key first).insert key second = map.insert key second := by
  simp [insert, insertEntry_insertEntry_self]

/-- The key list after a write: unchanged when the key is present, one longer otherwise. -/
theorem keys_insert (map : OrderedMap κ ν) (key : κ) (value : ν) :
    (map.insert key value).keys =
      if map.contains key then map.keys else map.keys ++ [key] := by
  by_cases h : key ∈ map.entries.map Prod.fst
  · rw [if_pos ((map.contains_iff_mem_keys key).2 h)]
    exact map_fst_insertEntry_of_mem value h
  · rw [if_neg (fun hcontains ↦ h ((map.contains_iff_mem_keys key).1 hcontains))]
    exact map_fst_insertEntry_of_notMem value h

end OrderedMap

end GradualRuntime
