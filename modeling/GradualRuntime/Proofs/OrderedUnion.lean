import GradualRuntime.OrderedMap
import Mathlib.Data.List.Basic
import Mathlib.Data.List.Perm.Basic
import Mathlib.Data.List.Nodup

/-!
# Unions of ordered maps

To write all entries of one ordered map to another one makes their union (`OrderedMap.union`): where
both have a key the right map wins (`find?_union`), and the keys that only the right map has follow
those of the left one (`keys_union`).

An ordered map is determined by its keys and what it holds under them (`ext_of_find?`), so the laws
of unions are checked on both. Union is idempotent and associative, with the order of the keys; two
maps without common keys can be united with a third in either order, up to the order of the keys.
-/

set_option autoImplicit false

namespace GradualRuntime

section Entries

variable {κ ν : Type} [DecidableEq κ]

theorem lookupEntry_eq_none_iff (key : κ) (entries : List (κ × ν)) :
    lookupEntry key entries = none ↔ key ∉ entries.map Prod.fst := by
  rw [← Option.not_isSome_iff_eq_none, lookupEntry_isSome_iff]

/-- Entries with the same keys in the same order, none twice, and the same value at each. -/
theorem eq_of_lookupEntry_eq {left right : List (κ × ν)}
    (hkeys : left.map Prod.fst = right.map Prod.fst) (hnodup : (left.map Prod.fst).Nodup)
    (hlookup : ∀ key, lookupEntry key left = lookupEntry key right) : left = right := by
  induction left generalizing right with
  | nil => exact (List.map_eq_nil_iff.1 hkeys.symm).symm
  | cons entry rest ih =>
    cases right with
    | nil => simp at hkeys
    | cons other others =>
      obtain ⟨hfirst, hrest⟩ := List.cons.inj hkeys
      obtain ⟨hnew, hdistinct⟩ := List.nodup_cons.1 hnodup
      have hvalue : entry = other := by
        have hhead := hlookup entry.1
        simp only [lookupEntry, hfirst, if_true, Option.some.injEq] at hhead
        exact Prod.ext hfirst hhead
      have hothers : ∀ key, lookupEntry key rest = lookupEntry key others := by
        intro key
        by_cases hkey : entry.1 = key
        · -- neither rest has the first key again
          subst hkey
          rw [(lookupEntry_eq_none_iff entry.1 rest).2 hnew,
            (lookupEntry_eq_none_iff entry.1 others).2 (hrest ▸ hnew)]
        · simpa [lookupEntry, hkey, ← hfirst] using hlookup key
      rw [hvalue, ih hrest hdistinct hothers]

end Entries

namespace OrderedMap

variable {κ ν : Type} [DecidableEq κ]

/-- A map is determined by its keys in order and by what it holds under them. -/
theorem ext_of_find? {left right : OrderedMap κ ν} (hkeys : left.keys = right.keys)
    (hfind : ∀ key, left.find? key = right.find? key) : left = right := by
  cases left
  cases right
  congr
  exact eq_of_lookupEntry_eq hkeys ‹_› hfind

/-- Maps that hold the same have the same entries, up to their order. -/
theorem entries_perm_of_find? {left right : OrderedMap κ ν}
    (hfind : ∀ key, left.find? key = right.find? key) : left.entries.Perm right.entries := by
  refine (List.perm_ext_iff_of_nodup left.keys_nodup.of_map right.keys_nodup.of_map).2 ?_
  rintro ⟨key, value⟩
  rw [← find?_eq_some_iff, ← find?_eq_some_iff, hfind]

theorem find?_eq_none_iff (map : OrderedMap κ ν) (key : κ) :
    map.find? key = none ↔ key ∉ map.keys := lookupEntry_eq_none_iff key map.entries

section Insertion

theorem find?_insertAll (map : OrderedMap κ ν) {entries : List (κ × ν)}
    (hnodup : (entries.map Prod.fst).Nodup) (key : κ) :
    (map.insertAll entries).find? key = (lookupEntry key entries).or (map.find? key) := by
  induction entries generalizing map with
  | nil => rfl
  | cons entry rest ih =>
    obtain ⟨hnew, hrest⟩ := List.nodup_cons.1 hnodup
    have hstep : (map.insertAll (entry :: rest)).find? key =
        (lookupEntry key rest).or ((map.insert entry.1 entry.2).find? key) := ih _ hrest
    by_cases hkey : entry.1 = key
    · subst hkey
      have habsent := (lookupEntry_eq_none_iff entry.1 rest).2 hnew
      simp [hstep, habsent, lookupEntry]
    · rw [hstep, find?_insert_of_ne map (Ne.symm hkey)]
      simp [lookupEntry, hkey]

theorem keys_insertAll (map : OrderedMap κ ν) {entries : List (κ × ν)}
    (hnodup : (entries.map Prod.fst).Nodup) :
    (map.insertAll entries).keys =
      map.keys ++ (entries.map Prod.fst).filter fun key ↦ key ∉ map.keys := by
  induction entries generalizing map with
  | nil => simp [insertAll]
  | cons entry rest ih =>
    obtain ⟨hnew, hrest⟩ := List.nodup_cons.1 hnodup
    have hstep : (map.insertAll (entry :: rest)).keys =
        (map.insert entry.1 entry.2).keys ++
          (rest.map Prod.fst).filter fun key ↦ key ∉ (map.insert entry.1 entry.2).keys := ih _ hrest
    by_cases hkey : entry.1 ∈ map.keys
    · have hkeys : (map.insert entry.1 entry.2).keys = map.keys := by
        rw [keys_insert, if_pos ((map.contains_iff_mem_keys entry.1).2 hkey)]
      simp [hstep, hkeys, hkey]
    · have hkeys : (map.insert entry.1 entry.2).keys = map.keys ++ [entry.1] := by
        rw [keys_insert, if_neg fun hcontains ↦
          hkey ((map.contains_iff_mem_keys entry.1).1 hcontains)]
      -- the new key is not among those that follow, so they are the same with it and without it
      have hfilter : (rest.map Prod.fst).filter (fun key ↦ key ∉ map.keys ++ [entry.1]) =
          (rest.map Prod.fst).filter fun key ↦ key ∉ map.keys := by
        refine List.filter_congr fun key hmem ↦ ?_
        have hne : key ≠ entry.1 := fun heq ↦ hnew (heq ▸ hmem)
        simp [hne]
      rw [hstep, hkeys, hfilter]
      simp [hkey]

end Insertion

section Unions

/-- One map with all entries of another one written to it. -/
def union (left right : OrderedMap κ ν) : OrderedMap κ ν := left.insertAll right.entries

variable (left middle right map : OrderedMap κ ν)

theorem find?_union (key : κ) :
    (left.union right).find? key = (right.find? key).or (left.find? key) :=
  left.find?_insertAll right.keys_nodup key

theorem keys_union :
    (left.union right).keys = left.keys ++ right.keys.filter fun key ↦ key ∉ left.keys :=
  left.keys_insertAll right.keys_nodup

theorem empty_union : empty.union map = map := by
  refine ext_of_find? ?_ fun key ↦ ?_
  · have hempty : (empty : OrderedMap κ ν).keys = [] := rfl
    simp [keys_union, hempty]
  · simp [find?_union]

theorem union_assoc : (left.union middle).union right = left.union (middle.union right) := by
  refine ext_of_find? ?_ fun key ↦ ?_
  · simp only [keys_union, List.filter_append, List.append_assoc, List.filter_filter]
    congr 2
    refine List.filter_congr fun key _ ↦ ?_
    by_cases hleft : key ∈ left.keys <;> by_cases hmiddle : key ∈ middle.keys <;>
      simp [hleft, hmiddle]
  · simp only [find?_union, Option.or_assoc]

variable {left middle right} in
/-- Nothing changes in a map that already holds what is written to it. -/
theorem union_eq_left_iff : left.union right = left ↔
    ∀ key value, right.find? key = some value → left.find? key = some value := by
  constructor
  · intro h key value hvalue
    rw [← h, find?_union, hvalue, Option.some_or]
  · intro h
    refine ext_of_find? ?_ fun key ↦ ?_
    · rw [keys_union, List.append_right_eq_self]
      refine List.filter_eq_nil_iff.2 fun key hkey ↦ ?_
      obtain ⟨value, hvalue⟩ :=
        Option.isSome_iff_exists.1 ((right.contains_iff_mem_keys key).2 hkey)
      have hpresent : key ∈ left.keys := by
        rw [← contains_iff_mem_keys, contains, h key value hvalue, Option.isSome_some]
      simp [hpresent]
    · rw [find?_union]
      cases hvalue : right.find? key with
      | none => rw [Option.none_or]
      | some value => rw [Option.some_or, h key value hvalue]

theorem union_self : map.union map = map := union_eq_left_iff.2 fun _ _ h ↦ h

theorem union_union_self : (left.union right).union right = left.union right := by
  rw [union_assoc, union_self]

variable {left middle right} in
/-- Two maps without common keys hold the same together in whichever order they are written. -/
theorem find?_union_union_comm (h : ∀ key ∈ middle.keys, key ∉ right.keys) (key : κ) :
    ((left.union middle).union right).find? key = ((left.union right).union middle).find? key := by
  simp only [find?_union]
  by_cases hkey : key ∈ middle.keys
  · rw [(right.find?_eq_none_iff key).2 (h key hkey), Option.none_or, Option.none_or]
  · rw [(middle.find?_eq_none_iff key).2 hkey, Option.none_or, Option.none_or]

end Unions

end OrderedMap

end GradualRuntime
