import GradualRuntime.Proofs.OrderedUnion
import GradualRuntime.Proofs.WellFormed
import Mathlib.Data.List.Induction

/-!
# Overlays

What copying the own slots of objects onto another object leaves there. One copy makes the union of
the slots of both, in which the source wins (`slots_copySlots`). After an overlay, the target owns
its own names and then those of the sources in the order in which they first occur
(`ownNames_overlay`), and under each name the descriptor of the last source that owns it
(`own?_overlay`, `Heap.lastOwned`). Nothing else changes (`Heap.Edits`).
-/

set_option autoImplicit false

namespace GradualRuntime

section Names

/-- A list of names with one more name, which comes last when it is new. -/
def includeName (names : List String) (name : String) : List String :=
  if name ∈ names then names else names ++ [name]

theorem eraseDups_concat (names : List String) (name : String) :
    (names ++ [name]).eraseDups = includeName names.eraseDups name := by
  rw [List.eraseDups_append, includeName]
  by_cases h : name ∈ names
  · simp [List.removeAll, h]
  · simp [List.removeAll, h, List.eraseDups_cons]

/-- Including names one after another keeps the first occurrence of each. -/
theorem foldl_includeName (names : List String) :
    names.foldl includeName [] = names.eraseDups := by
  induction names using List.reverseRecOn with
  | nil => rfl
  | append_singleton names name ih =>
    rw [List.foldl_concat, ih, eraseDups_concat]

/-- Including names none of which stands twice appends those that are new. -/
theorem foldl_includeName_of_nodup {added : List String} (hnodup : added.Nodup)
    (names : List String) :
    added.foldl includeName names = names ++ added.filter fun name ↦ name ∉ names := by
  induction added using List.reverseRecOn with
  | nil => simp
  | append_singleton added name ih =>
    obtain ⟨hadded, -, hdisjoint⟩ := List.nodup_append.1 hnodup
    have hnew : name ∉ added := fun hmem ↦ hdisjoint name hmem name List.mem_cons_self rfl
    rw [List.foldl_concat, ih hadded, includeName, List.filter_append]
    by_cases hname : name ∈ names <;> simp [hname, hnew]

end Names

namespace Heap

/-- The descriptor of a name that the last of its owners among some objects has. -/
def lastOwned (heap : Heap) (owners : List ObjectId) (name : String) : Option Property :=
  owners.reverse.findSome? fun owner ↦ heap.own? owner name

/-- A heap that differs from another one at most in the slots of one object. -/
structure Edits (target : ObjectId) (before after : Heap) : Prop where
  others : ∀ object, object ≠ target →
    after.objects.get? object.index = before.objects.get? object.index
  size : after.objects.size = before.objects.size
  link : after.prototype? target = before.prototype? target
  rest : after = { before with objects := after.objects }

section Edits

variable {before after heap : Heap} {target source object : ObjectId}

theorem Edits.refl (target : ObjectId) (heap : Heap) : Edits target heap heap :=
  ⟨fun _ _ ↦ rfl, rfl, rfl, rfl⟩

theorem Edits.trans {first second third : Heap} (h : Edits target first second)
    (hnext : Edits target second third) : Edits target first third := by
  refine ⟨fun object hobject ↦ ?_, hnext.size.trans h.size, hnext.link.trans h.link, ?_⟩
  · rw [hnext.others object hobject, h.others object hobject]
  · rw [hnext.rest, h.rest]

theorem edits_define (target : ObjectId) (heap : Heap) (name : String) (property : Property) :
    Edits target heap (heap.define target name property) := by
  refine ⟨fun object hobject ↦ ?_, heap.size_objects_define target name property,
    heap.prototype?_define target target name property, rfl⟩
  have hindex : object.index ≠ target.index := fun heq ↦ hobject (congrArg ObjectId.mk heq)
  exact Arena.get?_modify_of_ne hindex _

theorem Edits.slots_eq (h : Edits target before after) (hobject : object ≠ target) :
    after.slots object = before.slots object := by
  simp only [slots, h.others object hobject]

theorem Edits.own?_eq (h : Edits target before after) (hobject : object ≠ target)
    (name : String) : after.own? object name = before.own? object name := by
  rw [own?, h.slots_eq hobject, own?]

theorem Edits.ownNames_eq (h : Edits target before after) (hobject : object ≠ target) :
    after.ownNames object = before.ownNames object := by
  rw [ownNames, h.slots_eq hobject, ownNames]

end Edits

section Copies

variable {heap : Heap} {target source : ObjectId}

theorem hasOwn_eq_isSome (heap : Heap) (object : ObjectId) (name : String) :
    heap.hasOwn object name = (heap.own? object name).isSome := rfl

theorem hasOwn_iff_mem_ownNames (heap : Heap) (object : ObjectId) (name : String) :
    heap.hasOwn object name = true ↔ name ∈ heap.ownNames object :=
  OrderedMap.contains_iff_mem_keys _ _

theorem own?_eq_none_iff (heap : Heap) (object : ObjectId) (name : String) :
    heap.own? object name = none ↔ name ∉ heap.ownNames object :=
  OrderedMap.find?_eq_none_iff _ _

theorem ownNames_define_self (htarget : target.index < heap.objects.size) (name : String)
    (property : Property) :
    (heap.define target name property).ownNames target =
      includeName (heap.ownNames target) name := by
  rw [ownNames, slots_define_self htarget, OrderedMap.keys_insert, includeName]
  by_cases h : name ∈ heap.ownNames target
  · have hsome : (heap.slots target).contains name = true :=
      (hasOwn_iff_mem_ownNames heap target name).2 h
    rw [if_pos h, if_pos hsome, ownNames]
  · have hnone : ¬(heap.slots target).contains name = true :=
      fun hown ↦ h ((hasOwn_iff_mem_ownNames heap target name).1 hown)
    rw [if_neg h, if_neg hnone, ownNames]

theorem edits_copyNames (target source : ObjectId) (names : List String) (heap : Heap) :
    Edits target heap (heap.copyNames target source names) := by
  induction names generalizing heap with
  | nil => exact .refl target heap
  | cons name rest ih =>
    simp only [copyNames, List.foldl_cons]
    cases heap.own? source name with
    | none => exact ih heap
    | some property => exact (edits_define target heap name property).trans (ih _)

theorem edits_copySlots (target source : ObjectId) (heap : Heap) :
    Edits target heap (heap.copySlots target source) :=
  edits_copyNames target source (heap.ownNames source) heap

/-- A list of slots is written to an object at once. -/
theorem defineAll_eq_modify (heap : Heap) (object : ObjectId) (entries : List (String × Property)) :
    heap.defineAll object entries =
      { heap with
        objects := heap.objects.modify object.index fun record ↦
          { record with slots := record.slots.insertAll entries } } := by
  induction entries generalizing heap with
  | nil =>
    have hsame : heap.objects = heap.objects.modify object.index _ :=
      (Arena.modify_eq_self fun _ _ ↦ rfl).symm
    exact congrArg (fun objects ↦ { heap with objects := objects }) hsame
  | cons entry rest ih =>
    have hrest := ih (heap.define object entry.1 entry.2)
    rw [define, Arena.modify_modify] at hrest
    exact hrest

/-- What a copy reads from its source is what the source owned before, even when the source is the
target: a name that has been written does not come again. -/
theorem copySlots_eq_defineAll (heap : Heap) (target source : ObjectId) :
    heap.copySlots target source = heap.defineAll target (heap.slots source).entries := by
  have hnames : ∀ (entries : List (String × Property)) (current : Heap),
      (entries.map Prod.fst).Nodup →
      (∀ entry ∈ entries, current.own? source entry.1 = some entry.2) →
        current.copyNames target source (entries.map Prod.fst) =
          current.defineAll target entries := by
    intro entries
    induction entries with
    | nil => intro current _ _; rfl
    | cons entry rest ih =>
      intro current hnodup howned
      obtain ⟨hnew, hrest⟩ := List.nodup_cons.1 hnodup
      have hfirst := howned entry List.mem_cons_self
      simp only [copyNames, List.map_cons, List.foldl_cons, hfirst]
      refine ih _ hrest fun other hother ↦ ?_
      have hne : other.1 ≠ entry.1 := fun heq ↦ hnew (heq ▸ List.mem_map_of_mem hother)
      rw [own?_define_of_name_ne _ target source hne]
      exact howned other (List.mem_cons_of_mem entry hother)
  refine hnames _ heap (heap.slots source).keys_nodup fun entry hentry ↦ ?_
  exact ((heap.slots source).find?_eq_some_iff entry.1 entry.2).2 hentry

/-- After a copy the target has the union of the slots of both. -/
theorem slots_copySlots (htarget : target.index < heap.objects.size) :
    (heap.copySlots target source).slots target =
      (heap.slots target).union (heap.slots source) := by
  obtain ⟨record, hrecord⟩ := Option.isSome_iff_exists.1 (Arena.isSome_get?_of_lt htarget)
  rw [copySlots_eq_defineAll, defineAll_eq_modify]
  simp [slots, hrecord, OrderedMap.union]

theorem own?_copySlots (htarget : target.index < heap.objects.size) (name : String) :
    (heap.copySlots target source).own? target name =
      (heap.own? source name).or (heap.own? target name) := by
  rw [own?, slots_copySlots htarget, OrderedMap.find?_union]
  rfl

theorem ownNames_copySlots (htarget : target.index < heap.objects.size) :
    (heap.copySlots target source).ownNames target =
      (heap.ownNames source).foldl includeName (heap.ownNames target) := by
  have hnodup : (heap.ownNames source).Nodup := (heap.slots source).keys_nodup
  rw [foldl_includeName_of_nodup hnodup, ownNames, slots_copySlots htarget, OrderedMap.keys_union]
  rfl

end Copies

section Overlays

variable {heap : Heap} {target : ObjectId} {sources : List ObjectId}

theorem edits_overlay (target : ObjectId) (sources : List ObjectId) (heap : Heap) :
    Edits target heap (Mixin.overlay target sources heap) := by
  induction sources generalizing heap with
  | nil => exact .refl target heap
  | cons source rest ih =>
    exact (edits_copySlots target source heap).trans (ih _)

theorem lastOwned_cons (heap : Heap) (owner : ObjectId) (owners : List ObjectId) (name : String) :
    heap.lastOwned (owner :: owners) name =
      (heap.lastOwned owners name).or (heap.own? owner name) := by
  simp [lastOwned, List.findSome?_append]

/-- Who owned a name last depends on the slots of these objects alone. -/
theorem lastOwned_congr {before after : Heap} {name : String}
    (h : ∀ source ∈ sources, after.own? source name = before.own? source name) :
    after.lastOwned sources name = before.lastOwned sources name := by
  induction sources with
  | nil => rfl
  | cons source rest ih =>
    rw [lastOwned_cons, lastOwned_cons, h source List.mem_cons_self,
      ih fun other hother ↦ h other (List.mem_cons_of_mem source hother)]

/-- After an overlay the last source that owns a name has given its descriptor. -/
theorem own?_overlay (hsources : ∀ source ∈ sources, source ≠ target)
    (htarget : target.index < heap.objects.size) (name : String) :
    (Mixin.overlay target sources heap).own? target name =
      (heap.lastOwned sources name).or (heap.own? target name) := by
  induction sources generalizing heap with
  | nil => rfl
  | cons source rest ih =>
    have hsource := hsources source List.mem_cons_self
    have hrest : ∀ other ∈ rest, other ≠ target :=
      fun other hother ↦ hsources other (List.mem_cons_of_mem source hother)
    have hcopy := edits_copySlots target source heap
    have hexists : target.index < (heap.copySlots target source).objects.size :=
      Nat.lt_of_lt_of_eq htarget hcopy.size.symm
    calc (Mixin.overlay target (source :: rest) heap).own? target name
        = ((heap.copySlots target source).lastOwned rest name).or
            ((heap.copySlots target source).own? target name) := ih hrest hexists
      _ = (heap.lastOwned rest name).or
            ((heap.own? source name).or (heap.own? target name)) := by
          rw [own?_copySlots htarget,
            lastOwned_congr fun other hother ↦ hcopy.own?_eq (hrest other hother) name]
      _ = (heap.lastOwned (source :: rest) name).or (heap.own? target name) := by
          rw [lastOwned_cons, Option.or_assoc]

/-- After an overlay the names of the sources follow in the order of their first occurrence. -/
theorem ownNames_overlay (hsources : ∀ source ∈ sources, source ≠ target)
    (htarget : target.index < heap.objects.size) :
    (Mixin.overlay target sources heap).ownNames target =
      (sources.flatMap heap.ownNames).foldl includeName (heap.ownNames target) := by
  induction sources generalizing heap with
  | nil => rfl
  | cons source rest ih =>
    have hsource := hsources source List.mem_cons_self
    have hrest : ∀ other ∈ rest, other ≠ target :=
      fun other hother ↦ hsources other (List.mem_cons_of_mem source hother)
    have hcopy := edits_copySlots target source heap
    have hexists : target.index < (heap.copySlots target source).objects.size :=
      Nat.lt_of_lt_of_eq htarget hcopy.size.symm
    have hnames : rest.flatMap (heap.copySlots target source).ownNames =
        rest.flatMap heap.ownNames :=
      List.flatMap_congr fun other hother ↦ hcopy.ownNames_eq (hrest other hother)
    calc (Mixin.overlay target (source :: rest) heap).ownNames target
        = (rest.flatMap (heap.copySlots target source).ownNames).foldl includeName
            ((heap.copySlots target source).ownNames target) := ih hrest hexists
      _ = (rest.flatMap heap.ownNames).foldl includeName
            ((heap.ownNames source).foldl includeName (heap.ownNames target)) := by
          rw [hnames, ownNames_copySlots htarget]
      _ = ((source :: rest).flatMap heap.ownNames).foldl includeName (heap.ownNames target) := by
          rw [List.flatMap_cons, List.foldl_append]

end Overlays

end Heap

end GradualRuntime
