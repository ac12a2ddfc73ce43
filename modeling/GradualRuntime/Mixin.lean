import GradualRuntime.Run

/-!
# Mixins

`Heap.copySlots` copies every own descriptor of one object onto another, as it is: accessors
stay accessors and lazy bindings share their cell. A name already present is overwritten in its
place, so of several copies the last one wins.

`Mixin.compose` makes a class out of a base class and behaviour sources. The own slots of its
prototype are the own slots of the sources' prototypes, overlaid from left to right; prototype and
statics chain to those of the base, so what no source declares falls through to the base.
-/

set_option autoImplicit false

namespace GradualRuntime

namespace Heap

/-- Copies the descriptors that `source` owns under some names, each as it is when its turn
comes. -/
def copyNames (target source : ObjectId) (names : List String) (heap : Heap) : Heap :=
  names.foldl
    (fun current name ↦
      match current.own? source name with
      | some property => current.define target name property
      | none => current)
    heap

/-- Copies every own descriptor of `source` onto `target`. -/
def copySlots (target source : ObjectId) (heap : Heap) : Heap :=
  heap.copyNames target source (heap.ownNames source)

end Heap

/-- The record of a class. -/
def Run.classRecord (reference : ClassId) : Run Class := do
  match (← Run.heap).class? reference with
  | some record => return record
  | none => Run.fail (.unsupported "class")

theorem Run.classRecord_of_some {reference : ClassId} {state : State} {record : Class}
    (h : state.heap.class? reference = some record) :
    Run.classRecord reference state = .ended (.ok record) state := by
  simp [classRecord, h]

theorem Run.classRecord_of_none {reference : ClassId} {state : State}
    (h : state.heap.class? reference = none) :
    Run.classRecord reference state = .ended (.error (.unsupported "class")) state := by
  simp [classRecord, h]

/-- The records of classes that exist, in order. -/
theorem Run.classRecords_of_known {references : List ClassId} {state : State}
    (h : ∀ reference ∈ references, reference.index < state.heap.classes.size) :
    references.mapM Run.classRecord state =
      .ended (.ok (references.filterMap state.heap.class?)) state := by
  induction references with
  | nil => rfl
  | cons reference rest ih =>
    obtain ⟨record, hrecord⟩ := Heap.exists_class?_of_lt (h reference List.mem_cons_self)
    have hrest := ih fun other hother ↦ h other (List.mem_cons_of_mem reference hother)
    simp [List.mapM_cons, classRecord_of_some hrecord, hrest, hrecord]

theorem Run.classRecords_of_unknown {references : List ClassId} {state : State}
    (h : ¬∀ reference ∈ references, reference.index < state.heap.classes.size) :
    references.mapM Run.classRecord state = .ended (.error (.unsupported "class")) state := by
  induction references with
  | nil => simp at h
  | cons reference rest ih =>
    cases hrecord : state.heap.class? reference with
    | none => simp [List.mapM_cons, classRecord_of_none hrecord]
    | some record =>
      have hrest := ih fun hall ↦ h fun other hother ↦ by
        rcases List.mem_cons.1 hother with rfl | hother
        · exact Heap.lt_of_class?_eq_some hrecord
        · exact hall other hother
      simp [List.mapM_cons, classRecord_of_some hrecord, hrest]

namespace Mixin

/-- The name of a mixin application. -/
def name (base : String) (sources : List String) : String :=
  match sources with
  | [] => base
  | _ => base ++ " with " ++ commaSeparated sources

/-- Overlays the own slots of the sources' prototypes on a prototype, left to right. -/
def overlay (prototype : ObjectId) (sources : List ObjectId) (heap : Heap) : Heap :=
  sources.foldl (fun current source ↦ current.copySlots prototype source) heap

/-- Makes the class of a base class and behaviour sources. -/
def compose (base : ClassId) (sources : List ClassId) : Run ClassId := do
  let baseRecord ← Run.classRecord base
  let sourceRecords ← sources.mapM Run.classRecord
  let prototype ← Run.allocate (some baseRecord.prototype) none
  Run.changeHeap (overlay prototype (sourceRecords.map Class.prototype))
  let composedName := name baseRecord.name (sourceRecords.map Class.name)
  Run.emit (.mixinComposed composedName ((← Run.heap).ownNames prototype).length)
  let statics ← Run.allocate (some baseRecord.statics) none
  Run.create Heap.nextClass fun heap ↦ heap.addClass
    { name := composedName
      superclass := some base
      ownConstructor := none
      prototype := prototype
      statics := statics
      composition := some ⟨base, sources⟩ }

end Mixin

end GradualRuntime
