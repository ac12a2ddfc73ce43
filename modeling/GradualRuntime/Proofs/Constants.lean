import GradualRuntime.Proofs.BindingAccess
import GradualRuntime.Proofs.SlotCoherence

/-!
# Constants

A constant is a data slot that rejects writes, defined as such or left behind by an immutable lazy
binding. Two things change it. One is an operation that defines this very slot
(`Session.Redefines`): a definition, a copy, the installation of a lazy binding or a named
constructor. The other is an access to a lazy binding that the slot held before it became a
constant: the access was pending all the time, and stores its value when it completes
(`Session.Completes`). Nothing else that a program can do touches the slot (`constancy`), however
many bodies run in the meantime.

The step is `Session.constant_succ`. It goes through what a move can do to objects: a move that
stores nothing into the slot leaves the constant alone, a read keeps its value in a slot that held a
binding when the read began, and a write has found a binding as well, since every other write is
over at the next moment and rejected by a constant (`Member.set_cases`).
-/

set_option autoImplicit false

namespace GradualRuntime

section Definitions

/-- The operations that define slots. A write is none of them. -/
def Operation.isDefinition : Operation → Bool
  | .object (.define _) | .object .copyOwn | .object .copySlots | .binding (.bind _)
  | .binding .bindAll | .type .namedConstructor => true
  | _ => false

namespace Session

variable (bodies : List Body) (start : State)

/-- The move after a moment ends an operation that has defined a slot. -/
def Redefines (index : Nat) (object : ObjectId) (name : String) : Prop :=
  ∃ operation operands begun outcome, operation.isDefinition = true ∧
    Finishes bodies start index operation operands begun outcome ∧
      operation.Stores begun.heap operands outcome object name

/-- The move after a moment completes an access to the lazy binding that a slot held at an earlier
moment. The access has been pending since then. A read leaves the value of the cell in the slot, and
a write the written value. -/
inductive Completes (began index : Nat) (object : ObjectId) (name : String) : Prop where
  | read {cell : CellId} {record : LazyCell} {value : Value} (order : began < index)
    (held : (moment bodies start began).state.heap.own? object name = some (.binding cell))
    (pending : ∀ between, began < between → between ≤ index →
      ∃ pending ∈ (moment bodies start between).configuration.frames,
        pending.Reads object name cell)
    (present : (moment bodies start (index + 1)).state.heap.cell? cell = some record)
    (done : record.state = .initialized value)
    (kept : (moment bodies start (index + 1)).state.heap.own? object name =
      some (record.materialized value))
  | write {below : List PendingCall} {place : RealmId} {receiver : ObjectId} {value : Value}
    {cell : CellId} {next : Except Fault Answer → Body} {begun after : State} {answer : Answer}
    (order : began ≤ index)
    (begins : (moment bodies start began).configuration = ⟨below,
      (Body.perform place (.object .set) [.object receiver, .string name, value] next).run begun⟩)
    (held : begun.heap.lookup receiver name = some (object, .binding cell))
    (busy : ∀ between, began < between → between ≤ index →
      (moment bodies start between).configuration ≠ ⟨below, (next (.ok answer)).run after⟩)
    (resumes : (moment bodies start (index + 1)).configuration =
      ⟨below, (next (.ok answer)).run after⟩)
    (written : (moment bodies start (index + 1)).state.heap.own? object name =
      some (.data value true true))

/-- A slot holds a constant at all moments from one to another. -/
def Constant (object : ObjectId) (name : String) (value : Value) (enumerable : Bool)
    (first last : Nat) : Prop :=
  ∀ between, first ≤ between → between ≤ last →
    (moment bodies start between).state.heap.own? object name =
      some (.data value false enumerable)

end Session

end Definitions

section Writes

variable {state : State} {receiver object : ObjectId} {name : String}

/-- A write that stores into a slot finds a lazy binding there, or it is over at once. In this case
it is rejected if the slot is a constant. -/
theorem Member.set_cases (value : Value)
    (h : Member.target? state.heap receiver name = some object) :
    (∃ cell, state.heap.lookup receiver name = some (object, .binding cell)) ∨
      ∃ outcome after, Member.set receiver name value state = .ended outcome after ∧
        ∀ kept enumerable, state.heap.own? object name = some (.data kept false enumerable) →
          outcome = .error (.readOnly name) := by
  unfold Member.target? at h
  rcases hfound : state.heap.lookup receiver name with _ | ⟨holder, property⟩
  · rw [hfound] at h
    obtain rfl := Option.some.inj h
    refine .inr ⟨.ok (), _, Member.set_of_absent hfound value, fun kept enumerable hown ↦ ?_⟩
    rw [Heap.lookup_of_own?_eq_some hown] at hfound
    cases hfound
  · rw [hfound] at h
    cases property with
    | binding cell =>
      obtain rfl := Option.some.inj h
      exact .inl ⟨cell, rfl⟩
    | accessor getter setter enumerable => cases h
    | data kept writable enumerable =>
      obtain rfl := Option.some.inj h
      cases writable with
      | false => exact .inr ⟨_, _, Member.set_of_constant hfound value, fun _ _ _ ↦ rfl⟩
      | true =>
        refine .inr ⟨.ok (), _, Member.set_of_writable hfound value, fun other shown hown ↦ ?_⟩
        rw [Heap.lookup_of_own?_eq_some hown] at hfound
        cases hfound

/-- An operation stores into a slot by defining it, or it is a write that has succeeded. -/
theorem Operation.Stores.cases {heap : Heap} {operation : Operation} {operands : List Value}
    {outcome : Except Fault Answer} (h : operation.Stores heap operands outcome object name) :
    operation.isDefinition = true ∨ ∃ receiver value answer,
      operation = .object .set ∧ operands = [.object receiver, .string name, value] ∧
        outcome = .ok answer ∧ Member.target? heap receiver name = some object := by
  cases h with
  | set value answer target => exact .inr ⟨_, value, answer, rfl, rfl, rfl, target⟩
  | _ => exact .inl rfl

/-- What an operation has succeeded with, it was allowed to be given. -/
theorem Operation.known_of_endsWith {place : RealmId} {operation : Operation}
    {operands : List Value} {answer : Answer} {after : State}
    (h : (operation.execute place operands state).EndsWith (.ok answer) after) :
    operands.all state.heap.knows = true := by
  by_contra hunknown
  rw [Operation.execute, Run.bind_of_ok (Run.ask_apply _ _), if_neg hunknown] at h
  cases h

/-- A write that a body asks for is carried out by the rule. -/
theorem Operation.execute_set {place : RealmId} {value : Value}
    (hknown : [Value.object receiver, .string name, value].all state.heap.knows = true) :
    Operation.execute place (.object .set) [.object receiver, .string name, value] state =
      (Member.set receiver name value state).andThen fun outcome later ↦
        .ended (outcome.map fun _ ↦ .done) later := by
  rw [Operation.execute_of_known hknown]
  simp only [Operation.carryOut, ObjectOperation.execute, Run.bind_apply]
  congr 1
  funext outcome later
  cases outcome <;> rfl

end Writes

section Moves

variable {bodies : List Body} {start : State} {object : ObjectId} {name : String} {value : Value}
  {enumerable : Bool} {first index later : Nat}

/-- An operation that is over at once is ended by the move that follows its beginning. -/
theorem Session.eq_of_execute_ended {began : Nat} {below : List PendingCall} {place : RealmId}
    {operation : Operation} {operands : List Value} {next : Except Fault Answer → Body}
    {begun after : State} {outcome : Except Fault Answer} (order : began ≤ index)
    (begins : (moment bodies start began).configuration =
      ⟨below, (Body.perform place operation operands next).run begun⟩)
    (busy : ∀ between, began < between → between ≤ index →
      (moment bodies start between).configuration ≠ ⟨below, (next outcome).run after⟩)
    (hended : operation.execute place operands begun = .ended outcome after) : began = index := by
  rcases Nat.eq_or_lt_of_le order with heq | hless
  · exact heq
  · exact absurd (configuration_of_perform begins hended)
      (busy (began + 1) (Nat.lt_succ_self began) hless)

/-- What stores into a constant defines it, or it is a write that has found a lazy binding before
the slot became a constant. -/
theorem Session.Stores.of_constant (h : Stores bodies start index object name)
    (hconstant : Constant bodies start object name value enumerable first index)
    (horder : first ≤ index) :
    Redefines bodies start index object name ∨
      ∃ began < first, Completes bodies start began index object name := by
  obtain ⟨operation, operands, begun, outcome, hfinishes, hstores⟩ := h
  rcases hstores.cases with hdefinition | ⟨receiver, written, answer, rfl, rfl, rfl, htarget⟩
  · exact .inl ⟨operation, operands, begun, outcome, hdefinition, hfinishes, hstores⟩
  cases hfinishes with
  | @intro began below place _ _ next _ after _ order begins ends busy resumes =>
    have hstate : (moment bodies start began).state = begun := state_of_run begins
    have hknown := Operation.known_of_endsWith ends
    rw [Operation.execute_set hknown] at ends
    obtain ⟨result, reached, hset, hended⟩ := Progress.endsWith_andThen_iff.1 ends
    obtain ⟨hanswer, rfl⟩ := Progress.endsWith_ended_iff.1 hended
    rcases Member.set_cases written htarget with ⟨cell, hfound⟩ | ⟨other, last, hover, hrejected⟩
    · have hheld := Heap.own?_of_lookup hfound
      have hearlier : began < first := by
        by_contra hsince
        have hslot := hconstant began (Nat.le_of_not_lt hsince) order
        rw [hstate, hheld] at hslot
        cases hslot
      refine .inr ⟨began, hearlier, .write order begins hfound busy resumes ?_⟩
      cases result with
      | error fault => cases hanswer
      | ok _ =>
        rw [Member.set_of_binding hfound] at hset
        rw [state_of_run resumes]
        exact LazyBinding.own?_of_write (Heap.exists_of_own?_eq_some hheld) hset
    · -- the write was over at once, so it found the constant, and then it has not succeeded
      rw [hover] at hset
      obtain ⟨rfl, rfl⟩ := Progress.endsWith_ended_iff.1 hset
      have hexecute : Operation.execute place (.object .set)
          [.object receiver, .string name, written] begun = .ended (.ok answer) after := by
        rw [Operation.execute_set hknown, hover, Progress.andThen_ended, ← hanswer]
      obtain rfl := eq_of_execute_ended order begins busy hexecute
      have hslot := hconstant began horder (Nat.le_refl began)
      rw [hstate] at hslot
      rw [hrejected value enumerable hslot] at hanswer
      cases hanswer

/-- A move leaves a constant as it is, defines the slot, or completes an access that was pending
before the slot became a constant. -/
theorem Session.constant_succ
    (hconstant : Constant bodies start object name value enumerable first index)
    (horder : first ≤ index) :
    (moment bodies start (index + 1)).state.heap.own? object name =
        some (.data value false enumerable) ∨
      Redefines bodies start index object name ∨
        ∃ began < first, Completes bodies start began index object name := by
  have hslot := hconstant index horder (Nat.le_refl index)
  by_cases hstores : Stores bodies start index object name
  · exact .inr (hstores.of_constant hconstant horder)
  have hspared : ∀ {before : State}, Carries bodies start index before →
      before.heap.own? object name = some (.data value false enumerable) →
        (moment bodies start (index + 1)).state.heap.own? object name =
          some (.data value false enumerable) := by
    intro before hcarries hbefore
    obtain ⟨current, hcurrent, hbecomes⟩ := (hcarries.sparesSlot hstores).owned _ hbefore
    cases hbecomes with
    | same => exact hcurrent
  cases move_moment bodies start index with
  | idle objects => exact .inl ((Heap.own?_congr objects object name).trans hslot)
  | carrying objects carries =>
    exact .inl (hspared carries ((Heap.own?_congr objects object name).trans hslot))
  | @keeping settled holder other cell record kept asking order held pending objects present done
      carries =>
    by_cases hsame : holder = object ∧ other = name
    · obtain ⟨rfl, rfl⟩ := hsame
      have hearlier : asking < first := by
        by_contra hsince
        rw [hconstant asking (Nat.le_of_not_lt hsince) (Nat.le_of_lt order)] at held
        cases held
      have hspares := carries.sparesSlot hstores
      have hexists : holder.index < settled.heap.objects.size := by
        rw [objects]
        exact Heap.exists_of_own?_eq_some hslot
      obtain ⟨current, hcurrent, hbecomes⟩ :=
        hspares.owned _ (Heap.own?_define_self hexists other (record.materialized kept))
      cases hbecomes with
      | same =>
        exact .inr (.inr ⟨asking, hearlier, .read order held pending
          (hspares.values cell record kept present done) done hcurrent⟩)
    · refine .inl (hspared carries (Eq.trans ?_ hslot))
      rw [← Heap.own?_congr objects object name]
      by_cases hobject : object = holder
      · exact Heap.own?_define_of_name_ne _ _ _ (fun hname ↦ hsame ⟨hobject.symm, hname.symm⟩) _
      · exact Heap.own?_define_of_ne _ hobject other name _

/-- A constant stays what it is up to a later moment, or there is a first move that changes it. -/
theorem Session.constant_or_changed
    (hfirst : (moment bodies start first).state.heap.own? object name =
      some (.data value false enumerable)) (horder : first ≤ later) :
    Constant bodies start object name value enumerable first later ∨
      ∃ index, first ≤ index ∧ index < later ∧
        Constant bodies start object name value enumerable first index ∧
          (Redefines bodies start index object name ∨
            ∃ began < first, Completes bodies start began index object name) := by
  induction later, horder using Nat.le_induction with
  | base =>
    refine .inl fun between hafter hbefore ↦ ?_
    rwa [Nat.le_antisymm hbefore hafter]
  | succ later horder ih =>
    rcases ih with hconstant | ⟨index, hindex, hless, hchange⟩
    · rcases constant_succ hconstant horder with hnext | hchange
      · refine .inl fun between hafter hbefore ↦ ?_
        rcases Nat.le_or_eq_of_le_succ hbefore with hearlier | rfl
        · exact hconstant between hafter hearlier
        · exact hnext
      · exact .inr ⟨later, horder, Nat.lt_succ_self later, hconstant, hchange⟩
    · exact .inr ⟨index, hindex, Nat.lt_succ_of_lt hless, hchange⟩

end Moves

section Main

/-- What happens to the constants of a run. -/
structure Constancy (bodies : List Body) (start : State) : Prop where
  /-- A constant stays what it is, until an operation defines the slot or an access completes that
  was pending before the slot became a constant. -/
  constant : ∀ object name value enumerable first later, first ≤ later →
    (Session.moment bodies start first).state.heap.own? object name =
        some (.data value false enumerable) →
      (Session.moment bodies start later).state.heap.own? object name =
          some (.data value false enumerable) ∨
        ∃ index, first ≤ index ∧ index < later ∧
          Session.Constant bodies start object name value enumerable first index ∧
            (Session.Redefines bodies start index object name ∨
              ∃ began < first, Session.Completes bodies start began index object name)
  /-- In every state, a write that finds a constant, own or inherited, is rejected and leaves the
  state as it is. -/
  rejected : ∀ (state : State) receiver object name kept enumerable value,
    state.heap.lookup receiver name = some (object, .data kept false enumerable) →
      Member.set receiver name value state = .ended (.error (.readOnly name)) state
  /-- The body that has asked for such a write goes on with the rejection, in the same state. -/
  received : ∀ index below place receiver object name kept enumerable value next begun,
    (Session.moment bodies start index).configuration = ⟨below,
        (Body.perform place (.object .set) [.object receiver, .string name, value] next).run
          begun⟩ →
      begun.heap.knows value = true →
      begun.heap.lookup receiver name = some (object, .data kept false enumerable) →
        (Session.moment bodies start (index + 1)).configuration =
          ⟨below, (next (.error (.readOnly name))).run begun⟩
  /-- A read of an immutable lazy binding leaves a constant behind. -/
  materialized : ∀ holder name cell record (before : State) value after,
    before.heap.cell? cell = some record → record.isMutable = false →
      holder.index < before.heap.objects.size →
        (LazyBinding.read holder name cell before).EndsWith (.ok value) after →
          after.heap.own? holder name = some (.data value false true)

/-- In every run, constants are constant. -/
theorem constancy (bodies : List Body) (start : State) : Constancy bodies start where
  constant object name value enumerable first later horder hfirst := by
    rcases Session.constant_or_changed hfirst horder with hconstant | hchanged
    · exact .inl (hconstant later horder (Nat.le_refl later))
    · exact .inr hchanged
  rejected _ _ _ _ _ _ value hfound := Member.set_of_constant hfound value
  received _ _ _ receiver _ name _ _ value _ begun hmoment hvalue hfound := by
    have hreceiver := Heap.exists_of_lookup hfound
    have hknown : [Value.object receiver, .string name, value].all begun.heap.knows = true := by
      rw [List.all_cons, List.all_cons, List.all_cons, hvalue]
      simpa [Heap.knows] using hreceiver
    refine Session.configuration_of_perform hmoment ?_
    rw [Operation.execute_set hknown, Member.set_of_constant hfound value]
    rfl
  materialized _ _ _ record _ _ _ hrecord himmutable hholder hread := by
    rw [← himmutable]
    exact LazyBinding.own?_of_read hrecord hholder hread

/-! A program that makes a slot a constant while a read of its lazy binding is pending. -/

namespace ConstantWhileRunning

/-- Puts a constant into the slot of the binding, and gives another value. -/
def initializer : Body :=
  .perform ⟨0⟩ (.object (.define .constant)) [.object ⟨0⟩, .string "a", .integer 1] fun _ ↦
  .finish (.ok (.value (.integer 7)))

/-- Makes an object with an immutable lazy binding and reads it. -/
def program : Body :=
  .close "initializer" [] (fun _ _ ↦ initializer) fun function ↦
  .perform ⟨0⟩ (.object (.allocate false none)) [] fun _ ↦
  .perform ⟨0⟩ (.binding (.bind false)) [.object ⟨0⟩, .string "a", .function function] fun _ ↦
  .perform ⟨0⟩ (.object .get) [.object ⟨0⟩, .string "a"] .finish

/-- The moments of the program. -/
def moment (index : Nat) : Session := .moment [program] (.fresh .standard) index

end ConstantWhileRunning

/-- The read that was pending puts its value in the place of the constant. -/
theorem constancy_pending :
    (ConstantWhileRunning.moment 7).state.heap.own? ⟨0⟩ "a" =
        some (.data (.integer 1) false true) ∧
      (ConstantWhileRunning.moment 8).state.heap.own? ⟨0⟩ "a" =
        some (.data (.integer 7) false true) ∧
      ∃ index, 7 ≤ index ∧ index < 8 ∧
        Session.Constant [ConstantWhileRunning.program] (.fresh .standard) ⟨0⟩ "a" (.integer 1) true
          7 index ∧
        (Session.Redefines [ConstantWhileRunning.program] (.fresh .standard) index ⟨0⟩ "a" ∨
          ∃ began < 7, Session.Completes [ConstantWhileRunning.program] (.fresh .standard) began
            index ⟨0⟩ "a") := by
  have hconstant : (ConstantWhileRunning.moment 7).state.heap.own? ⟨0⟩ "a" =
      some (.data (.integer 1) false true) := by decide +kernel
  have hkept : (ConstantWhileRunning.moment 8).state.heap.own? ⟨0⟩ "a" =
      some (.data (.integer 7) false true) := by decide +kernel
  refine ⟨hconstant, hkept, Or.resolve_left ((constancy [ConstantWhileRunning.program]
    (.fresh .standard)).constant _ _ _ _ 7 8 (by decide) hconstant) fun hsame ↦ ?_⟩
  cases hkept.symm.trans hsame

end Main

end GradualRuntime
