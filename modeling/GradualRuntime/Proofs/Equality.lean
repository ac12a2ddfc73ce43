import GradualRuntime.Proofs.EntryPoints
import GradualRuntime.Proofs.BindingAccess
import GradualRuntime.Proofs.Identity

/-!
# Equality of values

Two values are compared by the equality member of the left one when that is a function, and by
identity otherwise. A comparison leaves out what the other ways to call a member go through: nothing
but a function is called, no arguments are counted, and nothing that is missing is reported. So it
has no failure of its own (`Dispatch.ComparisonFails`). What can fail is the read of the member,
which is made once (`Dispatch.ReadFails`), and the call of the function found.

Values without an equality function are compared by identity whatever state they are compared in
(`Dispatch.ComparedByIdentity`). Among these, equality is symmetric and transitive, and reflexive
but for doubles that are not numbers. `Dispatch.equality` puts this together.
-/

set_option autoImplicit false

namespace GradualRuntime

namespace Dispatch

section Reads

/-- The members of a primitive value are looked up on the prototype registered for its kind. -/
theorem holder?_of_primitiveKind {realm : Realm} {heap : Heap} {value : Value}
    {kind : PrimitiveKind} (h : value.primitiveKind? = some kind) :
    realm.holder? heap value = realm.primitivePrototypes.find? kind := by
  cases value with
  | object _ | type _ => cases h
  | _ => exact congrArg (Option.bind · realm.primitivePrototypes.find?) h

/-- The slot that a member of a value is read from, with its holder. -/
def slot? (realm : RealmId) (value : Value) (name : String) (state : State) :
    Option (ObjectId × Property) :=
  ((state.realm realm).holder? state.heap value).bind fun object ↦ state.heap.lookup object name

/-- The call that a read of an accessor makes. -/
def getting (getter : FunctionId) (receiver : Value) : Call := ⟨getter, receiver, [], .plain⟩

/-- The ways in which a read of a member fails: in its getter, or in the force of its binding. -/
inductive ReadFails (realm : RealmId) (value : Value) (name : String) (state : State) :
    Fault → State → Prop where
  | getter {holder : ObjectId} {getter : FunctionId} {setter : Option FunctionId}
    {enumerable : Bool} {fault : Fault} {back : State}
    (found : slot? realm value name state =
      some (holder, .accessor (some getter) setter enumerable))
    (run : (Machine.enter (getting getter value) state).EndsWith (.error fault) back) :
    ReadFails realm value name state fault
      (back.record (.returned (getting getter value) (.error fault)))
  | binding {holder : ObjectId} {cell : CellId} {fault : Fault} {last : State}
    (found : slot? realm value name state = some (holder, .binding cell))
    (forced : (LazyBinding.force cell state).EndsWith (.error fault) last) :
    ReadFails realm value name state fault last

variable {realm : RealmId} {value : Value} {name : String} {state last : State} {fault : Fault}

/-- What a read of a member does, by the slot that it finds. -/
theorem getMember_apply :
    getMember realm value name state =
      match slot? realm value name state with
      | none | some (_, .accessor none _ _) => .ended (.ok .undefined) state
      | some (_, .data held _ _) => .ended (.ok held) state
      | some (_, .accessor (some getter) _ _) => .calling (getting getter value) state .ended
      | some (holder, .binding cell) => LazyBinding.read holder name cell state := by
  simp only [getMember, slot?, Run.bind_apply, Run.realm_apply, Run.heap_apply,
    Progress.andThen_ended, Run.onward_ok]
  cases (state.realm realm).holder? state.heap value with
  | none => rfl
  | some object =>
    simp only [Option.bind_some, Member.read, Run.bind_apply, Run.ask_apply,
      Progress.andThen_ended, Run.onward_ok]
    rcases state.heap.lookup object name with
      _ | ⟨holder, held | ⟨_ | getter, setter, enumerable⟩ | cell⟩ <;> rfl

theorem getMember_endsWith_error_iff :
    (getMember realm value name state).EndsWith (.error fault) last ↔
      ReadFails realm value name state fault last := by
  constructor
  · intro h
    rw [getMember_apply] at h
    split at h
    case h_1 => cases h
    case h_2 => cases h
    case h_3 => cases h
    case h_4 hslot =>
      obtain ⟨answer, back, hcallee, hrest⟩ := Progress.endsWith_calling_iff.1 h
      obtain ⟨houtcome, rfl⟩ := Progress.endsWith_ended_iff.1 hrest
      cases answer with
      | error other =>
        cases houtcome
        exact .getter hslot hcallee
      | ok answer => cases houtcome
    case h_5 hslot => exact .binding hslot (LazyBinding.endsWith_read_error_iff.1 h)
  · intro h
    rw [getMember_apply]
    cases h with
    | getter found run =>
      rw [found]
      exact .calling run (.ended _ _)
    | binding found forced =>
      rw [found]
      exact LazyBinding.endsWith_read_error forced

end Reads

section Comparisons

/-- The call that an equality function gets: the left value is its `this` and the right one its only
argument. -/
def comparing (equality : FunctionId) (left right : Value) : Call :=
  ⟨equality, left, [right], .plain⟩

/-- How two values are compared once the equality member of the left one has been read. -/
def compared (left right : Value) : Except Fault Value → State → Progress Bool
  | .ok (.function equality), state => .calling (comparing equality left right) state
      fun outcome last ↦ .ended (outcome.map Value.isTruthy) last
  | .ok _, state => .ended (.ok (left.identical right)) state
  | .error fault, state => .ended (.error fault) state

variable {realm : RealmId} {left right found : Value} {state reached last : State}

theorem compared_of_other (h : ∀ equality, found ≠ .function equality) :
    compared left right (.ok found) state = .ended (.ok (left.identical right)) state := by
  cases found with
  | function equality => exact absurd rfl (h equality)
  | _ => rfl

theorem equals_of_sentinel (h : left.isNullish = true ∨ right.isNullish = true) :
    equals realm left right state = .ended (.ok (left.identical right)) state := by
  simp [equals, h]

theorem equals_of_present (hleft : left.isNullish = false) (hright : right.isNullish = false) :
    equals realm left right state =
      (getMember realm left (state.realm realm).config.members.equality state).andThen
        (compared left right) := by
  simp only [equals, hleft, hright, Bool.or_self, Bool.false_eq_true, if_false, Run.bind_apply,
    Run.realm_apply, Progress.andThen_ended, Run.onward_ok]
  congr 1
  funext found last
  rcases found with fault | found
  · rfl
  · cases found with
    | function equality =>
      simp only [Run.onward_ok, Run.bind_apply, Run.call_apply, Progress.andThen_calling, compared,
        comparing]
      congr 1
      funext outcome later
      cases outcome <;> rfl
    | _ => rfl

/-- How a comparison ends. -/
inductive Compares (realm : RealmId) (left right : Value) (state : State) :
    Except Fault Bool → State → Prop where
  /-- A null sentinel takes part. -/
  | sentinel (nullish : left.isNullish = true ∨ right.isNullish = true) :
    Compares realm left right state (.ok (left.identical right)) state
  /-- The read of the equality member fails. -/
  | failed {fault : Fault} {last : State} (leftPresent : left.isNullish = false)
    (rightPresent : right.isNullish = false)
    (read : (getMember realm left (state.realm realm).config.members.equality state).EndsWith
      (.error fault) last) :
    Compares realm left right state (.error fault) last
  /-- The equality member is a function, which decides. -/
  | function {equality : FunctionId} {reached back : State} {answer : Except Fault Answer}
    (leftPresent : left.isNullish = false) (rightPresent : right.isNullish = false)
    (read : (getMember realm left (state.realm realm).config.members.equality state).EndsWith
      (.ok (.function equality)) reached)
    (run : (Machine.enter (comparing equality left right) reached).EndsWith answer back) :
    Compares realm left right state ((answer.map Answer.toValue).map Value.isTruthy)
      (back.record (.returned (comparing equality left right) (answer.map Answer.toValue)))
  /-- The equality member is absent or anything else. -/
  | other {found : Value} {last : State} (leftPresent : left.isNullish = false)
    (rightPresent : right.isNullish = false)
    (read : (getMember realm left (state.realm realm).config.members.equality state).EndsWith
      (.ok found) last)
    (unfit : ∀ equality, found ≠ .function equality) :
    Compares realm left right state (.ok (left.identical right)) last

theorem equals_endsWith_iff {outcome : Except Fault Bool} :
    (equals realm left right state).EndsWith outcome last ↔
      Compares realm left right state outcome last := by
  by_cases hnullish : left.isNullish = true ∨ right.isNullish = true
  · rw [equals_of_sentinel hnullish, Progress.endsWith_ended_iff]
    constructor
    · rintro ⟨rfl, rfl⟩
      exact .sentinel hnullish
    · intro h
      cases h with
      | sentinel _ => exact ⟨rfl, rfl⟩
      | failed hleft hright | function hleft hright | other hleft hright =>
        simp [hleft, hright] at hnullish
  · simp only [not_or, Bool.not_eq_true] at hnullish
    obtain ⟨hleft, hright⟩ := hnullish
    rw [equals_of_present hleft hright, Progress.endsWith_andThen_iff]
    constructor
    · rintro ⟨found, reached, hread, hrest⟩
      rcases found with fault | found
      · obtain ⟨rfl, rfl⟩ := Progress.endsWith_ended_iff.1 hrest
        exact .failed hleft hright hread
      · by_cases hfunction : ∃ equality, found = .function equality
        · obtain ⟨equality, rfl⟩ := hfunction
          obtain ⟨answer, back, hcallee, hlast⟩ := Progress.endsWith_calling_iff.1 hrest
          obtain ⟨rfl, rfl⟩ := Progress.endsWith_ended_iff.1 hlast
          exact .function hleft hright hread hcallee
        · have hother : ∀ equality, found ≠ .function equality := fun equality heq ↦
            hfunction ⟨equality, heq⟩
          rw [compared_of_other hother] at hrest
          obtain ⟨rfl, rfl⟩ := Progress.endsWith_ended_iff.1 hrest
          exact .other hleft hright hread hother
    · intro h
      cases h with
      | sentinel nullish => simp [hleft, hright] at nullish
      | failed _ _ read => exact ⟨_, _, read, .ended _ _⟩
      | function _ _ read run => exact ⟨_, _, read, .calling run (.ended _ _)⟩
      | other _ _ read unfit =>
        refine ⟨_, _, read, ?_⟩
        rw [compared_of_other unfit]
        exact .ended _ _

/-- The ways in which a comparison fails: in the read of the equality member, or in the function. -/
inductive ComparisonFails (realm : RealmId) (left right : Value) (state : State) :
    Fault → State → Prop where
  | read {fault : Fault} {last : State} (leftPresent : left.isNullish = false)
    (rightPresent : right.isNullish = false)
    (failed : ReadFails realm left (state.realm realm).config.members.equality state fault last) :
    ComparisonFails realm left right state fault last
  | function {equality : FunctionId} {fault : Fault} {reached back : State}
    (leftPresent : left.isNullish = false) (rightPresent : right.isNullish = false)
    (read : (getMember realm left (state.realm realm).config.members.equality state).EndsWith
      (.ok (.function equality)) reached)
    (run : (Machine.enter (comparing equality left right) reached).EndsWith (.error fault) back) :
    ComparisonFails realm left right state fault
      (back.record (.returned (comparing equality left right) (.error fault)))

theorem equals_endsWith_error_iff {fault : Fault} :
    (equals realm left right state).EndsWith (.error fault) last ↔
      ComparisonFails realm left right state fault last := by
  rw [equals_endsWith_iff]
  constructor
  · intro h
    generalize houtcome : (Except.error fault : Except Fault Bool) = outcome at h
    cases h with
    | sentinel _ => cases houtcome
    | failed hleft hright read =>
      cases houtcome
      exact .read hleft hright (getMember_endsWith_error_iff.1 read)
    | @function _ _ _ answer hleft hright read run =>
      cases answer with
      | ok answer => cases houtcome
      | error other =>
        cases houtcome
        exact .function hleft hright read run
    | other _ _ _ _ => cases houtcome
  · intro h
    cases h with
    | read hleft hright failed =>
      exact .failed hleft hright (getMember_endsWith_error_iff.2 failed)
    | function hleft hright read run => exact .function hleft hright read run

theorem equals_of_absent
    (h : slot? realm left (state.realm realm).config.members.equality state = none) :
    equals realm left right state = .ended (.ok (left.identical right)) state := by
  by_cases hnullish : left.isNullish = true ∨ right.isNullish = true
  · exact equals_of_sentinel hnullish
  · simp only [not_or, Bool.not_eq_true] at hnullish
    rw [equals_of_present hnullish.1 hnullish.2, getMember_apply, h]
    exact compared_of_other nofun

end Comparisons

section Identity

/-- A value has no equality function in a state: it is a null sentinel, or the read of its equality
member gives something else. -/
def ComparedByIdentity (realm : RealmId) (state : State) (value : Value) : Prop :=
  value.isNullish = true ∨ ∃ found last,
    (getMember realm value (state.realm realm).config.members.equality state).EndsWith
      (.ok found) last ∧ ∀ equality, found ≠ .function equality

/-- The result of a comparison, whatever it does to the state. -/
def Answers (realm : RealmId) (left right : Value) (state : State) (result : Bool) : Prop :=
  ∃ last, (equals realm left right state).EndsWith (.ok result) last

variable {realm : RealmId} {left right value : Value} {state : State} {result : Bool}

theorem ComparedByIdentity.answers_iff (h : ComparedByIdentity realm state left) :
    Answers realm left right state result ↔ result = left.identical right := by
  have hidentical : ∃ last, (equals realm left right state).EndsWith
      (.ok (left.identical right)) last := by
    by_cases hnullish : left.isNullish = true ∨ right.isNullish = true
    · exact ⟨state, equals_endsWith_iff.2 (.sentinel hnullish)⟩
    · simp only [not_or, Bool.not_eq_true] at hnullish
      rcases h with hleft | ⟨found, last, hread, hother⟩
      · simp [hnullish.1] at hleft
      · exact ⟨last, equals_endsWith_iff.2 (.other hnullish.1 hnullish.2 hread hother)⟩
  obtain ⟨last, hlast⟩ := hidentical
  constructor
  · rintro ⟨reached, hreached⟩
    obtain ⟨hresult, -⟩ := hlast.unique hreached
    exact Except.ok.inj hresult
  · rintro rfl
    exact ⟨last, hlast⟩

end Identity

/-- What a comparison of two values does, and when it fails. -/
structure Equality (realm : RealmId) : Prop where
  /-- With a null sentinel on either side it is identity, and over at once. -/
  sentinel : ∀ {left right} (state : State), left.isNullish = true ∨ right.isNullish = true →
    equals realm left right state = .ended (.ok (left.identical right)) state
  /-- Otherwise the configured equality member of the left value is read once. A function is called
  then, once and with its arguments uncounted, and nothing is done with anything else. -/
  present : ∀ {left right} (state : State), left.isNullish = false → right.isNullish = false →
    equals realm left right state =
      (getMember realm left (state.realm realm).config.members.equality state).andThen
        (compared left right)
  /-- So it ends with the truthiness of what the function returns, by identity, or with a fault. -/
  ends_iff : ∀ {left right state outcome last},
    (equals realm left right state).EndsWith outcome last ↔
      Compares realm left right state outcome last
  /-- A fault is that of the read or that of the call. -/
  fails_iff : ∀ {left right state fault last},
    (equals realm left right state).EndsWith (.error fault) last ↔
      ComparisonFails realm left right state fault last
  /-- The force of a lazy binding fails with its initializer, or because that is running. -/
  force_fails_iff : ∀ {cell record fault} {state last : State},
    state.heap.cell? cell = some record →
      ((LazyBinding.force cell state).EndsWith (.error fault) last ↔
        LazyBinding.ForceFails cell record state fault last)
  /-- A left value without an equality member is compared by identity at once. -/
  absent : ∀ {left} right {state},
    slot? realm left (state.realm realm).config.members.equality state = none →
      equals realm left right state = .ended (.ok (left.identical right)) state
  /-- A value without an equality function is compared by identity, in either place. -/
  identical : ∀ {left right state result}, ComparedByIdentity realm state left →
    ((Answers realm left right state result ↔ result = left.identical right) ∧
      (Answers realm left right state result ↔ result = right.identical left))
  symmetric : ∀ {left right state later result}, ComparedByIdentity realm state left →
    ComparedByIdentity realm later right →
      (Answers realm left right state result ↔ Answers realm right left later result)
  transitive : ∀ {first second third state later last}, ComparedByIdentity realm state first →
    ComparedByIdentity realm later second → ComparedByIdentity realm last first →
      Answers realm first second state true → Answers realm second third later true →
        Answers realm first third last true
  reflexive_iff : ∀ {value state}, ComparedByIdentity realm state value →
    (Answers realm value value state true ↔ value.isNaN = false)

/-- A comparison fails only where a body has failed or a lazy binding is found in progress, and is
identity where no equality function takes part. -/
theorem equality (realm : RealmId) : Equality realm where
  sentinel _ := equals_of_sentinel
  present _ := equals_of_present
  ends_iff := equals_endsWith_iff
  fails_iff := equals_endsWith_error_iff
  force_fails_iff hrecord := LazyBinding.endsWith_force_error_iff hrecord
  absent _ := equals_of_absent
  identical {left right _ _} hleft :=
    ⟨hleft.answers_iff, left.identical_comm right ▸ hleft.answers_iff⟩
  symmetric {left right _ _ _} hleft hright := by
    rw [hleft.answers_iff, hright.answers_iff, left.identical_comm right]
  transitive {first second third _ _ _} hfirst hsecond hlast h hnext := by
    rw [hfirst.answers_iff, eq_comm] at h
    rw [hsecond.answers_iff, eq_comm] at hnext
    rw [hlast.answers_iff, eq_comm]
    exact Value.identical_trans h hnext
  reflexive_iff {value _} h := by
    rw [h.answers_iff, eq_comm, Value.identical_self_iff]

end Dispatch

end GradualRuntime
