import GradualRuntime.Proofs.ArityReflection
import GradualRuntime.Proofs.ClassOrder
import GradualRuntime.Proofs.MapRefinement
import GradualRuntime.Proofs.MemberRead

/-!
# Named constructors

`Construction.nameConstructor` reads a member of the prototype of a class. If it finds a function,
it stores a new function among the statics of the class (`Construction.exposed`), which keeps that
function, the prototype and the name of the class. None of these ever changes
(`IsNamedConstructor.of_transitions`), so it does not matter to a call what has become of the
prototype since.

`namedConstructor` says when naming a constructor succeeds and what it changes, and what a call by
the name does at every later moment of a run at which the slot among the statics still holds the
function. The call may go through the class or through a subclass that inherits the slot
(`Heap.InheritsStatic`); it makes an instance of the class in either case.
-/

set_option autoImplicit false

namespace GradualRuntime

section Inheritance

/-- A class has the slot of another class among its statics: that is the class itself or one of its
superclasses, and no class before it has a slot of its own under the name. -/
def Heap.InheritsStatic (heap : Heap) (heir reference : ClassId) (name : String) : Prop :=
  ∃ nearer farther, heap.lineage heir = nearer ++ reference :: farther ∧
    ∀ other ∈ nearer, ∀ record, heap.class? other = some record →
      heap.own? record.statics name = none

variable {heap : Heap} {heir reference : ClassId} {record heirRecord : Class} {name : String}
  {property : Property}

theorem Heap.inheritsStatic_self (heap : Heap) (reference : ClassId) (name : String) :
    heap.InheritsStatic reference reference name :=
  ⟨[], _, rfl, fun _ hother ↦ nomatch hother⟩

/-- Only subclasses have the slot. -/
theorem Heap.InheritsStatic.isSubclass (h : heap.InheritsStatic heir reference name) :
    heap.isSubclass heir reference = true := by
  obtain ⟨nearer, farther, hlineage, -⟩ := h
  rw [Heap.isSubclass, hlineage]
  simp

/-- What a class inherits it finds on the statics of the other class. -/
theorem Heap.Ordered.lookup_of_inheritsStatic (h : heap.Ordered)
    (hinherits : heap.InheritsStatic heir reference name)
    (hheir : heap.class? heir = some heirRecord) (hrecord : heap.class? reference = some record)
    (hown : heap.own? record.statics name = some property) :
    heap.lookup heirRecord.statics name = some (record.statics, property) := by
  obtain ⟨nearer, farther, hlineage, hnearer⟩ := hinherits
  rw [h.wellFormed.lookup_eq_inherited h.statics hheir, Heap.inherited, hlineage,
    List.findSome?_append]
  have hnone : (nearer.findSome? fun ancestor ↦ ((heap.class? ancestor).map Class.statics).bind
      fun object ↦ (heap.own? object name).map fun property ↦ (object, property)) = none := by
    refine List.findSome?_eq_none_iff.2 fun other hother ↦ ?_
    cases hfound : heap.class? other with
    | none => rfl
    | some otherRecord => simp [hnearer other hother otherRecord hfound]
  simp [hnone, hrecord, hown]

end Inheritance

namespace Construction

section Making

/-- A function is a named constructor of a class: what it does is given by the class and by an
initializer, and it has the formals of the initializer. -/
structure IsNamedConstructor (record : Class) (initializer constructor : FunctionId)
    (state : State) : Prop where
  procedure : state.procedures.get? constructor.index =
    some (.namedConstructor record.prototype record.name initializer)
  prototype : record.prototype.index < state.heap.objects.size
  signatures : ∃ own other, state.heap.functions.get? constructor.index = some own ∧
    state.heap.functions.get? initializer.index = some other ∧ own.formals = other.formals

/-- The call of the initializer that a call of a named constructor makes. -/
def initialization (initializer : FunctionId) (call : Call) (state : State) : Call :=
  ⟨initializer, .object state.heap.nextObject, call.arguments, .plain⟩

/-- What a call of a named constructor does. -/
structure Makes (record : Class) (initializer : FunctionId) (call : Call) (state : State) :
    Prop where
  /-- The instance is a new object. -/
  fresh : state.heap.knows (.object state.heap.nextObject) = false
  /-- The initializer is called on the instance, with the arguments of the call. This is the only
  call, and its result is ignored. -/
  entered : Machine.enter call state =
    .calling (initialization initializer call state)
      (allocated (state.record (.entered call)) record) fun outcome later ↦
        .ended (outcome.map fun _ ↦ .value (.object state.heap.nextObject)) later
  /-- The call ends when the initializer does, with the instance or with the fault of the
  initializer. -/
  ends_iff : ∀ {outcome last}, (Progress.calling call state .ended).EndsWith outcome last ↔
    ∃ answer back, (Machine.enter (initialization initializer call state)
        (allocated (state.record (.entered call)) record)).EndsWith answer back ∧
      outcome = answer.map (fun _ ↦ .object state.heap.nextObject) ∧
      last = (back.record (.returned (initialization initializer call state)
        (answer.map Answer.toValue))).record (.returned call outcome)
  /-- The instance has the prototype of the class, and the name of the class as its tag. -/
  made : ∀ {outcome last}, (Progress.calling call state .ended).EndsWith outcome last →
    last.heap.prototype? state.heap.nextObject = some record.prototype ∧
      last.heap.tag? state.heap.nextObject = some record.name

variable {record : Class} {initializer constructor : FunctionId} {state : State} {call : Call}

/-- A named constructor is one for the rest of the run. -/
theorem IsNamedConstructor.of_transitions {before after : Ledger}
    (h : IsNamedConstructor record initializer constructor before.state)
    (htransitions : before.Transitions after) :
    IsNamedConstructor record initializer constructor after.state where
  procedure := htransitions.procedure h.procedure
  prototype := Nat.lt_of_lt_of_le h.prototype htransitions.grows.objects
  signatures := by
    obtain ⟨own, other, hown, hother, hsame⟩ := h.signatures
    exact ⟨own, other, htransitions.signature hown, htransitions.signature hother, hsame⟩

theorem IsNamedConstructor.formals_eq
    (h : IsNamedConstructor record initializer constructor state) :
    state.heap.formals constructor = state.heap.formals initializer := by
  obtain ⟨own, other, hown, hother, hsame⟩ := h.signatures
  rw [Heap.formals, hown, Heap.formals, hother]
  exact hsame

theorem IsNamedConstructor.enter_eq (h : IsNamedConstructor record initializer constructor state)
    (hcall : call.function = constructor) :
    Machine.enter call state =
      .calling (initialization initializer call state)
        (allocated (state.record (.entered call)) record) fun outcome later ↦
          .ended (outcome.map fun _ ↦ .value (.object state.heap.nextObject)) later := by
  have hprocedure : state.procedures.get? call.function.index =
      some (.namedConstructor record.prototype record.name initializer) := hcall ▸ h.procedure
  have hknown : ((some record.prototype).all fun parent ↦
      (state.record (.entered call)).heap.knows (.object parent)) = true :=
    decide_eq_true h.prototype
  have hallocate := Run.allocate_of_known hknown (some record.name)
  simp only [Machine.enter_of_procedure hprocedure, Procedure.run, constructNamed, Run.map_apply,
    Run.bind_apply, hallocate, Progress.andThen_ended, Run.onward_ok, Run.call_apply,
    Progress.andThen_calling]
  congr 1
  funext outcome later
  cases outcome <;> rfl

theorem IsNamedConstructor.endsWith_calling_iff
    (h : IsNamedConstructor record initializer constructor state)
    (hcall : call.function = constructor)
    {outcome : Except Fault Value} {last : State} :
    (Progress.calling call state .ended).EndsWith outcome last ↔
      ∃ answer back, (Machine.enter (initialization initializer call state)
          (allocated (state.record (.entered call)) record)).EndsWith answer back ∧
        outcome = answer.map (fun _ ↦ .object state.heap.nextObject) ∧
        last = (back.record (.returned (initialization initializer call state)
          (answer.map Answer.toValue))).record (.returned call outcome) := by
  rw [Progress.endsWith_calling_iff, h.enter_eq hcall]
  constructor
  · rintro ⟨result, returned, hconstructor, hended⟩
    obtain ⟨answer, back, hinitializer, hresult⟩ := Progress.endsWith_calling_iff.1 hconstructor
    obtain ⟨rfl, rfl⟩ := Progress.endsWith_ended_iff.1 hresult
    obtain ⟨rfl, rfl⟩ := Progress.endsWith_ended_iff.1 hended
    refine ⟨answer, back, hinitializer, ?_⟩
    cases answer <;> exact ⟨rfl, rfl⟩
  · rintro ⟨answer, back, hinitializer, rfl, rfl⟩
    refine ⟨_, _, .calling hinitializer (.ended _ _), ?_⟩
    cases answer <;> exact .ended _ _

theorem IsNamedConstructor.makes (h : IsNamedConstructor record initializer constructor state)
    (hcall : call.function = constructor) : Makes record initializer call state where
  fresh := by simp [Heap.knows, Heap.nextObject]
  entered := h.enter_eq hcall
  ends_iff := h.endsWith_calling_iff hcall
  made hended := by
    obtain ⟨answer, back, hinitializer, -, rfl⟩ := (h.endsWith_calling_iff hcall).1 hended
    -- from the allocation on, the initializer is entered and evaluated to its end
    have htransitions := Relation.ReflTransGen.head
      (Ledger.Transition.enter _ [] (allocated (state.record (.entered call)) record))
      (hinitializer.transitions (orderly_enter _ _) [_])
    have hinstance := instance_of_transitions htransitions
      (Eq.refl (allocated (state.record (.entered call)) record))
    exact hinstance

end Making

section Naming

/-- The state in which a named constructor of a class has been stored. -/
def exposed (record : Class) (name : String) (initializer : FunctionId) (read : State) : State :=
  { read with
    heap := (read.heap.addFunction
      ⟨record.name ++ "." ++ name, read.heap.formals initializer⟩).define record.statics name
        (.method read.heap.nextFunction)
    procedures := read.procedures.push
      (.namedConstructor record.prototype record.name initializer) }

/-- The failure to name a constructor when the member is no function. -/
def noInitializer (reference : ClassId) (name : String) (found : Value) : Fault :=
  .missingMember ⟨.type reference, name, [],
    if found.isNullish then .absent else .notCallable found⟩

variable {before after : State} {reference : ClassId} {record : Class} {name : String}

/-- What is done with the member that has been read. -/
def expose (reference : ClassId) (record : Class) (name : String) : Value → Run FunctionId
  | .function initializer => fun read ↦
    .ended (.ok read.heap.nextFunction) (exposed record name initializer read)
  | found => Run.fail (noInitializer reference name found)

theorem expose_of_ne {found : Value} (h : ∀ function, found ≠ .function function) :
    expose reference record name found = Run.fail (noInitializer reference name found) := by
  cases found with
  | function initializer => exact absurd rfl (h initializer)
  | _ => rfl

theorem nameConstructor_eq (hrecord : before.heap.class? reference = some record) :
    nameConstructor reference name before =
      (Member.get record.prototype name before).andThen
        (Run.onward (expose reference record name)) := by
  rw [nameConstructor, Run.bind_of_ok (Run.classRecord_of_some hrecord)]
  rfl

theorem endsWith_nameConstructor_ok_iff (hrecord : before.heap.class? reference = some record)
    {constructor : FunctionId} :
    (nameConstructor reference name before).EndsWith (.ok constructor) after ↔
      ∃ initializer read,
        (Member.get record.prototype name before).EndsWith (.ok (.function initializer)) read ∧
          constructor = read.heap.nextFunction ∧
            after = exposed record name initializer read := by
  rw [nameConstructor_eq hrecord, Progress.endsWith_andThen_iff]
  constructor
  · rintro ⟨outcome, read, hread, hrest⟩
    rcases outcome with fault | found
    · cases (Progress.endsWith_ended_iff.1 hrest).1
    rw [Run.onward_ok] at hrest
    by_cases hfunction : ∃ initializer, found = .function initializer
    · obtain ⟨initializer, rfl⟩ := hfunction
      obtain ⟨hconstructor, rfl⟩ := Progress.endsWith_ended_iff.1 hrest
      exact ⟨initializer, read, hread, Except.ok.inj hconstructor, rfl⟩
    · rw [expose_of_ne (not_exists.1 hfunction)] at hrest
      cases (Progress.endsWith_ended_iff.1 hrest).1
  · rintro ⟨initializer, read, hread, rfl, rfl⟩
    exact ⟨_, read, hread, .ended _ _⟩

theorem endsWith_nameConstructor_error_iff (hrecord : before.heap.class? reference = some record)
    {fault : Fault} :
    (nameConstructor reference name before).EndsWith (.error fault) after ↔
      (Member.get record.prototype name before).EndsWith (.error fault) after ∨
        ∃ found, (Member.get record.prototype name before).EndsWith (.ok found) after ∧
          (∀ function, found ≠ .function function) ∧
            fault = noInitializer reference name found := by
  rw [nameConstructor_eq hrecord, Progress.endsWith_andThen_iff]
  constructor
  · rintro ⟨outcome, read, hread, hrest⟩
    rcases outcome with raised | found
    · obtain ⟨hfault, rfl⟩ := Progress.endsWith_ended_iff.1 hrest
      cases hfault
      exact .inl hread
    rw [Run.onward_ok] at hrest
    by_cases hfunction : ∃ initializer, found = .function initializer
    · obtain ⟨initializer, rfl⟩ := hfunction
      cases (Progress.endsWith_ended_iff.1 hrest).1
    · rw [expose_of_ne (not_exists.1 hfunction)] at hrest
      obtain ⟨hfault, rfl⟩ := Progress.endsWith_ended_iff.1 hrest
      exact .inr ⟨found, hread, not_exists.1 hfunction, Except.error.inj hfault⟩
  · rintro (hread | ⟨found, hread, hother, rfl⟩)
    · exact ⟨_, after, hread, .ended _ _⟩
    · refine ⟨_, after, hread, ?_⟩
      rw [Run.onward_ok, expose_of_ne hother]
      exact .ended _ _

end Naming

end Construction

section Calls

open Construction

variable {realm : RealmId} {heir : ClassId} {heirRecord : Class} {holder : ObjectId} {name : String}
  {constructor initializer : FunctionId} {arguments : List Value} {state : State}

namespace Dispatch

/-- A call of a class finds the function that a slot of its statics holds. -/
theorem seek_type_of_method (hheir : state.heap.class? heir = some heirRecord)
    (hslot : state.heap.lookup heirRecord.statics name = some (holder, .method constructor)) :
    seek realm (.type heir) (.call name) state =
      .ended (.ok (.ok (constructor, .type heir))) state := by
  have hholder : (state.realm realm).holder? state.heap (.type heir) = some heirRecord.statics := by
    rw [Realm.holder?, hheir, Option.map_some]
  have hread : resolve realm (.call name) (.type heir) state =
      .ended (.ok (.function constructor)) state := getMember_of_data hholder hslot
  rw [seek, Run.bind_of_ok hread]
  rfl

/-- A dispatch refuses the arguments of the function that it finds at once when they do not fit. -/
theorem refuses_iff_of_seek {receiver this : Value} {site : CallSite} {callee : FunctionId}
    (hseek : seek realm receiver site state = .ended (.ok (.ok (callee, this))) state)
    {expected : Arity} {actual : Nat} {reached : State} :
    Refuses realm receiver site arguments state expected actual reached ↔
      reached = state ∧
        acceptsCount (state.realm realm).config.optionalMark (state.heap.formals callee)
          arguments.length = false ∧
        expected = .ofFormals (state.realm realm).config.optionalMark
          (state.heap.formals callee) ∧
        actual = arguments.length := by
  rw [refuses_iff]
  constructor
  · rintro ⟨other, ⟨that, hfound⟩, hrefused⟩
    rw [hseek] at hfound
    obtain ⟨hsame, rfl⟩ := Progress.endsWith_ended_iff.1 hfound
    cases hsame
    exact ⟨rfl, hrefused⟩
  · rintro ⟨rfl, hrefused⟩
    exact ⟨callee, ⟨this, hseek ▸ .ended _ _⟩, hrefused⟩

/-- Otherwise it calls the function, and nothing but the trace has changed before. -/
theorem exists_invoke_eq_of_seek {receiver this : Value} {site : CallSite} {callee : FunctionId}
    (hseek : seek realm receiver site state = .ended (.ok (.ok (callee, this))) state)
    (haccepts : ∀ expected actual reached,
      ¬Refuses realm receiver site arguments state expected actual reached) :
    ∃ asked : State, asked = { state with trace := asked.trace } ∧
      invoke realm receiver site arguments state =
        .calling ⟨callee, this, arguments, .plain⟩ asked .ended := by
  have hfits : acceptsCount (state.realm realm).config.optionalMark (state.heap.formals callee)
      arguments.length = true := by
    by_contra hrefused
    exact haccepts _ _ _ ((refuses_iff_of_seek hseek).2
      ⟨rfl, Bool.eq_false_iff.2 hrefused, rfl, rfl⟩)
  have hinvoke : invoke realm receiver site arguments state =
      conclude (state.realm realm).config receiver
        (site.reportedName (state.realm realm).config.members) arguments
        (.ok (callee, this)) state := by
    rw [invoke_eq_seek, hseek]
    rfl
  rw [hinvoke]
  simp only [conclude, hfits, if_true]
  refine ⟨_, ?_, rfl⟩
  split <;> rfl

end Dispatch

/-- What a call of a class by the name of a named constructor does. -/
structure CallsNamedConstructor (record : Class) (initializer constructor : FunctionId)
    (heir : ClassId) (name : String) (state : State) : Prop where
  /-- The number of arguments is refused exactly when a call of the initializer would refuse it, and
  with the same report. -/
  refuses_iff : ∀ realm arguments expected actual reached,
    Dispatch.Refuses realm (.type heir) (.call name) arguments state expected actual reached ↔
      Dispatch.Refuses realm (.function initializer) .apply arguments state expected actual reached
  /-- When it is not refused, the constructor is called, and makes an instance. -/
  calls : ∀ realm arguments, (∀ expected actual reached,
      ¬Dispatch.Refuses realm (.type heir) (.call name) arguments state expected actual reached) →
    ∃ asked : State, asked = { state with trace := asked.trace } ∧
      Dispatch.invoke realm (.type heir) (.call name) arguments state =
        .calling ⟨constructor, .type heir, arguments, .plain⟩ asked .ended ∧
      Makes record initializer ⟨constructor, .type heir, arguments, .plain⟩ asked

theorem callsNamedConstructor {record : Class}
    (h : IsNamedConstructor record initializer constructor state)
    (hheir : state.heap.class? heir = some heirRecord)
    (hslot : state.heap.lookup heirRecord.statics name = some (holder, .method constructor)) :
    CallsNamedConstructor record initializer constructor heir name state where
  refuses_iff realm arguments expected actual reached := by
    have hinitializer : Dispatch.seek realm (.function initializer) .apply state =
        .ended (.ok (.ok (initializer, .undefined))) state := rfl
    rw [Dispatch.refuses_iff_of_seek (Dispatch.seek_type_of_method hheir hslot),
      Dispatch.refuses_iff_of_seek hinitializer, h.formals_eq]
  calls realm arguments haccepts := by
    obtain ⟨asked, hasked, hinvoke⟩ := Dispatch.exists_invoke_eq_of_seek
      (Dispatch.seek_type_of_method hheir hslot) haccepts
    have hnamed : IsNamedConstructor record initializer constructor asked := by
      rw [hasked]
      exact ⟨h.procedure, h.prototype, h.signatures⟩
    exact ⟨asked, hasked, hinvoke, hnamed.makes rfl⟩

end Calls

section Main

open Construction

variable {before read : State} {reference : ClassId} {record : Class} {name : String}
  {initializer : FunctionId}

/-- The function that is stored is a named constructor. -/
theorem Construction.isNamedConstructor_exposed (hequipped : read.Equipped)
    (hprototype : record.prototype.index < read.heap.objects.size)
    (hknown : read.heap.knows (.function initializer) = true) :
    IsNamedConstructor record initializer read.heap.nextFunction
      (exposed record name initializer read) where
  procedure := hequipped.procedure_new _
  prototype := by simpa [exposed, Heap.addFunction] using hprototype
  signatures := by
    obtain ⟨other, hother⟩ := Option.isSome_iff_exists.1
      (Arena.isSome_get?_of_lt (of_decide_eq_true hknown))
    refine ⟨_, other, Arena.get?_push_size _ _, Arena.get?_push_of_some hother _, ?_⟩
    rw [Heap.formals, hother]
    rfl

/-- What naming a constructor of a class does, and what calls by the name do ever after. -/
structure NamedConstructor (before : State) (reference : ClassId) (record : Class)
    (name : String) : Prop where
  /-- A body that asks for it is given the constructor, or the failure. -/
  asked : ∀ place, (Operation.type .namedConstructor).execute place
    [.type reference, .string name] before =
      (nameConstructor reference name before).andThen fun outcome later ↦
        .ended (outcome.map fun constructor ↦ .value (.function constructor)) later
  /-- The member is read on the prototype, which owns or inherits it. -/
  read : Member.Reads (before.heap.lookup record.prototype name) (.object record.prototype) name
    before (Member.get record.prototype name before)
  /-- It succeeds exactly when the read gives a function. -/
  returns_iff : ∀ {constructor after},
    (nameConstructor reference name before).EndsWith (.ok constructor) after ↔
      ∃ initializer read,
        (Member.get record.prototype name before).EndsWith (.ok (.function initializer)) read ∧
          constructor = read.heap.nextFunction ∧ after = exposed record name initializer read
  /-- It fails with the read, or because the read gives something else, and then the read is all
  that has been done. -/
  fails_iff : ∀ {fault after},
    (nameConstructor reference name before).EndsWith (.error fault) after ↔
      (Member.get record.prototype name before).EndsWith (.error fault) after ∨
        ∃ found, (Member.get record.prototype name before).EndsWith (.ok found) after ∧
          (∀ function, found ≠ .function function) ∧ fault = noInitializer reference name found
  /-- Of all objects only the statics are changed, and of their slots only the one under the
  name. -/
  stored : ∀ {initializer read},
    (Member.get record.prototype name before).EndsWith (.ok (.function initializer)) read →
      (exposed record name initializer read).heap.slots record.statics =
        (read.heap.slots record.statics).insert name (.method read.heap.nextFunction) ∧
      (∀ object slot, object ≠ record.statics ∨ slot ≠ name →
        (exposed record name initializer read).heap.own? object slot =
          read.heap.own? object slot) ∧
      ∀ object : ObjectId, object ≠ record.statics →
        (exposed record name initializer read).heap.objects.get? object.index =
          read.heap.objects.get? object.index
  /-- The class itself has the slot of its statics, and besides it only subclasses. -/
  heirs : ∀ heap : Heap, heap.InheritsStatic reference reference name ∧
    ∀ heir, heap.InheritsStatic heir reference name → heap.isSubclass heir reference = true
  /-- At every later moment of every run at which the slot holds the constructor, a call of the
  class by the name calls it, and so does a call of a subclass that inherits the slot. The function
  that was read is one that exists. -/
  lasting : ∀ {initializer read},
    (Member.get record.prototype name before).EndsWith (.ok (.function initializer)) read →
      read.heap.knows (.function initializer) = true →
        ∀ {bodies start named},
          (Session.moment bodies start named).state = exposed record name initializer read →
            ∀ {index later}, named ≤ index → (Session.moment bodies start index).state = later →
              later.heap.own? record.statics name = some (.method read.heap.nextFunction) →
                ∀ {heir : ClassId}, heir.index < later.heap.classes.size →
                  later.heap.InheritsStatic heir reference name →
                    CallsNamedConstructor record initializer read.heap.nextFunction heir name later

/-- Assumes: a state that a run passes through, and a class of it.

Naming a constructor reads a member of the prototype and stores a function for what it has found.
From then on calls by the name make instances of the class with the function that was found, until
something else is stored in the slot. -/
theorem namedConstructor (hbefore : before.Reachable)
    (hrecord : before.heap.class? reference = some record) (name : String) :
    NamedConstructor before reference record name where
  asked place := by
    have hknown : [Value.type reference, .string name].all before.heap.knows = true := by
      simpa [Heap.knows] using Heap.lt_of_class?_eq_some hrecord
    rw [Operation.execute_of_known hknown]
    simp only [Operation.carryOut, ClassOperation.execute, Run.bind_apply]
    congr 1
    funext outcome later
    cases outcome <;> rfl
  read := Member.reads_read
  returns_iff := endsWith_nameConstructor_ok_iff hrecord
  fails_iff := endsWith_nameConstructor_error_iff hrecord
  stored {initializer read} hread := by
    have hgrows := (hread.transitions
      (careful_memberRead record.prototype name _ before).orderly []).grows
    have hstatics : record.statics.index < read.heap.objects.size := Nat.lt_of_lt_of_le
      (hbefore.wellFormed.classes reference record hrecord).statics hgrows.objects
    refine ⟨Heap.slots_define_self hstatics _ _, fun object slot hother ↦ ?_, fun object hne ↦ ?_⟩
    · rcases hother with hobject | hslot
      · exact Heap.own?_define_of_ne _ hobject _ _ _
      · exact Heap.own?_define_of_name_ne _ _ _ hslot _
    · exact Arena.get?_modify_of_ne (fun hindex ↦ hne (congrArg ObjectId.mk hindex)) _
  heirs heap := ⟨heap.inheritsStatic_self reference name, fun _ h ↦ h.isSubclass⟩
  lasting {initializer read} hread hknown {bodies start named} hnamed {index later} hindex hlater
      hown {heir} hheir hinherits := by
    have hreads := hread.transitions (careful_memberRead record.prototype name _ before).orderly []
    have hends := (endsWith_nameConstructor_ok_iff hrecord).2 ⟨_, _, hread, rfl, rfl⟩
    have hstored := hends.transitions (careful_nameConstructor reference name before).orderly []
    have hmoves := Session.transitions_moment bodies start hindex
    have hprototype := Nat.lt_of_lt_of_le
      (hbefore.wellFormed.classes reference record hrecord).prototype hreads.grows.objects
    -- three facts at the moment of naming go on to hold: what the constructor is, the order of the
    -- classes, and what the class is
    have hmade : IsNamedConstructor record initializer read.heap.nextFunction
        (Session.moment bodies start named).state :=
      hnamed ▸ isNamedConstructor_exposed (hreads.equipped hbefore.equipped) hprototype hknown
    have hordered : (Session.moment bodies start named).state.heap.Ordered :=
      hnamed ▸ hstored.ordered hbefore.ordered
    have hclass : (Session.moment bodies start named).state.heap.class? reference = some record :=
      hnamed ▸ hstored.grows.classes reference record hrecord
    subst hlater
    obtain ⟨heirRecord, hheirRecord⟩ := Heap.exists_class?_of_lt hheir
    have hslot := (hmoves.ordered hordered).lookup_of_inheritsStatic hinherits hheirRecord
      (hmoves.grows.classes reference record hclass) hown
    exact callsNamedConstructor (hmade.of_transitions hmoves) hheirRecord hslot

/-! A program in which the member on the prototype gets another function when a constructor has
been named for it, and the constructor is called through a subclass. -/

namespace Renaming

/-- What the method does. -/
def method : Procedure := .native fun _ _ ↦ .finish (.ok (.value (.integer 1)))

/-- Makes a class with a method, and a subclass of it. -/
def program : Body :=
  .close "polar" ["r", "opt$theta"] (fun _ _ ↦ .finish (.ok (.value (.integer 1)))) fun polar ↦
  .close "other" [] (fun _ _ ↦ .finish (.ok .done)) fun _ ↦
  .perform ⟨0⟩ (.type (.build false false 1 [] []))
    [.string "Point", .string "polar", .function polar] fun _ ↦
  .perform ⟨0⟩ (.type (.build true false 0 [] [])) [.string "Pixel", .type ⟨0⟩] .finish

/-- The state in which the constructor is about to be named. -/
def declared : State := (Session.moment [program] (.fresh .standard) 5).state

/-- The class with the method. -/
def point : Class := ⟨"Point", none, none, ⟨0⟩, ⟨1⟩, none⟩

/-- The state in which the constructor has been named. -/
def named : State := Construction.exposed point "polar" ⟨0⟩ declared

/-- Puts the other function in the place of the method. -/
def replacement : Body :=
  .perform ⟨0⟩ (.object (.define .method)) [.object ⟨0⟩, .string "polar", .function ⟨1⟩] .finish

/-- The state in which the method has been replaced. -/
def replaced : State := (Session.moment [replacement] named 2).state

theorem get_declared :
    (Member.get point.prototype "polar" declared).EndsWith (.ok (.function ⟨0⟩)) declared := by
  have hown : declared.heap.own? ⟨0⟩ "polar" = some (.data (.function ⟨0⟩) true false) := by
    decide +kernel
  rw [point, Member.get_of_own hown]
  exact .ended _ _

/-- The method does what it did, for the rest of the run. -/
theorem procedure_replaced : replaced.procedures.get? 0 = some method := by
  have hmade : (Session.moment [program] (.fresh .standard) 2).state.procedures.get? 0 =
      some method := rfl
  have hdeclared : declared.procedures.get? 0 = some method := Ledger.Transitions.procedure
    (Session.transitions_moment [program] (.fresh .standard) (by decide : 2 ≤ 5)) hmade
  have hexposed : ∀ read : State, read.procedures.get? 0 = some method →
      (exposed point "polar" ⟨0⟩ read).procedures.get? 0 = some method :=
    fun _ hread ↦ Arena.get?_push_of_some hread _
  exact Ledger.Transitions.procedure
    (Session.transitions_moment [replacement] named (Nat.zero_le 2)) (hexposed declared hdeclared)

/-- The subclass inherits the constructor. -/
theorem inheritsStatic_replaced : replaced.heap.InheritsStatic ⟨1⟩ ⟨0⟩ "polar" := by
  refine ⟨[⟨1⟩], [], by decide +kernel, fun other hother record hrecord ↦ ?_⟩
  obtain rfl := List.mem_singleton.1 hother
  have hpixel : replaced.heap.class? ⟨1⟩ = some ⟨"Pixel", some ⟨0⟩, none, ⟨2⟩, ⟨3⟩, none⟩ := by
    decide +kernel
  obtain rfl := Option.some.inj (hrecord.symm.trans hpixel)
  decide +kernel

end Renaming

/-- The constructor makes an instance of the class, and runs the method for which it was named. -/
theorem namedConstructor_renaming :
    Renaming.declared.Reachable ∧ Renaming.declared.heap.class? ⟨0⟩ = some Renaming.point ∧
      NamedConstructor Renaming.declared ⟨0⟩ Renaming.point "polar" ∧
      Renaming.replaced.heap.own? ⟨0⟩ "polar" = some (.method ⟨1⟩) ∧
      ∃ last, (Dispatch.invoke ⟨0⟩ (.type ⟨1⟩) (.call "polar") [.integer 3]
          Renaming.replaced).EndsWith (.ok (.object ⟨4⟩)) last ∧
        last.heap.prototype? ⟨4⟩ = some ⟨0⟩ ∧ last.heap.tag? ⟨4⟩ = some "Point" := by
  have hreachable : Renaming.declared.Reachable := ⟨[Renaming.program], .standard, 5, rfl⟩
  have hpoint : Renaming.declared.heap.class? ⟨0⟩ = some Renaming.point := by decide +kernel
  have hnamed := namedConstructor hreachable hpoint "polar"
  have hcalls := hnamed.lasting Renaming.get_declared (by decide +kernel)
    (rfl : (Session.moment [Renaming.replacement] Renaming.named 0).state = Renaming.named)
    (Nat.zero_le 2) rfl (by decide +kernel) (by decide +kernel) Renaming.inheritsStatic_replaced
  have haccepts : ∀ expected actual reached, ¬Dispatch.Refuses ⟨0⟩ (.type ⟨1⟩) (.call "polar")
      [.integer 3] Renaming.replaced expected actual reached := by
    intro expected actual reached hrefuses
    have hinitializer : Dispatch.seek ⟨0⟩ (.function ⟨0⟩) .apply Renaming.replaced =
        .ended (.ok (.ok (⟨0⟩, .undefined))) Renaming.replaced := rfl
    obtain ⟨-, hrefused, -⟩ :=
      (Dispatch.refuses_iff_of_seek hinitializer).1 ((hcalls.refuses_iff ..).1 hrefuses)
    have hfits : acceptsCount (Renaming.replaced.realm ⟨0⟩).config.optionalMark
        (Renaming.replaced.heap.formals ⟨0⟩) [Value.integer 3].length = true := by decide +kernel
    cases hfits.symm.trans hrefused
  obtain ⟨asked, hasked, hinvoke, hmakes⟩ := hcalls.calls ⟨0⟩ [.integer 3] haccepts
  have hkept : ∀ state : State, asked = { state with trace := asked.trace } →
      asked.heap = state.heap ∧ asked.procedures = state.procedures := by
    intro state hsame
    rw [hsame]
    exact ⟨rfl, rfl⟩
  obtain ⟨hheap, hprocedures⟩ := hkept Renaming.replaced hasked
  have hnext : asked.heap.nextObject = ⟨4⟩ := by
    rw [hheap]
    decide +kernel
  have hmethod : asked.procedures.get? 0 = some Renaming.method := by
    rw [hprocedures]
    exact Renaming.procedure_replaced
  have hends := hmakes.ends_iff.2
    ⟨_, _, Machine.endsWith_enter hmethod (Body.endsWith_finish _ _), rfl, rfl⟩
  have hmade := hmakes.made hends
  rw [hnext] at hends hmade
  exact ⟨hreachable, hpoint, hnamed, by decide +kernel, _, hinvoke ▸ hends, hmade⟩

end Main

end GradualRuntime
