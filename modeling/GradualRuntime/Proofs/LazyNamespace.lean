import GradualRuntime.Proofs.Access
import GradualRuntime.Proofs.DepthFirst

/-!
# Namespaces of lazy bindings

A `LazyNamespace` is an object with finitely many lazy bindings whose initializers first read other
bindings of the same object, in order, let failures pass, and then give a value. The dependencies
between the bindings are an arbitrary finite graph, cycles included.

Reading a binding is a depth-first traversal of that graph (`get_depthFirst`). While the traversal
goes on, the bindings on its path are in progress, those that it is done with are ordinary slots,
and each of them has had its initializer entered once (`LazyNamespace.At`); `run_visits` is the
induction on the traversal that shows this for the body of an initializer.
-/

set_option autoImplicit false

namespace GradualRuntime

/-- A body that reads members of an object in order, lets every failure pass, and gives a value. -/
inductive Body.Reads (object : ObjectId) : List String → Body → Prop where
  | finish (answer : Answer) : Reads object [] (.finish (.ok answer))
  | withRealm {names : List String} {next : RealmId → Body}
    (rest : ∀ realm, Reads object names (next realm)) : Reads object names (.withRealm next)
  | perform (realm : RealmId) {operation : Operation}
    (reading : operation = .object .get ∨ operation = .realm .dynamicGet) (name : String)
    {rest : List String} {next : Except Fault Answer → Body}
    (propagates : ∀ fault, next (.error fault) = .finish (.error fault))
    (continues : ∀ value, Reads object rest (next (.ok (.value value)))) :
    Reads object (name :: rest)
      (.perform realm operation [.object object, .string name] next)

/-- An object with lazy bindings that read one another. -/
structure LazyNamespace where
  object : ObjectId
  /-- The names of the bindings. -/
  names : Finset String
  cell : String → CellId
  /-- The names of the cells, which failures report. -/
  label : String → String
  isMutable : String → Bool
  initializer : String → FunctionId
  /-- The bindings that the initializer of a binding reads, in order. -/
  reads : String → List String
  distinct : ∀ first ∈ names, ∀ second ∈ names, cell first = cell second → first = second
  closed : ∀ name ∈ names, ∀ other ∈ reads name, other ∈ names

namespace LazyNamespace

/-- The slot of a binding whose cell is in a given state, when all accesses go through the slot. -/
def slot (space : LazyNamespace) (name : String) : CellState → Property
  | .initialized value => .data value (space.isMutable name) true
  | _ => .binding (space.cell name)

/-- A binding whose cell is in a given state. -/
structure Shows (space : LazyNamespace) (state : State) (name : String) (current : CellState) :
    Prop where
  cell : state.heap.cell? (space.cell name) =
    some ⟨space.label name, space.isMutable name, current⟩
  slot : state.heap.own? space.object name = some (space.slot name current)

/-- The object exists, and the initializer of each binding reads what it is said to read. -/
structure Installed (space : LazyNamespace) (state : State) : Prop where
  known : space.object.index < state.heap.objects.size
  code : ∀ name ∈ space.names, ∃ body,
    state.procedures.get? (space.initializer name).index = some (.native body) ∧
      Body.Reads space.object (space.reads name) (body .undefined [])

/-- Where a binding stands when a traversal, which began in a given state, has a path and is done
with some bindings: waiting, in progress, or a slot with a value. The initializer has been entered
once for each binding that the traversal has met. -/
structure Stands (space : LazyNamespace) (start : State) (path done : List String) (state : State)
    (name : String) : Prop where
  waiting : name ∉ path → name ∉ done →
    space.Shows state name (.uninitialized (space.initializer name)) ∧
      state.entries (space.cell name) = start.entries (space.cell name)
  active : name ∈ path → space.Shows state name .inProgress ∧
    state.entries (space.cell name) = start.entries (space.cell name) + 1
  finished : name ∈ done → ∃ value, space.Shows state name (.initialized value) ∧
    state.entries (space.cell name) = start.entries (space.cell name) + 1

/-- The state of a namespace during a traversal that began in a given state. -/
structure At (space : LazyNamespace) (start : State) (path done : List String) (state : State) :
    Prop where
  installed : space.Installed state
  stands : ∀ name ∈ space.names, space.Stands start path done state name

variable {space : LazyNamespace} {start state : State} {path done : List String} {name : String}

theorem Stands.congr {other : State} {otherPath otherDone : List String}
    (h : space.Stands start path done state name)
    (hcell : other.heap.cell? (space.cell name) = state.heap.cell? (space.cell name))
    (hslot : other.heap.own? space.object name = state.heap.own? space.object name)
    (hentries : other.entries (space.cell name) = state.entries (space.cell name))
    (hpath : name ∈ otherPath ↔ name ∈ path) (hdone : name ∈ otherDone ↔ name ∈ done) :
    space.Stands start otherPath otherDone other name := by
  have hshows : ∀ {current : CellState}, space.Shows state name current →
      space.Shows other name current := fun hshows ↦
    ⟨hcell.trans hshows.cell, hslot.trans hshows.slot⟩
  refine ⟨fun hp hd ↦ ?_, fun hp ↦ ?_, fun hd ↦ ?_⟩
  · obtain ⟨hcurrent, hcount⟩ := h.waiting (hpath.not.1 hp) (hdone.not.1 hd)
    exact ⟨hshows hcurrent, hentries.trans hcount⟩
  · obtain ⟨hcurrent, hcount⟩ := h.active (hpath.1 hp)
    exact ⟨hshows hcurrent, hentries.trans hcount⟩
  · obtain ⟨value, hcurrent, hcount⟩ := h.finished (hdone.1 hd)
    exact ⟨value, hshows hcurrent, hentries.trans hcount⟩

section Steps

/-- The call that the first access to a binding makes. -/
def firstCall (space : LazyNamespace) (name : String) : Call :=
  ⟨space.initializer name, .undefined, [], .initializing (space.cell name)⟩

/-- The state in which the first access to a binding enters the initializer. -/
def entering (space : LazyNamespace) (name : String) (state : State) : State :=
  (state.startCell (space.cell name) (space.label name)).record (.entered (space.firstCall name))

theorem entries_entering (cell : CellId) :
    (space.entering name state).entries cell =
      state.entries cell + if (space.firstCall name).initializes cell then 1 else 0 := by
  rw [entering, State.entries_record, State.entries_startCell]
  rfl

theorem cell_ne {other : String} (hname : name ∈ space.names) (hother : other ∈ space.names)
    (hne : other ≠ name) : space.cell other ≠ space.cell name :=
  fun heq ↦ hne (space.distinct other hother name hname heq)

theorem initializes_firstCall_of_ne {other : String} (hname : name ∈ space.names)
    (hother : other ∈ space.names) (hne : other ≠ name) :
    (space.firstCall name).initializes (space.cell other) = false := by
  simp [firstCall, Call.initializes, (cell_ne hname hother hne).symm]

/-- Entering the initializer of a binding puts it on the path. -/
theorem At.enter (h : space.At start path done state) (hname : name ∈ space.names)
    (hpath : name ∉ path) (hdone : name ∉ done) :
    space.At start (name :: path) done (space.entering name state) := by
  obtain ⟨hshows, hcount⟩ := (h.stands name hname).waiting hpath hdone
  refine ⟨⟨h.installed.known, h.installed.code⟩, fun other hother ↦ ?_⟩
  by_cases hne : other = name
  · subst hne
    have hcell : (space.entering other state).heap.cell? (space.cell other) =
        some ⟨space.label other, space.isMutable other, .inProgress⟩ :=
      Heap.cell?_setCellState_self hshows.cell .inProgress
    have hentries : (space.entering other state).entries (space.cell other) =
        start.entries (space.cell other) + 1 := by
      rw [entries_entering, hcount]
      simp [Call.initializes, firstCall]
    exact ⟨fun hnot ↦ absurd List.mem_cons_self hnot, fun _ ↦ ⟨⟨hcell, hshows.slot⟩, hentries⟩,
      fun hmem ↦ absurd hmem hdone⟩
  · refine (h.stands other hother).congr
      (state.heap.cell?_setCellState_of_ne (cell_ne hname hother hne) .inProgress) rfl ?_
      (by simp [hne]) Iff.rfl
    simp [entries_entering, initializes_firstCall_of_ne hname hother hne]

/-- Entries that enter no initializer leave a namespace where it is. -/
theorem At.record (h : space.At start path done state) {entry : TraceEntry}
    (hquiet : ∀ cell, entry.enters cell = false) :
    space.At start path done (state.record entry) := by
  refine ⟨⟨h.installed.known, h.installed.code⟩, fun other hother ↦ ?_⟩
  refine (h.stands other hother).congr rfl rfl ?_ Iff.rfl Iff.rfl
  simp [State.entries_record, hquiet]

/-- The state after the first access to a binding has received a value from the initializer. -/
def finish (space : LazyNamespace) (name : String) (value : Value) (state : State) : State :=
  let settled := (state.record (.returned (space.firstCall name) (.ok value))).settleCell
    (space.cell name) (space.label name) (.ok value)
  { settled with
    heap := settled.heap.define space.object name (space.slot name (.initialized value)) }

theorem entries_finish (value : Value) (cell : CellId) :
    (space.finish name value state).entries cell = state.entries cell := by
  have hsettled : (space.finish name value state).entries cell =
      ((state.record (.returned (space.firstCall name) (.ok value))).settleCell
        (space.cell name) (space.label name) (.ok value)).entries cell := rfl
  rw [hsettled, State.entries_settleCell, State.entries_record]
  rfl

/-- The value of its initializer takes a binding off the path. -/
theorem At.finish (h : space.At start (name :: path) done state) (hname : name ∈ space.names)
    (hpath : name ∉ path) (value : Value) :
    space.At start path (name :: done) (space.finish name value state) := by
  obtain ⟨hshows, hcount⟩ := (h.stands name hname).active List.mem_cons_self
  have hknown : space.object.index < (space.finish name value state).heap.objects.size := by
    simpa [LazyNamespace.finish, State.settleCell, Heap.define, Heap.setCellState] using
      h.installed.known
  refine ⟨⟨hknown, h.installed.code⟩, fun other hother ↦ ?_⟩
  by_cases hne : other = name
  · subst hne
    have hcell : (space.finish other value state).heap.cell? (space.cell other) =
        some ⟨space.label other, space.isMutable other, .initialized value⟩ :=
      Heap.cell?_setCellState_self hshows.cell (.initialized value)
    have hslot : (space.finish other value state).heap.own? space.object other =
        some (space.slot other (.initialized value)) :=
      Heap.own?_define_self h.installed.known other _
    exact ⟨fun _ hnot ↦ absurd List.mem_cons_self hnot, fun hmem ↦ absurd hmem hpath,
      fun _ ↦ ⟨value, ⟨hcell, hslot⟩, (entries_finish value _).trans hcount⟩⟩
  · exact (h.stands other hother).congr
      (state.heap.cell?_setCellState_of_ne (cell_ne hname hother hne) (.initialized value))
      (Heap.own?_define_of_name_ne _ space.object space.object hne _)
      (entries_finish value _) (by simp [hne]) (by simp [hne])

end Steps

section Reads

/-- A binding that the traversal is done with reads as its value. -/
theorem At.get_of_done (h : space.At start path done state) (hname : name ∈ space.names)
    (hdone : name ∈ done) :
    ∃ value, (Member.get space.object name state).EndsWith (.ok value) state := by
  obtain ⟨value, hshows, -⟩ := (h.stands name hname).finished hdone
  refine ⟨value, ?_⟩
  rw [Member.get_of_own hshows.slot]
  exact .ended _ _

/-- A read of a binding of the path fails with the name of its cell. -/
theorem At.get_of_path (h : space.At start path done state) (hname : name ∈ space.names)
    (hpath : name ∈ path) :
    (Member.get space.object name state).EndsWith
      (.error (.circularInitialization (space.label name))) state := by
  obtain ⟨hshows, -⟩ := (h.stands name hname).active hpath
  rw [Member.get, Member.read_of_inProgress (Heap.lookup_of_own?_eq_some hshows.slot)
    hshows.cell rfl]
  exact .ended _ state

/-- The first read of a binding gives the value that the body of its initializer gives. -/
theorem At.get_of_new (h : space.At start path done state) (hname : name ∈ space.names)
    (hpath : name ∉ path) (hdone : name ∉ done) {body : Value → List Value → Body}
    (hcode : state.procedures.get? (space.initializer name).index = some (.native body))
    {answer : Answer} {back : State}
    (hbody : ((body .undefined []).run (space.entering name state)).EndsWith (.ok answer) back) :
    (Member.get space.object name state).EndsWith (.ok answer.toValue)
      (space.finish name answer.toValue back) := by
  obtain ⟨hshows, -⟩ := (h.stands name hname).waiting hpath hdone
  rw [Member.get, Member.read_of_binding (Heap.lookup_of_own?_eq_some hshows.slot)]
  exact LazyBinding.endsWith_read hshows.cell
    (LazyBinding.endsWith_force hshows.cell rfl (Machine.endsWith_enter hcode hbody))

/-- The first read of a binding fails when the body of its initializer does. -/
theorem At.get_of_new_error (h : space.At start path done state) (hname : name ∈ space.names)
    (hpath : name ∉ path) (hdone : name ∉ done) {body : Value → List Value → Body}
    (hcode : state.procedures.get? (space.initializer name).index = some (.native body))
    {fault : Fault} {back : State}
    (hbody : ((body .undefined []).run (space.entering name state)).EndsWith
      (.error fault) back) :
    (Member.get space.object name state).EndsWith (.error fault)
      ((back.record (.returned (space.firstCall name) (.error fault))).settleCell
        (space.cell name) (space.label name) (.error fault)) := by
  obtain ⟨hshows, -⟩ := (h.stands name hname).waiting hpath hdone
  rw [Member.get, Member.read_of_binding (Heap.lookup_of_own?_eq_some hshows.slot)]
  exact LazyBinding.endsWith_read_error
    (LazyBinding.endsWith_force hshows.cell rfl (Machine.endsWith_enter hcode hbody))

theorem At.has (h : space.At start path done state) (hname : name ∈ space.names) :
    state.heap.has space.object name = true := by
  have hown : ∃ property, state.heap.own? space.object name = some property := by
    by_cases hdone : name ∈ done
    · obtain ⟨value, hshows, -⟩ := (h.stands name hname).finished hdone
      exact ⟨_, hshows.slot⟩
    by_cases hpath : name ∈ path
    · exact ⟨_, ((h.stands name hname).active hpath).1.slot⟩
    · exact ⟨_, ((h.stands name hname).waiting hpath hdone).1.slot⟩
  obtain ⟨property, hproperty⟩ := hown
  simp [Heap.has, Heap.lookup_of_own?_eq_some hproperty]

end Reads

end LazyNamespace

namespace Body.Reads

variable {object : ObjectId} {name : String} {names rest : List String} {body : Body}
  {state middle : State}

/-- Both ways of reading a member that exists are a read of the object on its own behalf. -/
theorem endsWith_operation {operation : Operation}
    (hreading : operation = .object .get ∨ operation = .realm .dynamicGet) (realm : RealmId)
    (hknown : object.index < state.heap.objects.size)
    (hhas : state.heap.has object name = true) {outcome : Except Fault Value}
    (hget : (Member.get object name state).EndsWith outcome middle) :
    (operation.execute realm [.object object, .string name] state).EndsWith
      (outcome.map Answer.value) middle := by
  have hall : [Value.object object, .string name].all state.heap.knows = true := by
    simp [Heap.knows, hknown]
  rw [Operation.execute_of_known hall]
  have hwrapped : ((Member.get object name state).andThen
      (Run.onward fun value ↦ pure (Answer.value value))).EndsWith
        (outcome.map Answer.value) middle := by
    refine hget.andThen ?_
    cases outcome <;> exact .ended _ middle
  rcases hreading with rfl | rfl
  · exact hwrapped
  · have hdynamic : Dispatch.dynamicGet realm (.object object) name state =
        Member.get object name state := by
      simp [Dispatch.dynamicGet, Dispatch.hasMember, Dispatch.getMember, Realm.holder?, hhas,
        Member.get]
    simpa [Operation.carryOut, RealmOperation.execute, hdynamic] using hwrapped

theorem endsWith_nil (h : Reads object [] body) (state : State) :
    ∃ answer, (body.run state).EndsWith (.ok answer) state := by
  generalize hnames : ([] : List String) = names at h
  induction h with
  | finish answer => exact ⟨answer, Body.endsWith_finish _ state⟩
  | withRealm _ ih => exact ih state.current hnames
  | perform => cases hnames

/-- A body that reads a member fails when the read does. -/
theorem endsWith_error (h : Reads object (name :: rest) body)
    (hknown : object.index < state.heap.objects.size)
    (hhas : state.heap.has object name = true) {fault : Fault}
    (hget : (Member.get object name state).EndsWith (.error fault) middle) :
    (body.run state).EndsWith (.error fault) middle := by
  generalize hnames : name :: rest = names at h
  induction h with
  | finish => cases hnames
  | withRealm _ ih => exact ih state.current hnames
  | perform realm reading _ propagates _ =>
    cases hnames
    refine Body.endsWith_perform (endsWith_operation reading realm hknown hhas hget) ?_
    rw [Except.map, propagates]
    exact Body.endsWith_finish _ middle

/-- A body that reads a member goes on to read the others when the read gives a value. -/
theorem endsWith_ok (h : Reads object (name :: rest) body)
    (hknown : object.index < state.heap.objects.size)
    (hhas : state.heap.has object name = true) {value : Value}
    (hget : (Member.get object name state).EndsWith (.ok value) middle) :
    ∃ later, Reads object rest later ∧ ∀ outcome last,
      (later.run middle).EndsWith outcome last → (body.run state).EndsWith outcome last := by
  generalize hnames : name :: rest = names at h
  induction h with
  | finish => cases hnames
  | withRealm _ ih => exact ih state.current hnames
  | perform realm reading _ _ continues =>
    cases hnames
    exact ⟨_, continues value, fun outcome last hlater ↦
      Body.endsWith_perform (endsWith_operation reading realm hknown hhas hget) hlater⟩

end Body.Reads

namespace LazyNamespace

variable {space : LazyNamespace} {start state : State} {path done : List String} {name : String}

section Traversal

open DepthFirst

/-- What a traversal of the bindings comes to in the runtime: an outcome and a state. When it stops,
the failure names the cell of the binding that was met again. -/
def Realizes {α : Type} (space : LazyNamespace) (start : State) (path : List String) :
    Result String → Except Fault α → State → Prop
  | .finished done, outcome, after =>
    (∃ value, outcome = .ok value) ∧ space.At start path done after
  | .again repeated reached done, outcome, after =>
    outcome = .error (.circularInitialization (space.label repeated)) ∧
      space.At start reached done after

/-- A first read comes to what the body of the initializer comes to, with the binding done with
instead of on the path. -/
theorem At.get_realizes (h : space.At start path done state) (hname : name ∈ space.names)
    (hpath : name ∉ path) (hdone : name ∉ done) {result : Result String}
    (hinside : ∀ body, Body.Reads space.object (space.reads name) body →
      ∃ outcome back, (body.run (space.entering name state)).EndsWith outcome back ∧
        space.Realizes start (name :: path) result outcome back) :
    ∃ outcome after, (Member.get space.object name state).EndsWith outcome after ∧
      match result with
      | .finished inner => space.Realizes start path (.finished (name :: inner)) outcome after
      | .again repeated reached inner =>
        space.Realizes start path (.again repeated reached inner) outcome after := by
  obtain ⟨body, hcode, hreads⟩ := h.installed.code name hname
  obtain ⟨outcome, back, hbody, hrealizes⟩ := hinside _ hreads
  cases result with
  | finished inner =>
    obtain ⟨⟨answer, rfl⟩, hback⟩ := hrealizes
    exact ⟨_, _, h.get_of_new hname hpath hdone hcode hbody, ⟨_, rfl⟩,
      hback.finish hname hpath _⟩
  | again repeated reached inner =>
    obtain ⟨rfl, hback⟩ := hrealizes
    refine ⟨_, _, h.get_of_new_error hname hpath hdone hcode hbody, rfl, ?_⟩
    exact (hback.record fun _ ↦ rfl).record fun _ ↦ rfl

/-- A body that reads bindings in order carries out their traversal. -/
theorem run_visits {nodes : List String} {result : Result String}
    (hvisits : Visits space.reads path done nodes result) (h : space.At start path done state)
    (hnodes : ∀ node ∈ nodes, node ∈ space.names) {body : Body}
    (hbody : Body.Reads space.object nodes body) :
    ∃ outcome after, (body.run state).EndsWith outcome after ∧
      space.Realizes start path result outcome after := by
  -- The path and the nodes done with are those of the traversal; the state follows them (`At`).
  induction hvisits generalizing state body with
  | nil path done =>
    obtain ⟨answer, hanswer⟩ := hbody.endsWith_nil state
    exact ⟨_, _, hanswer, ⟨answer, rfl⟩, h⟩
  | @skip path done rest node result known after ih =>
    have hnode : node ∈ space.names := hnodes node List.mem_cons_self
    obtain ⟨value, hvalue⟩ := h.get_of_done hnode known
    obtain ⟨later, hlater, hrest⟩ := hbody.endsWith_ok h.installed.known (h.has hnode) hvalue
    obtain ⟨outcome, last, hlast, hrealizes⟩ :=
      ih h (fun other hother ↦ hnodes other (List.mem_cons_of_mem node hother)) hlater
    exact ⟨outcome, last, hrest outcome last hlast, hrealizes⟩
  | @again path done rest node unknown active =>
    have hnode : node ∈ space.names := hnodes node List.mem_cons_self
    exact ⟨_, _, hbody.endsWith_error h.installed.known (h.has hnode)
      (h.get_of_path hnode active), rfl, h⟩
  | @enter path done inner rest node result unknown inactive inside after ihinside ihafter =>
    have hnode : node ∈ space.names := hnodes node List.mem_cons_self
    obtain ⟨outcome, middle, hget, ⟨value, rfl⟩, hmiddle⟩ :=
      h.get_realizes hnode inactive unknown fun _ hreads ↦
        ihinside (h.enter hnode inactive unknown) (space.closed node hnode) hreads
    obtain ⟨later, hlater, hrest⟩ := hbody.endsWith_ok h.installed.known (h.has hnode) hget
    obtain ⟨outcome, last, hlast, hrealizes⟩ :=
      ihafter hmiddle (fun other hother ↦ hnodes other (List.mem_cons_of_mem node hother)) hlater
    exact ⟨outcome, last, hrest outcome last hlast, hrealizes⟩
  | @abort path done innerPath innerDone rest node repeated unknown inactive inside ih =>
    have hnode : node ∈ space.names := hnodes node List.mem_cons_self
    obtain ⟨outcome, middle, hget, rfl, hmiddle⟩ :=
      h.get_realizes hnode inactive unknown fun _ hreads ↦
        ih (h.enter hnode inactive unknown) (space.closed node hnode) hreads
    exact ⟨_, middle, hbody.endsWith_error h.installed.known (h.has hnode) hget, rfl, hmiddle⟩

/-- A namespace none of whose bindings has been accessed. -/
structure Fresh (space : LazyNamespace) (state : State) : Prop where
  installed : space.Installed state
  waiting : ∀ name ∈ space.names,
    space.Shows state name (.uninitialized (space.initializer name))

theorem Fresh.at (h : space.Fresh state) : space.At state [] [] state :=
  ⟨h.installed, fun name hname ↦
    ⟨fun _ _ ↦ ⟨h.waiting name hname, rfl⟩, fun hpath ↦ absurd hpath List.not_mem_nil,
      fun hdone ↦ absurd hdone List.not_mem_nil⟩⟩

/-- Reading a binding of a fresh namespace carries out the traversal from it. -/
theorem Fresh.get_visits (h : space.Fresh state) (hname : name ∈ space.names)
    {result : Result String} (hvisits : Visits space.reads [] [] [name] result) :
    ∃ outcome after, (Member.get space.object name state).EndsWith outcome after ∧
      space.Realizes state [] result outcome after := by
  cases hvisits with
  | skip known => exact absurd known List.not_mem_nil
  | again _ _ active => exact absurd active List.not_mem_nil
  | enter unknown inactive inside after =>
    cases after
    exact h.at.get_realizes hname inactive unknown fun _ hreads ↦
      run_visits inside (h.at.enter hname inactive unknown) (space.closed name hname) hreads
  | abort _ unknown inactive inside =>
    exact h.at.get_realizes hname inactive unknown fun _ hreads ↦
      run_visits inside (h.at.enter hname inactive unknown) (space.closed name hname) hreads

/-- Assumes: none of the bindings of the namespace has been accessed.

Reading a binding always comes to an end, and it does what the depth-first traversal of the
dependencies from that binding does. It succeeds exactly when the binding reaches no cycle; then the
bindings that it reaches, and no others, have been initialized and turned into ordinary slots.
Otherwise it fails with the name of the binding that the traversal meets again first; the bindings
on the path stay in progress, and the ones that were done with before are ordinary slots. The
initializer of each binding that was met has been entered once, and that of the others not. -/
theorem get_depthFirst (h : space.Fresh state) (hname : name ∈ space.names) :
    ∃ result outcome after,
      Visits space.reads [] [] [name] result ∧
      (Member.get space.object name state).EndsWith outcome after ∧
      ((∃ value, outcome = .ok value) ↔
        ∀ other, Reaches space.reads name other → ¬ OnCycle space.reads other) ∧
      match result with
      | .finished done =>
        (∀ other, other ∈ done ↔ Reaches space.reads name other) ∧
          (∃ value, outcome = .ok value) ∧ space.At state [] done after
      | .again repeated path done =>
        outcome = .error (.circularInitialization (space.label repeated)) ∧
          space.At state path done after := by
  obtain ⟨result, hvisits⟩ := exists_visits space.closed [] [] [name] (by simpa using hname)
  obtain ⟨outcome, after, hget, hrealizes⟩ := h.get_visits hname hvisits
  refine ⟨result, outcome, after, hvisits, hget, ?_, ?_⟩
  · rw [← finished_iff hvisits]
    cases result with
    | finished done => exact iff_of_true hrealizes.1 ⟨done, rfl⟩
    | again repeated path done => simp [hrealizes.1]
  · cases result with
    | finished done => exact ⟨mem_done_iff hvisits, hrealizes⟩
    | again repeated path done => exact hrealizes

/-- Two bindings, each of which reads the other one. -/
def twoCycle : LazyNamespace where
  object := ⟨0⟩
  names := {"even", "odd"}
  cell name := if name = "even" then ⟨0⟩ else ⟨1⟩
  label name := name
  isMutable _ := false
  initializer name := if name = "even" then ⟨0⟩ else ⟨1⟩
  reads name := [if name = "even" then "odd" else "even"]
  distinct := by decide
  closed := by decide

/-- An initializer that reads one member of the first object. -/
def readingInitializer (name : String) : Procedure :=
  .native fun _ _ ↦ .perform ⟨0⟩ (.object .get) [.object ⟨0⟩, .string name] .finish

/-- A state in which the two bindings have been made. -/
def twoCycleState : State :=
  let functions := (Heap.empty.addFunction ⟨"even", []⟩).addFunction ⟨"odd", []⟩
  let heap := functions.addObject ⟨none, none, .empty⟩
  { State.fresh .standard with
    heap := (heap.bindLazily ⟨0⟩ "even" ⟨0⟩ false).bindLazily ⟨0⟩ "odd" ⟨1⟩ false
    procedures := (Arena.empty.push (readingInitializer "odd")).push (readingInitializer "even") }

theorem fresh_twoCycle : twoCycle.Fresh twoCycleState := by
  have hreads : ∀ name, Body.Reads ⟨0⟩ [name]
      (.perform ⟨0⟩ (.object .get) [.object ⟨0⟩, .string name] .finish) := fun name ↦
    .perform ⟨0⟩ (.inl rfl) name (fun _ ↦ rfl) fun value ↦ .finish (.value value)
  refine ⟨⟨by decide, fun name hname ↦ ?_⟩, fun name hname ↦ ?_⟩
  · rcases Finset.mem_insert.1 hname with rfl | hname
    · exact ⟨_, rfl, hreads "odd"⟩
    · obtain rfl := Finset.mem_singleton.1 hname
      exact ⟨_, rfl, hreads "even"⟩
  · rcases Finset.mem_insert.1 hname with rfl | hname
    · exact ⟨rfl, rfl⟩
    · obtain rfl := Finset.mem_singleton.1 hname
      exact ⟨rfl, rfl⟩

/-- The first of the two bindings is met again. -/
theorem get_depthFirst_twoCycle :
    twoCycle.Fresh twoCycleState ∧ "even" ∈ twoCycle.names ∧
      ∃ after, (Member.get ⟨0⟩ "even" twoCycleState).EndsWith
        (.error (.circularInitialization "even")) after := by
  refine ⟨fresh_twoCycle, by decide, ?_⟩
  have hagain : Visits twoCycle.reads [] [] ["even"] (.again "even" ["odd", "even"] []) :=
    .abort [] (by simp) (by simp) (.abort [] (by simp) (by simp) (.again [] (by simp) (by simp)))
  obtain ⟨result, outcome, after, hvisits, hget, -, hresult⟩ :=
    get_depthFirst fresh_twoCycle (by decide : "even" ∈ twoCycle.names)
  obtain rfl := hagain.unique hvisits
  obtain ⟨rfl, -⟩ := hresult
  exact ⟨after, hget⟩

end Traversal

end LazyNamespace

end GradualRuntime
