import GradualRuntime.Proofs.Dispatch
import Mathlib.Data.Finset.Card

/-!
# Linked maps as finite maps

What the functions of a linked map do, in terms of what has been written to it. A history
(`LinkedMap.History`) lists the keys and values that have been written, the latest first, and stands
for a finite map: a key has the value last written under its identity (`latest?`), and there are as
many keys as there are identities (`identities`). `Method.answer` says what each of the four
functions answers on a history, and `Method.written` what it adds to the history.

A table that holds a history (`tableOf`) answers like it, so a call of one of the functions does
(`enter_of_method`). `Handle.Asks` lists the ways in which a body can ask for a method of a map, by
calling its function or through the dispatch protocol; each of them makes that one call, or is
refused for want of arguments (`Handle.Asks.execute_cases`).
-/

set_option autoImplicit false

namespace GradualRuntime

namespace LinkedMap

section Histories

/-- What has been written to a finite map: keys with values, the latest first. -/
abbrev History : Type := List (Value × Value)

/-- The value last written under the identity of a key. -/
def latest? (history : History) (key : Value) : Option Value :=
  (history.find? fun entry ↦ entry.1.identityKey == key.identityKey).map Prod.snd

/-- The identities of all keys. -/
def identities (history : History) : Finset IdentityKey :=
  (history.map fun entry ↦ entry.1.identityKey).toFinset

/-- The table to which all this has been written. -/
def tableOf (history : History) : LinkedTable :=
  history.foldr (fun entry table ↦ table.insert entry.1.identityKey entry) .empty

/-- Alternating keys and values as keys with their values; a last key without a value is ignored. -/
def pairs : List Value → List (Value × Value)
  | key :: value :: rest => (key, value) :: pairs rest
  | _ => []

theorem find?_tableOf (history : History) (identity : IdentityKey) :
    (tableOf history).find? identity =
      history.find? fun entry ↦ entry.1.identityKey == identity := by
  induction history with
  | nil => rfl
  | cons entry rest ih =>
    have hinsert : tableOf (entry :: rest) = (tableOf rest).insert entry.1.identityKey entry := rfl
    rw [hinsert]
    by_cases h : entry.1.identityKey = identity
    · subst h
      rw [OrderedMap.find?_insert_self, List.find?_cons_of_pos (by simp)]
    · rw [OrderedMap.find?_insert_of_ne _ (Ne.symm h), ih,
        List.find?_cons_of_neg (by simpa using h)]

/-- A table holds the values last written. -/
theorem find?_tableOf_key (history : History) (key : Value) :
    ((tableOf history).find? key.identityKey).map Prod.snd = latest? history key := by
  rw [find?_tableOf]
  rfl

theorem mem_keys_tableOf_iff (history : History) (identity : IdentityKey) :
    identity ∈ (tableOf history).keys ↔ identity ∈ identities history := by
  rw [← OrderedMap.contains_iff_mem_keys, OrderedMap.contains, find?_tableOf, List.find?_isSome]
  simp [identities]

/-- A table has one entry for each identity. -/
theorem size_tableOf (history : History) : (tableOf history).size = (identities history).card := by
  have hkeys : (tableOf history).keys.toFinset = identities history := by
    ext identity
    rw [List.mem_toFinset]
    exact mem_keys_tableOf_iff history identity
  have hnodup : (tableOf history).keys.Nodup := (tableOf history).keys_nodup
  rw [← hkeys, List.toFinset_card_of_nodup hnodup, OrderedMap.keys, List.length_map]
  rfl

/-- The first contents of a map have been written first to last. -/
theorem tableOfPairs_eq (history : History) (values : List Value) :
    tableOfPairs (tableOf history) values = tableOf ((pairs values).reverse ++ history) := by
  fun_induction pairs values generalizing history with
  | case1 key value rest ih =>
    have hfirst : tableOfPairs (tableOf history) (key :: value :: rest) =
        tableOfPairs (tableOf ((key, value) :: history)) rest := rfl
    rw [hfirst, ih, List.reverse_cons, List.append_assoc, List.singleton_append]
  | case2 values hvalues =>
    match values with
    | [] => rfl
    | [key] => rfl
    | key :: value :: rest => exact absurd rfl (hvalues key value rest)

theorem tableOfPairs_empty (values : List Value) :
    tableOfPairs .empty values = tableOf (pairs values).reverse := by
  have h := tableOfPairs_eq [] values
  rwa [List.append_nil] at h

/-- A key without a value at the end adds nothing. -/
theorem pairs_append_singleton {values : List Value} (h : 2 ∣ values.length) (key : Value) :
    pairs (values ++ [key]) = pairs values := by
  fun_induction pairs values with
  | case1 first value rest ih =>
    have hrest : 2 ∣ rest.length := by
      simp only [List.length_cons] at h
      omega
    simp [pairs, ih hrest]
  | case2 values hvalues =>
    match values with
    | [] => rfl
    | [last] => simp at h
    | first :: value :: rest => exact absurd rfl (hvalues first value rest)

end Histories

section Methods

/-- The functions that a linked map offers. -/
inductive Method where
  | get
  | set
  | containsKey
  | length
  deriving DecidableEq

namespace Method

/-- The name under which a function is offered. -/
def name : Method → String
  | get => "get"
  | set => "set"
  | containsKey => "containsKey"
  | length => "length"

/-- The formal parameters of a function. -/
def formals : Method → List String
  | get => ["key"]
  | set => ["key", "value"]
  | containsKey => ["key"]
  | length => []

/-- The place of a function among those made for a map. -/
def place : Method → Nat
  | get => 0
  | set => 1
  | containsKey => 2
  | length => 3

/-- What a function does. -/
def procedure (table : TableId) : Method → Procedure
  | get => .tableGet table
  | set => .tableSet table
  | containsKey => .tableContains table
  | length => .tableSize table

/-- The slot in which a function is offered. -/
def slot (function : FunctionId) : Method → Property
  | length => .ofGetter function
  | _ => .method function

/-- What a finite map with a history answers. -/
def answer (history : History) : Method → List Value → Except Fault Value
  | get, key :: _ => .ok ((latest? history key).getD .null)
  | set, _ :: _ :: _ => .ok .undefined
  | containsKey, key :: _ => .ok (.boolean (latest? history key).isSome)
  | length, _ => .ok (.integer (Int64.ofNat (identities history).card))
  | method, arguments =>
    .error (.invariantViolation
      (method.name ++ ": missing argument " ++ (arguments.length + 1).repr))

/-- What a call adds to the history. -/
def written : Method → List Value → List (Value × Value)
  | set, key :: value :: _ => [(key, value)]
  | _, _ => []

variable {method : Method} {arguments : List Value}

/-- With all arguments, a function answers. -/
theorem exists_answer (history : History) (h : method.formals.length ≤ arguments.length) :
    ∃ value, method.answer history arguments = .ok value := by
  match method, arguments, h with
  | get, _ :: _, _ | containsKey, _ :: _, _ | set, _ :: _ :: _, _ | length, _, _ => exact ⟨_, rfl⟩

/-- Without one of its arguments, a function fails and nothing is written. -/
theorem exists_fault (history : History) (h : arguments.length < method.formals.length) :
    method.written arguments = [] ∧ ∃ fault, method.answer history arguments = .error fault := by
  match method, arguments, h with
  | get, [], _ | containsKey, [], _ | set, [], _ | set, [_], _ => exact ⟨rfl, _, rfl⟩

end Method

/-- A linked map: its object, its table, and the number of the first of its functions. -/
structure Handle where
  object : ObjectId
  table : TableId
  first : Nat

/-- The function of a map that carries out a method. -/
def Handle.function (map : Handle) (method : Method) : FunctionId := ⟨map.first + method.place⟩

theorem table_of_get? {heap : Heap} {table : TableId} {contents : LinkedTable}
    (h : heap.tables.get? table.index = some contents) : heap.table table = contents := by
  rw [Heap.table, h, Option.getD_some]

variable {state : State} {call : Call} {method : Method} {table : TableId} {history : History}

/-- What `get` finds is what was last written under the identity of its key. -/
theorem lookUp_apply (htable : state.heap.table table = tableOf history) (arguments : List Value) :
    (Answer.value <$> lookUp table arguments) state =
      .ended ((Method.get.answer history arguments).map .value) state := by
  match arguments with
  | [] => rfl
  | key :: rest =>
    have hfound : (((tableOf history).find? key.identityKey).elim .null Prod.snd) =
        (latest? history key).getD .null := by
      rw [← find?_tableOf_key]
      cases (tableOf history).find? key.identityKey <;> rfl
    simp [Method.answer, lookUp, required, htable, hfound, Except.map]

theorem containsKey_apply (htable : state.heap.table table = tableOf history)
    (arguments : List Value) :
    (Answer.value <$> containsKey table arguments) state =
      .ended ((Method.containsKey.answer history arguments).map .value) state := by
  match arguments with
  | [] => rfl
  | key :: rest =>
    have hfound : (tableOf history).contains key.identityKey = (latest? history key).isSome := by
      rw [← find?_tableOf_key, Option.isSome_map, OrderedMap.contains]
    simp [Method.answer, containsKey, required, htable, hfound, Except.map]

theorem length_apply (htable : state.heap.table table = tableOf history) (arguments : List Value) :
    (Answer.value <$> length table) state =
      .ended ((Method.length.answer history arguments).map .value) state := by
  simp [Method.answer, length, htable, size_tableOf, Except.map]

/-- A call of a function of a map answers like the history that the table holds. -/
theorem enter_of_method
    (hcode : state.procedures.get? call.function.index = some (method.procedure table))
    (htable : state.heap.table table = tableOf history) :
    Machine.enter call state =
      .ended ((method.answer history call.arguments).map .value) (state.enter call) := by
  by_cases hset : method = .set
  · subst hset
    rw [Machine.enter_of_tableSet hcode]
    match call.arguments with
    | [] => rfl
    | [key] =>
      have hmissing : Method.set.answer history [key] =
          .error (.invariantViolation "set: missing argument 2") := by
        simp [Method.answer, Method.name]
        rfl
      rw [hmissing]
      rfl
    | _ :: _ :: _ => rfl
  · have hquiet : state.enter call = state.record (.entered call) := by
      refine State.enter_eq_record fun other hother ↦ ?_
      rw [hcode] at hother
      cases method with
      | set => exact hset rfl
      | _ => cases hother
    have hrecorded : (state.record (.entered call)).heap.table table = tableOf history := htable
    rw [Machine.enter_of_procedure hcode, hquiet]
    cases method with
    | get => exact lookUp_apply hrecorded call.arguments
    | containsKey => exact containsKey_apply hrecorded call.arguments
    | length => exact length_apply hrecorded call.arguments
    | set => exact absurd rfl hset

end Methods

section Asking

/-- The ways in which a body asks for a method of a map with some arguments: it calls the function,
or asks the dispatch protocol for a member that the map still owns as it was made. -/
inductive Handle.Asks (map : Handle) (state : State) (place : RealmId) :
    Method → List Value → Operation → List Value → Prop where
  | function (method : Method) (this : Value) (arguments : List Value) :
    Asks map state place method arguments (.function .call)
      (.function (map.function method) :: this :: arguments)
  | dynamicCall {method : Method} (arguments : List Value)
    (own : state.heap.own? map.object method.name = some (.method (map.function method)))
    (few : arguments.length ≤ method.formals.length) :
    Asks map state place method arguments (.realm .dynamicCall)
      (.object map.object :: .string method.name :: arguments)
  | indexGet (key : Value) (named : (state.realm place).config.members.indexGet = Method.get.name)
    (own : state.heap.own? map.object Method.get.name = some (.method (map.function .get))) :
    Asks map state place .get [key] (.realm .indexGet) [.object map.object, key]
  | indexSet (key value : Value)
    (named : (state.realm place).config.members.indexSet = Method.set.name)
    (own : state.heap.own? map.object Method.set.name = some (.method (map.function .set))) :
    Asks map state place .set [key, value] (.realm .indexSet) [.object map.object, key, value]
  | dynamicGet
    (own : state.heap.own? map.object Method.length.name =
      some (.ofGetter (map.function .length))) :
    Asks map state place .length [] (.realm .dynamicGet)
      [.object map.object, .string Method.length.name]
  | read
    (own : state.heap.own? map.object Method.length.name =
      some (.ofGetter (map.function .length))) :
    Asks map state place .length [] (.object .get)
      [.object map.object, .string Method.length.name]

variable {state : State} {map : Handle} {place : RealmId} {method : Method}
  {arguments operands : List Value} {operation : Operation}

/-- A function that an object owns as a method is what a call site with its name concludes with. -/
theorem invoke_of_own {object : ObjectId} {site : CallSite} {name : String} {callee : FunctionId}
    (hnamed : site.memberName? (state.realm place).config.members = some name)
    (hown : state.heap.own? object name = some (.method callee)) :
    Dispatch.invoke place (.object object) site arguments state =
      Dispatch.conclude (state.realm place).config (.object object)
        (site.reportedName (state.realm place).config.members) arguments
        (.ok (callee, site.thisFor (.object object))) state := by
  have hread : Dispatch.resolve place site (.object object) state =
      .ended (.ok (.function callee)) state := by
    rw [Dispatch.resolve_of_memberName hnamed]
    simp [Dispatch.getMember, Realm.holder?, Member.read, Heap.lookup_of_own?_eq_some hown,
      Property.method]
  rw [Dispatch.invoke_eq_find, Dispatch.find, Run.bind_of_ok hread]
  rfl

theorem read_of_getter {object : ObjectId} {name : String} {getter : FunctionId}
    (hown : state.heap.own? object name = some (.ofGetter getter)) (receiver : Value) :
    Member.read object name receiver state = Run.call getter receiver [] state := by
  simp [Member.read, Heap.lookup_of_own?_eq_some hown, Property.ofGetter]

/-- What is done with the outcome of the call that a method of a map is carried out by. -/
def respond (outcome : Except Fault Value) (later : State) : Progress Answer :=
  .ended (outcome.map .value) later

theorem onward_value : (Run.onward fun value ↦ pure (Answer.value value)) = respond := by
  funext outcome later
  cases outcome <;> rfl

/-- An operation makes the one call of a function that carries out a method, perhaps after an event
has reported the dispatch. -/
inductive Handle.Calls (map : Handle) (state : State) (method : Method) (arguments : List Value) :
    Progress Answer → Prop where
  | quiet (this : Value) :
    Calls map state method arguments
      (.calling ⟨map.function method, this, arguments, .plain⟩ state respond)
  | reported (this : Value) (event : Event) :
    Calls map state method arguments
      (.calling ⟨map.function method, this, arguments, .plain⟩ (state.record (.emitted event))
        respond)

/-- A dispatch that has found the function of a method calls it or refuses the arguments, which are
then too few. -/
theorem conclude_cases (config : Config) (receiver this : Value) (member : String)
    (hformals : state.heap.formals (map.function method) = method.formals)
    (hfew : arguments.length ≤ method.formals.length) :
    map.Calls state method arguments
        ((Dispatch.conclude config receiver member arguments
          (.ok (map.function method, this)) state).andThen respond) ∨
      arguments.length < method.formals.length ∧ ∃ fault,
        (Dispatch.conclude config receiver member arguments (.ok (map.function method, this))
          state).andThen respond = .ended (.error fault) state := by
  simp only [Dispatch.conclude, hformals]
  split
  · refine .inl ?_
    rw [Progress.andThen_calling]
    split
    · exact .reported this _
    · exact .quiet this
  · rename_i hrefused
    refine .inr ⟨Nat.lt_of_le_of_ne hfew fun heq ↦ hrefused ?_, _, rfl⟩
    -- all formals are filled
    rw [heq, acceptsCount, List.drop_length]
    simp [requiredCount, List.countP_le_length]

/-- A call site that names a method which the map still owns dispatches to its function. -/
theorem invoke_cases {site : CallSite}
    (hformals : state.heap.formals (map.function method) = method.formals)
    (hnamed : site.memberName? (state.realm place).config.members = some method.name)
    (hown : state.heap.own? map.object method.name = some (.method (map.function method)))
    (hfew : arguments.length ≤ method.formals.length) :
    map.Calls state method arguments
        ((Answer.value <$> Dispatch.invoke place (.object map.object) site arguments) state) ∨
      arguments.length < method.formals.length ∧ ∃ fault,
        (Answer.value <$> Dispatch.invoke place (.object map.object) site arguments) state =
          .ended (.error fault) state := by
  rw [Run.map_apply, onward_value, invoke_of_own hnamed hown]
  exact conclude_cases _ _ _ _ hformals hfew

/-- A body that asks for a method gets to the call of its function, unless arguments are missing. -/
theorem Handle.Asks.execute_cases (h : map.Asks state place method arguments operation operands)
    (hknown : operands.all state.heap.knows = true)
    (hformals : state.heap.formals (map.function method) = method.formals) :
    map.Calls state method arguments (operation.execute place operands state) ∨
      arguments.length < method.formals.length ∧
        ∃ fault, operation.execute place operands state = .ended (.error fault) state := by
  rw [Operation.execute_of_known hknown]
  cases h with
  | function method this arguments =>
    refine .inl ?_
    show map.Calls state method arguments
      ((Run.call (map.function method) this arguments state).andThen
        (Run.onward fun value ↦ pure (.value value)))
    rw [onward_value]
    exact .quiet this
  | dynamicCall arguments own few => exact invoke_cases hformals rfl own few
  | indexGet key named own =>
    exact invoke_cases hformals (congrArg some named) own (by simp [Method.formals])
  | indexSet key value named own =>
    exact invoke_cases hformals (congrArg some named) own (by simp [Method.formals])
  | dynamicGet own =>
    refine .inl ?_
    show map.Calls state .length []
      ((Dispatch.dynamicGet place (.object map.object) Method.length.name state).andThen
        (Run.onward fun value ↦ pure (.value value)))
    have hget : Dispatch.dynamicGet place (.object map.object) Method.length.name state =
        Member.read map.object Method.length.name (.object map.object) state := by
      simp [Dispatch.dynamicGet, Dispatch.hasMember, Dispatch.getMember, Realm.holder?, Heap.has,
        Heap.lookup_of_own?_eq_some own]
    rw [onward_value, hget, read_of_getter own]
    exact .quiet (.object map.object)
  | read own =>
    refine .inl ?_
    show map.Calls state .length []
      ((Member.read map.object Method.length.name (.object map.object) state).andThen
        (Run.onward fun value ↦ pure (.value value)))
    rw [onward_value, read_of_getter own]
    exact .quiet (.object map.object)

end Asking

end LinkedMap

end GradualRuntime
