import GradualRuntime.Proofs.MapRefinement
import GradualRuntime.Proofs.MemberRead
import GradualRuntime.Proofs.NameGrowth

/-!
# Linked maps over objects

The linked map over an object reads the names that the object owns at first, one after another
(`ReadsInOrder`), and files each value under its name. Each read may call a function, which may do
anything to the object, so a later name is read as the object is then. Names are never removed from
an object (`Ledger.Transitions.namesGrow`), hence each name is still there when its turn comes
(`ReadsInOrder.exists_own`) and the map has an entry for each (`entries_tableOf_reverse`).

`objectMap` collects what holds of such a map. The read of a name with a lazy binding leaves the
value in the slot. The slot keeps it unless a function replaces it that is called for a later name
(`Replaces`); a program in which this happens is `Rebinding`.
-/

set_option autoImplicit false

namespace GradualRuntime

section Entries

/-- An entry under a new key comes last. -/
theorem OrderedMap.entries_insert_of_notMem {κ ν : Type} [DecidableEq κ] {map : OrderedMap κ ν}
    {key : κ} (h : key ∉ map.keys) (value : ν) :
    (map.insert key value).entries = map.entries ++ [(key, value)] := by
  obtain ⟨entries, hnodup⟩ := map
  show insertEntry key value entries = entries ++ [(key, value)]
  replace h : key ∉ entries.map Prod.fst := h
  clear hnodup
  induction entries with
  | nil => rfl
  | cons entry rest ih =>
    simp only [List.map_cons, List.mem_cons, not_or] at h
    simp only [insertEntry, Ne.symm h.1, if_false, ih h.2, List.cons_append]

namespace LinkedMap

/-- A table to which each key has been written once has its entries in the order of writing. -/
theorem entries_tableOf_reverse {entries : History}
    (h : (entries.map fun entry ↦ entry.1.identityKey).Nodup) :
    (tableOf entries.reverse).entries = entries.map fun entry ↦ (entry.1.identityKey, entry) := by
  induction entries using List.reverseRecOn with
  | nil => rfl
  | append_singleton entries last ih =>
    rw [List.map_append, List.map_singleton, List.nodup_append] at h
    obtain ⟨hentries, -, hnew⟩ := h
    have hsplit : tableOf (entries ++ [last]).reverse =
        (tableOf entries.reverse).insert last.1.identityKey last := by
      rw [List.reverse_append]
      rfl
    have habsent : last.1.identityKey ∉ (tableOf entries.reverse).keys := by
      rw [OrderedMap.keys, ih hentries, List.map_map]
      exact fun hmem ↦ hnew _ hmem _ (List.mem_singleton_self _) rfl
    rw [hsplit, OrderedMap.entries_insert_of_notMem habsent, ih hentries, List.map_append,
      List.map_singleton]

/-- Names with values, as they are filed in a map. -/
def named (names : List String) (values : List Value) : History :=
  List.zipWith (fun name value ↦ (Value.string name, value)) names values

/-- Different names are different keys. -/
theorem nodup_keys_named {names : List String} (h : names.Nodup) (values : List Value) :
    ((named names values).map fun entry ↦ entry.1.identityKey).Nodup := by
  have hkeys : (named names values).map (fun entry ↦ entry.1.identityKey) =
      (names.take values.length).map IdentityKey.string := by
    induction names generalizing values with
    | nil => simp [named]
    | cons name rest ih =>
      cases values with
      | nil => rfl
      | cons value values =>
        exact congrArg (IdentityKey.string name :: ·) (ih (List.nodup_cons.1 h).2 values)
  rw [hkeys]
  exact (h.sublist (List.take_sublist _ _)).map fun _ _ ↦ IdentityKey.string.inj

end LinkedMap

end Entries

namespace LinkedMap

/-- Some names of an object are read, one after another: each read starts from the state that the
one before has left, and gives a value. -/
inductive ReadsInOrder (source : ObjectId) : List String → State → List Value → State → Prop where
  | nil (state : State) : ReadsInOrder source [] state [] state
  | cons {name : String} {names : List String} {before middle after : State} {value : Value}
    {values : List Value} (read : (Member.get source name before).EndsWith (.ok value) middle)
    (rest : ReadsInOrder source names middle values after) :
    ReadsInOrder source (name :: names) before (value :: values) after

section Reading

variable {source : ObjectId} {names : List String} {history : History} {before after : State}
  {values : List Value}

theorem ReadsInOrder.length_eq (h : ReadsInOrder source names before values after) :
    values.length = names.length := by
  induction h with
  | nil => rfl
  | cons _ _ ih => rw [List.length_cons, List.length_cons, ih]

theorem endsWith_readProperties_ok_iff {table : LinkedTable} :
    (readProperties source names (tableOf history) before).EndsWith (.ok table) after ↔
      ∃ values, ReadsInOrder source names before values after ∧
        table = tableOf ((named names values).reverse ++ history) := by
  induction names generalizing history before with
  | nil =>
    rw [readProperties, Run.pure_apply, Progress.endsWith_ended_iff]
    constructor
    · rintro ⟨htable, rfl⟩
      cases htable
      exact ⟨[], .nil after, rfl⟩
    · rintro ⟨values, hreads, rfl⟩
      cases hreads
      exact ⟨rfl, rfl⟩
  | cons name rest ih =>
    have hnext : ∀ value, tableOf ((named [name] [value]).reverse ++ history) =
        (tableOf history).insert (Value.string name).identityKey (Value.string name, value) :=
      fun _ ↦ rfl
    have hnamed : ∀ value values, (named (name :: rest) (value :: values)).reverse ++ history =
        (named rest values).reverse ++ ((named [name] [value]).reverse ++ history) := by
      intro value values
      simp [named]
    rw [readProperties, Run.bind_apply, Progress.endsWith_andThen_iff]
    constructor
    · rintro ⟨outcome, middle, hread, hrest⟩
      cases outcome with
      | error fault => cases (Progress.endsWith_ended_iff.1 hrest).1
      | ok value =>
        rw [Run.onward_ok, ← hnext, ih] at hrest
        obtain ⟨values, hreads, rfl⟩ := hrest
        exact ⟨value :: values, .cons hread hreads, by rw [hnamed]⟩
    · rintro ⟨values, hreads, rfl⟩
      cases hreads with
      | @cons _ _ _ middle _ value values hread hrest =>
        refine ⟨.ok value, middle, hread, ?_⟩
        rw [Run.onward_ok, ← hnext, ih]
        exact ⟨values, hrest, by rw [hnamed]⟩

theorem endsWith_readProperties_error_iff {fault : Fault} {table : LinkedTable} :
    (readProperties source names table before).EndsWith (.error fault) after ↔
      ∃ read name rest values turn, names = read ++ name :: rest ∧
        ReadsInOrder source read before values turn ∧
        (Member.get source name turn).EndsWith (.error fault) after := by
  induction names generalizing table before with
  | nil =>
    rw [readProperties, Run.pure_apply, Progress.endsWith_ended_iff]
    simp
  | cons name rest ih =>
    rw [readProperties, Run.bind_apply, Progress.endsWith_andThen_iff]
    constructor
    · rintro ⟨outcome, middle, hread, hrest⟩
      cases outcome with
      | error raised =>
        obtain ⟨hfault, rfl⟩ := Progress.endsWith_ended_iff.1 hrest
        cases hfault
        exact ⟨[], name, rest, [], before, rfl, .nil before, hread⟩
      | ok value =>
        obtain ⟨read, other, later, values, turn, rfl, hreads, hfails⟩ := ih.1 hrest
        exact ⟨name :: read, other, later, value :: values, turn, rfl, .cons hread hreads, hfails⟩
    · rintro ⟨read, other, later, values, turn, hsplit, hreads, hfails⟩
      cases hreads with
      | nil =>
        obtain ⟨rfl, rfl⟩ := List.cons.inj hsplit
        exact ⟨.error fault, after, hfails, .ended _ _⟩
      | @cons _ _ _ middle _ value _ hread hreads =>
        obtain ⟨rfl, rfl⟩ := List.cons.inj hsplit
        exact ⟨.ok value, middle, hread, ih.2 ⟨_, _, _, _, _, rfl, hreads, hfails⟩⟩

end Reading

section Turns

variable {source : ObjectId} {names : List String} {name : String} {before turn after : State}
  {values : List Value}

theorem ReadsInOrder.transitions (h : ReadsInOrder source names before values after) :
    Ledger.Transitions ⟨none, [], before⟩ ⟨none, [], after⟩ := by
  induction h with
  | nil => exact .refl
  | @cons name _ before _ _ _ _ read _ ih =>
    exact (read.transitions (careful_memberRead source name _ before).orderly []).trans ih

/-- Names are never removed, so a name that is owned at first is owned when its turn comes. -/
theorem ReadsInOrder.exists_own (h : ReadsInOrder source names before values turn)
    (hname : name ∈ before.heap.ownNames source) :
    ∃ property, turn.heap.own? source name = some property := by
  have hown := h.transitions.namesGrow.hasOwn
    ((before.heap.hasOwn_iff_mem_ownNames source name).2 hname)
  rw [Heap.hasOwn_eq_isSome] at hown
  exact Option.isSome_iff_exists.1 hown

/-- What an object owns it reads from its own slot. -/
theorem reads_get_of_own {property : Property}
    (h : turn.heap.own? source name = some property) :
    Member.Reads (some (source, property)) (.object source) name turn
      (Member.get source name turn) :=
  Heap.lookup_of_own?_eq_some h ▸ Member.reads_read

/-- An own slot with a lazy binding holds the value read afterwards. -/
theorem own?_of_get {cell : CellId} {value : Value}
    (hown : turn.heap.own? source name = some (.binding cell))
    (hread : (Member.get source name turn).EndsWith (.ok value) after) :
    ∃ record, turn.heap.cell? cell = some record ∧
      after.heap.own? source name = some (.data value record.isMutable true) := by
  rw [Member.get, Member.read_of_binding (Heap.lookup_of_own?_eq_some hown)] at hread
  cases hcell : turn.heap.cell? cell with
  | none =>
    rw [LazyBinding.read_of_unknown hcell] at hread
    cases hread
  | some record =>
    exact ⟨record, rfl, LazyBinding.own?_of_read hcell (Heap.exists_of_own?_eq_some hown) hread⟩

/-- A slot that holds a property holds something else after a function has run that one of some
names is read by: a getter of it, or the initializer of its binding. -/
inductive Replaces (source object : ObjectId) (slot : String) (property : Property) :
    List String → State → Prop where
  | here {name : String} {names : List String} {turn asked back : State} {call : Call}
    {resume : Except Fault Value → State → Progress Value} {answer : Except Fault Answer}
    (read : Member.get source name turn = .calling call asked resume)
    (calls : Member.ReadCalls (turn.heap.lookup source name) (.object source) turn call)
    (held : turn.heap.own? object slot = some property)
    (run : (Machine.enter call asked).EndsWith answer back)
    (replaced : back.heap.own? object slot ≠ some property) :
    Replaces source object slot property (name :: names) turn
  | later {name : String} {names : List String} {turn middle : State} {value : Value}
    (read : (Member.get source name turn).EndsWith (.ok value) middle)
    (rest : Replaces source object slot property names middle) :
    Replaces source object slot property (name :: names) turn

/-- Reading other names leaves a slot as it is, unless a function replaces what the slot holds that
is called for one of the reads. -/
theorem ReadsInOrder.own?_eq_or_replaces (h : ReadsInOrder source names before values after)
    {object : ObjectId} {slot : String} {property : Property} (hslot : slot ∉ names)
    (hheld : before.heap.own? object slot = some property) :
    after.heap.own? object slot = some property ∨
      Replaces source object slot property names before := by
  induction h with
  | nil => exact .inl hheld
  | @cons name names before middle _ value _ read rest ih =>
    obtain ⟨hname, hnames⟩ := not_or.1 (mt List.mem_cons.2 hslot)
    have hreads : Member.Reads (before.heap.lookup source name) (.object source) name before
        (Member.get source name before) := Member.reads_read
    by_cases hmiddle : middle.heap.own? object slot = some property
    · exact (ih hnames hmiddle).imp id (.later read)
    · rcases hreads.own?_of_endsWith read object hname with
        hsame | ⟨call, asked, resume, answer, back, hget, hcalls, hrun, hback⟩
      · exact absurd (hsame.trans hheld) hmiddle
      · exact .inr (.here hget hcalls hheld hrun (hback ▸ hmiddle))

end Turns

section Making

variable {source : ObjectId} {names : List String} {before read after : State}
  {values : List Value}

/-- The state after a map has been made of the values read for some names. -/
def gathered (names : List String) (values : List Value) (read : State) : State :=
  read.addMap (tableOf (named names values).reverse)

theorem ofObject_apply :
    ofObject source before =
      (readProperties source (before.heap.ownNames source) (tableOf []) before).andThen
        (Run.onward make) := rfl

theorem endsWith_ofObject_ok_iff {map : ObjectId} :
    (ofObject source before).EndsWith (.ok map) after ↔
      ∃ values read, ReadsInOrder source (before.heap.ownNames source) before values read ∧
        map = read.nextMap.object ∧
          after = gathered (before.heap.ownNames source) values read := by
  rw [ofObject_apply, Progress.endsWith_andThen_iff]
  constructor
  · rintro ⟨outcome, read, hreads, hmake⟩
    cases outcome with
    | error fault => cases (Progress.endsWith_ended_iff.1 hmake).1
    | ok table =>
      obtain ⟨values, horder, rfl⟩ := endsWith_readProperties_ok_iff.1 hreads
      rw [Run.onward_ok, make_apply, List.append_nil] at hmake
      obtain ⟨hmap, rfl⟩ := Progress.endsWith_ended_iff.1 hmake
      exact ⟨values, read, horder, Except.ok.inj hmap, rfl⟩
  · rintro ⟨values, read, hreads, rfl, rfl⟩
    refine ⟨_, read, endsWith_readProperties_ok_iff.2 ⟨values, hreads, rfl⟩, ?_⟩
    rw [Run.onward_ok, make_apply, List.append_nil]
    exact .ended _ _

theorem endsWith_ofObject_error_iff {fault : Fault} :
    (ofObject source before).EndsWith (.error fault) after ↔
      ∃ done name rest values turn, before.heap.ownNames source = done ++ name :: rest ∧
        ReadsInOrder source done before values turn ∧
        (Member.get source name turn).EndsWith (.error fault) after := by
  rw [ofObject_apply, Progress.endsWith_andThen_iff, ← endsWith_readProperties_error_iff]
  constructor
  · rintro ⟨outcome, read, hreads, hmake⟩
    cases outcome with
    | error raised =>
      obtain ⟨hfault, rfl⟩ := Progress.endsWith_ended_iff.1 hmake
      cases hfault
      exact hreads
    | ok table =>
      rw [Run.onward_ok, make_apply] at hmake
      cases (Progress.endsWith_ended_iff.1 hmake).1
  · intro hreads
    exact ⟨_, after, hreads, .ended _ _⟩

end Making

section Main

/-- A map holds the values read for some names, from a state on. -/
structure Gathers (names : List String) (values : List Value) (map : Handle) (after : State) :
    Prop where
  /-- Its entries are the names, in order, each with the value read for it. -/
  entries : values.length = names.length ∧ (after.heap.table map.table).entries =
    List.zipWith (fun name value ↦ (.string name, .string name, value)) names values
  /-- Its length is the number of the names. -/
  length : LinkedMap.length map.table after =
    .ended (.ok (.integer (Int64.ofNat names.length))) after
  /-- At every later moment of every run, its contents are these and what its own function `set` has
  written since. -/
  later : ∀ {bodies start made}, (Session.moment bodies start made).state = after →
    ∀ {later}, made ≤ later →
      map.Serves (map.writes after (Session.moment bodies start later).state ++
        (named names values).reverse) (Session.moment bodies start later).state

/-- The linked map over an object. -/
structure ObjectMap (before : State) (source : ObjectId) : Prop where
  /-- A body that asks for the map is given the object of it, or the failure. -/
  asked : ∀ place, (Operation.map .ofObject).execute place [.object source] before =
    (ofObject source before).andThen fun outcome later ↦
      .ended (outcome.map fun map ↦ .value (.object map)) later
  /-- The names that the object owns at first are read in their order, each from the state that the
  read before has left. The map is made when all have been read. -/
  returns_iff : ∀ {map after}, (ofObject source before).EndsWith (.ok map) after ↔
    ∃ values read, ReadsInOrder source (before.heap.ownNames source) before values read ∧
      map = read.nextMap.object ∧ after = gathered (before.heap.ownNames source) values read
  /-- It fails exactly with the first read that fails, and nothing comes after this. -/
  fails_iff : ∀ {fault after}, (ofObject source before).EndsWith (.error fault) after ↔
    ∃ done name rest values turn, before.heap.ownNames source = done ++ name :: rest ∧
      ReadsInOrder source done before values turn ∧
        (Member.get source name turn).EndsWith (.error fault) after
  /-- No name is read twice. -/
  once : (before.heap.ownNames source).Nodup
  /-- When the turn of a name comes, the object still owns it. The read goes by what the slot holds
  then, and a getter is called on the object. -/
  turn : ∀ {done name rest values turn}, before.heap.ownNames source = done ++ name :: rest →
    ReadsInOrder source done before values turn →
      ∃ property, turn.heap.own? source name = some property ∧
        Member.Reads (some (source, property)) (.object source) name turn
          (Member.get source name turn)
  /-- Whatever getters and initializers do, the map holds what was read, and nothing else. -/
  gathers : ∀ {values read}, ReadsInOrder source (before.heap.ownNames source) before values read →
    Gathers (before.heap.ownNames source) values read.nextMap
      (gathered (before.heap.ownNames source) values read)
  /-- A slot that holds a lazy binding when its turn comes holds the value after its read. It still
  does when the map has been made, unless a function that was called for a later read has replaced
  it. -/
  materialized : ∀ {done name rest values turn cell value kept others read},
    before.heap.ownNames source = done ++ name :: rest →
      ReadsInOrder source done before values turn →
        turn.heap.own? source name = some (.binding cell) →
          (Member.get source name turn).EndsWith (.ok value) kept →
            ReadsInOrder source rest kept others read →
              ∃ record, turn.heap.cell? cell = some record ∧
                kept.heap.own? source name = some (.data value record.isMutable true) ∧
                  ((gathered (before.heap.ownNames source) (values ++ value :: others)
                      read).heap.own? source name = some (.data value record.isMutable true) ∨
                    Replaces source source name (.data value record.isMutable true) rest kept)
  /-- The map is another object, so no change of its slots is one of the slots of the source. -/
  apart : ∀ {values read}, ReadsInOrder source (before.heap.ownNames source) before values read →
    ∀ (heap : Heap) slot property name,
      (heap.define read.nextMap.object slot property).own? source name = heap.own? source name
  /-- The functions of a map change no object. -/
  methods : ∀ {map : Handle} {history state} {method : Method} {call : Call},
    map.Serves history state → call.function = map.function method →
      ∃ outcome, Machine.enter call state = .ended outcome (state.enter call) ∧
        (state.enter call).heap.objects = state.heap.objects

variable {before : State} {source : ObjectId}

theorem own?_gathered {read : State} {object : ObjectId} {name : String} {property : Property}
    (h : read.heap.own? object name = some property) (names : List String) (values : List Value) :
    (gathered names values read).heap.own? object name = some property := by
  have hkept : (gathered names values read).heap.objects.get? object.index =
      read.heap.objects.get? object.index :=
    Arena.get?_push_of_lt (Heap.exists_of_own?_eq_some h) _
  rw [← h, Heap.own?, Heap.slots, hkept, Heap.own?, Heap.slots]

/-- What the map holds that has been made of the values read. -/
theorem gathers_of_reads (hreachable : before.Reachable) {names : List String}
    (hnames : names.Nodup) {values : List Value} {read : State}
    (h : ReadsInOrder source names before values read) :
    Gathers names values read.nextMap (gathered names values read) := by
  have hserves : read.nextMap.Serves (named names values).reverse (gathered names values read) :=
    Handle.serves_addMap (h.transitions.equipped hreachable.equipped)
      (h.transitions.tabled hreachable.tabled) _
  have hlength := h.length_eq
  have hentries : ((gathered names values read).heap.table read.nextMap.table).entries =
      List.zipWith (fun name value ↦ (.string name, .string name, value)) names values := by
    rw [hserves.table_eq, entries_tableOf_reverse (nodup_keys_named hnames values), named,
      List.map_zipWith]
    rfl
  refine ⟨⟨hlength, hentries⟩, ?_, fun {bodies start made} hmade {later} hlater ↦ ?_⟩
  · have hsize : ((gathered names values read).heap.table read.nextMap.table).size =
        names.length := by
      rw [OrderedMap.size, hentries, List.length_zipWith, hlength, Nat.min_self]
    simp [LinkedMap.length, hsize]
  · have hmoves := (Session.transitions_moment bodies start hlater).serves (hmade ▸ hserves)
    exact hmade ▸ hmoves.2

/-- Assumes: a state that a run passes through, and an object of it.

The linked map over the object holds the values of the names that the object owns at first, read one
after another, whatever the functions do that these reads call. -/
theorem objectMap (hreachable : before.Reachable)
    (hsource : source.index < before.heap.objects.size) : ObjectMap before source where
  asked place := by
    rw [Operation.execute_of_known (by simpa [Heap.knows] using hsource)]
    simp only [Operation.carryOut, MapOperation.execute, Run.bind_apply]
    congr 1
    funext outcome later
    cases outcome <;> rfl
  returns_iff := endsWith_ofObject_ok_iff
  fails_iff := endsWith_ofObject_error_iff
  once := before.heap.ownNames_nodup source
  turn {done name rest values turn} hsplit hreads := by
    have hname : name ∈ before.heap.ownNames source := by
      rw [hsplit]
      exact List.mem_append_right done (List.mem_cons_self ..)
    obtain ⟨property, hown⟩ := hreads.exists_own hname
    exact ⟨property, hown, reads_get_of_own hown⟩
  gathers hreads := gathers_of_reads hreachable (before.heap.ownNames_nodup source) hreads
  materialized {done name rest values turn cell value kept others read} hsplit _ hown hread
      hrest := by
    obtain ⟨record, hrecord, hslot⟩ := own?_of_get hown hread
    have hnodup := before.heap.ownNames_nodup source
    rw [hsplit, List.nodup_append] at hnodup
    have hname : name ∉ rest := (List.nodup_cons.1 hnodup.2.1).1
    exact ⟨record, hrecord, hslot,
      (hrest.own?_eq_or_replaces hname hslot).imp (own?_gathered · _ _) id⟩
  apart {values read} hreads heap slot property name := by
    have hlater := hreads.transitions.grows.objects
    refine Heap.own?_define_of_ne heap (fun heq ↦ ?_) slot name property
    rw [heq] at hsource
    exact Nat.lt_irrefl _ (Nat.lt_of_lt_of_le hsource hlater)
  methods hserves hcall := ⟨_, hserves.enter hcall, rfl⟩

/-! A program with an object whose getter binds an earlier name anew. -/

namespace Rebinding

/-- Binds the name `a` of the receiver again, with an initializer that gives two. -/
def getter (initializer : FunctionId) (this : Value) : Body :=
  .perform ⟨0⟩ (.binding (.bind true)) [this, .string "a", .function initializer] fun _ ↦
  .finish (.ok (.value (.integer 7)))

/-- Makes an object with a lazy binding and a getter after it, and a map over this object. -/
def program : Body :=
  .close "one" [] (fun _ _ ↦ .finish (.ok (.value (.integer 1)))) fun one ↦
  .close "two" [] (fun _ _ ↦ .finish (.ok (.value (.integer 2)))) fun two ↦
  .close "again" [] (fun this _ ↦ getter two this) fun again ↦
  .perform ⟨0⟩ (.object (.allocate false none)) [] fun _ ↦
  .perform ⟨0⟩ (.binding (.bind true)) [.object ⟨0⟩, .string "a", .function one] fun _ ↦
  .perform ⟨0⟩ (.object (.define .getter)) [.object ⟨0⟩, .string "b", .function again] fun _ ↦
  .perform ⟨0⟩ (.map .ofObject) [.object ⟨0⟩] .finish

/-- The state in which the map is about to be made. -/
def state : State := (Session.moment [program] (.fresh .standard) 7).state

theorem reachable_state : state.Reachable := ⟨[program], .standard, 7, rfl⟩

theorem ownNames_state : state.heap.ownNames ⟨0⟩ = ["a", "b"] := by decide +kernel

theorem lt_size_state : (⟨0⟩ : ObjectId).index < state.heap.objects.size := by decide +kernel

theorem own?_state : state.heap.own? ⟨0⟩ "a" = some (.binding ⟨0⟩) := by decide +kernel

/-- The first read replaces the binding, and the second one binds the name again. -/
theorem readsInOrder :
    ∃ kept read, (Member.get ⟨0⟩ "a" state).EndsWith (.ok (.integer 1)) kept ∧
      ReadsInOrder ⟨0⟩ ["b"] kept [.integer 7] read ∧
        kept.heap.own? ⟨0⟩ "a" = some (.data (.integer 1) true true) ∧
          read.heap.own? ⟨0⟩ "a" = some (.binding ⟨1⟩) := by
  refine ⟨_, _, .calling (Machine.endsWith_enter rfl (Body.endsWith_finish _ _)) (.ended _ _),
    .cons (.calling (Machine.endsWith_enter rfl (Body.endsWith_perform (.ended _ _)
      (Body.endsWith_finish _ _))) (.ended _ _)) (.nil _), ?_, ?_⟩
  · decide +kernel
  · decide +kernel

end Rebinding

/-- A slot that holds a lazy binding when its turn comes can hold one again when the map has been
made. -/
theorem not_forall_materialized : ¬ ∀ before source, before.Reachable →
    source.index < before.heap.objects.size → ∀ map after,
      (ofObject source before).EndsWith (.ok map) after →
        ∀ done name rest values turn cell, before.heap.ownNames source = done ++ name :: rest →
          ReadsInOrder source done before values turn →
            turn.heap.own? source name = some (.binding cell) →
              ∃ value writable, after.heap.own? source name = some (.data value writable true) := by
  intro hclaim
  obtain ⟨kept, read, hfirst, hrest, -, hagain⟩ := Rebinding.readsInOrder
  have hreads : ReadsInOrder ⟨0⟩ (Rebinding.state.heap.ownNames ⟨0⟩) Rebinding.state
      [.integer 1, .integer 7] read := Rebinding.ownNames_state ▸ .cons hfirst hrest
  have hmap := endsWith_ofObject_ok_iff.2 ⟨_, read, hreads, rfl, rfl⟩
  obtain ⟨value, writable, hdata⟩ := hclaim _ _ Rebinding.reachable_state Rebinding.lt_size_state
    _ _ hmap [] "a" ["b"] [] _ ⟨0⟩ Rebinding.ownNames_state (.nil _) Rebinding.own?_state
  cases (own?_gathered hagain _ _).symm.trans hdata

/-- The map holds the values that were read, and the first slot the value of its read until the
second read binds the name again. -/
theorem objectMap_rebinding :
    Rebinding.state.Reachable ∧ ObjectMap Rebinding.state ⟨0⟩ ∧
      ∃ read, (ofObject ⟨0⟩ Rebinding.state).EndsWith (.ok read.nextMap.object)
          (gathered ["a", "b"] [.integer 1, .integer 7] read) ∧
        Gathers ["a", "b"] [.integer 1, .integer 7] read.nextMap
          (gathered ["a", "b"] [.integer 1, .integer 7] read) ∧
        ∃ kept, (Member.get ⟨0⟩ "a" Rebinding.state).EndsWith (.ok (.integer 1)) kept ∧
          kept.heap.own? ⟨0⟩ "a" = some (.data (.integer 1) true true) ∧
            Replaces ⟨0⟩ ⟨0⟩ "a" (.data (.integer 1) true true) ["b"] kept := by
  obtain ⟨kept, read, hfirst, hrest, hkept, hagain⟩ := Rebinding.readsInOrder
  have hreads : ReadsInOrder ⟨0⟩ (Rebinding.state.heap.ownNames ⟨0⟩) Rebinding.state
      [.integer 1, .integer 7] read := Rebinding.ownNames_state ▸ .cons hfirst hrest
  have hobjectMap := objectMap Rebinding.reachable_state Rebinding.lt_size_state
  obtain ⟨record, -, hslot, hlater⟩ := hobjectMap.materialized Rebinding.ownNames_state (.nil _)
    Rebinding.own?_state hfirst hrest
  have hreplaces := hlater.resolve_left fun hsame ↦ by
    cases (own?_gathered hagain _ _).symm.trans hsame
  rw [hslot] at hkept
  rw [Option.some.inj hkept] at hslot hreplaces
  refine ⟨Rebinding.reachable_state, hobjectMap, read, ?_, ?_, kept, hfirst, hslot, hreplaces⟩
  · rw [← Rebinding.ownNames_state]
    exact hobjectMap.returns_iff.2 ⟨_, read, hreads, rfl, rfl⟩
  · rw [← Rebinding.ownNames_state]
    exact hobjectMap.gathers hreads

end Main

end LinkedMap

end GradualRuntime
