import GradualRuntime.Toml.Grammar
import Mathlib.Data.List.Nodup

/-!
# The keys of TOML tables

In TOML no table has a key twice, at any depth. That is all that is asked of a parser here
(`Toml.Parser.DistinctKeys`): looking a key up in such a table is the same as finding its entry
(`Toml.Entries.find?_eq_some_iff`).

The parser `Toml.read?` meets this (`Toml.distinctKeys_read?`). A key comes into a table only where
a statement finds it absent, and every other change replaces the value of a key that is there, so
each statement keeps the keys of all tables apart (`Toml.Keeps`), and so do the statements of a
whole document, one after another. The values that they assign are read by a grammar whose only
tables are those between braces, which are put together in the same way (`Toml.value_yields`).
-/

set_option autoImplicit false

namespace GradualRuntime.Toml

/-- The keys of a table, in the order of their entries. -/
def Entries.keys (entries : Entries) : List String := List.map Prod.fst entries

/-- No table within a value has a key twice. -/
inductive Value.DistinctKeys : Value → Prop where
  | string (text : String) : DistinctKeys (.string text)
  | integer (number : Int) : DistinctKeys (.integer number)
  | float (literal : String) : DistinctKeys (.float literal)
  | boolean (truth : Bool) : DistinctKeys (.boolean truth)
  | dateTime (literal : String) : DistinctKeys (.dateTime literal)
  | array {items : List Value} (each : ∀ item ∈ items, DistinctKeys item) :
    DistinctKeys (.array items)
  | table {origin : Origin} {entries : Entries} (keys : entries.keys.Nodup)
    (each : ∀ entry ∈ entries, DistinctKeys entry.2) : DistinctKeys (.table origin entries)
  | tables {items : List Entries} (keys : ∀ entries ∈ items, entries.keys.Nodup)
    (each : ∀ entries ∈ items, ∀ entry ∈ entries, DistinctKeys entry.2) :
    DistinctKeys (.tables items)

/-- Neither a table nor any table within it has a key twice. -/
structure Entries.DistinctKeys (entries : Entries) : Prop where
  keys : entries.keys.Nodup
  values : ∀ entry ∈ entries, entry.2.DistinctKeys

/-- A parser that gives no table with a key twice: a document that defines a key more than once is
not well formed. -/
def Parser.DistinctKeys (parser : Parser) : Prop :=
  ∀ {document : String} {entries : Entries}, parser document = some entries → entries.DistinctKeys

/-- A change of tables that brings no key in twice. -/
def Keeps (change : Entries → Option Entries) : Prop :=
  ∀ {before after : Entries}, change before = some after →
    before.DistinctKeys → after.DistinctKeys

variable {origin making : Origin} {entries before after : Entries} {key : String} {found : Value}
  {path : List String}

section Tables

theorem Value.distinctKeys_table_iff :
    (Value.table origin entries).DistinctKeys ↔ entries.DistinctKeys := by
  constructor
  · rintro (_ | _ | _ | _ | _ | _ | ⟨keys, each⟩ | _)
    exact ⟨keys, each⟩
  · intro h
    exact .table h.keys h.values

theorem Value.distinctKeys_tables_iff {items : List Entries} :
    (Value.tables items).DistinctKeys ↔ ∀ entries ∈ items, entries.DistinctKeys := by
  constructor
  · rintro (_ | _ | _ | _ | _ | _ | _ | ⟨keys, each⟩) entries hmem
    exact ⟨keys entries hmem, each entries hmem⟩
  · intro h
    exact .tables (fun entries hmem ↦ (h entries hmem).keys) fun entries hmem ↦
      (h entries hmem).values

namespace Entries

@[simp] theorem find?_cons (entry : String × Value) (rest : Entries) (key : String) :
    find? (entry :: rest) key = if entry.1 = key then some entry.2 else rest.find? key := by
  by_cases h : entry.1 = key <;> simp [find?, h]

theorem mem_keys_iff : key ∈ entries.keys ↔ ∃ value, (key, value) ∈ entries := by
  simp [keys]

theorem find?_eq_none_iff : entries.find? key = none ↔ key ∉ entries.keys := by
  rw [find?, Option.map_eq_none_iff, List.find?_eq_none, mem_keys_iff]
  constructor
  · rintro h ⟨value, hmem⟩
    exact h (key, value) hmem (decide_eq_true rfl)
  · rintro h ⟨other, value⟩ hmem hkey
    exact h ⟨value, of_decide_eq_true hkey ▸ hmem⟩

theorem isSome_find?_iff : (entries.find? key).isSome = true ↔ key ∈ entries.keys := by
  rw [← not_iff_not, ← find?_eq_none_iff, Option.not_isSome_iff_eq_none]

theorem mem_of_find? (h : entries.find? key = some found) : (key, found) ∈ entries := by
  obtain ⟨⟨other, value⟩, hfound, rfl⟩ := Option.map_eq_some_iff.1 h
  obtain rfl : other = key := by simpa using List.find?_some hfound
  exact List.mem_of_find?_eq_some hfound

/-- In a table in which no key comes twice, looking a key up finds its entry. -/
theorem find?_eq_some_iff (hkeys : entries.keys.Nodup) :
    entries.find? key = some found ↔ (key, found) ∈ entries := by
  refine ⟨mem_of_find?, fun hmem ↦ ?_⟩
  cases hother : entries.find? key with
  | none => exact absurd (mem_keys_iff.2 ⟨found, hmem⟩) (find?_eq_none_iff.1 hother)
  | some other =>
    have hsame : (key, other) = (key, found) :=
      List.inj_on_of_nodup_map hkeys (mem_of_find? hother) hmem rfl
    rw [(Prod.mk.inj hsame).2]

theorem keys_replace (entries : Entries) (key : String) (value : Value) :
    (entries.replace key value).keys = entries.keys := by
  rw [keys, replace, List.map_map]
  refine List.map_congr_left fun entry _ ↦ ?_
  by_cases h : entry.1 = key <;> simp [h]

namespace DistinctKeys

theorem nil : DistinctKeys [] := ⟨List.nodup_nil, nofun⟩

theorem of_find? (h : entries.DistinctKeys) (hfound : entries.find? key = some found) :
    found.DistinctKeys :=
  h.values _ (mem_of_find? hfound)

/-- A key that was absent is added at the end. -/
theorem append (h : entries.DistinctKeys) (habsent : entries.find? key = none)
    (hvalue : found.DistinctKeys) : DistinctKeys (entries ++ [(key, found)]) where
  keys := by
    have hkeys : Entries.keys (entries ++ [(key, found)]) = entries.keys ++ [key] := by
      simp [Entries.keys]
    rw [hkeys, List.nodup_append_comm, List.singleton_append, List.nodup_cons]
    exact ⟨find?_eq_none_iff.1 habsent, h.keys⟩
  values := List.forall_mem_append.2 ⟨h.values, List.forall_mem_singleton.2 hvalue⟩

theorem replace (h : entries.DistinctKeys) (hvalue : found.DistinctKeys) :
    (entries.replace key found).DistinctKeys where
  keys := by
    rw [keys_replace]
    exact h.keys
  values := by
    intro entry hentry
    obtain ⟨old, hold, rfl⟩ := List.mem_map.1 hentry
    by_cases hkey : old.1 = key
    · rw [if_pos hkey]
      exact hvalue
    · rw [if_neg hkey]
      exact h.values old hold

end DistinctKeys

end Entries

end Tables

section Statements

/-- A property that a change keeps still holds of all elements once the last has been changed. -/
theorem forall_mem_of_changeLast {α : Type} {property : α → Prop} {change : α → Option α}
    (hchange : ∀ {first last}, change first = some last → property first → property last)
    {items changed : List α} (h : changeLast change items = some changed)
    (hitems : ∀ item ∈ items, property item) : ∀ item ∈ changed, property item := by
  induction items generalizing changed with
  | nil => cases h
  | cons first rest ih =>
    obtain ⟨hfirst, hrest⟩ := List.forall_mem_cons.1 hitems
    cases rest with
    | nil =>
      obtain ⟨last, hlast, rfl⟩ := Option.map_eq_some_iff.1 h
      exact List.forall_mem_singleton.2 (hchange hlast hfirst)
    | cons second rest =>
      obtain ⟨others, hothers, rfl⟩ := Option.map_eq_some_iff.1 h
      exact List.forall_mem_cons.2 ⟨hfirst, ih hothers hrest⟩

theorem keeps_addKey (key : String) (hvalue : found.DistinctKeys) : Keeps (addKey key found) := by
  intro before after h hbefore
  rw [addKey] at h
  split at h
  · cases h
  · cases h
    exact hbefore.append ‹_› hvalue

theorem keeps_defineTable (key : String) : Keeps (defineTable key) := by
  intro before after h hbefore
  rw [defineTable] at h
  split at h
  · cases h
    exact hbefore.append ‹_› (Value.distinctKeys_table_iff.2 .nil)
  · next children hfound =>
    cases h
    have hchildren := Value.distinctKeys_table_iff.1 (hbefore.of_find? hfound)
    exact hbefore.replace (Value.distinctKeys_table_iff.2 hchildren)
  · cases h

theorem keeps_addTable (key : String) : Keeps (addTable key) := by
  intro before after h hbefore
  rw [addTable] at h
  split at h
  · cases h
    refine hbefore.append ‹_› (Value.distinctKeys_tables_iff.2 ?_)
    exact List.forall_mem_singleton.2 .nil
  · next items hfound =>
    cases h
    refine hbefore.replace (Value.distinctKeys_tables_iff.2 (List.forall_mem_append.2 ⟨?_, ?_⟩))
    · exact Value.distinctKeys_tables_iff.1 (hbefore.of_find? hfound)
    · exact List.forall_mem_singleton.2 .nil
  · cases h

/-- The tables on the way to a change are made or replaced, each under its own key. -/
theorem keeps_descend {change : Origin → Entries → Option Entries}
    (hchange : ∀ reached, Keeps (change reached)) (path : List String) (origin : Origin) :
    Keeps (descend making change path origin) := by
  induction path generalizing origin with
  | nil => exact hchange origin
  | cons key path ih =>
    intro before after h hbefore
    rw [descend] at h
    split at h
    · next hnone =>
      obtain ⟨made, hmade, hafter⟩ := Option.bind_eq_some_iff.1 h
      cases hafter
      exact hbefore.append hnone (Value.distinctKeys_table_iff.2 (ih making hmade .nil))
    · next reached children hfound =>
      split at h
      · cases h
      · obtain ⟨changed, hchanged, hafter⟩ := Option.bind_eq_some_iff.1 h
        cases hafter
        have hchildren := Value.distinctKeys_table_iff.1 (hbefore.of_find? hfound)
        exact hbefore.replace (Value.distinctKeys_table_iff.2 (ih reached hchanged hchildren))
    · next items hfound =>
      obtain ⟨changed, hchanged, hafter⟩ := Option.bind_eq_some_iff.1 h
      cases hafter
      have hitems := Value.distinctKeys_tables_iff.1 (hbefore.of_find? hfound)
      exact hbefore.replace (Value.distinctKeys_tables_iff.2
        (forall_mem_of_changeLast (ih .header) hchanged hitems))
    · cases h

theorem keeps_assign (path : List String) (origin : Origin) (hvalue : found.DistinctKeys) :
    Keeps (assign path found origin) := by
  intro before after h hbefore
  rw [assign] at h
  split at h
  · cases h
  · refine keeps_descend (fun reached ↦ ?_) _ origin h hbefore
    intro first last hlast hfirst
    split at hlast
    · cases hlast
    · exact keeps_addKey _ hvalue hlast hfirst

theorem keeps_atHeader {change : String → Entries → Option Entries}
    (hchange : ∀ key, Keeps (change key)) (path : List String) : Keeps (atHeader path change) := by
  intro before after h hbefore
  rw [atHeader] at h
  split at h
  · cases h
  · exact keeps_descend (fun _ ↦ hchange _) _ .header h hbefore

/-- A statement assigns no value in which a table has a key twice. -/
def Statement.DistinctKeys : Statement → Prop
  | .assign _ value => value.DistinctKeys
  | .header _ => True
  | .arrayHeader _ => True

/-- The run of a whole document, statement by statement. Headers move the table in which later
assignments start, so the induction is for all of these. -/
theorem keeps_assemble {statements : List Statement}
    (hstatements : ∀ statement ∈ statements, statement.DistinctKeys) (current : List String) :
    Keeps (assemble statements current) := by
  induction statements generalizing current with
  | nil =>
    intro before after h hbefore
    cases h
    exact hbefore
  | cons statement rest ih =>
    obtain ⟨hstatement, hrest⟩ := List.forall_mem_cons.1 hstatements
    intro before after h hbefore
    cases statement with
    | assign path value =>
      obtain ⟨next, hnext, hafter⟩ := Option.bind_eq_some_iff.1 h
      have hassign : ∀ reached, Keeps (assign path value reached) := fun reached ↦
        keeps_assign path reached hstatement
      exact ih hrest current hafter (keeps_descend hassign current .header hnext hbefore)
    | header path =>
      obtain ⟨next, hnext, hafter⟩ := Option.bind_eq_some_iff.1 h
      exact ih hrest path hafter (keeps_atHeader keeps_defineTable path hnext hbefore)
    | arrayHeader path =>
      obtain ⟨next, hnext, hafter⟩ := Option.bind_eq_some_iff.1 h
      exact ih hrest path hafter (keeps_atHeader keeps_addTable path hnext hbefore)

/-- The assignments between braces, one after another. -/
theorem keeps_inlineAssignments {assignments : List (List String × Value)}
    (hassignments : ∀ assignment ∈ assignments, assignment.2.DistinctKeys) :
    Keeps fun entries ↦ assignments.foldlM
      (fun entries assignment ↦ assign assignment.1 assignment.2 .inline entries) entries := by
  induction assignments with
  | nil =>
    intro before after h hbefore
    cases h
    exact hbefore
  | cons assignment rest ih =>
    obtain ⟨hassignment, hrest⟩ := List.forall_mem_cons.1 hassignments
    intro before after h hbefore
    obtain ⟨next, hnext, hafter⟩ := Option.bind_eq_some_iff.1 h
    exact ih hrest hafter (keeps_assign _ .inline hassignment hnext hbefore)

theorem distinctKeys_of_inlineTable {assignments : List (List String × Value)}
    (h : inlineTable assignments = some found)
    (hassignments : ∀ assignment ∈ assignments, assignment.2.DistinctKeys) :
    found.DistinctKeys := by
  obtain ⟨entries, hentries, rfl⟩ := Option.map_eq_some_iff.1 h
  exact Value.distinctKeys_table_iff.2 (keeps_inlineAssignments hassignments hentries .nil)

end Statements

section Readers

/-- Whatever a reader reads has a property. -/
def Reader.Yields {α : Type} (reader : Reader α) (property : α → Prop) : Prop :=
  ∀ {text rest : List Char} {read : α}, reader text = some (read, rest) → property read

theorem dateTime_yields : Reader.Yields dateTime Value.DistinctKeys := by
  intro text rest read h
  simp only [dateTime] at h
  split at h
  all_goals
    obtain ⟨afterTime, -, h⟩ := Option.bind_eq_some_iff.1 h
    cases h
    exact .dateTime _

theorem float_yields : Reader.Yields float Value.DistinctKeys := by
  intro text rest read h
  simp only [float] at h
  split at h
  · cases h
    exact .float _
  · cases h
    exact .float _
  · simp only [Option.bind_eq_bind, Option.bind_eq_some_iff, Prod.exists] at h
    obtain ⟨whole, afterWhole, -, places, afterPlaces, -, power, afterPower, -, h⟩ := h
    split at h
    · cases h
    · split at h
      · cases h
      · cases h
        exact .float _

theorem distinctKeys_of_bounded {value : Int} {text rest : List Char} {read : Value}
    (h : bounded value text = some (read, rest)) : read.DistinctKeys := by
  rw [bounded] at h
  split at h
  · cases h
    exact .integer value
  · cases h

theorem integer_yields : Reader.Yields integer Value.DistinctKeys := by
  intro text rest read h
  rw [integer.eq_def] at h
  split at h
  all_goals
    obtain ⟨⟨shown, afterDigits⟩, -, h⟩ := Option.bind_eq_some_iff.1 h
    exact distinctKeys_of_bounded h

/-- Numbers and dates contain no tables. -/
theorem number_yields : Reader.Yields number Value.DistinctKeys := by
  intro text rest read h
  simp only [number, Option.orElse_eq_orElse, Option.orElse_eq_or, Option.or_eq_some_iff] at h
  rcases h with h | ⟨-, h | ⟨-, h⟩⟩
  · exact dateTime_yields h
  · exact float_yields h
  · exact integer_yields h

variable {item : Reader Value}

theorem arrayItems_yields (hitem : item.Yields Value.DistinctKeys) (bound : Nat) :
    (arrayItems item bound).Yields fun items ↦ ∀ value ∈ items, value.DistinctKeys := by
  induction bound with
  | zero => exact nofun
  | succ bound ih =>
    intro text rest items h
    obtain ⟨start, -, h⟩ := Option.bind_eq_some_iff.1 h
    split at h
    · cases h
      exact nofun
    · obtain ⟨⟨value, afterValue⟩, hvalue, h⟩ := Option.bind_eq_some_iff.1 h
      obtain ⟨next, -, h⟩ := Option.bind_eq_some_iff.1 h
      split at h
      · obtain ⟨⟨values, afterValues⟩, hvalues, h⟩ := Option.bind_eq_some_iff.1 h
        cases h
        exact List.forall_mem_cons.2 ⟨hitem hvalue, ih hvalues⟩
      · cases h
        exact List.forall_mem_singleton.2 (hitem hvalue)
      · cases h

theorem assignment_yields (hitem : item.Yields Value.DistinctKeys) :
    Reader.Yields (assignment item) fun entry ↦ entry.2.DistinctKeys := by
  intro text rest entry h
  obtain ⟨⟨path, afterKey⟩, -, h⟩ := Option.bind_eq_some_iff.1 h
  obtain ⟨start, -, h⟩ := Option.bind_eq_some_iff.1 h
  obtain ⟨⟨value, afterValue⟩, hvalue, h⟩ := Option.bind_eq_some_iff.1 h
  cases h
  exact hitem hvalue

theorem inlineAssignments_yields (hitem : item.Yields Value.DistinctKeys) (bound : Nat) :
    (inlineAssignments item bound).Yields fun entries ↦
      ∀ entry ∈ entries, entry.2.DistinctKeys := by
  induction bound with
  | zero => exact nofun
  | succ bound ih =>
    intro text rest items h
    obtain ⟨⟨entry, afterEntry⟩, hentry, h⟩ := Option.bind_eq_some_iff.1 h
    dsimp only at h
    split at h
    · obtain ⟨⟨entries, afterEntries⟩, hentries, h⟩ := Option.bind_eq_some_iff.1 h
      cases h
      exact List.forall_mem_cons.2 ⟨assignment_yields hitem hentry, ih hentries⟩
    · cases h
      exact List.forall_mem_singleton.2 (assignment_yields hitem hentry)
    · cases h

/-- A value that has been read, when those that it contains have been. -/
theorem value_yields_of_inner {depth : Nat}
    (hinner : ∀ inner, depth = inner + 1 → (value inner).Yields Value.DistinctKeys) :
    (value depth).Yields Value.DistinctKeys := by
  intro text rest read h
  rw [value.eq_def] at h
  dsimp only at h
  split at h
  · cases depth with
    | zero => cases h
    | succ inner =>
      obtain ⟨⟨items, afterItems⟩, hitems, h⟩ := Option.bind_eq_some_iff.1 h
      cases h
      exact .array (arrayItems_yields (hinner inner rfl) _ hitems)
  · cases depth with
    | zero => cases h
    | succ inner =>
      dsimp only at h
      split at h
      · cases h
        exact Value.distinctKeys_table_iff.2 .nil
      · simp only [Option.bind_eq_bind, Option.bind_eq_some_iff, Prod.exists] at h
        obtain ⟨entries, afterTable, hentries, made, hmade, h⟩ := h
        cases h
        exact distinctKeys_of_inlineTable hmade
          (inlineAssignments_yields (hinner inner rfl) _ hentries)
  · cases h
    exact .boolean true
  · cases h
    exact .boolean false
  · obtain ⟨⟨content, afterString⟩, -, h⟩ := Option.map_eq_some_iff.1 h
    cases h
    exact .string content
  · obtain ⟨⟨content, afterString⟩, -, h⟩ := Option.map_eq_some_iff.1 h
    cases h
    exact .string content
  · exact number_yields h

/-- A value that has been read, by induction on how deep values may nest. -/
theorem value_yields (depth : Nat) : (value depth).Yields Value.DistinctKeys := by
  induction depth with
  | zero =>
    refine value_yields_of_inner fun inner hinner ↦ ?_
    cases hinner
  | succ depth ih =>
    refine value_yields_of_inner fun inner hinner ↦ ?_
    cases hinner
    exact ih

theorem distinctKeys_of_statements {bound : Nat} {text : List Char} {read : List Statement}
    (h : statements bound text = some read) : ∀ statement ∈ read, statement.DistinctKeys := by
  induction bound generalizing text read with
  | zero =>
    rw [statements] at h
    split at h
    · cases h
      exact nofun
    · cases h
  | succ bound ih =>
    rw [statements] at h
    split at h
    · cases h
      exact nofun
    · exact ih h
    · exact ih h
    · obtain ⟨next, -, h⟩ := Option.bind_eq_some_iff.1 h
      exact ih h
    · simp only [Option.bind_eq_bind, Option.bind_eq_some_iff, Prod.exists] at h
      obtain ⟨path, afterKey, -, afterBracket, -, start, -, next, -, others, hothers, h⟩ := h
      cases h
      exact List.forall_mem_cons.2 ⟨trivial, ih hothers⟩
    · simp only [Option.bind_eq_bind, Option.bind_eq_some_iff, Prod.exists] at h
      obtain ⟨path, afterKey, -, start, -, next, -, others, hothers, h⟩ := h
      cases h
      exact List.forall_mem_cons.2 ⟨trivial, ih hothers⟩
    · simp only [Option.bind_eq_bind, Option.bind_eq_some_iff, Prod.exists] at h
      obtain ⟨path, assigned, afterValue, hassigned, next, -, others, hothers, h⟩ := h
      cases h
      have hvalue : assigned.DistinctKeys :=
        assignment_yields (value_yields nestingLimit) hassigned
      exact List.forall_mem_cons.2 ⟨hvalue, ih hothers⟩

/-- No table of a document that is read has a key twice. -/
theorem distinctKeys_read? : Parser.DistinctKeys read? := by
  intro document entries h
  obtain ⟨read, hread, hentries⟩ := Option.bind_eq_some_iff.1 h
  exact keeps_assemble (distinctKeys_of_statements hread) [] hentries .nil

end Readers

end GradualRuntime.Toml
