import GradualRuntime.Config.Document
import GradualRuntime.Proofs.TableKeys
import Mathlib.Data.List.Find

/-!
# Configurations that documents describe

A document gives settings under keys, some of them within the table of member names. What it gives
at a path of keys is `Toml.Entries.at?`. `Settings.ofTable?` goes through the entries of the root
table in their order and through those of the member names when it comes to them; since no key comes
twice, the order does not matter and every setting is what is given at its path
(`Settings.eq_replaced_of_foldlM`). When all values have the types of their settings, entries are
only refused for their keys (`Config.isSome_ofTable?_iff`).

`Config.documentConfiguration` says what becomes of such a document, whatever parser has given its
table: an unknown key makes it unreadable, whatever else it gives; otherwise the first text, in the
order of checking, that it gives as empty is reported; otherwise the configuration has what is given
and the default for the rest. No default is empty, so only a text that is given can be reported.
-/

set_option autoImplicit false

namespace GradualRuntime

namespace Toml.Entries

/-- The value at a path of keys, of which each but the last is the key of a table. -/
def at? : Entries → List String → Option Value
  | _, [] => none
  | entries, [key] => entries.find? key
  | entries, key :: path =>
    match entries.find? key with
    | some (.table _ children) => at? children path
    | _ => none

/-- The text at a path of keys. -/
def text? (entries : Entries) (path : List String) : Option String :=
  match entries.at? path with
  | some (.string text) => some text
  | _ => none

/-- The truth value at a path of keys. -/
def truth? (entries : Entries) (path : List String) : Option Bool :=
  match entries.at? path with
  | some (.boolean truth) => some truth
  | _ => none

end Toml.Entries

namespace Config

/-- The texts of the default configuration by the paths of their keys, in the order of checking. -/
def defaultTexts : List (List String × String) :=
  [(["optional_param_prefix"], standard.optionalMark), (["members", "call"], standard.members.call),
    (["members", "index_get"], standard.members.indexGet),
    (["members", "index_set"], standard.members.indexSet),
    (["members", "equality"], standard.members.equality)]

/-- The paths of the texts, in the order of checking. -/
def textPaths : List (List String) := defaultTexts.map Prod.fst

/-- The keys that the root table may have. -/
def rootKeys : List String := ["optional_param_prefix", "members", "trace_dispatch"]

/-- The member names, if there are any, are a table, and every known key has a value of its type. -/
structure WellTyped (entries : Toml.Entries) : Prop where
  texts : ∀ path ∈ textPaths, ∀ value, entries.at? path = some value → ∃ text, value = .string text
  truth : ∀ value, entries.at? ["trace_dispatch"] = some value → ∃ truth, value = .boolean truth
  members : ∀ value, entries.at? ["members"] = some value →
    ∃ origin children, value = .table origin children

/-- The root table or the table of member names has a key that is not declared. -/
def HasUnknownKey (entries : Toml.Entries) : Prop :=
  (∃ key, key ∉ rootKeys ∧ (entries.at? [key]).isSome = true) ∨
    ∃ key, key ∉ Settings.memberKeys ∧ (entries.at? ["members", key]).isSome = true

/-- A path is that of the first text, in the order of checking, that is given as empty. -/
def FirstEmpty (entries : Toml.Entries) (path : List String) : Prop :=
  entries.text? path = some "" ∧ ∃ earlier later, textPaths = earlier ++ path :: later ∧
    ∀ other ∈ earlier, entries.text? other ≠ some ""

/-- The default configuration with what is given in place of its defaults. -/
def described (entries : Toml.Entries) : Config where
  optionalMark := (entries.text? ["optional_param_prefix"]).getD standard.optionalMark
  members :=
    { call := (entries.text? ["members", "call"]).getD standard.members.call
      indexGet := (entries.text? ["members", "index_get"]).getD standard.members.indexGet
      indexSet := (entries.text? ["members", "index_set"]).getD standard.members.indexSet
      equality := (entries.text? ["members", "equality"]).getD standard.members.equality }
  traceDispatch := (entries.truth? ["trace_dispatch"]).getD standard.traceDispatch

end Config

section Folds

variable {σ α : Type} {step : σ → α → Option σ} {items : List α}

/-- A fold whose steps succeed for some items, whatever the state, succeeds for lists of these. -/
theorem isSome_foldlM_iff {accepts : α → Prop}
    (hstep : ∀ item ∈ items, ∀ state, (step state item).isSome = true ↔ accepts item) (state : σ) :
    (items.foldlM step state).isSome = true ↔ ∀ item ∈ items, accepts item := by
  induction items generalizing state with
  | nil => simp
  | cons first rest ih =>
    obtain ⟨hfirst, hrest⟩ := List.forall_mem_cons.1 hstep
    rw [List.foldlM_cons, List.forall_mem_cons, ← hfirst state]
    cases hnext : step state first with
    | none => simp
    | some next => simpa using ih hrest next

end Folds

namespace Toml.Entries

@[simp] theorem at?_singleton (entries : Entries) (key : String) :
    entries.at? [key] = entries.find? key :=
  rfl

theorem at?_pair (entries : Entries) (first second : String) :
    entries.at? [first, second] =
      match entries.find? first with
      | some (.table _ children) => Entries.find? children second
      | _ => none :=
  rfl

end Toml.Entries

namespace Settings

variable {settings next : Settings} {entry : String × Toml.Value} {entries : Toml.Entries}

section Steps

theorem text?_eq_some_iff {value : Toml.Value} {text : String} :
    text? value = some text ↔ value = .string text := by
  cases value <;> simp [text?]

theorem truth?_eq_some_iff {value : Toml.Value} {truth : Bool} :
    truth? value = some truth ↔ value = .boolean truth := by
  cases value <;> simp [truth?]

/-- All that adding a member name can do. -/
theorem addMember?_cases (h : settings.addMember? entry = some next) :
    ∃ text, entry.2 = .string text ∧
      ((entry.1 = "call" ∧ next = { settings with call := some text }) ∨
        (entry.1 = "index_get" ∧ next = { settings with indexGet := some text }) ∨
        (entry.1 = "index_set" ∧ next = { settings with indexSet := some text }) ∨
        (entry.1 = "equality" ∧ next = { settings with equality := some text })) := by
  rw [addMember?] at h
  split at h
  case h_5 => cases h
  all_goals
    obtain ⟨text, htext, rfl⟩ := Option.map_eq_some_iff.1 h
    refine ⟨text, text?_eq_some_iff.1 htext, ?_⟩
    simp_all

/-- All that adding an entry of the root table can do. -/
theorem add?_cases (h : settings.add? entry = some next) :
    (entry.1 = "optional_param_prefix" ∧ ∃ text, entry.2 = .string text ∧
      next = { settings with optionalMark := some text }) ∨
    (entry.1 = "members" ∧ settings.addMembers? entry.2 = some next) ∨
    (entry.1 = "trace_dispatch" ∧ ∃ truth, entry.2 = .boolean truth ∧
      next = { settings with traceDispatch := some truth }) := by
  rw [add?] at h
  split at h
  · obtain ⟨text, htext, rfl⟩ := Option.map_eq_some_iff.1 h
    exact .inl ⟨‹_›, text, text?_eq_some_iff.1 htext, rfl⟩
  · exact .inr (.inl ⟨‹_›, h⟩)
  · obtain ⟨truth, htruth, rfl⟩ := Option.map_eq_some_iff.1 h
    exact .inr (.inr ⟨‹_›, truth, truth?_eq_some_iff.1 htruth, rfl⟩)
  · cases h

theorem isSome_addMember?_iff (settings : Settings) (entry : String × Toml.Value) :
    (settings.addMember? entry).isSome = true ↔
      entry.1 ∈ memberKeys ∧ (text? entry.2).isSome = true := by
  unfold addMember?
  split <;> simp_all [memberKeys]

theorem isSome_add?_iff (settings : Settings) (entry : String × Toml.Value) :
    (settings.add? entry).isSome = true ↔
      (entry.1 = "optional_param_prefix" ∧ (text? entry.2).isSome = true) ∨
      (entry.1 = "members" ∧ (settings.addMembers? entry.2).isSome = true) ∨
      (entry.1 = "trace_dispatch" ∧ (truth? entry.2).isSome = true) := by
  unfold add?
  split <;> simp_all

end Steps

section Runs

/-- The member names that a table gives come in place of those that there were. -/
theorem eq_of_addMembers?_table {origin : Toml.Origin} {children : Toml.Entries}
    (hkeys : children.keys.Nodup) (h : settings.addMembers? (.table origin children) = some next) :
    next = { settings with
      call := (children.text? ["call"]).or settings.call
      indexGet := (children.text? ["index_get"]).or settings.indexGet
      indexSet := (children.text? ["index_set"]).or settings.indexSet
      equality := (children.text? ["equality"]).or settings.equality } := by
  rw [addMembers?] at h
  induction children generalizing settings with
  | nil =>
    cases h
    rfl
  | cons entry rest ih =>
    obtain ⟨hnew, hrest⟩ := List.nodup_cons.1 hkeys
    obtain ⟨middle, hmiddle, hnext⟩ := Option.bind_eq_some_iff.1 h
    have hnone : Toml.Entries.find? rest entry.1 = none := Toml.Entries.find?_eq_none_iff.2 hnew
    rw [ih hrest hnext]
    obtain ⟨text, htext, ⟨hkey, rfl⟩ | ⟨hkey, rfl⟩ | ⟨hkey, rfl⟩ | ⟨hkey, rfl⟩⟩ :=
      addMember?_cases hmiddle
    all_goals
      rw [hkey] at hnone
      simp [Toml.Entries.text?, hkey, htext, hnone]

/-- Settings with what a root table gives in place of what there was. -/
def replaced (settings : Settings) (entries : Toml.Entries) : Settings where
  optionalMark := (entries.text? ["optional_param_prefix"]).or settings.optionalMark
  call := (entries.text? ["members", "call"]).or settings.call
  indexGet := (entries.text? ["members", "index_get"]).or settings.indexGet
  indexSet := (entries.text? ["members", "index_set"]).or settings.indexSet
  equality := (entries.text? ["members", "equality"]).or settings.equality
  traceDispatch := (entries.truth? ["trace_dispatch"]).or settings.traceDispatch

/-- Whatever the order of the entries, each setting is what is given at its path. -/
theorem eq_replaced_of_foldlM (hdistinct : entries.DistinctKeys)
    (hmembers : ∀ entry ∈ entries, entry.1 = "members" →
      ∃ origin children, entry.2 = .table origin children)
    (h : entries.foldlM add? settings = some next) : next = settings.replaced entries := by
  induction entries generalizing settings with
  | nil =>
    cases h
    rfl
  | cons entry rest ih =>
    obtain ⟨hnew, hrest⟩ := List.nodup_cons.1 hdistinct.keys
    obtain ⟨hentry, hvalues⟩ := List.forall_mem_cons.1 hdistinct.values
    obtain ⟨hmember, hothers⟩ := List.forall_mem_cons.1 hmembers
    obtain ⟨middle, hmiddle, hnext⟩ := Option.bind_eq_some_iff.1 h
    -- The key does not come again, so what it gives is not replaced by the rest.
    have hnone : Toml.Entries.find? rest entry.1 = none := Toml.Entries.find?_eq_none_iff.2 hnew
    rw [ih ⟨hrest, hvalues⟩ hothers hnext]
    rcases add?_cases hmiddle with
      ⟨hkey, text, htext, rfl⟩ | ⟨hkey, hadded⟩ | ⟨hkey, truth, htruth, rfl⟩
    · rw [hkey] at hnone
      simp [replaced, Toml.Entries.text?, Toml.Entries.truth?, Toml.Entries.at?_pair, hkey, htext,
        hnone]
    · obtain ⟨origin, children, hchildren⟩ := hmember hkey
      rw [hchildren] at hadded hentry
      rw [hkey] at hnone
      rw [eq_of_addMembers?_table (Toml.Value.distinctKeys_table_iff.1 hentry).keys hadded]
      simp [replaced, Toml.Entries.text?, Toml.Entries.truth?, Toml.Entries.at?_pair, hkey,
        hchildren, hnone]
    · rw [hkey] at hnone
      simp [replaced, Toml.Entries.text?, Toml.Entries.truth?, Toml.Entries.at?_pair, hkey, htruth,
        hnone]

theorem isSome_addMembers?_table_iff (settings : Settings) (origin : Toml.Origin)
    (children : Toml.Entries) :
    (settings.addMembers? (.table origin children)).isSome = true ↔
      ∀ entry ∈ children, entry.1 ∈ memberKeys ∧ (text? entry.2).isSome = true :=
  isSome_foldlM_iff (fun entry _ state ↦ isSome_addMember?_iff state entry) settings

end Runs

end Settings

namespace Config

variable {entries : Toml.Entries} {path : List String} {key : String}

section Keys

theorem not_hasUnknownKey_iff : ¬HasUnknownKey entries ↔ (∀ key ∈ entries.keys, key ∈ rootKeys) ∧
    ∀ key, (entries.at? ["members", key]).isSome = true → key ∈ Settings.memberKeys := by
  simp only [HasUnknownKey, not_or, not_exists, not_and', not_not, Toml.Entries.at?_singleton,
    Toml.Entries.isSome_find?_iff]

theorem mem_textPaths_of_mem_memberKeys :
    ∀ key ∈ Settings.memberKeys, ["members", key] ∈ textPaths := by
  decide

/-- When every value has its type, the member names can only be refused for a key. -/
theorem isSome_addMembers?_iff (hdistinct : entries.DistinctKeys) (htyped : WellTyped entries)
    {members : Toml.Value} (hmembers : entries.find? "members" = some members)
    (settings : Settings) :
    (settings.addMembers? members).isSome = true ↔
      ∀ key, (entries.at? ["members", key]).isSome = true → key ∈ Settings.memberKeys := by
  obtain ⟨origin, children, rfl⟩ := htyped.members members hmembers
  have hchildren := Toml.Value.distinctKeys_table_iff.1 (hdistinct.of_find? hmembers)
  have hat : ∀ key, entries.at? ["members", key] = Toml.Entries.find? children key := fun key ↦ by
    rw [Toml.Entries.at?_pair, hmembers]
  simp only [Settings.isSome_addMembers?_table_iff, hat, Toml.Entries.isSome_find?_iff]
  constructor
  · intro h key hkey
    obtain ⟨value, hmem⟩ := Toml.Entries.mem_keys_iff.1 hkey
    exact (h _ hmem).1
  · rintro h ⟨key, value⟩ hmem
    have hkey : key ∈ Settings.memberKeys := h key (Toml.Entries.mem_keys_iff.2 ⟨value, hmem⟩)
    have hfound : Toml.Entries.find? children key = some value :=
      (Toml.Entries.find?_eq_some_iff hchildren.keys).2 hmem
    obtain ⟨text, rfl⟩ :=
      htyped.texts _ (mem_textPaths_of_mem_memberKeys key hkey) value (hat key ▸ hfound)
    exact ⟨hkey, rfl⟩

/-- When every value has its type, an entry of the root table can only be refused for a key. -/
theorem isSome_add?_iff_of_mem (hdistinct : entries.DistinctKeys) (htyped : WellTyped entries)
    {entry : String × Toml.Value} (hmem : entry ∈ entries) (settings : Settings) :
    (settings.add? entry).isSome = true ↔ entry.1 ∈ rootKeys ∧ (entry.1 = "members" →
      ∀ key, (entries.at? ["members", key]).isSome = true → key ∈ Settings.memberKeys) := by
  have hfound : entries.find? entry.1 = some entry.2 :=
    (Toml.Entries.find?_eq_some_iff hdistinct.keys).2 hmem
  rw [Settings.isSome_add?_iff]
  by_cases hmark : entry.1 = "optional_param_prefix"
  · obtain ⟨text, htext⟩ :=
      htyped.texts ["optional_param_prefix"] (by decide) entry.2 (hmark ▸ hfound)
    simp [hmark, htext, rootKeys, Settings.text?]
  by_cases hmembers : entry.1 = "members"
  · rw [isSome_addMembers?_iff hdistinct htyped (hmembers ▸ hfound)]
    simp [hmembers, rootKeys]
  by_cases htrace : entry.1 = "trace_dispatch"
  · obtain ⟨truth, htruth⟩ := htyped.truth entry.2 (htrace ▸ hfound)
    simp [htrace, htruth, rootKeys, Settings.truth?]
  · simp [hmark, hmembers, htrace, rootKeys]

/-- When every value has its type, only a key can make the table unreadable. -/
theorem isSome_ofTable?_iff (hdistinct : entries.DistinctKeys) (htyped : WellTyped entries) :
    (Settings.ofTable? entries).isSome = true ↔ ¬HasUnknownKey entries := by
  rw [Settings.ofTable?, not_hasUnknownKey_iff,
    isSome_foldlM_iff fun _ hmem ↦ isSome_add?_iff_of_mem hdistinct htyped hmem]
  constructor
  · intro h
    constructor
    · intro key hkey
      obtain ⟨value, hmem⟩ := Toml.Entries.mem_keys_iff.1 hkey
      exact (h _ hmem).1
    · intro key hkey
      cases hmembers : entries.find? "members" with
      | none =>
        rw [Toml.Entries.at?_pair, hmembers] at hkey
        cases hkey
      | some members => exact (h _ (Toml.Entries.mem_of_find? hmembers)).2 rfl key hkey
  · rintro ⟨hroot, hmembers⟩ entry hentry
    exact ⟨hroot entry.1 (List.mem_map_of_mem hentry), fun _ ↦ hmembers⟩

theorem ofTable_of_hasUnknownKey (hdistinct : entries.DistinctKeys) (htyped : WellTyped entries)
    (h : HasUnknownKey entries) : ofTable entries = .error .parse := by
  have hnone : ¬(Settings.ofTable? entries).isSome = true := fun hsome ↦
    (isSome_ofTable?_iff hdistinct htyped).1 hsome h
  rw [ofTable, Option.not_isSome_iff_eq_none.1 hnone]

theorem override_replaced (entries : Toml.Entries) :
    standard.override (Settings.unchanged.replaced entries) = described entries := by
  simp [override, Settings.replaced, Settings.unchanged, described]

/-- Otherwise the configuration that is described is checked. -/
theorem ofTable_of_not_hasUnknownKey (hdistinct : entries.DistinctKeys) (htyped : WellTyped entries)
    (h : ¬HasUnknownKey entries) : ofTable entries = (described entries).validate := by
  obtain ⟨settings, hsettings⟩ :=
    Option.isSome_iff_exists.1 ((isSome_ofTable?_iff hdistinct htyped).2 h)
  have hmembers : ∀ entry ∈ entries, entry.1 = "members" →
      ∃ origin children, entry.2 = .table origin children := by
    rintro ⟨key, value⟩ hmem rfl
    exact htyped.members value ((Toml.Entries.find?_eq_some_iff hdistinct.keys).2 hmem)
  rw [ofTable, hsettings, Settings.eq_replaced_of_foldlM hdistinct hmembers hsettings]
  dsimp only
  rw [override_replaced]

end Keys

section Checks

/-- No text of the default configuration is empty. -/
theorem ne_empty_of_mem_defaultTexts : ∀ text ∈ defaultTexts, text.2 ≠ "" := by
  decide

theorem requiredTexts_described (entries : Toml.Entries) :
    (described entries).requiredTexts = defaultTexts.map fun text ↦
      (".".intercalate text.1, (entries.text? text.1).getD text.2) :=
  rfl

/-- The check goes through the paths of the texts and stops at the first that is given as empty. -/
theorem firstEmptyKey?_described (entries : Toml.Entries) :
    (described entries).firstEmptyKey? =
      (textPaths.find? fun path ↦ entries.text? path = some "").map (".".intercalate ·) := by
  have hsame : ∀ text ∈ defaultTexts, ((entries.text? text.1).getD text.2).isEmpty =
      decide (entries.text? text.1 = some "") := fun text hmem ↦ by
    rw [Bool.eq_iff_iff, String.isEmpty_iff, decide_eq_true_iff]
    cases entries.text? text.1 with
    | none => simpa using ne_empty_of_mem_defaultTexts text hmem
    | some given => simp
  rw [firstEmptyKey?, requiredTexts_described, textPaths, List.find?_map, List.find?_map,
    Option.map_map, Option.map_map]
  exact congrArg _ (List.find?_congr hsame)

theorem firstEmpty_iff :
    FirstEmpty entries path ↔
      (textPaths.find? fun path ↦ entries.text? path = some "") = some path := by
  simp only [FirstEmpty, List.find?_eq_some_iff_append, decide_eq_true_eq, Bool.not_eq_true',
    decide_eq_false_iff_not]

/-- If any text is given as empty, there is a first one. -/
theorem exists_firstEmpty_iff :
    (∃ path, FirstEmpty entries path) ↔ ∃ path ∈ textPaths, entries.text? path = some "" := by
  simp only [firstEmpty_iff, ← Option.isSome_iff_exists, List.find?_isSome, decide_eq_true_eq]

theorem firstEmptyKey?_described_eq_some_iff :
    (described entries).firstEmptyKey? = some key ↔
      ∃ path, FirstEmpty entries path ∧ ".".intercalate path = key := by
  simp only [firstEmptyKey?_described, Option.map_eq_some_iff, firstEmpty_iff]

theorem firstEmptyKey?_described_eq_none_iff :
    (described entries).firstEmptyKey? = none ↔
      ∀ path ∈ textPaths, entries.text? path ≠ some "" := by
  simp [firstEmptyKey?_described]

theorem validate_eq_ok_iff {config other : Config} :
    config.validate = .ok other ↔ config.firstEmptyKey? = none ∧ other = config := by
  rw [validate]
  split
  · next hsome => simp [hsome]
  · next hnone => simp [hnone, eq_comm]

theorem validate_eq_error_iff {config : Config} {error : ConfigError} :
    config.validate = .error error ↔
      ∃ key, config.firstEmptyKey? = some key ∧ error = .empty key := by
  rw [validate]
  split
  · next hsome => simp [hsome, eq_comm]
  · next hnone => simp [hnone]

/-- Whatever the parser and the document, the configuration that they have led to is valid. -/
theorem validate_of_ofDocument {parser : Toml.Parser} {document : String} {config : Config}
    (h : ofDocument parser document = .ok config) : config.validate = .ok config := by
  rw [ofDocument] at h
  split at h
  · rw [ofTable] at h
    split at h
    · obtain ⟨hnone, rfl⟩ := validate_eq_ok_iff.1 h
      exact validate_eq_ok_iff.2 ⟨hnone, rfl⟩
    · cases h
  · cases h

end Checks

section Outcomes

variable (hdistinct : entries.DistinctKeys) (htyped : WellTyped entries)

include hdistinct htyped

theorem ofTable_eq_parse_iff : ofTable entries = .error .parse ↔ HasUnknownKey entries := by
  refine ⟨fun h ↦ ?_, ofTable_of_hasUnknownKey hdistinct htyped⟩
  by_contra hknown
  rw [ofTable_of_not_hasUnknownKey hdistinct htyped hknown] at h
  obtain ⟨key, -, herror⟩ := validate_eq_error_iff.1 h
  cases herror

theorem ofTable_eq_empty_iff : ofTable entries = .error (.empty key) ↔
    ¬HasUnknownKey entries ∧ ∃ path, FirstEmpty entries path ∧ ".".intercalate path = key := by
  by_cases hunknown : HasUnknownKey entries
  · simp [ofTable_of_hasUnknownKey hdistinct htyped hunknown, hunknown]
  · rw [ofTable_of_not_hasUnknownKey hdistinct htyped hunknown, validate_eq_error_iff,
      ← firstEmptyKey?_described_eq_some_iff]
    simp [hunknown]

theorem ofTable_eq_ok_iff {config : Config} : ofTable entries = .ok config ↔
    ¬HasUnknownKey entries ∧ (∀ path ∈ textPaths, entries.text? path ≠ some "") ∧
      config = described entries := by
  by_cases hunknown : HasUnknownKey entries
  · simp [ofTable_of_hasUnknownKey hdistinct htyped hunknown, hunknown]
  · rw [ofTable_of_not_hasUnknownKey hdistinct htyped hunknown, validate_eq_ok_iff,
      firstEmptyKey?_described_eq_none_iff]
    simp [hunknown]

end Outcomes

/-- What becomes of a document for which a parser gives a root table. -/
structure DocumentOutcome (parser : Toml.Parser) (document : String) (entries : Toml.Entries) :
    Prop where
  /-- It is unreadable exactly when there is an unknown key, whatever the values are. -/
  unreadable_iff : ofDocument parser document = .error .parse ↔ HasUnknownKey entries
  /-- It is invalid exactly when there is none and a text is given as empty. -/
  invalid_iff : (∃ key, ofDocument parser document = .error (.empty key)) ↔
    ¬HasUnknownKey entries ∧ ∃ path ∈ textPaths, entries.text? path = some ""
  /-- The key that is reported then is the first one in the order of checking. -/
  reports_iff : ∀ {key}, ofDocument parser document = .error (.empty key) ↔
    ¬HasUnknownKey entries ∧ ∃ path, FirstEmpty entries path ∧ ".".intercalate path = key
  /-- The message names that key. -/
  message : ∀ {path}, ¬HasUnknownKey entries → FirstEmpty entries path →
    ∃ error, ofDocument parser document = .error error ∧ error.message? =
      some ("invalid runtime config: " ++ (".".intercalate path ++ " must not be empty"))
  /-- Otherwise the configuration has what is given, and the default for the rest. -/
  accepted_iff : ∀ {config}, ofDocument parser document = .ok config ↔
    ¬HasUnknownKey entries ∧ (∀ path ∈ textPaths, entries.text? path ≠ some "") ∧
      config = described entries

/-- Assumes: the parser gives no table with a key twice.

A document that gives a root table with values of the types of their settings is refused for its
keys, else for the first text that it gives as empty, and else makes the configuration that it
describes. Whatever the document, a configuration that it makes is valid. -/
theorem documentConfiguration {parser : Toml.Parser} (hparser : parser.DistinctKeys)
    (document : String) :
    (∀ {entries}, parser document = some entries → WellTyped entries →
      DocumentOutcome parser document entries) ∧
    ∀ {config}, ofDocument parser document = .ok config → config.validate = .ok config := by
  refine ⟨fun {entries} hread htyped ↦ ?_, validate_of_ofDocument⟩
  have hdistinct : entries.DistinctKeys := hparser hread
  have hdocument : ofDocument parser document = ofTable entries := by rw [ofDocument, hread]
  have hreports : ∀ {key}, ofDocument parser document = .error (.empty key) ↔
      ¬HasUnknownKey entries ∧ ∃ path, FirstEmpty entries path ∧ ".".intercalate path = key := by
    rw [hdocument]
    exact ofTable_eq_empty_iff hdistinct htyped
  constructor
  case unreadable_iff =>
    rw [hdocument]
    exact ofTable_eq_parse_iff hdistinct htyped
  case invalid_iff =>
    rw [← exists_firstEmpty_iff]
    constructor
    · rintro ⟨key, hkey⟩
      obtain ⟨hknown, path, hpath, -⟩ := hreports.1 hkey
      exact ⟨hknown, path, hpath⟩
    · rintro ⟨hknown, path, hpath⟩
      exact ⟨_, hreports.2 ⟨hknown, path, hpath, rfl⟩⟩
  case reports_iff => exact hreports
  case message =>
    intro path hknown hpath
    exact ⟨_, hreports.2 ⟨hknown, path, hpath, rfl⟩, rfl⟩
  case accepted_iff =>
    rw [hdocument]
    exact ofTable_eq_ok_iff hdistinct htyped

/-- Two empty texts, of which the second is checked first, and one that is not empty. -/
def twoEmptyTexts : String := "[members]\nequality = \"\"\nindex_set = \"\"\ncall = \"()\"\n"

/-- The root table of that document. -/
def twoEmptyEntries : Toml.Entries :=
  [("members", .table .header
    [("equality", .string ""), ("index_set", .string ""), ("call", .string "()")])]

/-- Read with `Toml.read?`, the one that is checked first is reported. -/
theorem documentConfiguration_twoEmptyTexts :
    Toml.Parser.DistinctKeys Toml.read? ∧ Toml.read? twoEmptyTexts = some twoEmptyEntries ∧
      WellTyped twoEmptyEntries ∧
        ofDocument Toml.read? twoEmptyTexts = .error (.empty "members.index_set") := by
  have hread : Toml.read? twoEmptyTexts = some twoEmptyEntries := rfl
  have htyped : WellTyped twoEmptyEntries := by
    constructor
    case texts =>
      intro path hpath value hvalue
      simp only [textPaths, defaultTexts, List.map_cons, List.map_nil, List.mem_cons,
        List.not_mem_nil, or_false] at hpath
      rcases hpath with rfl | rfl | rfl | rfl | rfl
      all_goals cases hvalue
      all_goals exact ⟨_, rfl⟩
    case truth => exact nofun
    case members =>
      rintro value ⟨⟩
      exact ⟨_, _, rfl⟩
  have hknown : ¬HasUnknownKey twoEmptyEntries := by
    have hmembers : ∀ key ∈ ["equality", "index_set", "call"], key ∈ Settings.memberKeys := by
      decide
    exact not_hasUnknownKey_iff.2
      ⟨by decide, fun key hkey ↦ hmembers key (Toml.Entries.isSome_find?_iff.1 hkey)⟩
  have hfirst : FirstEmpty twoEmptyEntries ["members", "index_set"] :=
    ⟨rfl, [["optional_param_prefix"], ["members", "call"], ["members", "index_get"]],
      [["members", "equality"]], rfl, by decide⟩
  have houtcome :=
    (documentConfiguration Toml.distinctKeys_read? twoEmptyTexts).1 hread htyped
  exact ⟨Toml.distinctKeys_read?, hread, htyped,
    houtcome.reports_iff.2 ⟨hknown, _, hfirst, rfl⟩⟩

/-- An unknown key is what counts, also beside an empty text. -/
example : ofDocument Toml.read? "optional_param_prefix = \"\"\nstack_traces = true\n" =
    .error .parse := by
  rfl

end Config

end GradualRuntime
