/-!
# Configuration

The names that the dispatch protocol looks up, the mark of optional formals, and whether dispatches
are traced. A configuration is the default one with some settings replaced (`Config.override`), and
it is valid when the mark and the four names are not empty (`Config.validate`); the first empty one
in a fixed order is the one reported.
-/

set_option autoImplicit false

namespace GradualRuntime

/-- The member names that dispatch consults. -/
structure MemberNames where
  /-- Looked up on a value that is invoked and is not a function. -/
  call : String
  indexGet : String
  indexSet : String
  equality : String
  deriving DecidableEq, Repr

/-- The configuration of a runtime. -/
structure Config where
  /-- Formals whose name starts with this mark may be left out. -/
  optionalMark : String
  members : MemberNames
  /-- Whether every dispatch emits an event. -/
  traceDispatch : Bool
  deriving DecidableEq, Repr

/-- Settings that replace parts of a configuration. -/
structure Settings where
  optionalMark : Option String
  call : Option String
  indexGet : Option String
  indexSet : Option String
  equality : Option String
  traceDispatch : Option Bool
  deriving DecidableEq, Repr

/-- Why no configuration results. -/
inductive ConfigError where
  /-- The document is not well formed, or it has a key or a type that no setting has. -/
  | parse
  /-- The setting `key` is empty. -/
  | empty (key : String)
  deriving DecidableEq, Repr

namespace ConfigError

/-- The explanation of an invalid setting. -/
def reason : ConfigError → String
  | parse => ""
  | empty key => key ++ " must not be empty"

/-- The message of a configuration error; a document that does not parse has no fixed one. -/
def message? : ConfigError → Option String
  | parse => none
  | empty key => some ("invalid runtime config: " ++ (empty key).reason)

end ConfigError

namespace Settings

/-- Settings that replace nothing. -/
def unchanged : Settings := ⟨.none, .none, .none, .none, .none, .none⟩

end Settings

namespace Config

/-- The mark that generated code puts on optional formals. -/
def defaultOptionalMark : String := "opt$"

/-- The configuration that generated code expects. -/
def standard : Config where
  optionalMark := defaultOptionalMark
  members := { call := "call", indexGet := "get", indexSet := "set", equality := "==" }
  traceDispatch := false

instance : Inhabited Config := ⟨standard⟩

/-- A configuration with some settings replaced. -/
def override (config : Config) (settings : Settings) : Config where
  optionalMark := settings.optionalMark.getD config.optionalMark
  members :=
    { call := settings.call.getD config.members.call
      indexGet := settings.indexGet.getD config.members.indexGet
      indexSet := settings.indexSet.getD config.members.indexSet
      equality := settings.equality.getD config.members.equality }
  traceDispatch := settings.traceDispatch.getD config.traceDispatch

/-- The texts that must not be empty, under the keys that name them, in the order of checking. -/
def requiredTexts (config : Config) : List (String × String) :=
  [("optional_param_prefix", config.optionalMark), ("members.call", config.members.call),
    ("members.index_get", config.members.indexGet), ("members.index_set", config.members.indexSet),
    ("members.equality", config.members.equality)]

/-- The key of the first required text that is empty. -/
def firstEmptyKey? (config : Config) : Option String :=
  (config.requiredTexts.find? fun entry ↦ entry.2.isEmpty).map Prod.fst

/-- The configuration itself when it is valid. -/
def validate (config : Config) : Except ConfigError Config :=
  match config.firstEmptyKey? with
  | some key => .error (.empty key)
  | none => .ok config

end Config

end GradualRuntime
