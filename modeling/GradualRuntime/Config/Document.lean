import GradualRuntime.Operation
import GradualRuntime.Toml.Grammar

/-!
# Configurations from documents

The settings that a TOML table makes (`Settings.ofTable?`) and the configuration of a document,
whatever parser gives the table (`Config.ofDocument`). A key that is no setting, or a value of
another type than its setting has, makes the document unreadable; only a configuration that could be
read is then checked for empty texts. The member names may be given as a table or as an array of
strings in a fixed order. Programs read their configurations with `Toml.read?`.
-/

set_option autoImplicit false

namespace GradualRuntime

namespace Settings

/-- A text setting. -/
def text? : Toml.Value → Option String
  | .string text => some text
  | _ => none

/-- A truth setting. -/
def truth? : Toml.Value → Option Bool
  | .boolean truth => some truth
  | _ => none

/-- Settings with one member name added. -/
def addMember? (settings : Settings) (entry : String × Toml.Value) : Option Settings :=
  match entry.1 with
  | "call" => (text? entry.2).map fun text ↦ { settings with call := some text }
  | "index_get" => (text? entry.2).map fun text ↦ { settings with indexGet := some text }
  | "index_set" => (text? entry.2).map fun text ↦ { settings with indexSet := some text }
  | "equality" => (text? entry.2).map fun text ↦ { settings with equality := some text }
  | _ => none

/-- The keys of the member names, in the order in which an array gives them. -/
def memberKeys : List String := ["call", "index_get", "index_set", "equality"]

/-- Settings with the member names added that a table or an array gives. Items of an array beyond
the last member name are ignored. -/
def addMembers? (settings : Settings) : Toml.Value → Option Settings
  | .table _ entries => entries.foldlM addMember? settings
  | .array items => (memberKeys.zip items).foldlM addMember? settings
  | _ => none

/-- Settings with one entry of the root table added. -/
def add? (settings : Settings) (entry : String × Toml.Value) : Option Settings :=
  match entry.1 with
  | "optional_param_prefix" =>
    (text? entry.2).map fun text ↦ { settings with optionalMark := some text }
  | "members" => settings.addMembers? entry.2
  | "trace_dispatch" =>
    (truth? entry.2).map fun truth ↦ { settings with traceDispatch := some truth }
  | _ => none

/-- The settings that a root table makes. -/
def ofTable? (entries : Toml.Entries) : Option Settings := entries.foldlM add? unchanged

end Settings

namespace Config

/-- The configuration that a root table describes. -/
def ofTable (entries : Toml.Entries) : Except ConfigError Config :=
  match Settings.ofTable? entries with
  | some settings => (standard.override settings).validate
  | none => .error .parse

/-- The configuration that a document describes, by what a parser gives for it. -/
def ofDocument (parser : Toml.Parser) (document : String) : Except ConfigError Config :=
  match parser document with
  | some entries => ofTable entries
  | none => .error .parse

end Config

namespace ConfigSource

/-- The configuration from a source. -/
def config : ConfigSource → Except ConfigError Config
  | document text => Config.ofDocument Toml.read? text
  | settings changes => (Config.standard.override changes).validate

end ConfigSource

end GradualRuntime
