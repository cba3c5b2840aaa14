import ShardLoad.Config.Schema
import ShardLoad.Config.Validate
import ShardLoad.File.Fault
import ShardLoad.Toml.Document

/-!
# Loading a configuration

A configuration comes from the text of a TOML document: the document is read, the
table is fitted to the schema, and the result is checked.  A file that is loaded
must be there, be readable, and be UTF-8.

* `ConfigError`: why there is no configuration, with its wording.
* `Config.ofToml`: the configuration of a text.
-/

namespace ShardLoad

/-- Why there is no configuration. -/
inductive ConfigError where
  /-- The text is no TOML. -/
  | malformed
  | schema (e : SchemaError)
  | invalid (e : Invalid)
  | read (path : String) (cause : FileFault)
  deriving Repr

/-- The wording of an error. -/
def ConfigError.message : ConfigError → String
  | malformed => "Failed to parse config TOML: malformed document"
  | schema e => s!"Failed to parse config TOML: {e.message}"
  | invalid e => s!"Config validation error: {e.message}"
  | read path cause => s!"Failed to read config file '{path}': {cause.message}"

namespace Config

/-- A checked configuration, or the fault that it has. -/
def checked (c : Config) : Except ConfigError Config :=
  match c.validate with
  | .ok () => .ok c
  | .error e => .error (.invalid e)

/-- The configuration that a text describes, before it is checked. -/
def parse (text : String) : Except ConfigError Config :=
  match Toml.read? text with
  | none => .error .malformed
  | some table =>
    match ofTable table with
    | .ok c => .ok c
    | .error e => .error (.schema e)

/-- The checked configuration that a text describes. -/
def ofToml (text : String) : Except ConfigError Config := do checked (← parse text)

/-- The checked configuration in a file, whose octets or fault are given. -/
def ofFile (path : String) (content : Except FileFault Bytes) : Except ConfigError Config :=
  match content with
  | .error cause => .error (.read path cause)
  | .ok octets =>
    match String.fromUTF8? ⟨octets.toArray⟩ with
    | some text => ofToml text
    | none => .error (.read path .notUtf8)

end Config
end ShardLoad
