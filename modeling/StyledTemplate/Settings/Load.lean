import StyledTemplate.Error
import StyledTemplate.Json.Reader
import StyledTemplate.Json.Record
import StyledTemplate.Settings.Basic
import StyledTemplate.Text.Blank
import StyledTemplate.Text.Digits
import StyledTemplate.Text.Name
import StyledTemplate.Toml.Reader

/-!
# Loading settings

Settings are read from a JSON or TOML text, which is laid over the defaults, so that it need only
give what differs from them. Variables of the environment override what a file says.
-/

namespace StyledTemplate

open Json (recordParts? fieldD)

namespace TemplateSettings

/-- The names of the fields. -/
def fieldNames : List String :=
  ["strict", "max_nesting_depth", "image_not_found_marker", "dirs", "coalesce_runs"]

/-- Writes the settings of the engine. -/
def toJson (s : TemplateSettings) : Json :=
  .object (Fields.ofList [("strict", .bool s.strict),
    ("max_nesting_depth", .integer s.maxNestingDepth.toNat),
    ("image_not_found_marker", .string s.imageNotFoundMarker),
    ("dirs", .array (s.dirs.map .string)), ("coalesce_runs", .bool s.coalesceRuns)])

/-- Reads the settings of the engine. What is left out takes its default. -/
def ofJson? (j : Json) : Option TemplateSettings := do
  let fields ← recordParts? fieldNames 0 j
  let default : TemplateSettings := {}
  return {
    strict := ← fieldD fields "strict" Json.bool? default.strict
    maxNestingDepth := ← fieldD fields "max_nesting_depth" Json.uint64? default.maxNestingDepth
    imageNotFoundMarker :=
      ← fieldD fields "image_not_found_marker" Json.string? default.imageNotFoundMarker
    dirs := ← fieldD fields "dirs" (Json.array? Json.string?) default.dirs
    coalesceRuns := ← fieldD fields "coalesce_runs" Json.bool? default.coalesceRuns }

end TemplateSettings

/-- The data formats in which settings are written. -/
inductive SettingsFormat where
  /-- The format of `Toml`. -/
  | toml
  /-- The format of `Json`. -/
  | json
  deriving Repr, DecidableEq

namespace SettingsFormat

/-- The name of the format. -/
def name : SettingsFormat → String
  | .toml => "TOML"
  | .json => "JSON"

/-- Reads a text in the format. -/
def parse? : SettingsFormat → String → Option Json
  | .toml => Toml.parse?
  | .json => Json.parse?

end SettingsFormat

/-- The variables of an environment that settings are read from, by the end of their names. -/
structure Environment where
  /-- The variables and their values. -/
  entries : List (String × String)
  /-- What the names of the variables start with. -/
  tag : String

/-- The value of a variable. -/
def Environment.find? (env : Environment) (suffix : String) : Option String :=
  env.entries.lookup (env.tag ++ suffix)

namespace Settings

/-- Writes the settings of a program. -/
def toJson (s : Settings) : Json :=
  .object [("debug", .bool s.debug), ("log_level", .string s.logLevel),
    ("template", s.template.toJson)]

/-- Reads the settings of a program. What is left out takes its default. -/
def ofJson? (j : Json) : Option Settings := do
  let fields ← recordParts? ["debug", "log_level", "template"] 0 j
  let default : Settings := {}
  return {
    debug := ← fieldD fields "debug" Json.bool? default.debug
    logLevel := ← fieldD fields "log_level" Json.string? default.logLevel
    template := ← fieldD fields "template" TemplateSettings.ofJson? default.template }

/-- The settings that a value gives when it is laid over the defaults. -/
def overDefaults? (upper : Json) : Option Settings :=
  ofJson? (Json.merge (toJson {}) upper)

/-- Reads settings from a text. -/
def ofText (format : SettingsFormat) (text : String) : Except Error Settings :=
  match format.parse? text with
  | none => .error (.configuration s!"Failed to parse {format.name}")
  | some value =>
    match overDefaults? value with
    | none => .error (.configuration s!"Failed to deserialize settings from {format.name}")
    | some settings => .ok settings

/-- Reads settings from the text of the file at a path, if it has one. -/
def ofFile (format : SettingsFormat) (path : String) (content : Option String) :
    Except Error Settings :=
  match content with
  | none => .error (.configuration s!"Failed to read {format.name} file '{path}'")
  | some text => ofText format text

/-- The truth value that a variable of the environment gives. -/
def flagOfText (text : String) : Bool := ["true", "1", "yes"].contains text.toLower

/-- The directories of a list of paths with colons between them. -/
def dirsOfText (text : String) : List String :=
  ((Text.splitOn ':' text.toList).filter (· ≠ [])).map String.ofList

/-- The settings with what the environment overrides. A nesting depth that is no number is
ignored. -/
def override (env : Environment) (s : Settings) : Settings :=
  let depth? := (env.find? "MAX_NESTING_DEPTH").bind fun text =>
    Text.readUnsigned? 64 (Text.trim text.toList)
  { debug := ((env.find? "DEBUG").map flagOfText).getD s.debug
    logLevel := (env.find? "LOG_LEVEL").getD s.logLevel
    template :=
      { s.template with
        strict := ((env.find? "STRICT").map flagOfText).getD s.template.strict
        maxNestingDepth := (depth?.map UInt64.ofNat).getD s.template.maxNestingDepth
        dirs := ((env.find? "TEMPLATE_DIRS").map dirsOfText).getD s.template.dirs } }

end Settings

end StyledTemplate
