/-!
# Settings

`TemplateSettings` govern how templates are loaded and rendered, `Settings` a whole program. Every
setting has a default.
-/

namespace StyledTemplate

/-- Settings of the template engine. -/
structure TemplateSettings where
  /-- Are unknown directives, misplaced parents and unbound names errors? -/
  strict : Bool := false
  /-- How deep directives may be nested. -/
  maxNestingDepth : UInt64 := 64
  /-- The text that stands for an image to which nothing is bound. -/
  imageNotFoundMarker : String := "[IMAGE_NOT_FOUND:\x7bname\x7d]"
  /-- The directories in which relative paths are searched. -/
  dirs : List String := []
  /-- Are neighbouring text runs of one formatting merged? -/
  coalesceRuns : Bool := true
  deriving Repr, DecidableEq, Inhabited

/-- A marker text with the placeholder `{name}` filled in wherever it occurs. -/
def fillMarker (name : List Char) : List Char → List Char
  | '{' :: 'n' :: 'a' :: 'm' :: 'e' :: '}' :: rest => name ++ fillMarker name rest
  | c :: rest => c :: fillMarker name rest
  | [] => []

/-- The text that stands for the image `name`. -/
def TemplateSettings.missingImageMarker (s : TemplateSettings) (name : String) : String :=
  String.ofList (fillMarker name.toList s.imageNotFoundMarker.toList)

/-- Settings of a program. -/
structure Settings where
  /-- Is the program being debugged? -/
  debug : Bool := false
  /-- The filter of log messages. -/
  logLevel : String := "info"
  /-- Settings of the template engine. -/
  template : TemplateSettings := {}
  deriving Repr, DecidableEq, Inhabited

end StyledTemplate
