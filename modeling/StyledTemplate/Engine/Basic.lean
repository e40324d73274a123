import StyledTemplate.Document.Text
import StyledTemplate.Inheritance.Resolve
import StyledTemplate.Render.Render
import StyledTemplate.Template.Parse
import StyledTemplate.Usage.Basic

/-!
# The engine

An engine keeps parsed templates by name, with the settings they are parsed and rendered under and
the loader of their images. Loading a template changes the engine only if it succeeds.
-/

namespace StyledTemplate

/-- A template engine. -/
structure Engine where
  /-- The templates. -/
  templates : Registry := .empty
  /-- The settings. -/
  settings : TemplateSettings := {}
  /-- Where the bytes of images come from. -/
  loader : ImageLoader
  /-- The files that templates are read from. -/
  files : FileTree

namespace Engine

/-- An engine without templates, which loads images from the files in the directories of its
settings. -/
def ofSettings (settings : TemplateSettings) (files : FileTree) : Engine where
  settings := settings
  loader := .files files settings.dirs
  files := files

/-- Changes whether the engine is strict from now on. -/
def setStrict (engine : Engine) (strict : Bool) : Engine :=
  { engine with settings := { engine.settings with strict } }

/-- Changes where the bytes of images come from. -/
def setLoader (engine : Engine) (loader : ImageLoader) : Engine := { engine with loader }

/-- Other files are around the engine from now on, for its templates and for its images. -/
def setFiles (engine : Engine) (files : FileTree) : Engine :=
  { engine with files, loader := engine.loader.setFiles files }

/-! ## Templates -/

/-- Keeps a template under its name, in place of the one that was there. -/
def register (engine : Engine) (template : Template) : Engine :=
  { engine with templates := engine.templates.insert template }

/-- Parses a document as a template and keeps it. -/
def loadDocument (engine : Engine) (name : String) (document : Document) :
    Except Error (Template × Engine) :=
  match Template.ofDocument engine.settings name document with
  | .ok template => .ok (template, engine.register template)
  | .error e => .error (.parse e)

/-- Parses a text as a template and keeps it. -/
def load (engine : Engine) (name source : String) : Except Error (Template × Engine) :=
  engine.loadDocument name (.ofText source)

/-- Parses the text of a file as a template and keeps it. The first file that is found counts, even
if it cannot be read. -/
def loadFile (engine : Engine) (name path : String) : Except Error (Template × Engine) :=
  let dirs := engine.settings.dirs
  match engine.files.search? dirs path with
  | none =>
    .error (.templateNotFound s!"'{path}' not found in directories: {dirsText dirs}")
  | some (_, .error reason) => .error (.io reason)
  | some (_, .ok data) =>
    match textOfBytes? data with
    | none => .error (.io "stream did not contain valid UTF-8")
    | some source => engine.load name source

/-- Checks that a text could be loaded. -/
def validate (engine : Engine) (source : String) : Except Error Unit :=
  match Template.ofText engine.settings "<validate>" source with
  | .ok _ => .ok ()
  | .error e => .error (.parse e)

/-- The template of a name. -/
def template? (engine : Engine) (name : String) : Option Template := engine.templates.find? name

/-- Forgets the template of a name. -/
def remove (engine : Engine) (name : String) : Engine :=
  { engine with templates := engine.templates.erase name }

/-- Forgets all templates. -/
def clear (engine : Engine) : Engine := { engine with templates := .empty }

/-- The names of the templates, in order. -/
def names (engine : Engine) : List String := engine.templates.keys

/-! ## Rendering -/

/-- The template of a name, which has to exist. -/
def find (engine : Engine) (name : String) : Except Error Template :=
  match engine.template? name with
  | some template => .ok template
  | none => .error (.templateNotFound name)

/-- The scene for the blocks of the last template of a chain. -/
def scene (engine : Engine) (bindings : Bindings) (name : String) : Scene where
  template := name
  context := { bindings, strict := engine.settings.strict }
  settings := engine.settings
  loader := engine.loader

/-- Renders the template of a name as a document. The blocks it starts from are those of its last
ancestor, and so are their places in error messages. -/
def render (engine : Engine) (name : String) (bindings : Bindings) : Except Error Document := do
  let template ← engine.find name
  let chain ← (chain engine.templates template).mapError (·.inTemplate name none)
  let root := (chain.getLast?.map Template.name).getD name
  renderDocument (engine.scene bindings root) (resolveChain chain)

/-- Renders the template of a name as a text. -/
def renderText (engine : Engine) (name : String) (bindings : Bindings) : Except Error String :=
  (engine.render name bindings).map Document.plainText

/-- The names that the template of a name uses. -/
def usage (engine : Engine) (name : String) : Except Error Usage := do
  let template ← engine.find name
  let blocks ← resolve engine.templates template
  return Usage.ofBlocks name blocks

end Engine

end StyledTemplate
