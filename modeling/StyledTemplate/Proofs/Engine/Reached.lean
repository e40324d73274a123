import StyledTemplate.Engine.Basic
import StyledTemplate.Proofs.Inheritance.Ancestors
import StyledTemplate.Proofs.Inheritance.ResolveChain

/-!
# The engines that can be reached

An engine starts without templates, and changes when a template is loaded or forgotten, or when the
settings, the loader or the files change. In whatever order this happens, all of its templates have
been parsed (`Engine.Reached.sound`). A template in a file is that of the first file that is found
(`Engine.documentOf?_file_iff`).
-/

namespace StyledTemplate

/-! ## Registries -/

/-- Every template has been parsed. -/
def Registry.Sound (registry : Registry) : Prop :=
  ∀ field ∈ registry.entries, field.2.IsParsed

namespace Registry

theorem sound_empty : empty.Sound := by
  intro field hfield
  cases hfield

theorem Sound.insert {registry : Registry} (h : registry.Sound) {t : Template}
    (ht : t.IsParsed) : (registry.insert t).Sound := by
  intro field hfield
  rcases Fields.mem_insert hfield with rfl | hold
  · exact ht
  · exact h field hold

theorem Sound.erase {registry : Registry} (h : registry.Sound) (name : String) :
    (registry.erase name).Sound := by
  intro field hfield
  have hold : field ∈ registry.entries := (List.mem_filter.1 hfield).1
  exact h field hold

theorem Sound.of_find? {registry : Registry} (h : registry.Sound) {name : String} {t : Template}
    (hfind : registry.find? name = some t) : t.IsParsed :=
  h (name, t) (Fields.mem_of_find? hfind)

theorem Sound.isParsed_of_chain {registry : Registry} (h : registry.Sound) {t : Template}
    (ht : t.IsParsed) {ts : List Template} (hchain : chain registry t = .ok ts) :
    ∀ member ∈ ts, member.IsParsed :=
  forall_mem_chain (fun _ _ hfind => h.of_find? hfind) ht hchain

end Registry

/-! ## Loading -/

namespace Engine

/-- What a template is read from. -/
inductive Source where
  /-- A styled document. -/
  | document (document : Document)
  /-- A text, each line a paragraph. -/
  | text (text : String)
  /-- The text of the file that is found at a path. -/
  | file (path : String)

/-- Reads a template and keeps it. -/
def loadFrom (engine : Engine) (name : String) : Source → Except Error (Template × Engine)
  | .document document => engine.loadDocument name document
  | .text text => engine.load name text
  | .file path => engine.loadFile name path

theorem loadDocument_ok_iff {engine engine' : Engine} {name : String} {document : Document}
    {t : Template} : engine.loadDocument name document = .ok (t, engine') ↔
      Template.ofDocument engine.settings name document = .ok t ∧ engine' = engine.register t := by
  unfold loadDocument
  cases Template.ofDocument engine.settings name document with
  | error e => simp
  | ok t' =>
    simp only [Except.ok.injEq, Prod.mk.injEq]
    constructor
    · rintro ⟨rfl, rfl⟩
      exact ⟨rfl, rfl⟩
    · rintro ⟨rfl, rfl⟩
      exact ⟨rfl, rfl⟩

/-- A template is kept under its name. -/
theorem template?_register (engine : Engine) (t : Template) :
    (engine.register t).template? t.name = some t := by
  rw [template?, register, Registry.find?_insert, if_pos rfl]

/-- The document that a source stands for, if it can be read. -/
def documentOf? (engine : Engine) : Source → Option Document
  | .document document => some document
  | .text text => some (.ofText text)
  | .file path => do
    let (_, outcome) ← engine.files.search? engine.settings.dirs path
    let data ← outcome.toOption
    let text ← textOfBytes? data
    return .ofText text

/-- A template in a file is read from the first of the candidates at which there is a file, in
whatever directory. It has to be readable, as UTF-8. -/
theorem documentOf?_file_iff {engine : Engine} {path : String} {document : Document} :
    engine.documentOf? (.file path) = some document ↔
      ∃ before found after data text,
        FileTree.candidates engine.settings.dirs path = before ++ found :: after ∧
        (∀ other ∈ before, engine.files.file? other = none) ∧
        engine.files.file? found = some (.ok data) ∧ textOfBytes? data = some text ∧
        document = .ofText text := by
  constructor
  · intro h
    obtain ⟨⟨found, outcome⟩, hsearch, h⟩ := Option.bind_eq_some_iff.1 h
    obtain ⟨data, hdata, h⟩ := Option.bind_eq_some_iff.1 h
    obtain ⟨text, htext, h⟩ := Option.bind_eq_some_iff.1 h
    obtain ⟨before, after, hsplit, hbefore, hfound⟩ := FileTree.search?_eq_some_iff.1 hsearch
    rw [toOption_eq_some_iff.1 hdata] at hfound
    exact ⟨before, found, after, data, text, hsplit, hbefore, hfound, htext,
      (Option.some.inj h).symm⟩
  · rintro ⟨before, found, after, data, text, hsplit, hbefore, hfound, htext, rfl⟩
    have hsearch := FileTree.search?_eq_some_iff.2 ⟨before, after, hsplit, hbefore, hfound⟩
    rw [documentOf?, hsearch]
    simp [Except.toOption, htext]

/-- A template is loaded if its document can be read and parsed. -/
theorem loadFrom_ok_iff {engine engine' : Engine} {name : String} {source : Source}
    {t : Template} : engine.loadFrom name source = .ok (t, engine') ↔
      ∃ document, engine.documentOf? source = some document ∧
        Template.ofDocument engine.settings name document = .ok t ∧
        engine' = engine.register t := by
  cases source with
  | document document =>
    rw [loadFrom, loadDocument_ok_iff]
    simp [documentOf?]
  | text text =>
    rw [loadFrom, load, loadDocument_ok_iff]
    simp [documentOf?]
  | file path =>
    rw [loadFrom, loadFile]
    dsimp only [documentOf?]
    rcases engine.files.search? engine.settings.dirs path with _ | ⟨found, reason | data⟩
    · simp
    · simp [Except.toOption]
    · cases htext : textOfBytes? data with
      | none => simp [htext, Except.toOption]
      | some text =>
        simp only [htext, load, loadDocument_ok_iff]
        simp [htext, Except.toOption]

/-- Reads templates one after the other. -/
def loadAll (engine : Engine) : List (String × Source) → Except Error (List Template × Engine)
  | [] => .ok ([], engine)
  | (name, source) :: rest => do
    let (t, engine) ← engine.loadFrom name source
    let (ts, engine) ← engine.loadAll rest
    return (t :: ts, engine)

theorem loadAll_cons_ok_iff {engine engine' : Engine} {name : String} {source : Source}
    {rest : List (String × Source)} {ts : List Template} :
    engine.loadAll ((name, source) :: rest) = .ok (ts, engine') ↔
      ∃ t next ts', engine.loadFrom name source = .ok (t, next) ∧
        next.loadAll rest = .ok (ts', engine') ∧ ts = t :: ts' := by
  rw [loadAll]
  constructor
  · intro h
    obtain ⟨⟨t, next⟩, hload, h⟩ := exists_of_bind_eq_ok h
    obtain ⟨⟨ts', last⟩, hrest, h⟩ := exists_of_bind_eq_ok h
    obtain ⟨rfl, rfl⟩ := Prod.mk.inj (Except.ok.inj h)
    exact ⟨t, next, ts', hload, hrest, rfl⟩
  · rintro ⟨t, next, ts', hload, hrest, rfl⟩
    simp [hload, hrest, bind, Except.bind, pure, Except.pure]

/-- Loading leaves the settings and the loader of images alone. -/
theorem unchanged_of_loadAll {engine engine' : Engine} {loads : List (String × Source)}
    {ts : List Template} (h : engine.loadAll loads = .ok (ts, engine')) :
    engine'.settings = engine.settings ∧ engine'.loader = engine.loader := by
  induction loads generalizing engine ts with
  | nil =>
    obtain ⟨-, rfl⟩ := Prod.mk.inj (Except.ok.inj h)
    exact ⟨rfl, rfl⟩
  | cons load loads ih =>
    obtain ⟨name, source⟩ := load
    obtain ⟨t, next, ts', hload, hrest, -⟩ := loadAll_cons_ok_iff.1 h
    obtain ⟨document, -, -, rfl⟩ := loadFrom_ok_iff.1 hload
    obtain ⟨hsettings, hloader⟩ := ih hrest
    exact ⟨hsettings, hloader⟩

/-! ## Steps -/

/-- What can be done to an engine. The files are those of the world around it, which change on their
own. -/
inductive Step : Engine → Engine → Prop
  /-- A template is loaded. -/
  | load {engine engine' : Engine} {name : String} {source : Source} {t : Template}
      (hload : engine.loadFrom name source = .ok (t, engine')) : Step engine engine'
  /-- The template of a name is forgotten. -/
  | remove (engine : Engine) (name : String) : Step engine (engine.remove name)
  /-- All templates are forgotten. -/
  | clear (engine : Engine) : Step engine engine.clear
  /-- The engine becomes strict, or lenient. -/
  | setStrict (engine : Engine) (strict : Bool) : Step engine (engine.setStrict strict)
  /-- The bytes of images come from elsewhere. -/
  | setLoader (engine : Engine) (loader : ImageLoader) : Step engine (engine.setLoader loader)
  /-- The files change. -/
  | setFiles (engine : Engine) (files : FileTree) : Step engine (engine.setFiles files)

/-- The engines that come from one without templates. -/
inductive Reached : Engine → Prop
  /-- An engine that is new. -/
  | start (settings : TemplateSettings) (files : FileTree) : Reached (ofSettings settings files)
  /-- An engine to which something more has been done. -/
  | step {engine engine' : Engine} (hreached : Reached engine) (hstep : Step engine engine') :
      Reached engine'

theorem Step.sound {engine engine' : Engine} (hstep : Step engine engine')
    (h : engine.templates.Sound) : engine'.templates.Sound := by
  cases hstep with
  | load hload =>
    obtain ⟨document, -, hdocument, rfl⟩ := loadFrom_ok_iff.1 hload
    exact h.insert ⟨_, _, document, hdocument⟩
  | remove name => exact h.erase name
  | clear => exact Registry.sound_empty
  | setStrict strict => exact h
  | setLoader loader => exact h
  | setFiles files => exact h

theorem Reached.loadAll {engine engine' : Engine} (hreached : engine.Reached)
    {loads : List (String × Source)} {ts : List Template}
    (h : engine.loadAll loads = .ok (ts, engine')) : engine'.Reached := by
  induction loads generalizing engine ts with
  | nil =>
    obtain ⟨-, rfl⟩ := Prod.mk.inj (Except.ok.inj h)
    exact hreached
  | cons load loads ih =>
    obtain ⟨name, source⟩ := load
    obtain ⟨t, next, ts', hload, hrest, -⟩ := loadAll_cons_ok_iff.1 h
    exact ih (hreached.step (.load hload)) hrest

/-- Whatever is done to an engine, its templates have been parsed. -/
theorem Reached.sound {engine : Engine} (hreached : engine.Reached) : engine.templates.Sound := by
  induction hreached with
  | start settings files => exact Registry.sound_empty
  | step hreached hstep ih => exact hstep.sound ih

end Engine

end StyledTemplate
