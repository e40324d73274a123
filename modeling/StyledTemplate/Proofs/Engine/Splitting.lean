import StyledTemplate.Proofs.Document.Splitting
import StyledTemplate.Proofs.Engine.Failures
import StyledTemplate.Proofs.Inheritance.Spelling
import StyledTemplate.Proofs.Render.Spelling

/-!
# Splitting runs is invisible

Two engines that go through the same steps, except that some documents come with their runs split in
the second one (`Engine.Twins`), cannot be told apart: the same documents are rejected with the same
errors, and the same names are rendered to the same compact documents.
-/

namespace StyledTemplate

/-! ## Templates -/

/-- Documents that are spelled out alike are parsed to templates that are. -/
theorem Template.matches_of_spell_eq (settings : TemplateSettings) (name : String) {d d' : Document}
    (h : d.spell = d'.spell) :
    Matches (fun t t' : Template => t.spell = t'.spell) (ofDocument settings name d)
      (ofDocument settings name d') := by
  have hone := ofDocument_spell settings name d
  rw [h, ofDocument_spell settings name d'] at hone
  exact .of_map_eq hone.symm

theorem Registry.Alike.insert {registry registry' : Registry} (h : registry.Alike registry')
    {t t' : Template} (ht : t.spell = t'.spell) :
    (registry.insert t).Alike (registry'.insert t') := by
  have hnames : t.spell.name = t'.spell.name := congrArg Template.name ht
  have hname : t.name = t'.name := hnames
  intro name
  rw [Registry.find?_insert, Registry.find?_insert, hname]
  by_cases heq : t'.name = name
  · rw [if_pos heq, if_pos heq]
    exact congrArg some ht
  · rw [if_neg heq, if_neg heq]
    exact h name

namespace Engine

/-! ## Engines -/

/-- The engines have been set up alike, and their templates differ only in how runs are split. -/
structure Alike (engine engine' : Engine) : Prop where
  /-- They have the same settings. -/
  settings : engine.settings = engine'.settings
  /-- They take the bytes of images from the same place. -/
  loader : engine.loader = engine'.loader
  /-- They see the same files. -/
  files : engine.files = engine'.files
  /-- They keep the same templates, up to how runs are split. -/
  templates : engine.templates.Alike engine'.templates
  /-- The templates of the first one have been parsed. -/
  sound : engine.templates.Sound
  /-- So have those of the second one. -/
  sound' : engine'.templates.Sound

/-- Some text runs of the document, if it is one, have been split. -/
inductive Source.Splits : Source → Source → Prop
  | document {d d' : Document} (h : d.Splits d') : Source.Splits (.document d) (.document d')
  | same (source : Source) : Source.Splits source source

namespace Alike

variable {engine engine' : Engine}

theorem matches_loadDocument (h : engine.Alike engine') (name : String) {d d' : Document}
    (hd : d.spell = d'.spell) :
    Matches (fun loaded loaded' => loaded.2.Alike loaded'.2) (engine.loadDocument name d)
      (engine'.loadDocument name d') := by
  have hparse := Template.matches_of_spell_eq engine.settings name hd
  unfold loadDocument
  rw [← h.settings]
  generalize ht : Template.ofDocument engine.settings name d = x at hparse ⊢
  generalize ht' : Template.ofDocument engine.settings name d' = y at hparse ⊢
  cases hparse with
  | error e => exact .error _
  | ok hspell =>
    have hsound := h.sound.insert ⟨_, _, d, ht⟩
    have hsound' := h.sound'.insert ⟨_, _, d', ht'⟩
    exact .ok ⟨h.settings, h.loader, h.files, h.templates.insert hspell, hsound, hsound'⟩

/-- A source is loaded by both engines, split or not, or rejected by both with the same error. -/
theorem matches_loadFrom (h : engine.Alike engine') (name : String) {source source' : Source}
    (hsource : source.Splits source') :
    Matches (fun loaded loaded' => loaded.2.Alike loaded'.2) (engine.loadFrom name source)
      (engine'.loadFrom name source') := by
  cases hsource with
  | document hd => exact h.matches_loadDocument name hd.spell_eq
  | same source =>
    cases source with
    | document d => exact h.matches_loadDocument name rfl
    | text text => exact h.matches_loadDocument name rfl
    | file path =>
      rw [loadFrom, loadFrom, loadFile, loadFile, ← h.settings, ← h.files]
      rcases engine.files.search? engine.settings.dirs path with _ | ⟨found, reason | data⟩
      · exact .error _
      · exact .error _
      · dsimp only
        cases textOfBytes? data with
        | none => exact .error _
        | some text => exact h.matches_loadDocument name rfl

theorem setStrict (h : engine.Alike engine') (strict : Bool) :
    (engine.setStrict strict).Alike (engine'.setStrict strict) where
  settings := congrArg (fun settings => { settings with strict }) h.settings
  loader := h.loader
  files := h.files
  templates := h.templates
  sound := h.sound
  sound' := h.sound'

theorem clear (h : engine.Alike engine') : engine.clear.Alike engine'.clear where
  settings := h.settings
  loader := h.loader
  files := h.files
  templates _ := rfl
  sound := Registry.sound_empty
  sound' := Registry.sound_empty

theorem remove (h : engine.Alike engine') (name : String) :
    (engine.remove name).Alike (engine'.remove name) where
  settings := h.settings
  loader := h.loader
  files := h.files
  templates := by
    intro other
    have hother := h.templates other
    rw [Engine.remove, Engine.remove, Registry.find?_erase, Registry.find?_erase]
    by_cases heq : name = other
    · rw [if_pos heq, if_pos heq]
    · rw [if_neg heq, if_neg heq, hother]
  sound := h.sound.erase name
  sound' := h.sound'.erase name

theorem setLoader (h : engine.Alike engine') (loader : ImageLoader) :
    (engine.setLoader loader).Alike (engine'.setLoader loader) where
  settings := h.settings
  loader := rfl
  files := h.files
  templates := h.templates
  sound := h.sound
  sound' := h.sound'

theorem setFiles (h : engine.Alike engine') (files : FileTree) :
    (engine.setFiles files).Alike (engine'.setFiles files) where
  settings := h.settings
  loader := congrArg (ImageLoader.setFiles · files) h.loader
  files := rfl
  templates := h.templates
  sound := h.sound
  sound' := h.sound'

/-! ## Rendering -/

/-- Chains that are spelled out alike are rendered to documents that are. -/
theorem matches_renderChain (scene : Scene) {descendants descendants' : List Template}
    {root root' : Template} (hparsed : ∀ t ∈ descendants ++ [root], t.IsParsed)
    (hparsed' : ∀ t ∈ descendants' ++ [root'], t.IsParsed)
    (hspell : (descendants ++ [root]).map Template.spell =
      (descendants' ++ [root']).map Template.spell) :
    Matches (fun d d' : Document => d.spell = d'.spell)
      (renderDocument scene (resolveChain (descendants ++ [root])))
      (renderDocument scene (resolveChain (descendants' ++ [root']))) := by
  have hone := matches_renderDocument (backedTree_resolveChain hparsed) scene
  have hother := matches_renderDocument (backedTree_resolveChain hparsed') scene
  rw [← resolveChain_spell hparsed'] at hother
  rw [← resolveChain_spell hparsed, hspell] at hone
  refine (hone.join hother).mono ?_
  rintro d d' ⟨spelled, hd, hd'⟩
  exact hd.trans hd'.symm

/-- A name is rendered by both engines to documents that are spelled out alike, or by neither, with
the same error. -/
theorem matches_render (h : engine.Alike engine') (name : String) (bindings : Bindings) :
    Matches (fun d d' : Document => d.spell = d'.spell) (engine.render name bindings)
      (engine'.render name bindings) := by
  have hname := h.templates name
  cases ht : engine.template? name with
  | none =>
    have hfind : engine.templates.find? name = none := ht
    rw [hfind] at hname
    have ht' : engine'.template? name = none := Option.map_eq_none_iff.1 hname.symm
    rw [render, find, ht, render, find, ht']
    exact .error _
  | some t =>
    have hfind : engine.templates.find? name = some t := ht
    rw [hfind] at hname
    obtain ⟨t', ht', hspell⟩ := Option.map_eq_some_iff.1 hname.symm
    have hchains := matches_chain h.templates hspell.symm
    rcases hchains.cases_ok with ⟨e, hchain, hchain'⟩ | ⟨ts, ts', hchain, hchain', hts⟩
    · rw [render_of_chain_error ht hchain, render_of_chain_error ht' hchain']
      exact .error _
    · have hparsed := h.sound.isParsed_of_chain (h.sound.of_find? hfind) hchain
      have hparsed' := h.sound'.isParsed_of_chain (h.sound'.of_find? ht') hchain'
      obtain ⟨descendants, root, rfl⟩ := exists_chain_eq_concat hchain
      obtain ⟨descendants', root', rfl⟩ := exists_chain_eq_concat hchain'
      have hroot : root.spell = root'.spell := by
        rw [List.map_append, List.map_append] at hts
        exact List.cons.inj (List.append_inj' hts rfl).2 |>.1
      have hrootName : root.name = root'.name := by
        have hnames : root.spell.name = root'.spell.name := congrArg Template.name hroot
        exact hnames
      have hscene : engine'.scene bindings root'.name = engine.scene bindings root.name := by
        rw [scene, scene, h.settings, h.loader, hrootName]
      rw [render_of_chain ht hchain, render_of_chain ht' hchain', hscene]
      exact matches_renderChain _ hparsed hparsed' hts

end Alike

/-! ## Twins -/

/-- The engines have gone through the same, except that some documents came with their runs split in
the second one. -/
inductive Twins : Engine → Engine → Prop
  | same {engine : Engine} (hreached : engine.Reached) : Twins engine engine
  | load {engine engine' next next' : Engine} (htwins : Twins engine engine') {name : String}
      {source source' : Source} (hsource : source.Splits source') {t t' : Template}
      (hload : engine.loadFrom name source = .ok (t, next))
      (hload' : engine'.loadFrom name source' = .ok (t', next')) : Twins next next'
  | remove {engine engine' : Engine} (htwins : Twins engine engine') (name : String) :
      Twins (engine.remove name) (engine'.remove name)
  | clear {engine engine' : Engine} (htwins : Twins engine engine') :
      Twins engine.clear engine'.clear
  | setStrict {engine engine' : Engine} (htwins : Twins engine engine') (strict : Bool) :
      Twins (engine.setStrict strict) (engine'.setStrict strict)
  | setLoader {engine engine' : Engine} (htwins : Twins engine engine') (loader : ImageLoader) :
      Twins (engine.setLoader loader) (engine'.setLoader loader)
  | setFiles {engine engine' : Engine} (htwins : Twins engine engine') (files : FileTree) :
      Twins (engine.setFiles files) (engine'.setFiles files)

/-- The templates of twins differ only in how runs are split. -/
theorem Twins.alike {engine engine' : Engine} (htwins : Twins engine engine') :
    engine.Alike engine' := by
  induction htwins with
  | same hreached => exact ⟨rfl, rfl, rfl, fun _ => rfl, hreached.sound, hreached.sound⟩
  | @load _ _ _ _ _ name _ _ hsource _ _ hload hload' ih =>
    have hmatches := ih.matches_loadFrom name hsource
    rw [hload, hload'] at hmatches
    cases hmatches with
    | ok halike => exact halike
  | remove _ name ih => exact ih.remove name
  | clear _ ih => exact ih.clear
  | setStrict _ strict ih => exact ih.setStrict strict
  | setLoader _ loader ih => exact ih.setLoader loader
  | setFiles _ files ih => exact ih.setFiles files

/-- Twins load a document, split or not, or reject it with the same error; and they render each name
to the same compact document, or fail with the same error. -/
theorem Twins.same_outcomes {engine engine' : Engine} (htwins : Twins engine engine') :
    (∀ name d d', d.Splits d' →
      (∃ e, engine.loadDocument name d = .error e ∧ engine'.loadDocument name d' = .error e) ∨
      ∃ t next t' next', engine.loadDocument name d = .ok (t, next) ∧
        engine'.loadDocument name d' = .ok (t', next') ∧ Twins next next') ∧
    ∀ name bindings, (engine.render name bindings).map Document.compact =
      (engine'.render name bindings).map Document.compact := by
  have halike := htwins.alike
  constructor
  · intro name d d' hd
    have hloads := halike.matches_loadFrom name (.document hd)
    rcases hloads.cases_ok with ⟨e, hload, hload'⟩ | ⟨⟨t, next⟩, ⟨t', next'⟩, hload, hload', -⟩
    · exact .inl ⟨e, hload, hload'⟩
    · exact .inr ⟨t, next, t', next', hload, hload', htwins.load (.document hd) hload hload'⟩
  · intro name bindings
    refine Matches.map_eq ((halike.matches_render name bindings).mono ?_)
    intro d d' hd
    exact Document.compact_eq hd

/-- A greeting, as it is and with its directive spread over several runs. -/
def greeting : Document where
  body := [.paragraph (.ofRuns [.ofText "Dear \x7b\x7bname\x7d\x7d!"])]

def splitGreeting : Document where
  body := [.paragraph (.ofRuns
    [.ofText "Dear \x7b", .ofText "\x7bna", .ofText "", .ofText "me\x7d\x7d!"])]

theorem greeting_splits : greeting.Splits splitGreeting := by
  have hruns : RunsSplit [.ofText (String.join ["Dear \x7b", "\x7bna", "", "me\x7d\x7d!"])]
      ([.ofText "Dear \x7b", .ofText "\x7bna", .ofText "", .ofText "me\x7d\x7d!"] ++ []) :=
    .split {} (List.cons_ne_nil _ _) .nil
  have hjoin : String.join ["Dear \x7b", "\x7bna", "", "me\x7d\x7d!"] =
      "Dear \x7b\x7bname\x7d\x7d!" := by decide +kernel
  rw [hjoin] at hruns
  exact .cons (.paragraph hruns) .nil

/-- Both greetings are loaded, and both greet by the same name. -/
theorem greeting_same_outcomes : ∃ engine engine' document, Twins engine engine' ∧
    engine.render "greeting" (.setValue {} "name" (.string "Ada")) = .ok document ∧
    (engine.render "greeting" (.setValue {} "name" (.string "Ada"))).map Document.compact =
      (engine'.render "greeting" (.setValue {} "name" (.string "Ada"))).map Document.compact := by
  have hrun : ((ofSettings {} default).loadDocument "greeting" greeting).toOption.map
      (fun loaded => (loaded.2.render "greeting"
        (.setValue {} "name" (.string "Ada"))).toOption.isSome) = some true := by decide +kernel
  obtain ⟨⟨t, engine⟩, hloaded, hrendered⟩ := Option.map_eq_some_iff.1 hrun
  have hload := toOption_eq_some_iff.1 hloaded
  obtain ⟨document, hdocument⟩ := exists_of_isSome_toOption hrendered
  have hstart := Twins.same (Reached.start {} default)
  rcases hstart.same_outcomes.1 "greeting" _ _ greeting_splits with
    ⟨e, herror, -⟩ | ⟨_, next, _, engine', hnext, -, htwins⟩
  · cases hload.symm.trans herror
  · obtain ⟨rfl, rfl⟩ := Prod.mk.inj (Except.ok.inj (hload.symm.trans hnext))
    exact ⟨engine, engine', document, htwins, hdocument, htwins.same_outcomes.2 "greeting" _⟩

end Engine

end StyledTemplate
