import StyledTemplate.Proofs.Engine.Failures
import StyledTemplate.Proofs.Render.Lookups
import StyledTemplate.Proofs.Template.Lenient

/-!
# Strict mode only rejects

What is loaded and rendered in strict mode is the same out of it, and out of strict mode only an
image can make the rendering of a chain fail (`Engine.strict_only_rejects`).
-/

namespace StyledTemplate

/-! ## Rendering -/

/-- The scene out of strict mode. -/
def Scene.lenient (scene : Scene) : Scene :=
  { scene with
    context := { scene.context with strict := false }
    settings := scene.settings.lenient }

theorem text_lenient (context : Context) (path text : String) (h : context.text path = .ok text) :
    Context.text { context with strict := false } path = .ok text := by
  have hget : Context.get? { context with strict := false } path = context.get? path := rfl
  unfold Context.text at h ⊢
  rw [hget]
  cases hfound : context.get? path with
  | some value =>
    rw [hfound] at h
    exact h
  | none =>
    rw [hfound] at h
    cases hstrict : context.strict with
    | true => simp [hstrict] at h
    | false => simpa [hstrict] using h

theorem entries_lenient (context : Context) (list : String) (entries : List Value)
    (h : context.entries list = .ok entries) :
    Context.entries { context with strict := false } list = .ok entries := by
  have hget : Context.entries? { context with strict := false } list = context.entries? list := rfl
  unfold Context.entries at h ⊢
  rw [hget]
  cases hfound : context.entries? list with
  | some entries =>
    rw [hfound] at h
    exact h
  | none =>
    rw [hfound] at h
    cases hstrict : context.strict with
    | true => simp [hstrict] at h
    | false => simpa [hstrict] using h

/-- Whatever is looked up with success in strict mode gives the same out of it. -/
theorem Scene.compares_lenient (scene : Scene) :
    scene.Compares (fun _ x y => ∀ a, x = .ok a → y = .ok a) (fun _ => True) scene.lenient where
  template := rfl
  scopes := rfl
  merge := rfl
  text path _ scopes := text_lenient { scene.context with scopes } path
  holds _ _ _ := rfl
  entries list _ scopes := entries_lenient { scene.context with scopes } list
  image _ _ _ _ h := h

theorem renderDocument_lenient {scene : Scene} {blocks : List Block} {document : Document}
    (h : renderDocument scene blocks = .ok document) :
    renderDocument scene.lenient blocks = .ok document := by
  have hlooks : ∀ l ∈ lookupsOf blocks, True := fun _ _ => trivial
  exact renderDocument_compares comparison_ok hlooks scene.compares_lenient document h

/-! ## Engines -/

namespace Engine

theorem documentOf?_setStrict (engine : Engine) (strict : Bool) (source : Source) :
    (engine.setStrict strict).documentOf? source = engine.documentOf? source := by
  cases source <;> rfl

theorem loadFrom_lenient {engine strictEngine : Engine} {name : String} {source : Source}
    {t : Template} (h : (engine.setStrict true).loadFrom name source = .ok (t, strictEngine)) :
    (engine.setStrict false).loadFrom name source = .ok (t, strictEngine.setStrict false) := by
  obtain ⟨document, hdocument, hparsed, rfl⟩ := loadFrom_ok_iff.1 h
  rw [documentOf?_setStrict] at hdocument
  have hlenient := Template.ofDocument_lenient hparsed
  refine loadFrom_ok_iff.2 ⟨document, ?_, hlenient, rfl⟩
  rw [documentOf?_setStrict]
  exact hdocument

/-- Templates that are loaded in strict mode are loaded as the same templates out of it. -/
theorem loadAll_lenient {engine strictEngine : Engine} {loads : List (String × Source)}
    {ts : List Template} (h : (engine.setStrict true).loadAll loads = .ok (ts, strictEngine)) :
    (engine.setStrict false).loadAll loads = .ok (ts, strictEngine.setStrict false) := by
  induction loads generalizing engine ts with
  | nil =>
    obtain ⟨rfl, rfl⟩ := Prod.mk.inj (Except.ok.inj h)
    rfl
  | cons load loads ih =>
    obtain ⟨name, source⟩ := load
    obtain ⟨t, next, ts', hload, hrest, rfl⟩ := loadAll_cons_ok_iff.1 h
    have hnext : next = next.setStrict true := by
      obtain ⟨document, -, -, rfl⟩ := loadFrom_ok_iff.1 hload
      rfl
    rw [hnext] at hrest
    exact loadAll_cons_ok_iff.2 ⟨t, next.setStrict false, ts', loadFrom_lenient hload, ih hrest, rfl⟩

/-- What is rendered in strict mode is rendered to the same document out of it. -/
theorem render_lenient {engine : Engine} {name : String} {bindings : Bindings}
    {document : Document} (h : engine.render name bindings = .ok document) :
    (engine.setStrict false).render name bindings = .ok document := by
  obtain ⟨t, hfind, hrest⟩ := exists_of_bind_eq_ok h
  have ht : engine.template? name = some t := by
    unfold find at hfind
    split at hfind
    · next found hfound =>
      rw [hfound, Except.ok.inj hfind]
    · cases hfind
  obtain ⟨ts, hmapped, -⟩ := exists_of_bind_eq_ok hrest
  have hchain := mapError_eq_ok_iff.1 hmapped
  obtain ⟨descendants, root, rfl⟩ := exists_chain_eq_concat hchain
  rw [render_of_chain ht hchain] at h
  have hlenient : (engine.setStrict false).template? name = some t := ht
  rw [render_of_chain hlenient hchain]
  exact renderDocument_lenient h

/-- Out of strict mode only images make the rendering of a chain fail. -/
theorem imageLoad_of_render_lenient {engine : Engine} (hstrict : engine.settings.strict = false)
    (hloader : engine.loader.Honest) {name : String} {t : Template}
    (ht : engine.template? name = some t) {ts : List Template}
    (hchain : chain engine.templates t = .ok ts) {bindings : Bindings} {e : Error}
    (h : engine.render name bindings = .error e) :
    ∃ template position image reason,
      e = .render template (some position) (.imageLoad image reason) := by
  obtain ⟨descendants, root, rfl⟩ := exists_chain_eq_concat hchain
  rw [render_of_chain ht hchain] at h
  have hstable := stable_scene hloader bindings root.name
  have hfails := renderDocument_fails (resolveChain (descendants ++ [root])) hstable e h
  obtain ⟨⟨template, directive, position⟩, -, source, hsource, rfl⟩ := hfails
  cases hsource with
  | placeholder htrue => exact absurd (hstrict.symm.trans htrue) nofun
  | loop htrue => exact absurd (hstrict.symm.trans htrue) nofun
  | image => exact ⟨template, position, _, _, rfl⟩

/-- If some templates are loaded in strict mode and one is rendered, then out of strict mode the same
templates are loaded and it is rendered to the same document. And out of strict mode, whatever has
been loaded, a template whose chain can be followed fails only for an image. -/
theorem strict_only_rejects (engine : Engine) (name : String) (bindings : Bindings) :
    (∀ loads ts strictEngine document,
      (engine.setStrict true).loadAll loads = .ok (ts, strictEngine) →
      strictEngine.render name bindings = .ok document →
      ∃ lenientEngine, (engine.setStrict false).loadAll loads = .ok (ts, lenientEngine) ∧
        lenientEngine.render name bindings = .ok document) ∧
    (engine.settings.strict = false → engine.loader.Honest →
      ∀ t ts, engine.template? name = some t → chain engine.templates t = .ok ts →
      ∀ e, engine.render name bindings = .error e →
        ∃ template position image reason,
          e = .render template (some position) (.imageLoad image reason)) := by
  constructor
  · intro loads ts strictEngine document hloads hrender
    exact ⟨strictEngine.setStrict false, loadAll_lenient hloads, render_lenient hrender⟩
  · intro hstrict hloader t ts ht hchain e h
    exact imageLoad_of_render_lenient hstrict hloader ht hchain h

/-- A card with a logo and a name. -/
def card : List (String × Source) :=
  [("card", .text "\x7b\x7b#image logo\x7d\x7d\x7b\x7bname\x7d\x7d")]

/-- An engine that reads no files. -/
def bare : Engine := ofSettings {} default

/-- A card for a name is the same in both modes. Out of strict mode it fails for a logo that cannot
be found. -/
theorem card_strict_only_rejects :
    (∃ ts strictEngine document,
      (bare.setStrict true).loadAll card = .ok (ts, strictEngine) ∧
      strictEngine.render "card" (.setValue {} "name" (.string "Ada")) = .ok document ∧
      ∃ lenientEngine, (bare.setStrict false).loadAll card = .ok (ts, lenientEngine) ∧
        lenientEngine.render "card" (.setValue {} "name" (.string "Ada")) = .ok document) ∧
    ∃ ts engine e, bare.loadAll card = .ok (ts, engine) ∧
      engine.render "card" (.setImage {} "logo" { source := .path "logo.png" }) = .error e ∧
      ∃ template position image reason,
        e = .render template (some position) (.imageLoad image reason) := by
  constructor
  · have hrun : ((bare.setStrict true).loadAll card).toOption.map (fun loaded =>
        (loaded.2.render "card" (.setValue {} "name" (.string "Ada"))).toOption.isSome) =
          some true := by decide +kernel
    obtain ⟨⟨ts, engine⟩, hloaded, hrendered⟩ := Option.map_eq_some_iff.1 hrun
    have hloads := toOption_eq_some_iff.1 hloaded
    obtain ⟨document, hdocument⟩ := exists_of_isSome_toOption hrendered
    have hsame := (strict_only_rejects bare "card" _).1 card ts engine document hloads hdocument
    exact ⟨ts, engine, document, hloads, hdocument, hsame⟩
  · have hrun : (bare.loadAll card).toOption.map (fun loaded =>
        (((loaded.2.template? "card").bind fun t =>
            (chain loaded.2.templates t).toOption).isSome,
          (failure? (loaded.2.render "card"
            (.setImage {} "logo" { source := .path "logo.png" }))).isSome)) =
          some (true, true) := by decide +kernel
    obtain ⟨⟨ts, engine⟩, hloaded, hresult⟩ := Option.map_eq_some_iff.1 hrun
    obtain ⟨hchain, hfailure⟩ := Prod.mk.inj hresult
    have hloads := toOption_eq_some_iff.1 hloaded
    obtain ⟨hsettings, hloader⟩ := unchanged_of_loadAll hloads
    obtain ⟨chained, hchained⟩ := Option.isSome_iff_exists.1 hchain
    obtain ⟨t, ht, hts⟩ := Option.bind_eq_some_iff.1 hchained
    obtain ⟨e, he⟩ := Option.isSome_iff_exists.1 hfailure
    have hrender := failure?_eq_some_iff.1 he
    have hstrict : engine.settings.strict = false := congrArg TemplateSettings.strict hsettings
    have hhonest : engine.loader.Honest := by
      rw [hloader]
      exact ImageLoader.honest_files default []
    have himage := (strict_only_rejects engine "card" _).2 hstrict hhonest t chained ht
      (toOption_eq_some_iff.1 hts) e hrender
    exact ⟨ts, engine, e, hloads, hrender, himage⟩

end Engine

end StyledTemplate
