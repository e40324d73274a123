import StyledTemplate.Proofs.Engine.Reached
import StyledTemplate.Proofs.Inheritance.Owners

/-!
# Failures of rendering a template by name

If a template cannot be rendered, then the error says where: either no chain can be followed from
the template, or a directive fails that stands at the place of the error in the template of the
error, which is one of the chain (`Engine.render_fails`).
-/

namespace StyledTemplate

namespace Engine

/-- The chain of a template cannot be followed. -/
structure ChainFails (engine : Engine) (t : Template) (source : Error) : Prop where
  /-- This is the error. -/
  error : chain engine.templates t = .error source
  /-- A template is missing, or the chain comes back to one. -/
  kind : source.IsOfChain

/-- A directive fails that stands in a template of the chain, at a place that this template keeps
for it. -/
def DirectiveFails (engine : Engine) (t : Template) (owner : String) (position : Position)
    (source : Error) : Prop :=
  ∃ ts, chain engine.templates t = .ok ts ∧
    ∃ member ∈ ts, member.name = owner ∧
      ∃ directive, (directive, position) ∈ member.places ∧
        directive.Fails engine.settings.strict source

theorem render_eq {engine : Engine} {name : String} {t : Template}
    (ht : engine.template? name = some t) (bindings : Bindings) :
    engine.render name bindings =
      (do
        let chain ← (chain engine.templates t).mapError (·.inTemplate name none)
        let root := (chain.getLast?.map Template.name).getD name
        renderDocument (engine.scene bindings root) (resolveChain chain)) := by
  rw [render, find, ht]
  rfl

theorem render_of_chain {engine : Engine} {name : String} {t : Template}
    (ht : engine.template? name = some t) {descendants : List Template} {root : Template}
    (hchain : chain engine.templates t = .ok (descendants ++ [root])) (bindings : Bindings) :
    engine.render name bindings =
      renderDocument (engine.scene bindings root.name) (resolveChain (descendants ++ [root])) := by
  rw [render_eq ht, hchain]
  show renderDocument (engine.scene bindings _) _ = _
  rw [List.getLast?_concat]
  rfl

/-- A template without a parent shows its own blocks. -/
theorem render_of_root {engine : Engine} {name : String} {t : Template}
    (ht : engine.template? name = some t) (hparent : t.parent = none) (bindings : Bindings) :
    engine.render name bindings = renderDocument (engine.scene bindings t.name) t.blocks := by
  have hchain : chain engine.templates t = .ok ([] ++ [t]) := by
    rw [chain, ancestors_of_root hparent]
    rfl
  rw [render_of_chain ht hchain]
  rfl

theorem render_of_chain_error {engine : Engine} {name : String} {t : Template}
    (ht : engine.template? name = some t) {source : Error}
    (hchain : chain engine.templates t = .error source) (bindings : Bindings) :
    engine.render name bindings = .error (source.inTemplate name none) := by
  rw [render_eq ht, hchain]
  rfl

theorem stable_scene {engine : Engine} (hloader : engine.loader.Honest) (bindings : Bindings)
    (name : String) : (engine.scene bindings name).Stable engine.settings.strict :=
  ⟨rfl, hloader⟩

theorem inTemplate_of_isOfChain {source : Error} (h : source.IsOfChain) (name : String)
    (location : Option Position) :
    source.inTemplate name location = .render name location source ∧
      ∀ template location e, source ≠ .render template location e := by
  rcases h with ⟨missing, rfl⟩ | ⟨names, rfl⟩
  · exact ⟨rfl, nofun⟩
  · exact ⟨rfl, nofun⟩

/-- Whatever is done to an engine, if a registered template cannot be rendered, then the error is
wrapped once, with the name of the template and no place if its chain cannot be followed, and
otherwise with the template of the chain in which a directive fails, and the place of this
directive. -/
theorem render_fails {engine : Engine} (hreached : engine.Reached)
    (hloader : engine.loader.Honest) {name : String} {t : Template}
    (ht : engine.template? name = some t) {bindings : Bindings} {e : Error}
    (h : engine.render name bindings = .error e) :
    ∃ template location source, e = .render template location source ∧
      (∀ template' location' source', source ≠ .render template' location' source') ∧
      ((location = none ∧ template = name ∧ engine.ChainFails t source) ∨
        ∃ position, location = some position ∧
          engine.DirectiveFails t template position source) := by
  have hsound := hreached.sound
  cases hchain : chain engine.templates t with
  | error source =>
    rw [render_of_chain_error ht hchain] at h
    obtain rfl := Except.error.inj h
    have hkind := chain_fails engine.templates t source hchain
    obtain ⟨hwrapped, hunwrapped⟩ := inTemplate_of_isOfChain hkind name none
    exact ⟨name, none, source, hwrapped, hunwrapped, .inl ⟨rfl, rfl, hchain, hkind⟩⟩
  | ok ts =>
    have hparsed := hsound.isParsed_of_chain (hsound.of_find? ht) hchain
    obtain ⟨descendants, root, rfl⟩ := exists_chain_eq_concat hchain
    rw [render_of_chain ht hchain] at h
    have hstable := stable_scene hloader bindings root.name
    have hfails := renderDocument_fails (resolveChain (descendants ++ [root])) hstable e h
    obtain ⟨site, hsite, source, hsource, rfl⟩ := hfails
    obtain ⟨member, hmember, howner, hplace⟩ := owned_of_mem_sites_resolveChain hparsed hsite
    refine ⟨site.template, some site.position, source, rfl, hsource.ne_render, .inr ?_⟩
    exact ⟨site.position, rfl, _, hchain, member, hmember, howner, site.directive, hplace, hsource⟩

/-- A letter, and a reminder that greets by a name. -/
def namedReminder : List (String × Source) :=
  [("letter", .document letterDocument),
    ("reminder", .text ("\x7b\x7bextends letter\x7d\x7d" ++
      "\x7b\x7b#block greeting\x7d\x7dHello \x7b\x7bname\x7d\x7d\x7b\x7b/block\x7d\x7d"))]

/-- Without a name the letter fails where the reminder greets. -/
theorem namedReminder_fails : ∃ engine t, Reached engine ∧
    engine.template? "reminder" = some t ∧
    engine.render "reminder" {} =
      .error (.render "reminder" (some { paragraph := 0, offset := 43 })
        (.variableResolution "name")) ∧
    engine.DirectiveFails t "reminder" { paragraph := 0, offset := 43 }
      (.variableResolution "name") := by
  have hrun : (((ofSettings { strict := true } default).loadAll namedReminder).toOption.map
      fun loaded => ((loaded.2.template? "reminder").isSome,
        failure? (loaded.2.render "reminder" {}))) =
      some (true, some (.render "reminder" (some { paragraph := 0, offset := 43 })
        (.variableResolution "name"))) := by decide +kernel
  obtain ⟨⟨ts, engine⟩, hloaded, hresult⟩ := Option.map_eq_some_iff.1 hrun
  obtain ⟨hsome, hfailure⟩ := Prod.mk.inj hresult
  have hloads := toOption_eq_some_iff.1 hloaded
  have hreached := (Reached.start _ _).loadAll hloads
  obtain ⟨t, ht⟩ := Option.isSome_iff_exists.1 hsome
  have hrender := failure?_eq_some_iff.1 hfailure
  have hloader : engine.loader.Honest := by
    rw [(unchanged_of_loadAll hloads).2]
    exact ImageLoader.honest_files default []
  obtain ⟨template, location, source, heq, -, hblame⟩ := render_fails hreached hloader ht hrender
  obtain ⟨rfl, rfl, rfl⟩ := Error.render.inj heq
  rcases hblame with ⟨hnone, -⟩ | ⟨position, hposition, hfails⟩
  · cases hnone
  · obtain rfl := Option.some.inj hposition
    exact ⟨engine, t, hreached, ht, hrender, hfails⟩

end Engine

end StyledTemplate
