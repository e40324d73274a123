import StyledTemplate.Proofs.Engine.Failures
import StyledTemplate.Proofs.Engine.History
import StyledTemplate.Proofs.Inheritance.Walk

/-!
# Templates that are not on a chain do not matter

A name is shown from the templates on its chain and from nothing else: no other name is ever looked
up. So whatever is loaded, badly loaded or removed under a name that is not on the chain, the name is
rendered as before, and engines that agree on the chain, the settings and the loader of images show
the same, however they have come about (`Engine.unrelated_left_alone`).
-/

namespace StyledTemplate

/-! ## Chains -/

/-- Under the names of some templates both registries keep the same. -/
def Registry.AgreeOn (registry registry' : Registry) (ts : List Template) : Prop :=
  ∀ t ∈ ts, registry'.find? t.name = registry.find? t.name

section Chains

variable {registry registry' : Registry} {t : Template} {ts : List Template}

/-- The way along the parents goes over the same templates, if both registries keep the same under
the names on it. -/
theorem ancestors_of_agreeOn {visited : List String}
    (h : ancestors registry visited t = .ok ts) (hagree : registry.AgreeOn registry' ts) :
    ancestors registry' visited t = .ok ts := by
  induction visited, t using ancestors.induct registry generalizing ts with
  | case1 visited t hparent =>
    rw [ancestors_of_root hparent] at h ⊢
    exact h
  | case2 visited t parent hparent hvisited =>
    rw [ancestors_of_visited hparent hvisited] at h
    cases h
  | case3 visited t parent hparent hnew hmissing =>
    rw [ancestors_of_missing hparent hnew hmissing] at h
    cases h
  | case4 visited t parent hparent hnew next hfound ih =>
    rw [ancestors_of_found hparent hnew hfound] at h
    obtain ⟨rest, hrest, h⟩ := exists_of_bind_eq_ok h
    obtain rfl := Except.ok.inj h
    obtain ⟨hnext, hagree⟩ := List.forall_mem_cons.1 hagree
    rw [Registry.name_of_find? hfound, hfound] at hnext
    rw [ancestors_of_found hparent hnew hnext, ih hrest hagree]
    rfl

/-- A chain depends only on what is kept under the names on it. -/
theorem chain_of_agreeOn (h : chain registry t = .ok ts)
    (hagree : registry.AgreeOn registry' ts) : chain registry' t = .ok ts := by
  obtain ⟨rest, hrest, h⟩ := exists_of_bind_eq_ok h
  obtain rfl := Except.ok.inj h
  have hother := ancestors_of_agreeOn hrest (List.forall_mem_cons.1 hagree).2
  rw [chain, hother]
  rfl

/-- A chain starts with its template. -/
theorem mem_of_chain (h : chain registry t = .ok ts) : t ∈ ts := by
  obtain ⟨rest, -, h⟩ := exists_of_bind_eq_ok h
  obtain rfl := Except.ok.inj h
  exact List.mem_cons_self

end Chains

namespace Engine

/-! ## Rendering -/

theorem usage_of_chain {engine : Engine} {name : String} {t : Template} {ts : List Template}
    (ht : engine.template? name = some t) (hchain : chain engine.templates t = .ok ts) :
    engine.usage name = .ok (Usage.ofBlocks name (resolveChain ts)) := by
  rw [usage, find, ht]
  show ((chain engine.templates t).map resolveChain >>= fun blocks =>
    pure (Usage.ofBlocks name blocks)) = _
  rw [hchain]
  rfl

/-- Both engines keep the same template under a name, with the same chain, and show the same of
it. -/
structure ShowsAlike (engine engine' : Engine) (name : String) : Prop where
  /-- They keep the same template. -/
  template : engine'.template? name = engine.template? name
  /-- It has the same chain in both. -/
  chain : ∀ t, engine.template? name = some t →
    chain engine'.templates t = chain engine.templates t
  /-- It is rendered to the same document or error. -/
  render : ∀ bindings, engine'.render name bindings = engine.render name bindings
  /-- It is found to use the same names. -/
  usage : engine'.usage name = engine.usage name

section ShowsAlike

variable {engine : Engine} {name : String} {t : Template} {ts : List Template}

/-- Engines that are set up alike and agree on the chain of a name show the same of it. -/
theorem showsAlike_of_agreeOn (ht : engine.template? name = some t)
    (hchain : StyledTemplate.chain engine.templates t = .ok ts) {engine' : Engine}
    (hsettings : engine'.settings = engine.settings) (hloader : engine'.loader = engine.loader)
    (hagree : engine.templates.AgreeOn engine'.templates ts) : engine.ShowsAlike engine' name := by
  have hname : t.name = name := Registry.name_of_find? ht
  have hsame : engine'.template? name = engine.template? name := by
    have hleaf := hagree t (mem_of_chain hchain)
    rwa [hname] at hleaf
  have ht' : engine'.template? name = some t := hsame.trans ht
  have hchain' := chain_of_agreeOn hchain hagree
  obtain ⟨descendants, root, rfl⟩ := exists_chain_eq_concat hchain
  refine ⟨hsame, fun t' h => ?_, fun bindings => ?_, ?_⟩
  · obtain rfl := Option.some.inj (ht.symm.trans h)
    rw [hchain', hchain]
  · have hscene : engine'.scene bindings root.name = engine.scene bindings root.name := by
      rw [scene, scene, hsettings, hloader]
    rw [render_of_chain ht' hchain', render_of_chain ht hchain, hscene]
  · rw [usage_of_chain ht' hchain', usage_of_chain ht hchain]

end ShowsAlike

theorem loader_after_load (engine : Engine) (name : String) (source : Source) :
    (engine.after (.load name source)).loader = engine.loader := by
  cases hload : engine.loadFrom name source with
  | error e => rw [after_load_of_error hload]
  | ok loaded =>
    obtain ⟨t, next⟩ := loaded
    obtain ⟨document, -, -, rfl⟩ := loadFrom_ok_iff.1 hload
    rw [after_load hload]
    rfl

/-- Calls that do not affect the names of some templates leave alone what is kept under them. -/
theorem agreeOn_after {engine : Engine} {call : Call} {ts : List Template}
    (h : ∀ t ∈ ts, ¬ call.Affects engine t.name) :
    engine.templates.AgreeOn (engine.after call).templates ts := by
  intro t ht
  exact template?_after (h t ht)

/-- Whatever is done under a name that is not on the chain of another one, be it that a template is
loaded, with success or not, or removed, the other one is kept, resolved, rendered and analysed as
before. So all engines that agree on the templates of a chain, the settings and the loader of images
show the same of it. -/
theorem unrelated_left_alone {engine : Engine} {name : String} {t : Template}
    {ts : List Template} (ht : engine.template? name = some t)
    (hchain : StyledTemplate.chain engine.templates t = .ok ts) :
    (∀ other, other ∉ namesOf ts →
      (∀ source, engine.ShowsAlike (engine.after (.load other source)) name) ∧
        engine.ShowsAlike (engine.after (.remove other)) name) ∧
    ∀ engine' : Engine, engine'.settings = engine.settings → engine'.loader = engine.loader →
      (∀ member ∈ ts, engine'.template? member.name = engine.template? member.name) →
        engine.ShowsAlike engine' name := by
  refine ⟨fun other hother => ⟨fun source => ?_, ?_⟩, fun engine' hsettings hloader hagree =>
    showsAlike_of_agreeOn ht hchain hsettings hloader hagree⟩
  · refine showsAlike_of_agreeOn ht hchain (settings_after engine _)
      (loader_after_load engine other source) (agreeOn_after ?_)
    intro member hmember haffects
    cases haffects
    exact hother (List.mem_map_of_mem hmember)
  · refine showsAlike_of_agreeOn ht hchain rfl rfl (agreeOn_after ?_)
    intro member hmember haffects
    cases haffects
    exact hother (List.mem_map_of_mem hmember)

/-- A letter, a reminder that inherits from it, and a card that inherits from the reminder. -/
def postCalls : List Call :=
  [.load "letter" (.text "Dear \x7b\x7b#block greeting\x7d\x7dreader\x7b\x7b/block\x7d\x7d"),
    .load "reminder" (.text ("\x7b\x7bextends letter\x7d\x7d" ++
      "\x7b\x7b#block greeting\x7d\x7d\x7b\x7bname\x7d\x7d\x7b\x7b/block\x7d\x7d")),
    .load "card" (.text "\x7b\x7bextends reminder\x7d\x7d")]

/-- Neither a card that makes a circle, nor a broken one, nor none at all changes the reminder. -/
theorem postCalls_reminder_alike : ∃ t ts,
    (ofCalls {} default postCalls).template? "reminder" = some t ∧
    StyledTemplate.chain (ofCalls {} default postCalls).templates t = .ok ts ∧
    namesOf ts = ["reminder", "letter"] ∧
    (ofCalls {} default postCalls).ShowsAlike
      ((ofCalls {} default postCalls).after (.load "card" (.text "\x7b\x7bextends card\x7d\x7d")))
      "reminder" ∧
    (ofCalls {} default postCalls).ShowsAlike
      ((ofCalls {} default postCalls).after (.load "card" (.text "\x7b\x7b/if\x7d\x7d")))
      "reminder" ∧
    (ofCalls {} default postCalls).ShowsAlike
      ((ofCalls {} default postCalls).after (.remove "card")) "reminder" := by
  have hnames : (((ofCalls {} default postCalls).template? "reminder").bind fun t =>
      (StyledTemplate.chain (ofCalls {} default postCalls).templates t).toOption.map namesOf) =
        some ["reminder", "letter"] := by decide +kernel
  obtain ⟨t, ht, hchained⟩ := Option.bind_eq_some_iff.1 hnames
  obtain ⟨ts, hts, hnames⟩ := Option.map_eq_some_iff.1 hchained
  have hchain := toOption_eq_some_iff.1 hts
  have hcard : "card" ∉ namesOf ts := by
    rw [hnames]
    decide
  obtain ⟨hload, hremove⟩ := (unrelated_left_alone ht hchain).1 "card" hcard
  exact ⟨t, ts, ht, hchain, hnames, hload _, hload _, hremove⟩

end Engine

end StyledTemplate
