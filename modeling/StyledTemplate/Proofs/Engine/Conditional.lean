import StyledTemplate.Document.Table
import StyledTemplate.Proofs.Engine.Failures
import StyledTemplate.Proofs.Engine.Literal
import StyledTemplate.Proofs.Render.Spelling
import StyledTemplate.Proofs.Render.Unplaced
import StyledTemplate.Proofs.Template.Conditional

/-!
# Conditions around whole elements are taken out

A condition whose directives stand alone in paragraphs leaves nothing behind but the elements of the
branch that is shown: the document is rendered like the one that has only these elements in its
place. This holds for self-contained parts of any kind, with tables, loops and further conditions
(`Engine.render_bodyCondition`).
-/

namespace StyledTemplate

/-- A condition shows what the blocks of one branch show. -/
theorem renderDocument_conditional (scene : Scene) (first thenBlocks last : List Block)
    (elseBlocks : Option (List Block)) (condition : String) (position : Position) :
    renderDocument scene
        (first ++ [.conditional condition thenBlocks elseBlocks position] ++ last) =
      renderDocument scene (first ++ (if scene.context.holds condition = true then thenBlocks
        else elseBlocks.getD []) ++ last) := by
  have hbranch : renderBlocks scene [.conditional condition thenBlocks elseBlocks position] =
      renderBlocks scene (if scene.context.holds condition = true then thenBlocks
        else elseBlocks.getD []) := by
    rw [renderBlocks_singleton, renderBlock.eq_def]
    dsimp only
    split
    · rfl
    · cases elseBlocks with
      | none => rw [Option.getD_none, renderBlocks]
      | some blocks => rfl
  rw [renderDocument, renderDocument, renderBlocks_append, renderBlocks_append, hbranch,
    ← renderBlocks_append, ← renderBlocks_append]

namespace Engine

/-- A document with a condition around whole elements is rendered like the document without the
condition in which the elements of one branch are left: of the first branch if the condition holds
for the data, and otherwise of the second one, if there is one. This document can be loaded, too,
and either both give the same document or both fail for the same cause. -/
theorem render_bodyCondition (engine : Engine) (name : String) {condition : String}
    {c : BodyCondition} {before after : List Element}
    (hbefore : IsSelfContained engine.settings before)
    (hcondition : c.Stands engine.settings condition)
    (hafter : IsSelfContained engine.settings after) {t : Template} {loaded : Engine}
    (hload : engine.loadDocument name ⟨before ++ c.elements ++ after⟩ = .ok (t, loaded))
    (bindings : Bindings) :
    ∃ t' loaded', engine.loadDocument name
        ⟨before ++ c.branch (Context.holds { bindings, strict := engine.settings.strict } condition)
          ++ after⟩ = .ok (t', loaded') ∧
      (loaded.render name bindings).mapError Error.rootCause =
        (loaded'.render name bindings).mapError Error.rootCause := by
  obtain ⟨hparse, rfl⟩ := loadDocument_ok_iff.1 hload
  obtain ⟨first, last, thenBlocks, elseBlocks, hname, hparent, hblocks, hbranch⟩ :=
    hcondition.exists_templates hbefore hafter hparse
  obtain ⟨t', hparse', hname', hparent', hblocks'⟩ :=
    hbranch (Context.holds { bindings, strict := engine.settings.strict } condition)
  refine ⟨t', engine.register t', loadDocument_ok_iff.2 ⟨hparse', rfl⟩, ?_⟩
  have hfound := template?_register engine t
  have hfound' := template?_register engine t'
  rw [hname] at hfound
  rw [hname'] at hfound'
  rw [render_of_root hfound hparent, render_of_root hfound' hparent', hname, hname']
  -- Registering a template does not change how it is rendered.
  have hscene : (engine.register t).scene bindings name = engine.scene bindings name := rfl
  have hscene' : (engine.register t').scene bindings name = engine.scene bindings name := rfl
  have hshown := (renderDocument_unplaced (engine.scene bindings name) t.blocks).mapError_rootCause
  have hshown' :=
    (renderDocument_unplaced (engine.scene bindings name) t'.blocks).mapError_rootCause
  rw [hblocks, renderDocument_conditional] at hshown
  rw [hblocks'] at hshown'
  rw [hscene, hscene', hshown, hshown']
  rfl

/-- A note that thanks for a payment, or lists what has to be paid. -/
def paymentNote : BodyCondition where
  opener := .ofText "\x7b\x7b#if paid\x7d\x7d"
  thenBody := [.paragraph (.ofText "Thank you, \x7b\x7bname\x7d\x7d.")]
  alternative := some (.ofText "\x7b\x7belse\x7d\x7d",
    [.table { rows := [.ofTexts ["\x7b\x7b#each items\x7d\x7d\x7b\x7bthis\x7d\x7d",
      "\x7b\x7b@number\x7d\x7d\x7b\x7b/each\x7d\x7d"]] }])
  closer := .ofText "\x7b\x7b/if\x7d\x7d"

theorem paymentNote_stands : paymentNote.Stands {} "paid" where
  opener := by
    have hwritten : "\x7b\x7b#if paid\x7d\x7d".toList = (Directive.ifOpen "paid").write {} := by
      decide +kernel
    exact Paragraph.standsFor_of_write false hwritten (by decide) rfl
  thenBody :=
    ⟨⟨"thanks", exists_of_isSome_toOption (by decide +kernel)⟩, by decide +kernel⟩
  alternative := by
    intro p body h
    obtain ⟨rfl, rfl⟩ := Prod.mk.inj (Option.some.inj h)
    have hwritten : "\x7b\x7belse\x7d\x7d".toList = Directive.otherwise.write {} := by
      decide +kernel
    exact ⟨Paragraph.standsFor_of_write false hwritten trivial rfl,
      ⟨"list", exists_of_isSome_toOption (by decide +kernel)⟩, by decide +kernel⟩
  closer := by
    have hwritten : "\x7b\x7b/if\x7d\x7d".toList = Directive.ifClose.write {} := by
      decide +kernel
    exact Paragraph.standsFor_of_write false hwritten trivial rfl

/-- While nothing is paid, a letter with the note is rendered as the list of what has to be paid,
between the two paragraphs around it. -/
theorem paymentNote_unpaid :
    ∃ t loaded, (ofSettings {} default).loadDocument "letter"
        ⟨[.paragraph (.ofText "Dear \x7b\x7bname\x7d\x7d")] ++ paymentNote.elements ++
          [.paragraph (.ofText "Goodbye")]⟩ = .ok (t, loaded) ∧
      ∃ t' loaded', (ofSettings {} default).loadDocument "letter"
          ⟨[.paragraph (.ofText "Dear \x7b\x7bname\x7d\x7d")] ++ paymentNote.elseBody ++
            [.paragraph (.ofText "Goodbye")]⟩ = .ok (t', loaded') ∧
        (loaded.render "letter" {}).mapError Error.rootCause =
          (loaded'.render "letter" {}).mapError Error.rootCause := by
  have hbefore : IsSelfContained {} [.paragraph (.ofText "Dear \x7b\x7bname\x7d\x7d")] :=
    ⟨⟨"before", exists_of_isSome_toOption (by decide +kernel)⟩, by decide +kernel⟩
  have hafter : IsSelfContained {} [.paragraph (.ofText "Goodbye")] :=
    ⟨⟨"after", exists_of_isSome_toOption (by decide +kernel)⟩, by decide +kernel⟩
  obtain ⟨⟨t, loaded⟩, hload⟩ : ∃ loaded, (ofSettings {} default).loadDocument "letter"
      ⟨[.paragraph (.ofText "Dear \x7b\x7bname\x7d\x7d")] ++ paymentNote.elements ++
        [.paragraph (.ofText "Goodbye")]⟩ = .ok loaded :=
    exists_of_isSome_toOption (by decide +kernel)
  have hunpaid : Context.holds { bindings := {}, strict := false } "paid" = false := by
    decide +kernel
  have hrender := render_bodyCondition (ofSettings {} default) "letter" hbefore paymentNote_stands
    hafter hload {}
  rw [show (ofSettings {} default).settings.strict = false from rfl, hunpaid] at hrender
  exact ⟨t, loaded, hload, hrender⟩

end Engine

end StyledTemplate
