import StyledTemplate.Engine.Basic
import StyledTemplate.Proofs.Render.Stretches
import StyledTemplate.Proofs.Template.Built

/-!
# Paragraphs that disappear

A paragraph with directives comes to nothing but runs as long as no named block in it is replaced, so
it is shown as one paragraph or not at all. It disappears exactly if all runs that are shown for it
are without characters and no placeholder has been come to on the way: a placeholder that is bound to
an empty text keeps the paragraph, and one in a branch that is not taken does not. Once named blocks
have been replaced, the same holds for each stretch of the paragraph (`parseParagraph_keptOrDropped`).
-/

namespace StyledTemplate

theorem Visit.not_showsElements {visit : Visit} (hinline : visit.block.isInline = true)
    (elements : List Element) : ¬ visit.ShowsElements elements := by
  intro h
  cases h with
  | paragraph h => cases hinline
  | table h => cases hinline

/-- A parsed paragraph with directives, as it is and with any of its named blocks replaced. As it is,
it shows nothing exactly if the runs that it shows are without characters and it comes to no
placeholder, and otherwise one paragraph with the properties of the source. With blocks replaced,
this holds of each stretch between the elements that are shown in it, which keep their order. -/
theorem parseParagraph_keptOrDropped {settings : TemplateSettings} {p : Paragraph} {map : RunMap}
    {tokens : List Token} {ordinal depth : Nat} {s s' : Progress} {block : Block}
    (hany : (tokens.any fun token => token.directive?.isSome) = true)
    (h : parseParagraph settings p map tokens ordinal depth s = .ok (block, s')) :
    ∃ children, block = .paragraph p.properties children true ∧
      (∀ scene fragments, renderBlock scene block = .ok fragments →
        ∃ runs shown, fragments = shown.map .element ∧
          List.Forall₂ Visit.ShowsRun (visitsOf scene children) runs ∧
          KeptOrDropped p.properties (visitsOf scene children) runs shown) ∧
      ∀ replace active scene fragments,
        renderBlock scene (substituteBlock replace active block) = .ok fragments →
        ∃ shown, fragments = shown.map .element ∧
          Interleaves (fun stretch shown => ∃ runs, InLine stretch runs ∧
            KeptOrDropped p.properties stretch runs shown)
            (visitsOf scene (substituteBlocks replace active children)) shown := by
  obtain ⟨children, rfl, hinline⟩ := exists_inline_of_parseParagraph hany h
  refine ⟨children, rfl, ?_, ?_⟩
  · intro scene fragments hrender
    obtain ⟨shown, rfl, hinterleaves⟩ := interleaves_renderBlock hrender
    have hruns : ∀ visit ∈ visitsOf scene children, ∀ elements,
        ¬ visit.ShowsElements elements := by
      intro visit hvisit
      exact Visit.not_showsElements (hinline _ (visitsOf_subset children scene visit hvisit))
    obtain ⟨runs, hline, hrule⟩ := (hinterleaves.eq_last hruns).exists_keptOrDropped
    exact ⟨runs, shown, rfl, hline.forall₂ hruns, hrule⟩
  · intro replace active scene fragments hrender
    rw [substituteBlock] at hrender
    obtain ⟨shown, rfl, hinterleaves⟩ := interleaves_renderBlock hrender
    refine ⟨shown, rfl, hinterleaves.mono ?_⟩
    intro stretch shown hassembles
    exact hassembles.exists_keptOrDropped

/-- A paragraph with a placeholder that is shown under a condition. -/
def middleName : Paragraph :=
  .ofRuns [.ofText "\x7b\x7b#if middle\x7d\x7d\x7b\x7bname\x7d\x7d\x7b\x7b/if\x7d\x7d"]

/-- The name is empty, and the condition holds or does not. -/
def middleScene (holds : Bool) : Scene :=
  (Engine.ofSettings {} default).scene
    ((Bindings.empty.setValue "name" (.string "")).setCondition "middle" holds) "letter"

/-- Where the condition does not hold, there is no paragraph; where it holds, there is an empty
one. -/
theorem middleName_shown : ∃ tokens block progress,
    tokenize false (runsText middleName.runs) = .ok tokens ∧
      (tokens.any fun token => token.directive?.isSome) = true ∧
      parseParagraph {} middleName (.ofRuns middleName.runs) tokens 0 0 {} =
        .ok (block, progress) ∧
      renderBlock (middleScene false) block = .ok [] ∧
      ∃ kept, renderBlock (middleScene true) block =
        .ok [.element (.paragraph ⟨middleName.properties, kept⟩)] := by
  have hrun : (tokenize false (runsText middleName.runs)).toOption.bind (fun tokens =>
      (parseParagraph {} middleName (.ofRuns middleName.runs) tokens 0 0 {}).toOption.bind
        fun parsed => (renderBlock (middleScene false) parsed.1).toOption.bind fun hidden =>
          (renderBlock (middleScene true) parsed.1).toOption.map fun shown =>
            (tokens.any fun token => token.directive?.isSome, hidden.length, shown.length)) =
      some (true, 0, 1) := by decide +kernel
  obtain ⟨tokens, htokens, hrun⟩ := Option.bind_eq_some_iff.1 hrun
  obtain ⟨⟨block, progress⟩, hparse, hrun⟩ := Option.bind_eq_some_iff.1 hrun
  obtain ⟨hidden, hhidden, hrun⟩ := Option.bind_eq_some_iff.1 hrun
  obtain ⟨fragments, hfragments, hcounts⟩ := Option.map_eq_some_iff.1 hrun
  obtain ⟨hany, hlengths⟩ := Prod.mk.inj hcounts
  obtain ⟨hnone, hone⟩ := Prod.mk.inj hlengths
  have htokens := toOption_eq_some_iff.1 htokens
  have hparse := toOption_eq_some_iff.1 hparse
  have hhidden := toOption_eq_some_iff.1 hhidden
  have hfragments := toOption_eq_some_iff.1 hfragments
  obtain rfl := List.length_eq_zero_iff.1 hnone
  obtain ⟨children, -, hrule, -⟩ := parseParagraph_keptOrDropped hany hparse
  obtain ⟨runs, shown, rfl, -, hkept⟩ := hrule (middleScene true) fragments hfragments
  have hne : shown ≠ [] := by
    rintro rfl
    cases hone
  obtain ⟨kept, rfl, -⟩ := hkept.kept hne
  exact ⟨tokens, block, progress, htokens, hany, hparse, hhidden, kept, hfragments⟩

end StyledTemplate
