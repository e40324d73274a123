import StyledTemplate.Proofs.Template.Occurrences
import StyledTemplate.Proofs.Template.ReadBody

/-!
# Parsing documents

Out of strict mode a document is a template exactly if its directives are well nested: those inside
of each paragraph, and those that the paragraphs of each body stand for. The tree of blocks then has
exactly the directives of the document, in their order; only declarations of a parent that come
after another directive are left out.
-/

namespace StyledTemplate

/-! ## Conditions -/

/-- The directives of a document are well nested, and nowhere more than `limit` regions are open. -/
structure Document.Nested (limit : Nat) (d : Document) : Prop where
  /-- Every text can be split into tokens. -/
  splits : ∀ p ∈ d.allParagraphs, p.Splits false
  /-- The directives in each paragraph that does not stand for one are well nested. -/
  inline : ∀ body ∈ bodiesOf (outline false d.body), ∀ ds, .inline ds ∈ body →
    WellNested (directivesOf ds)
  /-- The directives that the paragraphs of each body stand for are well nested. -/
  alone : ∀ body ∈ bodiesOf (outline false d.body), WellNested (aloneDirectives body)
  /-- Conditions, loops, named blocks and repeated rows are not nested too deeply. -/
  deep : itemsDeepest 0 (outline false d.body) ≤ limit

theorem Document.nested_iff {limit : Nat} {d : Document} :
    d.Nested limit ↔ BodyFits false limit 0 d.body ∧
      WellNested (aloneDirectives (outline false d.body)) := by
  constructor
  · intro h
    refine ⟨⟨h.splits, h.inline _ List.mem_cons_self, fun items hitems => ?_, h.deep⟩,
      h.alone _ List.mem_cons_self⟩
    exact ⟨h.inline _ (List.mem_cons_of_mem _ hitems), h.alone _ (List.mem_cons_of_mem _ hitems)⟩
  · rintro ⟨hfits, halone⟩
    refine ⟨hfits.splits, fun body hbody => ?_, fun body hbody => ?_, hfits.deep⟩
    · rcases List.mem_cons.1 hbody with rfl | hbody
      · exact hfits.inline
      · exact (hfits.bodies body hbody).inline
    · rcases List.mem_cons.1 hbody with rfl | hbody
      · exact halone
      · exact (hfits.bodies body hbody).alone

/-! ## What is kept -/

/-- The directives without the declarations of the parent that come after another one. -/
def keptOccurrences : Bool → List Occurrence → List Occurrence
  | _, [] => []
  | begun, o :: os =>
    if begun && o.directive.isInherits then keptOccurrences begun os
    else o :: keptOccurrences (begun || !o.ofRow) os

theorem keptMarks_map_mark (begun : Bool) (os : List Occurrence) :
    keptMarks begun (os.map Occurrence.mark) = (keptOccurrences begun os).map Occurrence.mark := by
  induction os generalizing begun with
  | nil => rfl
  | cons o os ih =>
    rw [List.map_cons, keptMarks, keptOccurrences, ih, ih]
    show (if begun && o.directive.isInherits then _ else _) = _
    split <;> rfl

/-- The builder of a document, before anything has been fed to it. -/
def TemplateSettings.builder (settings : TemplateSettings) : Builder where
  baseDepth := 0
  limit := settings.maxNestingDepth.toNat

namespace Template

variable {settings : TemplateSettings} {name : String} {d : Document} {t : Template}

theorem ofDocument_ok_iff : ofDocument settings name d = .ok t ↔
    ∃ b s, feedBody settings settings.builder d.body {} = .ok (b, s) ∧ b.nest = [] ∧
      t = ⟨name, b.root, s.parent, s.placeholders, d⟩ := by
  have hrun : ∀ blocks s, parseBody settings d.body {} = .ok (blocks, s) ↔
      ∃ b, feedBody settings settings.builder d.body {} = .ok (b, s) ∧ b.finish = .ok blocks := by
    intro blocks s
    constructor
    · intro h
      obtain ⟨b, s₁, hfeed, h⟩ := exists_of_stateT_bind_eq_ok h
      obtain ⟨blocks', hfinish, hpair⟩ := exists_of_bind_eq_ok h
      obtain ⟨rfl, rfl⟩ := Prod.mk.inj (Except.ok.inj hpair)
      exact ⟨b, hfeed, hfinish⟩
    · rintro ⟨b, hfeed, hfinish⟩
      refine (stateT_bind_eq_ok hfeed).trans ?_
      rw [hfinish]
      rfl
  unfold ofDocument
  constructor
  · intro h
    split at h
    · next blocks s hblocks =>
      obtain ⟨b, hfeed, hfinish⟩ := (hrun blocks s).1 hblocks
      obtain ⟨hnest, rfl⟩ := Builder.finish_ok_iff.1 hfinish
      exact ⟨b, s, hfeed, hnest, (Except.ok.inj h).symm⟩
    · cases h
  · rintro ⟨b, s, hfeed, hnest, rfl⟩
    have hblocks := (hrun b.root s).2 ⟨b, hfeed, Builder.finish_ok_iff.2 ⟨hnest, rfl⟩⟩
    simp only [StateT.run, hblocks]

/-- A document that is a template fits, and the tree of blocks has its directives where the parser
reads them. -/
theorem fits_of_ofDocument (h : ofDocument settings name d = .ok t) :
    BodyFits settings.strict settings.maxNestingDepth.toNat 0 d.body ∧
      WellNested (aloneDirectives (outline settings.strict d.body)) ∧
      marksOf t.blocks =
        (keptOccurrences false (d.occurrences settings.strict)).map Occurrence.mark := by
  obtain ⟨b, s, hfeed, hnest, rfl⟩ := ofDocument_ok_iff.1 h
  obtain ⟨hfits, hadvances⟩ := feedBodyReads settings _ d.body rfl (Nat.zero_le _) _ _ _ hfeed
  obtain ⟨added, hadds, hmarks⟩ := hadvances.adds
  have hnestAll := hadvances.nest
  rw [hnest] at hnestAll
  refine ⟨hfits, nestAfterAll?_eq_nil_iff.1 hnestAll, ?_⟩
  have hlines := (outlineMarks settings.strict d.body hfits.splits).1 0
  have hfinish : b.finish = .ok b.root := Builder.finish_ok_iff.2 ⟨hnest, rfl⟩
  rw [← keptMarks_map_mark, Document.occurrences, ← lineMarks, ← hlines,
    Builder.marks_of_finish hfinish, hmarks, hadds.marks]
  rfl

/-- Out of strict mode a document is a template exactly if its directives are well nested, and then
the tree of blocks has the directives of its paragraphs, less the declarations of a parent that come
too late. -/
theorem ofDocument_iff_nested (hstrict : settings.strict = false) (name : String) (d : Document) :
    ((∃ t, ofDocument settings name d = .ok t) ↔ d.Nested settings.maxNestingDepth.toNat) ∧
    (∀ t, ofDocument settings name d = .ok t →
      (marksOf t.blocks).map Mark.directive =
        (keptOccurrences false (d.occurrences false)).map Occurrence.directive) ∧
    (d.occurrences false).map Occurrence.directive =
      d.allParagraphs.flatMap fun p => directivesOf (p.placed false) := by
  refine ⟨⟨?_, ?_⟩, ?_, ?_⟩
  · rintro ⟨t, h⟩
    obtain ⟨hfits, halone, -⟩ := fits_of_ofDocument h
    rw [hstrict] at hfits halone
    exact Document.nested_iff.2 ⟨hfits, halone⟩
  · intro h
    obtain ⟨hfits, halone⟩ := Document.nested_iff.1 h
    rw [← hstrict] at hfits halone
    obtain ⟨b, s, hfeed⟩ := feedBodySucceeds hstrict settings.builder d.body rfl hfits
      (Option.isSome_of_eq_some (halone.nestAfterAll? _)) {}
    have hnest := (feedBodyReads settings _ d.body rfl (Nat.zero_le _) _ _ _ hfeed).2.nest
    rw [halone.nestAfterAll?] at hnest
    exact ⟨_, ofDocument_ok_iff.2 ⟨b, s, hfeed, (Option.some.inj hnest).symm, rfl⟩⟩
  · intro t h
    rw [(fits_of_ofDocument h).2.2, hstrict, List.map_map]
    rfl
  · have hplaces := congrArg (List.map Prod.fst) (map_occurrences false d)
    rw [map_placesFrom, List.map_map] at hplaces
    exact hplaces

/-- The directives of a note with a condition are well nested, as the note is a template. -/
theorem nested_of_ofDocument_note : ({} : TemplateSettings).strict = false ∧
    (Document.ofText "\x7b\x7b#if paid\x7d\x7dPaid\x7b\x7b/if\x7d\x7d").Nested 64 := by
  have hstrict : ({} : TemplateSettings).strict = false := rfl
  refine ⟨hstrict, (ofDocument_iff_nested hstrict "note" _).1.1 ?_⟩
  exact exists_of_isSome_toOption (by decide +kernel)

end Template

end StyledTemplate
