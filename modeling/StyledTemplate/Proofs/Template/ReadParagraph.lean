import StyledTemplate.Proofs.Template.Directives
import StyledTemplate.Proofs.Template.Fits

/-!
# Feeding paragraphs to the parser

A paragraph advances the builder of its body either by the directive it stands for, or by one block
with the directives that are read in it. In the second case these have to be well nested by
themselves, and their regions count on top of those that are open around the paragraph.
-/

namespace StyledTemplate

/-! ## Literal text -/

namespace Advances

variable {b b' : Builder} {s s' : Progress} {ms : List Mark} {n : Nat}

theorem depth_eq (h : Advances b s [] ms n b' s') : b'.depth = b.depth := h.depth

theorem depth_single {d : Directive} (h : Advances b s [d] ms n b' s') :
    b'.depth = d.depthAfter b.depth := h.depth

theorem pushRuns (b : Builder) (runs : List Run) (s : Progress) :
    Advances b s [] [] 0 (b.pushRuns runs) s :=
  ⟨congrArg some (Builder.nest_pushRuns _ _).symm, ⟨[], .refl s, by simp⟩,
    Builder.baseDepth_pushRuns _ _, Builder.limit_pushRuns _ _⟩

theorem pushText (text : List Char) (start stop : Nat) (b : Builder) (anchors : List Anchor)
    (spans : List Span) (s : Progress) :
    Advances b s [] [] 0 (pushText text start stop b anchors spans).1 s := by
  induction spans generalizing b anchors with
  | nil => exact .refl b s
  | cons span spans ih =>
    rw [StyledTemplate.pushText]
    split
    · exact ih b anchors
    · have hpush : ∀ (b : Builder) (text : String),
          Advances b s [] [] 0 (b.push (.text text span.style)) s := fun b text =>
        push b (by rw [Block.marks]; exact .refl s)
      exact (pushRuns b _ s).trans ((hpush _ _).trans (ih _ _))

end Advances

/-! ## Depth -/

theorem Directive.depthAfter_le {d : Directive} {depth limit : Nat} (hdepth : depth ≤ limit)
    (hbelow : d.isOpener = true → depth < limit) : d.depthAfter depth ≤ limit := by
  cases d <;> simp only [depthAfter] <;> first | omega | exact hbelow rfl

theorem Directive.below_of_depthAfter_le {d : Directive} {depth limit : Nat}
    (h : d.depthAfter depth ≤ limit) (hd : d.isOpener = true) : depth < limit := by
  cases d <;> first | exact h | simp [isOpener] at hd

/-! ## Tokens -/

section Tokens

variable {strict : Bool} {ordinal : Nat} {map : RunMap} {b b' : Builder} {anchors : List Anchor}
  {tokens : List Token} {s s' : Progress}

theorem pushTokens_text (literal : String) (start stop : Nat) :
    pushTokens strict ordinal map b anchors (⟨.text literal, start, stop⟩ :: tokens) =
      pushTokens strict ordinal map (pushText map.text start stop b anchors map.spans).1
        (pushText map.text start stop b anchors map.spans).2 tokens := rfl

theorem pushTokens_directive (d : Directive) (start stop : Nat) :
    pushTokens strict ordinal map b anchors (⟨.directive d, start, stop⟩ :: tokens) =
      applyDirective strict (String.ofList (Text.sliceBytes start stop map.text))
        (map.styleAt start) { paragraph := ordinal, offset := start }
        (b.pushRuns ((anchors.span (·.offset < stop)).1.map Anchor.run)) d >>= fun b =>
        pushTokens strict ordinal map b (anchors.span (·.offset < stop)).2 tokens := rfl

/-- The directives among the tokens of a paragraph advance its builder, within the limit. -/
theorem advances_of_pushTokens (hdepth : b.depth ≤ b.limit)
    (h : pushTokens strict ordinal map b anchors tokens s = .ok (b', s')) :
    Advances b s (directivesOf (placedOf tokens)) ((placedOf tokens).map (Placed.mark ordinal)) 0
        b' s' ∧ deepest b.depth (directivesOf (placedOf tokens)) ≤ b.limit := by
  induction tokens generalizing b anchors s with
  | nil =>
    obtain ⟨rfl, rfl⟩ := Prod.mk.inj (Except.ok.inj h)
    exact ⟨.pushRuns _ _ _, hdepth⟩
  | cons token tokens ih =>
    obtain ⟨kind, start, stop⟩ := token
    cases kind with
    | text literal =>
      rw [pushTokens_text] at h
      have hbefore := Advances.pushText map.text start stop b anchors map.spans s
      obtain ⟨hrest, hdeep⟩ := ih (by rw [hbefore.depth_eq, hbefore.limit]; exact hdepth) h
      rw [hbefore.depth_eq, hbefore.limit] at hdeep
      have hall := hbefore.trans hrest
      exact ⟨hall, hdeep⟩
    | directive d =>
      rw [pushTokens_directive] at h
      obtain ⟨b₁, s₁, hd, h⟩ := exists_of_stateT_bind_eq_ok h
      have hbefore := Advances.pushRuns b
        ((anchors.span (·.offset < stop)).1.map Anchor.run) s
      obtain ⟨hone, hbelow⟩ := advances_of_applyDirective hd
      rw [hbefore.depth_eq, hbefore.limit] at hbelow
      have hdepth₁ : b₁.depth ≤ b.limit := by
        rw [hone.depth_single, hbefore.depth_eq]
        exact Directive.depthAfter_le hdepth hbelow
      have hlimit : b₁.limit = b.limit := hone.limit.trans hbefore.limit
      obtain ⟨hrest, hdeep⟩ := ih (by rw [hlimit]; exact hdepth₁) h
      rw [hone.depth_single, hbefore.depth_eq, hlimit] at hdeep
      exact ⟨(hbefore.trans hone).trans hrest, Nat.max_le.2 ⟨hdepth, hdeep⟩⟩

/-- Out of strict mode the tokens of a paragraph can be fed if the directives among them fit the
open regions, within the limit. -/
theorem exists_pushTokens (ordinal : Nat) (map : RunMap) (anchors : List Anchor)
    (hnest : (nestAfterAll? b.nest (directivesOf (placedOf tokens))).isSome)
    (hdeep : deepest b.depth (directivesOf (placedOf tokens)) ≤ b.limit) (s : Progress) :
    ∃ b' s', pushTokens false ordinal map b anchors tokens s = .ok (b', s') := by
  induction tokens generalizing b anchors s with
  | nil => exact ⟨_, _, rfl⟩
  | cons token tokens ih =>
    obtain ⟨kind, start, stop⟩ := token
    cases kind with
    | text literal =>
      rw [pushTokens_text]
      have hbefore := Advances.pushText map.text start stop b anchors map.spans s
      have hnest' : b.nest = (pushText map.text start stop b anchors map.spans).1.nest :=
        Option.some.inj hbefore.nest
      refine ih _ ?_ ?_ s
      · rw [← hnest']
        exact hnest
      · rw [hbefore.depth_eq, hbefore.limit]
        exact hdeep
    | directive d =>
      rw [pushTokens_directive]
      have hbefore := Advances.pushRuns b
        ((anchors.span (·.offset < stop)).1.map Anchor.run) s
      rw [placedOf_cons_directive] at hnest hdeep
      obtain ⟨hdepth, hdeep⟩ := Nat.max_le.1 hdeep
      obtain ⟨next, hnext⟩ := Option.isSome_iff_exists.1 hnest
      obtain ⟨nest₁, hd, hnext⟩ := Option.bind_eq_some_iff.1 hnext
      obtain ⟨b₁, s₁, happly⟩ := exists_applyDirective
        (String.ofList (Text.sliceBytes start stop map.text)) (map.styleAt start)
        { paragraph := ordinal, offset := start }
        (b := b.pushRuns ((anchors.span (·.offset < stop)).1.map Anchor.run)) (d := d)
        (by rw [Builder.nest_pushRuns]; exact Option.isSome_of_eq_some hd)
        (by
          rw [hbefore.depth_eq, hbefore.limit]
          exact Directive.below_of_depthAfter_le (Nat.le_trans (le_deepest _ _) hdeep)) s
      obtain ⟨hone, -⟩ := advances_of_applyDirective happly
      obtain ⟨b', s', hrest⟩ := ih (b := b₁) (anchors.span (·.offset < stop)).2
        (by
          have hnest₁ := (hbefore.trans hone).nest
          rw [List.nil_append, nestAfterAll?, hd] at hnest₁
          rw [← Option.some.inj hnest₁]
          exact Option.isSome_of_eq_some hnext)
        (by
          rw [hone.depth_single, hone.limit, hbefore.depth_eq, hbefore.limit]
          exact hdeep) s₁
      refine ⟨b', s', ?_⟩
      rw [stateT_bind_eq_ok happly]
      exact hrest

end Tokens

/-! ## Whole paragraphs -/

section Paragraphs

variable {settings : TemplateSettings} {p : Paragraph} {tokens : List Token}
  {ordinal depth : Nat} {s s' : Progress}

/-- A paragraph that is read as a block has well-nested directives. -/
theorem exists_of_parseParagraph {block : Block} {map : RunMap}
    (hdepth : depth ≤ settings.maxNestingDepth.toNat)
    (h : parseParagraph settings p map tokens ordinal depth s = .ok (block, s')) :
    WellNested (directivesOf (placedOf tokens)) ∧
      deepest depth (directivesOf (placedOf tokens)) ≤ settings.maxNestingDepth.toNat ∧
      Adds s ((placedOf tokens).map (Placed.mark ordinal)) 0 block.marks s' := by
  unfold parseParagraph at h
  split at h
  · obtain ⟨b, s₁, hpush, h⟩ := exists_of_stateT_bind_eq_ok h
    obtain ⟨blocks, hblocks, h⟩ := exists_of_lift_bind_eq_ok h
    obtain ⟨rfl, rfl⟩ := Prod.mk.inj (Except.ok.inj h)
    obtain ⟨hadvances, hdeep⟩ := advances_of_pushTokens
      (b := { baseDepth := depth, limit := settings.maxNestingDepth.toNat }) hdepth hpush
    have hnest := hadvances.nest
    rw [(Builder.finish_ok_iff.1 hblocks).1] at hnest
    obtain ⟨added, hadds, hmarks⟩ := hadvances.adds
    refine ⟨nestAfterAll?_eq_nil_iff.1 hnest, hdeep, ?_⟩
    rw [Block.marks, Builder.marks_of_finish hblocks, hmarks]
    exact hadds
  · next hno =>
    obtain ⟨rfl, rfl⟩ := Prod.mk.inj (Except.ok.inj h)
    rw [placedOf_eq_nil_iff.2 (by simpa using hno)]
    refine ⟨.nil, hdepth, ?_⟩
    rw [Block.marks, marksOf_static]
    exact .refl s

/-- Out of strict mode a paragraph with well-nested directives can be read as a block. -/
theorem exists_parseParagraph (p : Paragraph) (ordinal : Nat) (map : RunMap)
    (hstrict : settings.strict = false)
    (hnested : WellNested (directivesOf (placedOf tokens)))
    (hdeep : deepest depth (directivesOf (placedOf tokens)) ≤ settings.maxNestingDepth.toNat)
    (s : Progress) :
    ∃ block s', parseParagraph settings p map tokens ordinal depth s = .ok (block, s') := by
  unfold parseParagraph
  split
  · obtain ⟨b, s₁, hpush⟩ := exists_pushTokens ordinal map
      (b := { baseDepth := depth, limit := settings.maxNestingDepth.toNat }) map.anchors
      (Option.isSome_of_eq_some (hnested.nestAfterAll? _)) hdeep s
    have hdepth : depth ≤ settings.maxNestingDepth.toNat := Nat.le_trans (le_deepest _ _) hdeep
    have hnest := (advances_of_pushTokens
      (b := { baseDepth := depth, limit := settings.maxNestingDepth.toNat }) hdepth hpush).1.nest
    rw [hnested.nestAfterAll?] at hnest
    have hfinish := Builder.finish_ok_iff.2 ⟨(Option.some.inj hnest).symm, rfl⟩
    refine ⟨.paragraph p.properties b.root true, s₁, ?_⟩
    rw [hstrict, stateT_bind_eq_ok hpush, lift_bind_eq_ok hfinish]
    rfl
  · exact ⟨_, _, rfl⟩

theorem tokensOf_ok_iff {strict : Bool} {text : List Char} :
    tokensOf strict ordinal text = .ok tokens ↔ tokenize strict text = .ok tokens :=
  mapError_eq_ok_iff

theorem tokensOf_eq_error {strict : Bool} {text : List Char} {e : ParseError}
    (h : tokenize strict text = .error e) (ordinal : Nat) :
    tokensOf strict ordinal text = .error (e.atParagraph ordinal) := by
  rw [tokensOf, h]
  rfl

theorem tokens_eq_of_tokenize {strict : Bool}
    (h : tokenize strict (runsText p.runs) = .ok tokens) : p.tokens strict = tokens := by
  rw [Paragraph.tokens, h]

/-- A paragraph whose text has been split into tokens is a directive of its body or a block. -/
theorem feedParagraph_eq {b : Builder}
    (h : tokenize settings.strict (runsText p.runs) = .ok tokens) (s : Progress) :
    feedParagraph settings b p s =
      match standalone? (.ofRuns p.runs) tokens with
      | some (token, d) =>
        applyDirective settings.strict
          (String.ofList (Text.sliceBytes token.start token.stop (runsText p.runs))) {}
          { paragraph := s.paragraph, offset := token.start } b d
          { s with paragraph := s.paragraph + 1 }
      | none =>
        (parseParagraph settings p (.ofRuns p.runs) tokens s.paragraph b.depth
          { s with paragraph := s.paragraph + 1 }).map fun parsed =>
            (b.push parsed.1, parsed.2) := by
  have htokens : tokensOf settings.strict s.paragraph (runsText p.runs) = .ok tokens :=
    tokensOf_ok_iff.2 h
  unfold feedParagraph
  rw [stateT_get_bind]
  refine (stateT_modify_bind _ _ s).trans ?_
  refine (lift_bind_eq_ok htokens).trans ?_
  cases standalone? (.ofRuns p.runs) tokens <;> rfl

theorem feedParagraph_error {b : Builder} {e : ParseError}
    (h : tokenize settings.strict (runsText p.runs) = .error e) (s : Progress) :
    feedParagraph settings b p s = .error (e.atParagraph s.paragraph) := by
  unfold feedParagraph
  rw [stateT_get_bind]
  refine (stateT_modify_bind _ _ s).trans ?_
  exact lift_bind_eq_error (tokensOf_eq_error h s.paragraph)

theorem tokenize_of_feedParagraph {b b' : Builder}
    (h : feedParagraph settings b p s = .ok (b', s')) :
    p.Splits settings.strict := by
  unfold feedParagraph at h
  rw [stateT_get_bind] at h
  obtain ⟨-, s₁, -, h⟩ := exists_of_stateT_bind_eq_ok h
  obtain ⟨tokens, htokens, -⟩ := exists_of_lift_bind_eq_ok h
  exact ⟨tokens, tokensOf_ok_iff.1 htokens⟩

/-- A paragraph of a body advances its builder as its item says. -/
theorem advances_of_feedParagraph {b b' : Builder} (hdepth : b.depth ≤ b.limit)
    (hlimit : b.limit = settings.maxNestingDepth.toNat)
    (h : feedParagraph settings b p s = .ok (b', s')) :
      Advances b s (aloneDirectives [p.item settings.strict])
        (itemsMarks s.paragraph [p.item settings.strict]) 1 b' s' ∧
      (∀ ds, p.item settings.strict = .inline ds → WellNested (directivesOf ds)) ∧
      itemsDeepest b.depth [p.item settings.strict] ≤ b.limit := by
  obtain ⟨tokens, htokens⟩ := tokenize_of_feedParagraph h
  have hsame := tokens_eq_of_tokenize htokens
  cases hstandalone : standalone? (.ofRuns p.runs) tokens with
  | some found =>
    obtain ⟨token, d⟩ := found
    have hitem := Paragraph.item_alone (hsame ▸ hstandalone)
    rw [feedParagraph_eq htokens, hstandalone] at h
    obtain ⟨hone, hbelow⟩ := advances_of_applyDirective h
    obtain ⟨added, hadds, hmarks⟩ := hone.adds
    rw [hitem]
    refine ⟨⟨hone.nest, ⟨added, ⟨hadds.marks, hadds.paragraph, hadds.begun⟩, hmarks⟩,
      hone.baseDepth, hone.limit⟩, nofun, ?_⟩
    rw [itemsDeepest, itemsDeepest]
    exact Nat.max_le.2 ⟨hdepth, Directive.depthAfter_le hdepth hbelow⟩
  | none =>
    have hitem := Paragraph.item_inline (hsame ▸ hstandalone)
    rw [Paragraph.placed, hsame] at hitem
    rw [feedParagraph_eq htokens, hstandalone] at h
    obtain ⟨⟨block, s₁⟩, hparse, hpair⟩ := exists_of_map_eq_ok h
    obtain ⟨rfl, rfl⟩ := Prod.mk.inj hpair
    rw [hlimit] at hdepth
    obtain ⟨hnested, hdeep, hadds⟩ := exists_of_parseParagraph hdepth hparse
    rw [hitem]
    refine ⟨.push b ?_, ?_, ?_⟩
    · rw [itemsMarks, itemsMarks, Item.marks, List.append_nil]
      exact ⟨hadds.marks, hadds.paragraph, hadds.begun⟩
    · intro ds hds
      rw [← Item.inline.inj hds]
      exact hnested
    · rw [itemsDeepest, itemsDeepest, hlimit]
      exact Nat.max_le.2 ⟨hdeep, hdepth⟩

/-- A paragraph is counted, and leaves the builder of its body within the limit. -/
theorem within_of_feedParagraph {b b' : Builder} (hlimit : b.limit = settings.maxNestingDepth.toNat)
    (hdepth : b.depth ≤ settings.maxNestingDepth.toNat)
    (h : feedParagraph settings b p s = .ok (b', s')) :
    b'.limit = settings.maxNestingDepth.toNat ∧ b'.depth ≤ settings.maxNestingDepth.toNat ∧
      s'.paragraph = s.paragraph + 1 := by
  obtain ⟨hone, -, hdeep⟩ := advances_of_feedParagraph (hlimit ▸ hdepth) hlimit h
  obtain ⟨added, hadds, -⟩ := hone.adds
  refine ⟨hone.limit.trans hlimit, ?_, hadds.paragraph⟩
  rw [hone.depth, ← hlimit]
  exact Nat.le_trans (le_itemsDeepest _ _) (itemsDeepest_cons_le_iff.1 hdeep).2

/-- Out of strict mode a paragraph can be read if its text splits into tokens and its item fits the
open regions, within the limit. -/
theorem exists_feedParagraph {b : Builder} (hstrict : settings.strict = false)
    (hlimit : b.limit = settings.maxNestingDepth.toNat)
    (htokens : tokenize settings.strict (runsText p.runs) = .ok tokens)
    (hnest : (nestAfterAll? b.nest (aloneDirectives [p.item settings.strict])).isSome)
    (hnested : ∀ ds, p.item settings.strict = .inline ds → WellNested (directivesOf ds))
    (hdeep : itemsDeepest b.depth [p.item settings.strict] ≤ b.limit) (s : Progress) :
    ∃ b' s', feedParagraph settings b p s = .ok (b', s') := by
  have hsame := tokens_eq_of_tokenize htokens
  cases hstandalone : standalone? (.ofRuns p.runs) tokens with
  | some found =>
    obtain ⟨token, d⟩ := found
    rw [Paragraph.item_alone (hsame ▸ hstandalone)] at hnest hdeep
    rw [itemsDeepest, itemsDeepest] at hdeep
    obtain ⟨next, hnext⟩ := Option.isSome_iff_exists.1 hnest
    obtain ⟨nest, hd, -⟩ := Option.bind_eq_some_iff.1 hnext
    rw [feedParagraph_eq htokens, hstandalone, hstrict]
    exact exists_applyDirective _ _ _ (Option.isSome_of_eq_some hd)
      (Directive.below_of_depthAfter_le (Nat.max_le.1 hdeep).2) _
  | none =>
    rw [Paragraph.item_inline (hsame ▸ hstandalone), Paragraph.placed, hsame] at hnested hdeep
    rw [itemsDeepest, itemsDeepest, hlimit] at hdeep
    obtain ⟨block, s', hparse⟩ := exists_parseParagraph p s.paragraph
      (.ofRuns p.runs) hstrict (hnested _ rfl) (Nat.max_le.1 hdeep).1
      { s with paragraph := s.paragraph + 1 }
    refine ⟨b.push block, s', ?_⟩
    rw [feedParagraph_eq htokens, hstandalone, hparse]
    rfl

end Paragraphs

end StyledTemplate
