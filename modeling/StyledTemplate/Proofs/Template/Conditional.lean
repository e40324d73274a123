import StyledTemplate.Proofs.Directive.Written
import StyledTemplate.Proofs.Template.Mounted

/-!
# Conditions around whole elements

The directives of a condition may stand alone in paragraphs of a body, and then the elements between
them are its branches. If each branch is self-contained, all of it is read as one block, with the
blocks of the branches in it.
-/

namespace StyledTemplate

/-! ## Paragraphs that stand for a directive -/

/-- The paragraph stands for the directive: apart from blank text it has nothing else. -/
def Paragraph.StandsFor (strict : Bool) (d : Directive) (p : Paragraph) : Prop :=
  ∃ tokens token, tokenize strict (runsText p.runs) = .ok tokens ∧
    standalone? (.ofRuns p.runs) tokens = some (token, d)

/-- A paragraph with nothing but a written directive stands for it, whatever the padding is. -/
theorem Paragraph.standsFor_of_write (strict : Bool) {text : String} {d : Directive} {pad : Padding}
    (htext : text.toList = d.write pad) (hd : d.IsProper) (hstructural : d.isStructural = true) :
    (Paragraph.ofText text).StandsFor strict d := by
  have hruns : runsText (Paragraph.ofText text).runs = writeAll [(.directive d, pad)] := by
    simp [Paragraph.ofText, Run.ofText, runsText_cons, Run.text?, runsText, writeAll,
      TokenKind.write, htext]
  have htokens := tokensFrom_writeAll strict [(.directive d, pad)] 0
    (List.forall_mem_singleton.2 hd) (List.isChain_singleton _)
  refine ⟨tokensAt 0 [(.directive d, pad)],
    ⟨.directive d, 0, 0 + Text.byteLength (d.write pad)⟩, ?_, ?_⟩
  · rw [hruns]
    exact htokens
  · show (if d.isStructural = true then some (_, d) else none) = _
    exact if_pos hstructural

/-- The parser feeds the directive to the builder of the body. -/
theorem Paragraph.StandsFor.apply {settings : TemplateSettings} {p : Paragraph} {d : Directive}
    {b b' : Builder} {s s' : Progress} (h : p.StandsFor settings.strict d)
    (hd : d.isInherits = false) (hfeed : feedParagraph settings b p s = .ok (b', s')) :
    (∃ opener, b.unplaced.apply opener {} {} d = .ok b'.unplaced) ∧ b'.limit = b.limit ∧
      s'.parent = s.parent := by
  obtain ⟨tokens, token, htokens, hstandalone⟩ := h
  rw [feedParagraph_eq htokens, hstandalone] at hfeed
  obtain ⟨s₁, -, -, hparent, heq⟩ := exists_applyDirective_eq settings.strict
    (String.ofList (Text.sliceBytes token.start token.stop (runsText p.runs))) {}
    { paragraph := s.paragraph, offset := token.start } hd { s with paragraph := s.paragraph + 1 }
  obtain ⟨b₁, happly, hpair⟩ := exists_of_map_eq_ok ((heq b).symm.trans hfeed)
  obtain ⟨rfl, rfl⟩ := Prod.mk.inj hpair
  exact ⟨⟨_, Builder.unplaced_of_apply happly⟩, (Builder.applied_of_apply happly).limit, hparent⟩

/-! ## Conditions -/

/-- A condition around whole elements of a body. -/
structure BodyCondition where
  /-- The paragraph that opens the condition. -/
  opener : Paragraph
  /-- The elements that are shown if the condition holds. -/
  thenBody : List Element
  /-- The paragraph that begins the alternative, and the elements that are shown otherwise. -/
  alternative : Option (Paragraph × List Element)
  /-- The paragraph that closes the condition. -/
  closer : Paragraph

namespace BodyCondition

/-- The elements that are shown if the condition does not hold. -/
def elseBody (c : BodyCondition) : List Element := (c.alternative.map Prod.snd).getD []

/-- The elements of the branch that is shown. -/
def branch (c : BodyCondition) (holds : Bool) : List Element :=
  if holds then c.thenBody else c.elseBody

/-- The second branch, with the paragraph that begins it. -/
def otherwise (c : BodyCondition) : List Element :=
  match c.alternative with
  | none => []
  | some (p, body) => .paragraph p :: body

/-- All elements of the condition. -/
def elements (c : BodyCondition) : List Element :=
  .paragraph c.opener :: (c.thenBody ++ (c.otherwise ++ [.paragraph c.closer]))

/-- The paragraphs stand for the directives of the condition, and both branches are
self-contained. -/
structure Stands (settings : TemplateSettings) (condition : String) (c : BodyCondition) : Prop where
  /-- The first paragraph opens the condition. -/
  opener : c.opener.StandsFor settings.strict (.ifOpen condition)
  /-- The first branch is self-contained. -/
  thenBody : IsSelfContained settings c.thenBody
  /-- So is the second one, which is begun by a paragraph of its own. -/
  alternative : ∀ p body, c.alternative = some (p, body) →
    p.StandsFor settings.strict .otherwise ∧ IsSelfContained settings body
  /-- The last paragraph closes the condition. -/
  closer : c.closer.StandsFor settings.strict .ifClose

end BodyCondition

namespace Builder

/-- The builder within a condition. -/
def inCondition (b : Builder) (condition : String) (thenBlocks : List Block)
    (elseBlocks : Option (List Block)) (opener : String) : Builder :=
  { b with frames := ⟨.condition condition thenBlocks elseBlocks, opener, {}⟩ :: b.frames }

variable {b b' : Builder} {condition opener opener' : String} {style : RunProperties}
  {thenBlocks : List Block} {elseBlocks : Option (List Block)}

theorem eq_of_apply_ifOpen
    (h : b.apply opener style {} (.ifOpen condition) = .ok b') :
    b' = b.inCondition condition [] none opener := (openRegion_ok_iff.1 h).2.symm

theorem eq_of_apply_otherwise
    (h : (b.inCondition condition thenBlocks none opener).apply opener' style {} .otherwise =
      .ok b') : b' = b.inCondition condition thenBlocks (some []) opener :=
  (Except.ok.inj h).symm

theorem eq_of_apply_ifClose
    (h : (b.inCondition condition thenBlocks elseBlocks opener).apply opener' style {} .ifClose =
      .ok b') : b' = b.push (.conditional condition thenBlocks elseBlocks {}) :=
  (Except.ok.inj h).symm

theorem pushAll_inCondition (b : Builder) (condition opener : String)
    (thenBlocks blocks : List Block) :
    (b.inCondition condition thenBlocks none opener).pushAll blocks =
      b.inCondition condition (thenBlocks ++ blocks) none opener :=
  pushAll_of_frame ..

theorem pushAll_inCondition_some (b : Builder) (condition opener : String)
    (thenBlocks elseBlocks blocks : List Block) :
    (b.inCondition condition thenBlocks (some elseBlocks) opener).pushAll blocks =
      b.inCondition condition thenBlocks (some (elseBlocks ++ blocks)) opener :=
  pushAll_of_frame ..

end Builder

namespace BodyCondition

variable {settings : TemplateSettings} {condition : String} {c : BodyCondition}

/-- What the second branch does within the condition. It may be missing. -/
theorem Stands.exists_elseBlocks (h : c.Stands settings condition) :
    ∃ elseBlocks : Option (List Block), Yields settings c.elseBody (elseBlocks.getD []) ∧
      ∀ (b b₁ b' : Builder) s s' thenBlocks opener, b.limit = settings.maxNestingDepth.toNat →
        b.unplaced = b₁.inCondition condition thenBlocks none opener →
        feedBody settings b c.otherwise s = .ok (b', s') →
          b'.unplaced = b₁.inCondition condition thenBlocks elseBlocks opener ∧
            s'.parent = s.parent := by
  cases halternative : c.alternative with
  | none =>
    refine ⟨none, ?_, ?_⟩
    · rw [elseBody, halternative]
      exact .nil settings
    · intro b b₁ b' s s' thenBlocks opener hlimit hb hfeed
      rw [otherwise, halternative, feedBody_nil] at hfeed
      obtain ⟨rfl, rfl⟩ := Prod.mk.inj (Except.ok.inj hfeed)
      exact ⟨hb, rfl⟩
  | some found =>
    obtain ⟨p, body⟩ := found
    obtain ⟨hp, hbody⟩ := h.alternative p body halternative
    obtain ⟨elseBlocks, helse⟩ := hbody.exists_yields
    refine ⟨some elseBlocks, ?_, ?_⟩
    · rw [elseBody, halternative]
      exact helse
    · intro b b₁ b' s s' thenBlocks opener hlimit hb hfeed
      rw [otherwise, halternative, feedBody_paragraph] at hfeed
      obtain ⟨b₂, s₂, hotherwise, hfeed⟩ := exists_of_stateT_bind_eq_ok hfeed
      obtain ⟨⟨opener', happly⟩, hlimit₂, hparent₂⟩ := hp.apply rfl hotherwise
      obtain ⟨hsame, hparent⟩ := helse.of_feedBody (hlimit₂.trans hlimit) hfeed
      rw [hb] at happly
      rw [Builder.eq_of_apply_otherwise happly, Builder.pushAll_inCondition_some,
        List.nil_append] at hsame
      exact ⟨hsame, hparent.trans hparent₂⟩

/-- A condition is read as one block. -/
theorem Stands.exists_blocks (h : c.Stands settings condition) :
    ∃ (thenBlocks : List Block) (elseBlocks : Option (List Block)),
      Yields settings c.thenBody thenBlocks ∧ Yields settings c.elseBody (elseBlocks.getD []) ∧
      ∀ (b b' : Builder) s s', b.limit = settings.maxNestingDepth.toNat →
        feedBody settings b c.elements s = .ok (b', s') →
          b'.unplaced = b.unplaced.push (.conditional condition thenBlocks elseBlocks {}) ∧
            b'.limit = b.limit ∧ s'.parent = s.parent := by
  obtain ⟨thenBlocks, hthen⟩ := h.thenBody.exists_yields
  obtain ⟨elseBlocks, helse, hotherwise⟩ := h.exists_elseBlocks
  refine ⟨thenBlocks, elseBlocks, hthen, helse, ?_⟩
  intro b b' s s' hlimit hfeed
  rw [elements, feedBody_paragraph] at hfeed
  obtain ⟨b₁, s₁, hopener, hfeed⟩ := exists_of_stateT_bind_eq_ok hfeed
  rw [feedBody_append] at hfeed
  obtain ⟨b₂, s₂, hfirst, hfeed⟩ := exists_of_stateT_bind_eq_ok hfeed
  rw [feedBody_append] at hfeed
  obtain ⟨b₃, s₃, hsecond, hfeed⟩ := exists_of_stateT_bind_eq_ok hfeed
  rw [feedBody_paragraph] at hfeed
  obtain ⟨b₄, s₄, hcloser, hfeed⟩ := exists_of_stateT_bind_eq_ok hfeed
  rw [feedBody_nil] at hfeed
  obtain ⟨rfl, rfl⟩ := Prod.mk.inj (Except.ok.inj hfeed)
  obtain ⟨⟨opener, happly⟩, hlimit₁, hparent₁⟩ := h.opener.apply rfl hopener
  obtain ⟨hsame₂, hparent₂⟩ := hthen.of_feedBody (hlimit₁.trans hlimit) hfirst
  rw [Builder.eq_of_apply_ifOpen happly, Builder.pushAll_inCondition, List.nil_append] at hsame₂
  have hlimit₂ : b₂.limit = b.limit := by
    rw [← Builder.limit_unplaced, hsame₂]
    rfl
  obtain ⟨hsame₃, hparent₃⟩ := hotherwise b₂ _ b₃ _ _ _ _ (hlimit₂.trans hlimit) hsame₂ hsecond
  obtain ⟨⟨closer, hclose⟩, -, hparent₄⟩ := h.closer.apply rfl hcloser
  rw [hsame₃] at hclose
  have hsame₄ := Builder.eq_of_apply_ifClose hclose
  refine ⟨hsame₄, ?_, hparent₄.trans (hparent₃.trans (hparent₂.trans hparent₁))⟩
  rw [← Builder.limit_unplaced, hsame₄, Builder.limit_push, Builder.limit_unplaced]

end BodyCondition

/-! ## Documents -/

section Documents

variable {settings : TemplateSettings} {name : String}

/-- A body that is read anywhere is a template. -/
theorem Yields.exists_template {body : List Element} {blocks : List Block}
    (h : Yields settings body blocks) (name : String) :
    ∃ t, Template.ofDocument settings name ⟨body⟩ = .ok t ∧ t.name = name ∧ t.parent = none ∧
      unplacedBlocks t.blocks = blocks := by
  obtain ⟨b, s, hfeed⟩ := h.exists_feedBody (b := settings.builder) rfl rfl {}
  obtain ⟨hsame, hparent⟩ := h.of_feedBody (b := settings.builder) rfl hfeed
  have hb : b.unplaced = ⟨blocks, [], 0, settings.maxNestingDepth.toNat⟩ :=
    hsame.trans (Builder.pushAll_of_root ..)
  have hnest : b.nest = [] := Builder.nest_eq_nil_iff.2 (congrArg Builder.frames hb)
  exact ⟨_, Template.ofDocument_ok_iff.2 ⟨b, s, hfeed, hnest, rfl⟩, rfl, hparent,
    congrArg Builder.root hb⟩

/-- A template with a condition around whole elements has one block for it. Without the condition
and with the elements of one branch only, the document is a template, too, and has the blocks of
this branch instead. -/
theorem BodyCondition.Stands.exists_templates {condition : String} {c : BodyCondition}
    (h : c.Stands settings condition) {before after : List Element}
    (hbefore : IsSelfContained settings before) (hafter : IsSelfContained settings after)
    {t : Template}
    (ht : Template.ofDocument settings name ⟨before ++ c.elements ++ after⟩ = .ok t) :
    ∃ (first last thenBlocks : List Block) (elseBlocks : Option (List Block)),
      t.name = name ∧ t.parent = none ∧
      unplacedBlocks t.blocks =
        first ++ [.conditional condition thenBlocks elseBlocks {}] ++ last ∧
      ∀ holds, ∃ t', Template.ofDocument settings name ⟨before ++ c.branch holds ++ after⟩ =
          .ok t' ∧ t'.name = name ∧ t'.parent = none ∧
        unplacedBlocks t'.blocks =
          first ++ (if holds = true then thenBlocks else elseBlocks.getD []) ++ last := by
  obtain ⟨first, hfirst⟩ := hbefore.exists_yields
  obtain ⟨last, hlast⟩ := hafter.exists_yields
  obtain ⟨thenBlocks, elseBlocks, hthen, helse, hcondition⟩ := h.exists_blocks
  obtain ⟨b, s, hfeed, -, rfl⟩ := Template.ofDocument_ok_iff.1 ht
  rw [feedBody_append, feedBody_append] at hfeed
  obtain ⟨b₂, s₂, hfeed, hrest⟩ := exists_of_stateT_bind_eq_ok hfeed
  obtain ⟨b₁, s₁, hfeed, hmiddle⟩ := exists_of_stateT_bind_eq_ok hfeed
  obtain ⟨hsame₁, hparent₁⟩ := hfirst.of_feedBody (b := settings.builder) rfl hfeed
  have hb₁ : b₁.unplaced = ⟨first, [], 0, settings.maxNestingDepth.toNat⟩ :=
    hsame₁.trans (Builder.pushAll_of_root ..)
  have hlimit₁ : b₁.limit = settings.maxNestingDepth.toNat := by
    rw [← Builder.limit_unplaced, hb₁]
  obtain ⟨hsame₂, hlimit₂, hparent₂⟩ := hcondition b₁ b₂ s₁ s₂ hlimit₁ hmiddle
  obtain ⟨hsame, hparent⟩ := hlast.of_feedBody (hlimit₂.trans hlimit₁) hrest
  refine ⟨first, last, thenBlocks, elseBlocks, rfl, hparent.trans (hparent₂.trans hparent₁), ?_, ?_⟩
  · rw [hb₁] at hsame₂
    rw [hsame₂] at hsame
    have hb : b.unplaced = ⟨first ++ [.conditional condition thenBlocks elseBlocks {}] ++ last, [],
        0, settings.maxNestingDepth.toNat⟩ := hsame.trans (Builder.pushAll_of_root ..)
    exact congrArg Builder.root hb
  · intro holds
    cases holds with
    | true => exact ((hfirst.append hthen).append hlast).exists_template name
    | false => exact ((hfirst.append helse).append hlast).exists_template name

end Documents

end StyledTemplate
