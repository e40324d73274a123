import StyledTemplate.Proofs.Render.Loose
import StyledTemplate.Proofs.Template.Fresh

/-!
# Bodies of parsed templates

What the parser builds of a body is bodily: it has paragraphs, tables and regions around these, and
all that is shown within a line stands in a paragraph.
-/

namespace StyledTemplate

/-! ## Blocks -/

mutual

theorem Block.length_looseOwners (owner owner' : Option String) : ∀ block : Block,
    (block.looseOwners owner).length = (block.looseOwners owner').length
  | .text _ _ => by rw [Block.looseOwners, Block.looseOwners]; rfl
  | .static _ => by rw [Block.looseOwners, Block.looseOwners]; rfl
  | .placeholder _ _ _ => by rw [Block.looseOwners, Block.looseOwners]; rfl
  | .image _ _ _ => by rw [Block.looseOwners, Block.looseOwners]; rfl
  | .conditional _ thenBlocks none _ => by
    rw [Block.looseOwners, Block.looseOwners]
    exact length_looseOwners owner owner' thenBlocks
  | .conditional _ thenBlocks (some elseBlocks) _ => by
    rw [Block.looseOwners, Block.looseOwners, List.length_append, List.length_append,
      length_looseOwners owner owner' thenBlocks, length_looseOwners owner owner' elseBlocks]
  | .loop _ body _ => by
    rw [Block.looseOwners, Block.looseOwners]
    exact length_looseOwners owner owner' body
  | .named _ body _ origin => by
    rw [Block.looseOwners, Block.looseOwners]
    exact length_looseOwners (origin.or owner) (origin.or owner') body
  | .inherits _ _ => by rw [Block.looseOwners, Block.looseOwners]
  | .paragraph _ _ _ => by rw [Block.looseOwners, Block.looseOwners]
  | .table _ => by rw [Block.looseOwners, Block.looseOwners]

/-- How much is loose does not depend on the owners. -/
theorem length_looseOwners (owner owner' : Option String) : ∀ blocks : List Block,
    (looseOwners owner blocks).length = (looseOwners owner' blocks).length
  | [] => by rw [looseOwners, looseOwners]
  | block :: blocks => by
    rw [looseOwners, looseOwners, List.length_append, List.length_append,
      block.length_looseOwners owner owner', length_looseOwners owner owner' blocks]

end

/-- Nothing that is shown within a line stands outside of paragraphs. -/
def Bodily (blocks : List Block) : Prop := looseOwners none blocks = []

theorem Bodily.looseOwners_eq_nil {blocks : List Block} (h : Bodily blocks)
    (owner : Option String) : looseOwners owner blocks = [] := by
  have hlength := length_looseOwners owner none blocks
  rw [h] at hlength
  exact List.eq_nil_of_length_eq_zero hlength

theorem bodily_nil : Bodily [] := by
  rw [Bodily, looseOwners]

theorem bodily_append_iff {as bs : List Block} : Bodily (as ++ bs) ↔ Bodily as ∧ Bodily bs := by
  rw [Bodily, looseOwners_append, List.append_eq_nil_iff]
  rfl

theorem bodily_singleton_iff {block : Block} : Bodily [block] ↔ block.looseOwners none = [] := by
  rw [Bodily, looseOwners, looseOwners, List.append_nil]

theorem bodily_cons_iff {block : Block} {blocks : List Block} :
    Bodily (block :: blocks) ↔ Bodily [block] ∧ Bodily blocks := by
  rw [← bodily_append_iff, List.singleton_append]

theorem bodily_loop_iff {list : String} {body : List Block} {position : Position} :
    Bodily [.loop list body position] ↔ Bodily body := by
  rw [bodily_singleton_iff, Block.looseOwners]
  rfl

theorem bodily_when_iff {condition : String} {thenBlocks : List Block} {position : Position} :
    Bodily [.conditional condition thenBlocks none position] ↔ Bodily thenBlocks := by
  rw [bodily_singleton_iff, Block.looseOwners]
  rfl

theorem bodily_branches_iff {condition : String} {thenBlocks elseBlocks : List Block}
    {position : Position} : Bodily [.conditional condition thenBlocks (some elseBlocks) position] ↔
      Bodily thenBlocks ∧ Bodily elseBlocks := by
  rw [bodily_singleton_iff, Block.looseOwners, List.append_eq_nil_iff]
  rfl

theorem bodily_named_iff {id : String} {body : List Block} {position : Position}
    {origin : Option String} : Bodily [.named id body position origin] ↔ Bodily body := by
  rw [bodily_singleton_iff, Block.looseOwners]
  constructor
  · intro h
    have hlength := length_looseOwners none (origin.or none) body
    rw [h] at hlength
    exact List.eq_nil_of_length_eq_zero hlength
  · intro h
    exact h.looseOwners_eq_nil _

/-! ## Builders -/

section Opening

variable {opening : Opening} {position : Position}

theorem bodily_toBlock_push {block : Block} (h : Bodily [opening.toBlock position])
    (hblock : Bodily [block]) : Bodily [(opening.push block).toBlock position] := by
  rcases opening with ⟨name, thenBlocks, _ | elseBlocks⟩ | ⟨list, body⟩ | ⟨id, body⟩
  · exact bodily_when_iff.2 (bodily_append_iff.2 ⟨bodily_when_iff.1 h, hblock⟩)
  · obtain ⟨hthen, helse⟩ := bodily_branches_iff.1 h
    exact bodily_branches_iff.2 ⟨hthen, bodily_append_iff.2 ⟨helse, hblock⟩⟩
  · exact bodily_loop_iff.2 (bodily_append_iff.2 ⟨bodily_loop_iff.1 h, hblock⟩)
  · exact bodily_named_iff.2 (bodily_append_iff.2 ⟨bodily_named_iff.1 h, hblock⟩)

end Opening

namespace Builder

/-- All that a builder has built is bodily, also what its open regions would become. -/
structure Bodily (b : Builder) : Prop where
  /-- What stands outside of all open regions. -/
  root : StyledTemplate.Bodily b.root
  /-- What stands in the open regions. -/
  frames : ∀ frame ∈ b.frames, StyledTemplate.Bodily [frame.toBlock]

theorem Bodily.push {b : Builder} {block : Block} (h : b.Bodily)
    (hblock : StyledTemplate.Bodily [block]) : (b.push block).Bodily := by
  obtain ⟨root, frames, baseDepth, limit⟩ := b
  cases frames with
  | nil => exact ⟨bodily_append_iff.2 ⟨h.root, hblock⟩, h.frames⟩
  | cons frame frames =>
    have hframes := List.forall_mem_cons.1 h.frames
    exact ⟨h.root, List.forall_mem_cons.2 ⟨bodily_toBlock_push hframes.1 hblock, hframes.2⟩⟩

section Apply

variable {b b' : Builder} {opener : String} {position : Position}

theorem Bodily.openRegion (h : b.Bodily) (opening : Opening)
    (hopening : StyledTemplate.Bodily [opening.toBlock position])
    (hresult : b.openRegion opening opener position = .ok b') : b'.Bodily := by
  obtain ⟨-, rfl⟩ := openRegion_ok_iff.1 hresult
  exact ⟨h.root, List.forall_mem_cons.2 ⟨hopening, h.frames⟩⟩

theorem Bodily.close (h : b.Bodily) {region : Region}
    (hresult : b.close region position = .ok b') : b'.Bodily := by
  obtain ⟨root, frames, baseDepth, limit⟩ := b
  cases frames with
  | nil => simp [Builder.close] at hresult
  | cons frame frames =>
    simp only [Builder.close] at hresult
    split at hresult
    · obtain rfl := Except.ok.inj hresult
      have hframes := List.forall_mem_cons.1 h.frames
      exact Bodily.push ⟨h.root, hframes.2⟩ hframes.1
    · simp at hresult

theorem Bodily.otherwise (h : b.Bodily) (hresult : b.otherwise position = .ok b') :
    b'.Bodily := by
  obtain ⟨root, frames, baseDepth, limit⟩ := b
  rcases frames with _ | ⟨⟨⟨name, thenBlocks, _ | elseBlocks⟩ | ⟨list, body⟩ | ⟨id, body⟩,
    opener, start⟩, frames⟩ <;> simp only [Builder.otherwise, reduceCtorEq] at hresult
  obtain rfl := Except.ok.inj hresult
  have hframes := List.forall_mem_cons.1 h.frames
  refine ⟨h.root, List.forall_mem_cons.2 ⟨?_, hframes.2⟩⟩
  exact bodily_branches_iff.2 ⟨bodily_when_iff.1 hframes.1, bodily_nil⟩

/-- A structural directive puts nothing within a line. -/
theorem Bodily.apply {style : RunProperties} {d : Directive} (h : b.Bodily)
    (hstructural : d.isStructural = true)
    (happly : b.apply opener style position d = .ok b') : b'.Bodily := by
  cases d with
  | inherits parent =>
    obtain rfl := Except.ok.inj happly
    refine h.push (bodily_singleton_iff.2 ?_)
    rw [Block.looseOwners]
  | placeholder path => cases hstructural
  | image name => cases hstructural
  | ifOpen condition =>
    exact h.openRegion (.condition condition [] none) (bodily_when_iff.2 bodily_nil) happly
  | otherwise => exact h.otherwise happly
  | ifClose => exact h.close happly
  | eachOpen list => exact h.openRegion (.loop list []) (bodily_loop_iff.2 bodily_nil) happly
  | eachClose => exact h.close happly
  | blockOpen id => exact h.openRegion (.named id []) (bodily_named_iff.2 bodily_nil) happly
  | blockClose => exact h.close happly

end Apply

end Builder

/-! ## Bodies -/

theorem isStructural_of_standalone? {map : RunMap} {tokens : List Token} {token : Token}
    {d : Directive} (h : standalone? map tokens = some (token, d)) : d.isStructural = true := by
  unfold standalone? at h
  split at h
  · split at h
    · obtain ⟨d', -, h⟩ := Option.bind_eq_some_iff.1 h
      split at h
      · next hstructural =>
        obtain ⟨-, rfl⟩ := Prod.mk.inj (Option.some.inj h)
        exact hstructural
      · cases h
    · cases h
  · cases h

section Parser

variable {settings : TemplateSettings} {b b' : Builder} {s s' : Progress}

theorem bodily_of_applyDirective {strict : Bool} {opener : String} {style : RunProperties}
    {position : Position} {d : Directive} (hb : b.Bodily) (hstructural : d.isStructural = true)
    (h : applyDirective strict opener style position b d s = .ok (b', s')) : b'.Bodily := by
  cases hd : d.isInherits with
  | false =>
    obtain ⟨s₁, -, -, -, heq⟩ := exists_applyDirective_eq strict opener style position hd s
    rw [heq] at h
    obtain ⟨b₁, happly, hpair⟩ := exists_of_map_eq_ok h
    obtain ⟨rfl, rfl⟩ := Prod.mk.inj hpair
    exact hb.apply hstructural happly
  | true =>
    obtain ⟨parent, rfl⟩ := Directive.exists_parent hd
    obtain ⟨-, rfl, -⟩ | ⟨-, -, rfl, -⟩ := declareParent_cases h
    · refine hb.push (bodily_singleton_iff.2 ?_)
      rw [Block.looseOwners]
    · exact hb

theorem bodily_of_parseParagraph {p : Paragraph} {map : RunMap} {tokens : List Token}
    {ordinal depth : Nat} {block : Block}
    (h : parseParagraph settings p map tokens ordinal depth s = .ok (block, s')) :
    Bodily [block] := by
  unfold parseParagraph at h
  split at h
  · obtain ⟨b, s₁, -, h⟩ := exists_of_stateT_bind_eq_ok h
    obtain ⟨blocks, -, h⟩ := exists_of_lift_bind_eq_ok h
    obtain ⟨rfl, rfl⟩ := Prod.mk.inj (Except.ok.inj h)
    rw [bodily_singleton_iff, Block.looseOwners]
  · obtain ⟨rfl, rfl⟩ := Prod.mk.inj (Except.ok.inj h)
    rw [bodily_singleton_iff, Block.looseOwners]

theorem bodily_of_feedParagraph {p : Paragraph} (hb : b.Bodily)
    (h : feedParagraph settings b p s = .ok (b', s')) : b'.Bodily := by
  obtain ⟨tokens, htokens⟩ := tokenize_of_feedParagraph h
  rw [feedParagraph_eq htokens] at h
  split at h
  · next hstandalone =>
    exact bodily_of_applyDirective hb (isStructural_of_standalone? hstandalone) h
  · obtain ⟨⟨block, s₁⟩, hparse, hpair⟩ := exists_of_map_eq_ok h
    obtain ⟨rfl, rfl⟩ := Prod.mk.inj hpair
    exact hb.push (bodily_of_parseParagraph hparse)

theorem bodily_of_feedBody {body : List Element} (hb : b.Bodily)
    (h : feedBody settings b body s = .ok (b', s')) : b'.Bodily := by
  induction body generalizing b s with
  | nil =>
    rw [feedBody_nil] at h
    obtain ⟨rfl, rfl⟩ := Prod.mk.inj (Except.ok.inj h)
    exact hb
  | cons element rest ih =>
    cases element with
    | paragraph p =>
      rw [feedBody_paragraph] at h
      obtain ⟨b₁, s₁, hp, h⟩ := exists_of_stateT_bind_eq_ok h
      exact ih (bodily_of_feedParagraph hb hp) h
    | table t =>
      rw [feedBody_table] at h
      obtain ⟨rows, s₁, -, h⟩ := exists_of_stateT_bind_eq_ok h
      have htable : Bodily [.table ⟨t.properties, t.grid, rows⟩] := by
        rw [bodily_singleton_iff, Block.looseOwners]
      exact ih (hb.push htable) h

/-- The tree of blocks of a template is bodily. -/
theorem Template.bodily_of_ofDocument {name : String} {d : Document} {t : Template}
    (h : Template.ofDocument settings name d = .ok t) : Bodily t.blocks := by
  obtain ⟨b, s, hfeed, -, rfl⟩ := Template.ofDocument_ok_iff.1 h
  have hstart : settings.builder.Bodily := ⟨bodily_nil, by simp [TemplateSettings.builder]⟩
  exact (bodily_of_feedBody hstart hfeed).root

end Parser

end StyledTemplate
