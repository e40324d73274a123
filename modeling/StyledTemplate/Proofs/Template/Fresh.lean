import StyledTemplate.Proofs.Template.Built

/-!
# Trees of blocks from the parser are fresh

Whatever the parser builds is fresh, in all that it has built so far and in every open region.
-/

namespace StyledTemplate

/-! ## Builders -/

/-- What has been read of an open region is fresh. -/
def Opening.Fresh : Opening → Prop
  | .condition _ thenBlocks none => StyledTemplate.Fresh thenBlocks
  | .condition _ thenBlocks (some elseBlocks) =>
    StyledTemplate.Fresh thenBlocks ∧ StyledTemplate.Fresh elseBlocks
  | .loop _ body => StyledTemplate.Fresh body
  | .named _ body => StyledTemplate.Fresh body

theorem Opening.fresh_iff {opening : Opening} :
    opening.Fresh ↔ StyledTemplate.Fresh opening.content := by
  rcases opening with ⟨name, thenBlocks, _ | elseBlocks⟩ | ⟨list, body⟩ | ⟨id, body⟩
  · rw [Opening.content, Option.getD_none, List.append_nil]
    rfl
  · exact fresh_append_iff.symm
  · rfl
  · rfl

namespace Builder

/-- All that a builder has built is fresh. -/
structure Fresh (b : Builder) : Prop where
  /-- What stands outside of all open regions. -/
  root : StyledTemplate.Fresh b.root
  /-- What stands in the open regions. -/
  frames : ∀ frame ∈ b.frames, frame.opening.Fresh

theorem fresh_iff_every {b : Builder} :
    b.Fresh ↔ b.Every fun block => block.IsSteady ∧ block.IsOriginal := by
  constructor
  · intro h
    exact ⟨h.root, fun frame hframe => Opening.fresh_iff.1 (h.frames frame hframe)⟩
  · intro h
    exact ⟨h.root, fun frame hframe => Opening.fresh_iff.2 (h.frames frame hframe)⟩

theorem Fresh.push {b : Builder} {block : Block} (h : b.Fresh)
    (hblock : StyledTemplate.Fresh [block]) : (b.push block).Fresh :=
  fresh_iff_every.2 ((fresh_iff_every.1 h).push hblock)

end Builder

/-- Blocks that stand within a line are steady. -/
theorem holdsInline_fresh : HoldsInline fun block => block.IsSteady ∧ block.IsOriginal := by
  intro block hinline horiginal
  cases block with
  | paragraph properties children hasDirectives => cases hinline
  | _ => exact ⟨trivial, horiginal⟩

/-! ## Paragraphs -/

section Parser

variable {strict : Bool} {opener : String} {style : RunProperties} {position : Position}
  {b b' : Builder} {d : Directive} {s s' : Progress}

theorem fresh_of_applyDirective (hb : b.Fresh)
    (h : applyDirective strict opener style position b d s = .ok (b', s')) : b'.Fresh :=
  Builder.fresh_iff_every.2
    (holdsInline_fresh.of_applyDirective (Builder.fresh_iff_every.1 hb) h)

theorem fresh_of_pushTokens {ordinal : Nat} {map : RunMap} {anchors : List Anchor}
    {tokens : List Token} (hb : b.Fresh)
    (h : pushTokens strict ordinal map b anchors tokens s = .ok (b', s')) : b'.Fresh :=
  Builder.fresh_iff_every.2 (holdsInline_fresh.of_pushTokens (Builder.fresh_iff_every.1 hb) h)

theorem fresh_of_parseParagraph {settings : TemplateSettings} {p : Paragraph} {map : RunMap}
    {tokens : List Token} {ordinal depth : Nat} {block : Block}
    (h : parseParagraph settings p map tokens ordinal depth s = .ok (block, s')) :
    Fresh [block] := by
  unfold parseParagraph at h
  split at h
  · obtain ⟨b, s₁, hpush, h⟩ := exists_of_stateT_bind_eq_ok h
    obtain ⟨blocks, hblocks, h⟩ := exists_of_lift_bind_eq_ok h
    obtain ⟨rfl, rfl⟩ := Prod.mk.inj (Except.ok.inj h)
    obtain ⟨-, rfl⟩ := Builder.finish_ok_iff.1 hblocks
    have hfresh := fresh_of_pushTokens ⟨fresh_nil, by simp⟩ hpush
    exact fresh_of_nodes (by rw [Block.nodes]) ⟨trivial, trivial⟩ hfresh.root
  · obtain ⟨rfl, rfl⟩ := Prod.mk.inj (Except.ok.inj h)
    refine fresh_of_nodes (by rw [Block.nodes]) ⟨?_, trivial⟩ ?_
    · intro child hchild
      obtain ⟨run, -, rfl⟩ := List.mem_map.1 hchild
      exact ⟨run, rfl⟩
    · rw [nodesOf_static]
      intro child hchild
      obtain ⟨run, -, rfl⟩ := List.mem_map.1 hchild
      exact ⟨trivial, trivial⟩

theorem fresh_of_feedParagraph {settings : TemplateSettings} {p : Paragraph} (hb : b.Fresh)
    (h : feedParagraph settings b p s = .ok (b', s')) : b'.Fresh := by
  obtain ⟨tokens, htokens⟩ := tokenize_of_feedParagraph h
  rw [feedParagraph_eq htokens] at h
  split at h
  · exact fresh_of_applyDirective hb h
  · obtain ⟨⟨block, s₁⟩, hparse, hpair⟩ := exists_of_map_eq_ok h
    obtain ⟨rfl, rfl⟩ := Prod.mk.inj hpair
    exact hb.push (fresh_of_parseParagraph hparse)

/-! ## Bodies and tables -/

theorem fresh_table {properties : TableProperties} {grid : List UInt32}
    {rows : List (RowBlock Block)} (h : ∀ b ∈ rowNodes rows, b.IsSteady ∧ b.IsOriginal) :
    Fresh [.table ⟨properties, grid, rows⟩] :=
  fresh_of_nodes (by rw [Block.nodes]) ⟨trivial, trivial⟩ h

/-- The parser adds only fresh blocks to a builder. -/
theorem fresh_of_feedBody (settings : TemplateSettings) (b : Builder) (body : List Element) :
    b.Fresh → ∀ s b' s', feedBody settings b body s = .ok (b', s') → b'.Fresh := by
  refine (feedBody.mutual_induct settings
    (fun b body => b.Fresh → ∀ s b' s', feedBody settings b body s = .ok (b', s') → b'.Fresh)
    (fun depth rows => ∀ s blocks s', parseRows settings depth rows s = .ok (blocks, s') →
      ∀ b ∈ rowNodes blocks, b.IsSteady ∧ b.IsOriginal)
    (fun depth cells => ∀ s blocks s', parseCells settings depth cells s = .ok (blocks, s') →
      ∀ b ∈ cellNodes blocks, b.IsSteady ∧ b.IsOriginal)
    ?_ ?_ ?_ ?_ ?_ ?_ ?_).1 b body
  · intro b hb s b' s' h
    rw [feedBody_nil] at h
    obtain ⟨rfl, rfl⟩ := Prod.mk.inj (Except.ok.inj h)
    exact hb
  · intro b p rest ih hb s b' s' h
    rw [feedBody_paragraph] at h
    obtain ⟨b₁, s₁, hp, h⟩ := exists_of_stateT_bind_eq_ok h
    exact ih b₁ (fresh_of_feedParagraph hb hp) s₁ b' s' h
  · intro b t rest ihRows ih hb s b' s' h
    rw [feedBody_table] at h
    obtain ⟨rows, s₁, hrows, h⟩ := exists_of_stateT_bind_eq_ok h
    exact ih rows (hb.push (fresh_table (ihRows s rows s₁ hrows))) s₁ b' s' h
  · intro depth s blocks s' h
    rw [parseRows_nil] at h
    obtain ⟨rfl, rfl⟩ := Prod.mk.inj (Except.ok.inj h)
    simp [rowNodes]
  · intro depth row rows ihRows ihRepeated ihOnce s blocks s' h
    obtain ⟨_ | markers, hmarkers⟩ := exists_of_parseRows_cons settings h
    · rw [parseRows_once settings hmarkers] at h
      obtain ⟨cells, s₁, hcells, h⟩ := exists_of_stateT_bind_eq_ok h
      obtain ⟨rest, s₂, hrest, h⟩ := exists_of_stateT_bind_eq_ok h
      obtain ⟨rfl, rfl⟩ := Prod.mk.inj (Except.ok.inj h)
      rw [rowNodes, List.forall_mem_append]
      exact ⟨ihOnce s cells s₁ hcells, ihRows s₁ rest s₂ hrest⟩
    · rw [parseRows_repeated settings hmarkers] at h
      obtain ⟨-, -, h⟩ := exists_of_lift_bind_eq_ok h
      obtain ⟨cells, s₁, hcells, h⟩ := exists_of_stateT_bind_eq_ok h
      obtain ⟨rest, s₂, hrest, h⟩ := exists_of_stateT_bind_eq_ok h
      obtain ⟨rfl, rfl⟩ := Prod.mk.inj (Except.ok.inj h)
      rw [rowNodes, List.forall_mem_append]
      exact ⟨ihRepeated markers s cells s₁ hcells, ihRows s₁ rest s₂ hrest⟩
  · intro depth s blocks s' h
    rw [parseCells_nil] at h
    obtain ⟨rfl, rfl⟩ := Prod.mk.inj (Except.ok.inj h)
    simp [cellNodes]
  · intro depth cell cells builder ihBody ihCells s blocks s' h
    rw [parseCells_cons] at h
    obtain ⟨b, s₁, hbody, h⟩ := exists_of_stateT_bind_eq_ok h
    obtain ⟨body, hfinish, h⟩ := exists_of_lift_bind_eq_ok h
    obtain ⟨rest, s₂, hrest, h⟩ := exists_of_stateT_bind_eq_ok h
    obtain ⟨rfl, rfl⟩ := Prod.mk.inj (Except.ok.inj h)
    obtain ⟨-, rfl⟩ := Builder.finish_ok_iff.1 hfinish
    rw [cellNodes, List.forall_mem_append]
    exact ⟨(ihBody ⟨fresh_nil, by simp [builder]⟩ s b s₁ hbody).root, ihCells s₁ rest s₂ hrest⟩

/-- The tree of blocks of a template is fresh. -/
theorem Template.fresh_of_ofDocument {settings : TemplateSettings} {name : String} {d : Document}
    {t : Template} (h : Template.ofDocument settings name d = .ok t) : Fresh t.blocks := by
  obtain ⟨b, s, hfeed, -, rfl⟩ := Template.ofDocument_ok_iff.1 h
  exact (fresh_of_feedBody settings _ d.body ⟨fresh_nil, by simp [TemplateSettings.builder]⟩ _ _ _
    hfeed).root

end Parser

end StyledTemplate
