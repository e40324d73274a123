import StyledTemplate.Proofs.Block.Nodes
import StyledTemplate.Proofs.Template.Parsing

/-!
# What a builder puts together

For text and directives a builder makes blocks that stand within a line, and regions around these. So
it preserves every property that all such blocks have: if all blocks that it has built so far have
the property, and those that are pushed into it, then all that it goes on to build have it too. The
children of a paragraph are built from nothing, so none of them is a paragraph or a table itself
(`exists_inline_of_parseParagraph`).
-/

namespace StyledTemplate

/-! ## Trees -/

/-- Does the block stand within a line? Paragraphs and tables do not. -/
def Block.isInline : Block → Bool
  | .paragraph _ _ _ => false
  | .table _ => false
  | _ => true

/-- Every block of the trees has the property. -/
def Every (P : Block → Prop) (blocks : List Block) : Prop := ∀ block ∈ nodesOf blocks, P block

/-- All blocks that stand within a line have the property, but for those with a body from another
template. -/
def HoldsInline (P : Block → Prop) : Prop :=
  ∀ block : Block, block.isInline = true → block.IsOriginal → P block

section Trees

variable {P : Block → Prop}

theorem every_nil : Every P [] := by simp [Every]

theorem every_append_iff {as bs : List Block} :
    Every P (as ++ bs) ↔ Every P as ∧ Every P bs := by
  rw [Every, nodesOf_append, List.forall_mem_append]
  rfl

theorem every_of_nodes {block : Block} {within : List Block}
    (hnodes : block.nodes = block :: within) (hblock : P block) (hwithin : ∀ b ∈ within, P b) :
    Every P [block] := by
  rw [Every, nodesOf_cons, nodesOf_nil, List.append_nil, hnodes, List.forall_mem_cons]
  exact ⟨hblock, hwithin⟩

theorem HoldsInline.leaf (hP : HoldsInline P) {block : Block} (hnodes : block.nodes = [block])
    (hinline : block.isInline = true) (horiginal : block.IsOriginal) : Every P [block] :=
  every_of_nodes hnodes (hP block hinline horiginal) (List.forall_mem_nil _)

end Trees

/-! ## Open regions -/

namespace Opening

/-- The blocks that have been read of the region. -/
def content : Opening → List Block
  | .condition _ thenBlocks elseBlocks => thenBlocks ++ elseBlocks.getD []
  | .loop _ body => body
  | .named _ body => body

theorem content_push (opening : Opening) (block : Block) :
    (opening.push block).content = opening.content ++ [block] := by
  rcases opening with ⟨name, thenBlocks, _ | elseBlocks⟩ | ⟨list, body⟩ | ⟨id, body⟩
  · simp [push, content]
  · simp [push, content]
  · rfl
  · rfl

theorem nodes_toBlock (opening : Opening) (position : Position) :
    (opening.toBlock position).nodes = opening.toBlock position :: nodesOf opening.content := by
  rcases opening with ⟨name, thenBlocks, _ | elseBlocks⟩ | ⟨list, body⟩ | ⟨id, body⟩
  · rw [toBlock, Block.nodes, content, Option.getD_none, List.append_nil]
  · rw [toBlock, Block.nodes, content, Option.getD_some, nodesOf_append]
  · rw [toBlock, Block.nodes, content]
  · rw [toBlock, Block.nodes, content]

/-- The block that a region becomes stands within a line, and its body is its own. -/
theorem inline_toBlock (opening : Opening) (position : Position) :
    (opening.toBlock position).isInline = true ∧ (opening.toBlock position).IsOriginal := by
  rcases opening with ⟨name, thenBlocks, elseBlocks⟩ | ⟨list, body⟩ | ⟨id, body⟩
  · exact ⟨rfl, trivial⟩
  · exact ⟨rfl, trivial⟩
  · exact ⟨rfl, rfl⟩

end Opening

theorem HoldsInline.toBlock {P : Block → Prop} (hP : HoldsInline P) {opening : Opening}
    (h : Every P opening.content) (position : Position) : Every P [opening.toBlock position] := by
  obtain ⟨hinline, horiginal⟩ := opening.inline_toBlock position
  exact every_of_nodes (opening.nodes_toBlock position) (hP _ hinline horiginal) h

/-! ## Builders -/

namespace Builder

/-- All blocks that a builder has built have the property. -/
structure Every (P : Block → Prop) (b : Builder) : Prop where
  /-- What stands outside of all open regions. -/
  root : StyledTemplate.Every P b.root
  /-- What stands in the open regions. -/
  frames : ∀ frame ∈ b.frames, StyledTemplate.Every P frame.opening.content

section Operations

variable {P : Block → Prop} {b b' : Builder} {opener : String} {position : Position}

theorem Every.push {block : Block} (h : b.Every P) (hblock : StyledTemplate.Every P [block]) :
    (b.push block).Every P := by
  obtain ⟨root, frames, baseDepth, limit⟩ := b
  cases frames with
  | nil => exact ⟨every_append_iff.2 ⟨h.root, hblock⟩, h.frames⟩
  | cons frame frames =>
    obtain ⟨hframe, hframes⟩ := List.forall_mem_cons.1 h.frames
    have hpush : StyledTemplate.Every P (frame.opening.push block).content := by
      rw [Opening.content_push]
      exact every_append_iff.2 ⟨hframe, hblock⟩
    exact ⟨h.root, List.forall_mem_cons.2 ⟨hpush, hframes⟩⟩

theorem Every.openRegion (h : b.Every P) (opening : Opening) (hempty : opening.content = [])
    (hresult : b.openRegion opening opener position = .ok b') : b'.Every P := by
  obtain ⟨-, rfl⟩ := openRegion_ok_iff.1 hresult
  have hopening : StyledTemplate.Every P opening.content := by
    rw [hempty]
    exact every_nil
  exact ⟨h.root, List.forall_mem_cons.2 ⟨hopening, h.frames⟩⟩

theorem Every.otherwise (h : b.Every P) (hresult : b.otherwise position = .ok b') :
    b'.Every P := by
  obtain ⟨root, frames, baseDepth, limit⟩ := b
  rcases frames with _ | ⟨⟨⟨name, thenBlocks, _ | elseBlocks⟩ | ⟨list, body⟩ | ⟨id, body⟩,
    opener, start⟩, frames⟩ <;> simp only [Builder.otherwise, reduceCtorEq] at hresult
  obtain rfl := Except.ok.inj hresult
  -- the second branch starts without blocks
  exact ⟨h.root, List.forall_mem_cons.2 (List.forall_mem_cons.1 h.frames)⟩

variable (hP : HoldsInline P)

include hP

theorem Every.pushRuns (h : b.Every P) (runs : List Run) : (b.pushRuns runs).Every P := by
  induction runs generalizing b with
  | nil => exact h
  | cons run runs ih =>
    have hrun : StyledTemplate.Every P [.static run] := hP.leaf (by rw [Block.nodes]) rfl trivial
    exact ih (h.push hrun)

theorem Every.close (h : b.Every P) {region : Region}
    (hresult : b.close region position = .ok b') : b'.Every P := by
  obtain ⟨root, frames, baseDepth, limit⟩ := b
  cases frames with
  | nil => simp [Builder.close] at hresult
  | cons frame frames =>
    simp only [Builder.close] at hresult
    split at hresult
    · obtain rfl := Except.ok.inj hresult
      obtain ⟨hframe, hframes⟩ := List.forall_mem_cons.1 h.frames
      exact Every.push ⟨h.root, hframes⟩ (hP.toBlock hframe frame.position)
    · simp at hresult

/-- A step of a builder keeps a property of all blocks that stand within a line. -/
theorem Every.apply {style : RunProperties} {d : Directive} (h : b.Every P)
    (happly : b.apply opener style position d = .ok b') : b'.Every P := by
  cases d with
  | inherits parent =>
    obtain rfl := Except.ok.inj happly
    exact h.push (hP.leaf (by rw [Block.nodes]) rfl trivial)
  | placeholder path =>
    obtain rfl := Except.ok.inj happly
    exact h.push (hP.leaf (by rw [Block.nodes]) rfl trivial)
  | image name =>
    obtain rfl := Except.ok.inj happly
    exact h.push (hP.leaf (by rw [Block.nodes]) rfl trivial)
  | ifOpen condition => exact h.openRegion (.condition condition [] none) rfl happly
  | otherwise => exact h.otherwise happly
  | ifClose => exact h.close hP happly
  | eachOpen list => exact h.openRegion (.loop list []) rfl happly
  | eachClose => exact h.close hP happly
  | blockOpen id => exact h.openRegion (.named id []) rfl happly
  | blockClose => exact h.close hP happly

theorem Every.pushText (h : b.Every P) (text : List Char) (start stop : Nat)
    (anchors : List Anchor) (spans : List Span) :
    (pushText text start stop b anchors spans).1.Every P := by
  induction spans generalizing b anchors with
  | nil => exact h
  | cons span spans ih =>
    rw [StyledTemplate.pushText]
    split
    · exact ih h anchors
    · have htext : ∀ piece, StyledTemplate.Every P [.text piece span.style] := by
        intro piece
        exact hP.leaf (by rw [Block.nodes]) rfl trivial
      exact ih ((h.pushRuns hP _).push (htext _)) _

end Operations

end Builder

/-! ## The tokens of a paragraph -/

section Tokens

variable {P : Block → Prop} {strict : Bool} {b b' : Builder} {s s' : Progress}

theorem HoldsInline.of_applyDirective (hP : HoldsInline P) {opener : String}
    {style : RunProperties} {position : Position} {d : Directive} (hb : b.Every P)
    (h : applyDirective strict opener style position b d s = .ok (b', s')) : b'.Every P := by
  cases hd : d.isInherits with
  | false =>
    obtain ⟨s₁, -, -, -, heq⟩ := exists_applyDirective_eq strict opener style position hd s
    rw [heq] at h
    obtain ⟨b₁, happly, hpair⟩ := exists_of_map_eq_ok h
    obtain ⟨rfl, rfl⟩ := Prod.mk.inj hpair
    exact hb.apply hP happly
  | true =>
    obtain ⟨parent, rfl⟩ := Directive.exists_parent hd
    obtain ⟨-, rfl, -⟩ | ⟨-, -, rfl, -⟩ := declareParent_cases h
    · exact hb.push (hP.leaf (by rw [Block.nodes]) rfl trivial)
    · exact hb

theorem HoldsInline.of_pushTokens (hP : HoldsInline P) {ordinal : Nat} {map : RunMap}
    {anchors : List Anchor} {tokens : List Token} (hb : b.Every P)
    (h : pushTokens strict ordinal map b anchors tokens s = .ok (b', s')) : b'.Every P := by
  induction tokens generalizing b anchors s with
  | nil =>
    obtain ⟨rfl, rfl⟩ := Prod.mk.inj (Except.ok.inj h)
    exact hb.pushRuns hP _
  | cons token tokens ih =>
    obtain ⟨kind, start, stop⟩ := token
    cases kind with
    | text literal =>
      rw [pushTokens_text] at h
      exact ih (hb.pushText hP ..) h
    | directive d =>
      rw [pushTokens_directive] at h
      obtain ⟨b₁, s₁, hd, h⟩ := exists_of_stateT_bind_eq_ok h
      exact ih (hP.of_applyDirective (hb.pushRuns hP _) hd) h

section Paragraphs

variable {settings : TemplateSettings} {p : Paragraph} {map : RunMap} {tokens : List Token}
  {ordinal depth : Nat} {block : Block}

/-- The children of a paragraph with directives are what is built of its tokens. -/
theorem exists_finish_of_parseParagraph
    (hany : (tokens.any fun token => token.directive?.isSome) = true)
    (h : parseParagraph settings p map tokens ordinal depth s = .ok (block, s')) :
    ∃ b children, pushTokens settings.strict ordinal map
        { baseDepth := depth, limit := settings.maxNestingDepth.toNat } map.anchors tokens s =
        .ok (b, s') ∧
      b.finish = .ok children ∧ block = .paragraph p.properties children true := by
  unfold parseParagraph at h
  rw [if_pos hany] at h
  obtain ⟨b, s₁, hpush, h⟩ := exists_of_stateT_bind_eq_ok h
  obtain ⟨children, hchildren, h⟩ := exists_of_lift_bind_eq_ok h
  obtain ⟨rfl, rfl⟩ := Prod.mk.inj (Except.ok.inj h)
  exact ⟨b, children, hpush, hchildren, rfl⟩

/-- A paragraph with directives is read as a paragraph of blocks that stand within a line. -/
theorem exists_inline_of_parseParagraph
    (hany : (tokens.any fun token => token.directive?.isSome) = true)
    (h : parseParagraph settings p map tokens ordinal depth s = .ok (block, s')) :
    ∃ children, block = .paragraph p.properties children true ∧
      Every (fun child => child.isInline = true) children := by
  obtain ⟨b, children, hpush, hfinish, hblock⟩ := exists_finish_of_parseParagraph hany h
  obtain ⟨-, rfl⟩ := Builder.finish_ok_iff.1 hfinish
  have hP : HoldsInline fun child => child.isInline = true := fun child hinline _ => hinline
  have hb := hP.of_pushTokens ⟨every_nil, List.forall_mem_nil _⟩ hpush
  exact ⟨b.root, hblock, hb.root⟩

end Paragraphs

end Tokens

end StyledTemplate
