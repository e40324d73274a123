import StyledTemplate.Proofs.Block.Nodes
import StyledTemplate.Proofs.Fields
import StyledTemplate.Proofs.Template.Progress

/-!
# The placeholders that a template notes

The parser notes the path of each placeholder when it reads it, long before the region around it is
closed. No placeholder is left out of the tree of blocks, and none is put into it that has not been
noted, so the noted paths are those of the placeholders in the tree
(`Template.contains_placeholders_iff`).
-/

namespace StyledTemplate

/-! ## Placeholders of a tree -/

/-- The path, if the directive is a placeholder. -/
def Directive.placeholder? : Directive → Option String
  | .placeholder path => some path
  | _ => none

/-- The path, if the block is a placeholder. -/
def Block.placeholder? : Block → Option String
  | .placeholder path _ _ => some path
  | _ => none

/-- The paths of the placeholders among some marks. -/
def markedPlaceholders (marks : List Mark) : List String :=
  marks.filterMap (·.directive.placeholder?)

/-- The paths of the placeholders in a tree of blocks, at any depth. -/
def placeholderPaths (blocks : List Block) : List String :=
  (nodesOf blocks).filterMap Block.placeholder?

@[simp] theorem markedPlaceholders_nil : markedPlaceholders [] = [] := rfl

@[simp] theorem markedPlaceholders_append (as bs : List Mark) :
    markedPlaceholders (as ++ bs) = markedPlaceholders as ++ markedPlaceholders bs :=
  List.filterMap_append

@[simp] theorem markedPlaceholders_cons (m : Mark) (ms : List Mark) :
    markedPlaceholders (m :: ms) = m.directive.placeholder?.toList ++ markedPlaceholders ms := by
  rw [markedPlaceholders, List.filterMap_cons]
  cases m.directive.placeholder? <;> rfl

theorem mem_placeholderPaths_iff {blocks : List Block} {path : String} :
    path ∈ placeholderPaths blocks ↔
      ∃ style position, Block.placeholder path style position ∈ nodesOf blocks := by
  rw [placeholderPaths, List.mem_filterMap]
  constructor
  · rintro ⟨block, hblock, hpath⟩
    cases block with
    | placeholder other style position =>
      obtain rfl := Option.some.inj hpath
      exact ⟨style, position, hblock⟩
    | _ => cases hpath
  · rintro ⟨style, position, hblock⟩
    exact ⟨_, hblock, rfl⟩

mutual

theorem Block.placeholders_eq : ∀ block : Block,
    block.nodes.filterMap Block.placeholder? = markedPlaceholders block.marks
  | .placeholder path _ _ => by
    simp [Block.nodes, Block.marks, Block.placeholder?, Directive.placeholder?]
  | .conditional _ thenBlocks none _ => by
    have hthen := placeholders_eq_marked thenBlocks
    simp [Block.nodes, Block.marks, List.filterMap_cons, Block.placeholder?, Directive.placeholder?,
      hthen]
  | .conditional _ thenBlocks (some elseBlocks) _ => by
    have hthen := placeholders_eq_marked thenBlocks
    have helse := placeholders_eq_marked elseBlocks
    simp [Block.nodes, Block.marks, List.filterMap_cons, Block.placeholder?, Directive.placeholder?,
      hthen, helse]
  | .loop _ body _ => by
    have hbody := placeholders_eq_marked body
    simp [Block.nodes, Block.marks, List.filterMap_cons, Block.placeholder?, Directive.placeholder?,
      hbody]
  | .named _ body _ _ => by
    have hbody := placeholders_eq_marked body
    simp [Block.nodes, Block.marks, List.filterMap_cons, Block.placeholder?, Directive.placeholder?,
      hbody]
  | .paragraph _ children _ => by
    have hchildren := placeholders_eq_marked children
    simp [Block.nodes, Block.marks, List.filterMap_cons, Block.placeholder?, hchildren]
  | .table ⟨_, _, rows⟩ => by
    have hrows := rowPlaceholders_eq_marked rows
    simp [Block.nodes, Block.marks, List.filterMap_cons, Block.placeholder?, hrows]
  | .image _ _ _ => by simp [Block.nodes, Block.marks, Block.placeholder?, Directive.placeholder?]
  | .inherits _ _ => by simp [Block.nodes, Block.marks, Block.placeholder?, Directive.placeholder?]
  | .text _ _ => by simp [Block.nodes, Block.marks, Block.placeholder?]
  | .static _ => by simp [Block.nodes, Block.marks, Block.placeholder?]

theorem placeholders_eq_marked : ∀ blocks : List Block,
    (nodesOf blocks).filterMap Block.placeholder? = markedPlaceholders (marksOf blocks)
  | [] => by simp
  | block :: blocks => by
    have hblock := block.placeholders_eq
    have hblocks := placeholders_eq_marked blocks
    simp [hblock, hblocks]

theorem rowPlaceholders_eq_marked : ∀ rows : List (RowBlock Block),
    (rowNodes rows).filterMap Block.placeholder? = markedPlaceholders (rowMarks rows)
  | [] => by simp [rowNodes, rowMarks]
  | .static ⟨_, cells⟩ :: rows => by
    have hcells := cellPlaceholders_eq_marked cells
    have hrows := rowPlaceholders_eq_marked rows
    simp [rowNodes, rowMarks, hcells, hrows]
  | .loop _ ⟨_, cells⟩ _ :: rows => by
    have hcells := cellPlaceholders_eq_marked cells
    have hrows := rowPlaceholders_eq_marked rows
    simp [rowNodes, rowMarks, Directive.placeholder?, hcells, hrows]

theorem cellPlaceholders_eq_marked : ∀ cells : List (Cell Block),
    (cellNodes cells).filterMap Block.placeholder? = markedPlaceholders (cellMarks cells)
  | [] => by simp [cellNodes, cellMarks]
  | ⟨_, body⟩ :: cells => by
    have hbody := placeholders_eq_marked body
    have hcells := cellPlaceholders_eq_marked cells
    simp [cellNodes, cellMarks, hbody, hcells]

end

/-! ## What is noted -/

/-- What reading a part of a template notes of placeholders: `ms` are the marks of the part, and `n`
is the number of its paragraphs. -/
structure NotesPlaceholders (s : Progress) (ms : List Mark) (n : Nat) (s' : Progress) : Prop where
  /-- The paragraphs are counted. -/
  paragraph : s'.paragraph = s.paragraph + n
  /-- The paths of the placeholders of the part are noted, and no others. -/
  placeholders : ∀ path, s'.placeholders.contains path = true ↔
    s.placeholders.contains path = true ∨ path ∈ markedPlaceholders ms

theorem placeholders_of_applyDirective {strict : Bool} {opener : String} {style : RunProperties}
    {position : Position} {b b' : Builder} {d : Directive} {s s' : Progress}
    (h : applyDirective strict opener style position b d s = .ok (b', s')) (path : String) :
    s'.placeholders.contains path = true ↔
      s.placeholders.contains path = true ∨ path ∈ d.placeholder?.toList := by
  cases hd : d.isInherits with
  | true =>
    obtain ⟨parent, rfl⟩ := Directive.exists_parent hd
    obtain ⟨-, -, rfl⟩ | ⟨-, -, -, rfl⟩ := declareParent_cases h
    · simp [Directive.placeholder?]
    · simp [Directive.placeholder?]
  | false =>
    rw [applyDirective_eq strict opener style position hd] at h
    obtain ⟨b₁, -, hpair⟩ := exists_of_map_eq_ok h
    obtain ⟨rfl, rfl⟩ := Prod.mk.inj hpair
    cases d with
    | placeholder noted =>
      show (s.placeholders.add noted).contains path = true ↔ _ ∨ path ∈ [noted]
      rw [NameSet.contains_add, Bool.or_eq_true, beq_iff_eq, List.mem_singleton, or_comm,
        @eq_comm _ noted path]
    | _ => simp [Progress.noted, Directive.placeholder?]

/-- What is noted of placeholders follows the marks. -/
theorem followsMarks_notesPlaceholders (strict : Bool) :
    FollowsMarks strict NotesPlaceholders where
  refl s := ⟨rfl, by simp⟩
  trans h h' := by
    refine ⟨by rw [h'.paragraph, h.paragraph, Nat.add_assoc], fun path => ?_⟩
    rw [h'.placeholders, h.placeholders, markedPlaceholders_append, List.mem_append, or_assoc]
  directive h := by
    obtain ⟨added, hadds, -⟩ := (advances_of_applyDirective h).1.adds
    refine ⟨hadds.paragraph, fun path => ?_⟩
    rw [placeholders_of_applyDirective h, markedPlaceholders_cons, markedPlaceholders_nil,
      List.append_nil]
    rfl
  rowOpen s list := ⟨rfl, by simp [rowOpen, Directive.placeholder?]⟩
  rowClose s := ⟨rfl, by simp [rowClose, Directive.placeholder?]⟩
  counted h := ⟨h.paragraph, h.placeholders⟩
  paragraph h := h.paragraph

/-- Declarations of a parent are no placeholders, so all placeholders are kept. -/
theorem markedPlaceholders_keptMarks (begun : Bool) (ms : List Mark) :
    markedPlaceholders (keptMarks begun ms) = markedPlaceholders ms := by
  induction ms generalizing begun with
  | nil => rfl
  | cons m ms ih =>
    rw [keptMarks, markedPlaceholders_cons]
    split
    · next h =>
      rw [Bool.and_eq_true] at h
      obtain ⟨parent, hparent⟩ := Directive.exists_parent h.2
      rw [ih, hparent]
      rfl
    · rw [markedPlaceholders_cons, ih]

/-- A template has noted the paths of the placeholders in its tree of blocks. -/
theorem Template.contains_placeholders_iff {settings : TemplateSettings} {name : String}
    {d : Document} {t : Template} (h : Template.ofDocument settings name d = .ok t)
    (path : String) : t.placeholders.contains path = true ↔ path ∈ placeholderPaths t.blocks := by
  obtain ⟨n, s, hnotes, -, hplaceholders⟩ :=
    (followsMarks_notesPlaceholders settings.strict).ofDocument h
  have hmarks := (fits_of_ofDocument h).2.2
  rw [← keptMarks_map_mark] at hmarks
  rw [hplaceholders, hnotes.placeholders, placeholderPaths, placeholders_eq_marked, hmarks,
    markedPlaceholders_keptMarks]
  constructor
  · rintro (hnone | hmem)
    · cases hnone
    · exact hmem
  · exact .inr

end StyledTemplate
