import StyledTemplate.Proofs.Directive.Tiling
import StyledTemplate.Proofs.Document.RowContent

/-!
# The content at the bytes of tokens

Tokens take up the text of a paragraph one after the other. Each of them takes its portion of the
content with it: the characters it was read from, and the runs without text that stand before one of
them (`Portions`). Going by places, the portion of a token is the content at its bytes
(`SplitAt.contentAt_eq`).
-/

namespace StyledTemplate

open Text (byteLength)

/-! ## Spans and anchors by content -/

namespace Located

/-- The bytes that it takes up, if it is a character. -/
def span? (l : Located) : Option Span :=
  match l.atom with
  | .char c style => some ⟨l.offset, l.offset + c.utf8Size, style⟩
  | .run _ => none

/-- Where it stands, if it is a run without text. -/
def anchor? (l : Located) : Option Anchor :=
  match l.atom with
  | .char _ _ => none
  | .run run => some ⟨l.offset, run⟩

/-- Its formatting, if it is a character that holds a byte. -/
def styleAt? (byte : Nat) (l : Located) : Option RunProperties :=
  match l.atom with
  | .char c style => if l.offset ≤ byte ∧ byte < l.offset + c.utf8Size then some style else none
  | .run _ => none

/-- Does it stand at one of the bytes from `start` to `stop`? -/
def isAt (start stop : Nat) (l : Located) : Bool :=
  decide (start ≤ l.offset) && decide (l.offset < stop)

end Located

/-- The bytes that the characters of some content take up. -/
def spansOf (located : List Located) : List Span := located.filterMap Located.span?

/-- Where the runs without text stand among some content. -/
def anchorsOf (located : List Located) : List Anchor := located.filterMap Located.anchor?

/-- Is it a run without text? -/
def Atom.isRun : Atom → Bool
  | .char _ _ => false
  | .run _ => true

theorem locate_append (number offset : Nat) (as bs : List Atom) :
    locate number offset (as ++ bs) =
      locate number offset as ++ locate number (offset + byteLength (atomsText as)) bs := by
  induction as generalizing offset with
  | nil => rfl
  | cons atom as ih =>
    cases atom with
    | char c style =>
      have hrest := ih (offset + c.utf8Size)
      rw [Nat.add_assoc] at hrest
      exact congrArg (_ :: ·) hrest
    | run run => exact congrArg (_ :: ·) (ih offset)

theorem atomsText_append (as bs : List Atom) :
    atomsText (as ++ bs) = atomsText as ++ atomsText bs :=
  List.filterMap_append

theorem spansOf_append (as bs : List Located) : spansOf (as ++ bs) = spansOf as ++ spansOf bs :=
  List.filterMap_append

theorem anchorsOf_append (as bs : List Located) :
    anchorsOf (as ++ bs) = anchorsOf as ++ anchorsOf bs := List.filterMap_append

section Runs

variable (number offset : Nat)

theorem spansFrom_spellText (cs : List Char) (style : RunProperties) (runs : List Run) :
    spansFrom offset (spellText cs style ++ runs) =
      spansOf (locate number offset (charAtoms cs style)) ++
        spansFrom (offset + byteLength cs) runs := by
  induction cs generalizing offset with
  | nil => rfl
  | cons c cs ih =>
    have hone : byteLength (String.ofList [c]).toList = c.utf8Size := by simp
    rw [spellText_cons, List.cons_append, spansFrom_text, hone, ih, Nat.add_assoc]
    rfl

/-- Of runs that are spelled out, the spans are those of the characters. -/
theorem spansFrom_spellRuns (runs : List Run) :
    spansFrom offset (spellRuns runs) = spansOf (locate number offset (runsAtoms runs)) := by
  induction runs using runs_induction generalizing offset with
  | nil => rfl
  | text s style runs ih =>
    have hatoms : runsAtoms (.ofText s style :: runs) =
        charAtoms s.toList style ++ runsAtoms runs := rfl
    rw [spellRuns_cons, Run.spell_ofText, spansFrom_spellText number, ih, hatoms, locate_charAtoms,
      spansOf_append]
  | other run runs hrun ih =>
    rw [spellRuns_cons, Run.spell_of_text?_eq_none hrun, List.singleton_append,
      spansFrom_other hrun, ih, runsAtoms_cons, atoms_of_text?_eq_none hrun]
    rfl

theorem anchorsOf_charAtoms (cs : List Char) (style : RunProperties) :
    anchorsOf (locate number offset (charAtoms cs style)) = [] := by
  induction cs generalizing offset with
  | nil => rfl
  | cons c cs ih => exact ih (offset + c.utf8Size)

theorem anchorsFrom_eq (runs : List Run) :
    anchorsFrom offset runs = anchorsOf (locate number offset (runsAtoms runs)) := by
  induction runs using runs_induction generalizing offset with
  | nil => rfl
  | text s style runs ih =>
    have hatoms : runsAtoms (.ofText s style :: runs) =
        charAtoms s.toList style ++ runsAtoms runs := rfl
    rw [anchorsFrom_text, ih, hatoms, locate_charAtoms, anchorsOf_append, anchorsOf_charAtoms,
      List.nil_append]
  | other run runs hrun ih =>
    rw [anchorsFrom_other hrun, ih, runsAtoms_cons, atoms_of_text?_eq_none hrun]
    rfl

end Runs

/-- The formatting at a byte is that of the character that holds it. -/
theorem styleIn?_spansOf (byte : Nat) (located : List Located) :
    styleIn? byte (spansOf located) = located.findSome? (·.styleAt? byte) := by
  induction located with
  | nil => rfl
  | cons l located ih =>
    obtain ⟨number, offset, atom⟩ := l
    cases atom with
    | run run => exact ih
    | char c style =>
      have hspan : spansOf (⟨number, offset, .char c style⟩ :: located) =
          ⟨offset, offset + c.utf8Size, style⟩ :: spansOf located := rfl
      rw [hspan, styleIn?_cons, ih, List.findSome?_cons, Located.styleAt?]
      by_cases hholds : offset ≤ byte ∧ byte < offset + c.utf8Size
      · simp [hholds]
      · simp [hholds]

/-- Each byte of the text is held by a character. -/
theorem exists_styleAt? (number : Nat) {byte offset : Nat} {atoms : List Atom} (hle : offset ≤ byte)
    (hlt : byte < offset + byteLength (atomsText atoms)) :
    ∃ style, (locate number offset atoms).findSome? (·.styleAt? byte) = some style := by
  induction atoms generalizing offset with
  | nil => exact absurd hlt (Nat.not_lt.2 hle)
  | cons atom atoms ih =>
    cases atom with
    | run run => exact ih hle hlt
    | char c style =>
      have htext : atomsText (.char c style :: atoms) = c :: atomsText atoms := rfl
      rw [htext, Text.byteLength_cons, ← Nat.add_assoc] at hlt
      rw [locate, List.findSome?_cons, Located.styleAt?]
      by_cases hholds : byte < offset + c.utf8Size
      · exact ⟨style, by simp [hle, hholds]⟩
      · obtain ⟨style', hrest⟩ := ih (Nat.le_of_not_lt hholds) hlt
        exact ⟨style', by simp [hholds, hrest]⟩

/-! ## Places -/

/-- Content stands behind what is before it, and not behind the end of the text. -/
theorem offset_of_mem_locate {number offset : Nat} {atoms : List Atom} :
    ∀ l ∈ locate number offset atoms,
      offset ≤ l.offset ∧ l.offset ≤ offset + byteLength (atomsText atoms) := by
  induction atoms generalizing offset with
  | nil => exact List.forall_mem_nil _
  | cons atom atoms ih =>
    cases atom with
    | run run => exact List.forall_mem_cons.2 ⟨⟨Nat.le_refl _, Nat.le_add_right _ _⟩, ih⟩
    | char c style =>
      have htext : atomsText (.char c style :: atoms) = c :: atomsText atoms := rfl
      refine List.forall_mem_cons.2 ⟨⟨Nat.le_refl _, Nat.le_add_right _ _⟩, fun l hl => ?_⟩
      obtain ⟨hle, hge⟩ := ih l hl
      rw [htext, Text.byteLength_cons]
      omega

/-- The bytes of characters are between what is before them and the end of the text. -/
theorem bounds_of_mem_spansOf {number offset : Nat} {atoms : List Atom} :
    ∀ span ∈ spansOf (locate number offset atoms),
      offset ≤ span.start ∧ span.stop ≤ offset + byteLength (atomsText atoms) := by
  induction atoms generalizing offset with
  | nil => exact List.forall_mem_nil _
  | cons atom atoms ih =>
    cases atom with
    | run run => exact ih
    | char c style =>
      have htext : atomsText (.char c style :: atoms) = c :: atomsText atoms := rfl
      rw [htext, Text.byteLength_cons, ← Nat.add_assoc]
      refine List.forall_mem_cons.2 ⟨⟨Nat.le_refl _, Nat.le_add_right _ _⟩, fun span hspan => ?_⟩
      obtain ⟨hle, hge⟩ := ih span hspan
      exact ⟨Nat.le_trans (Nat.le_add_right _ _) hle, hge⟩

/-- An anchor among some content is a run without text that stands there. -/
theorem exists_of_mem_anchorsOf {a : Anchor} {located : List Located} (h : a ∈ anchorsOf located) :
    ∃ l ∈ located, l.offset = a.offset ∧ l.atom = .run a.run := by
  obtain ⟨⟨number, offset, atom⟩, hl, ha⟩ := List.mem_filterMap.1 h
  cases atom with
  | char c style => cases ha
  | run run =>
    obtain rfl := Option.some.inj ha
    exact ⟨_, hl, rfl, rfl⟩

/-- The runs without text among some content are its anchors. -/
theorem filter_isRun (number offset : Nat) (atoms : List Atom) :
    (anchorsOf (locate number offset atoms)).map (fun a => Atom.run a.run) =
      atoms.filter Atom.isRun := by
  induction atoms generalizing offset with
  | nil => rfl
  | cons atom atoms ih =>
    cases atom with
    | char c style => exact ih (offset + c.utf8Size)
    | run run => exact congrArg (Atom.run run :: ·) (ih offset)

theorem filter_isRun_of_text {atoms : List Atom} (h : atomsText atoms = []) :
    atoms.filter Atom.isRun = atoms := by
  rw [List.filter_eq_self]
  intro atom hatom
  cases atom with
  | char c style =>
    have hc : c ∈ atomsText atoms := List.mem_filterMap.2 ⟨_, hatom, rfl⟩
    rw [h] at hc
    cases hc
  | run run => rfl

/-- The content in front of a character stands before the byte behind it. -/
theorem offset_lt_of_mem_locate {number offset : Nat} (init : List Atom) (c : Char)
    (style : RunProperties) : ∀ l ∈ locate number offset (init ++ [.char c style]),
      l.offset < offset + byteLength (atomsText (init ++ [.char c style])) := by
  have hsize := c.utf8Size_pos
  have hlength : byteLength (atomsText (init ++ [.char c style])) =
      byteLength (atomsText init) + c.utf8Size := by
    rw [atomsText_append, Text.byteLength_append]
    rfl
  intro l hl
  rw [locate_append, List.mem_append] at hl
  rcases hl with hinit | hlast
  · have hle := (offset_of_mem_locate l hinit).2
    omega
  · obtain rfl := List.mem_singleton.1 hlast
    dsimp only
    omega

/-- The content at the bytes from `start` to `stop`. -/
def contentAt (start stop : Nat) (located : List Located) : List Atom :=
  contentOf (located.filter (·.isAt start stop))

/-- The content behind the bytes up to `start`. -/
def contentFrom (start : Nat) (located : List Located) : List Atom :=
  contentOf (located.filter (start ≤ ·.offset))

/-- A place between two characters where some content is split, the runs without text that stand
there being behind it. -/
structure SplitAt (number start : Nat) (all before behind : List Atom) : Prop where
  /-- The two parts make up the content. -/
  parts : all = before ++ behind
  /-- The place is behind the characters of the first part. -/
  start_eq : start = byteLength (atomsText before)
  /-- Nothing of the first part stands at the place. -/
  ends : ∀ l ∈ locate number 0 before, l.offset < start

namespace SplitAt

variable {number start stop : Nat} {all before behind portion rest : List Atom}

theorem zero (number : Nat) (all : List Atom) : SplitAt number 0 all [] all where
  parts := rfl
  start_eq := rfl
  ends := List.forall_mem_nil _

theorem locate_eq (h : SplitAt number start all before behind) :
    locate number 0 all = locate number 0 before ++ locate number start behind := by
  rw [h.parts, locate_append, Nat.zero_add, ← h.start_eq]

/-- The split behind a portion that ends with a character. -/
theorem next {init : List Atom} {c : Char} {style : RunProperties}
    (h : SplitAt number start all before (init ++ [.char c style] ++ rest))
    (hstop : stop = start + byteLength (atomsText (init ++ [.char c style]))) :
    SplitAt number stop all (before ++ (init ++ [.char c style])) rest where
  parts := by rw [h.parts, List.append_assoc before]
  start_eq := by rw [hstop, h.start_eq, atomsText_append before, Text.byteLength_append]
  ends := by
    intro l hl
    rw [locate_append, Nat.zero_add, ← h.start_eq, List.mem_append] at hl
    rcases hl with hbefore | hportion
    · have hlt := h.ends l hbefore
      omega
    · rw [hstop]
      exact offset_lt_of_mem_locate init c style l hportion

theorem filter_before (h : SplitAt number start all before behind) {p : Located → Bool}
    (hp : ∀ l, p l = true → start ≤ l.offset) : (locate number 0 before).filter p = [] := by
  rw [List.filter_eq_nil_iff]
  intro l hl hpl
  have hbefore := h.ends l hl
  have hbehind := hp l hpl
  omega

/-- Behind a split stands the content from there on. -/
theorem contentFrom_eq (h : SplitAt number start all before behind) :
    contentFrom start (locate number 0 all) = behind := by
  have hbefore : (locate number 0 before).filter (start ≤ ·.offset) = [] :=
    h.filter_before fun l hl => of_decide_eq_true hl
  have hbehind : (locate number start behind).filter (start ≤ ·.offset) =
      locate number start behind := by
    rw [List.filter_eq_self]
    exact fun l hl => decide_eq_true (offset_of_mem_locate l hl).1
  rw [contentFrom, h.locate_eq, List.filter_append, hbefore, hbehind, List.nil_append,
    contentOf_locate]

/-- Between two splits stands the content at the bytes between them. -/
theorem contentAt_eq (h : SplitAt number start all before (portion ++ rest))
    (hstop : stop = start + byteLength (atomsText portion))
    (hportion : ∀ l ∈ locate number start portion, l.offset < stop) :
    contentAt start stop (locate number 0 all) = portion := by
  have hbefore : (locate number 0 before).filter (·.isAt start stop) = [] :=
    h.filter_before fun l hl => by
      simp only [Located.isAt, Bool.and_eq_true, decide_eq_true_eq] at hl
      exact hl.1
  have hwithin : (locate number start portion).filter (·.isAt start stop) =
      locate number start portion := by
    rw [List.filter_eq_self]
    intro l hl
    have hlow := (offset_of_mem_locate l hl).1
    have hhigh := hportion l hl
    simp [Located.isAt, hlow, hhigh]
  have hbehind : (locate number stop rest).filter (·.isAt start stop) = [] := by
    rw [List.filter_eq_nil_iff]
    intro l hl
    have hlow := (offset_of_mem_locate l hl).1
    simp only [Located.isAt, Bool.and_eq_true, decide_eq_true_eq]
    omega
  rw [contentAt, h.locate_eq, locate_append, ← hstop, List.filter_append, List.filter_append,
    hbefore, hwithin, hbehind, List.nil_append, List.append_nil, contentOf_locate]

end SplitAt

/-! ## Portions -/

/-- The tokens take up the content behind `offset` one after the other: each takes a portion that
ends with a character, and what is left behind them are runs without text. -/
inductive Portions : Nat → List Token → List Atom → Prop where
  | nil (offset : Nat) {atoms : List Atom} (text : atomsText atoms = []) : Portions offset [] atoms
  | cons {offset : Nat} {token : Token} {tokens : List Token} {c : Char} {style : RunProperties}
      {init rest : List Atom} (start : token.start = offset)
      (stop : token.stop = offset + byteLength (atomsText (init ++ [.char c style])))
      (behind : Portions token.stop tokens rest) :
      Portions offset (token :: tokens) (init ++ [.char c style] ++ rest)

/-- A first part of the text is the text of a first portion that ends with a character. -/
theorem exists_portion {atoms : List Atom} {part after : List Char}
    (h : atomsText atoms = part ++ after) (hpart : part ≠ []) :
    ∃ init c style rest, atoms = init ++ [.char c style] ++ rest ∧
      atomsText (init ++ [.char c style]) = part ∧ atomsText rest = after := by
  induction atoms generalizing part with
  | nil => exact absurd (List.append_eq_nil_iff.1 h.symm).1 hpart
  | cons atom atoms ih =>
    cases atom with
    | run run =>
      obtain ⟨init, c, style, rest, rfl, htext, hrest⟩ := ih h hpart
      exact ⟨.run run :: init, c, style, rest, rfl, htext, hrest⟩
    | char c style =>
      obtain ⟨first, part, rfl⟩ := List.exists_cons_of_ne_nil hpart
      obtain ⟨rfl, htail⟩ := List.cons.inj h
      by_cases hnil : part = []
      · subst hnil
        exact ⟨[], c, style, atoms, rfl, rfl, htail⟩
      · obtain ⟨init, c', style', rest, rfl, htext, hrest⟩ := ih htail hnil
        exact ⟨.char c style :: init, c', style', rest, rfl, congrArg (c :: ·) htext, hrest⟩

/-- Tokens that take up the text of some content take up the content. -/
theorem portions_of_tiles {offset : Nat} {tokens : List Token} {cs : List Char} {atoms : List Atom}
    (h : Tiles offset tokens cs) (htext : atomsText atoms = cs) : Portions offset tokens atoms := by
  induction h generalizing atoms with
  | nil offset => exact .nil offset htext
  | cons start stop takes behind ih =>
    obtain ⟨init, c, style, rest, rfl, hpart, hrest⟩ := exists_portion htext takes.part_ne
    refine .cons start ?_ ?_
    · rw [stop, hpart]
    · rw [stop]
      exact ih hrest

end StyledTemplate
