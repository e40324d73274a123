import StyledTemplate.Proofs.Outcome
import StyledTemplate.Proofs.Template.Outline

/-!
# Feeding directives to the parser

What one directive does to the parser, and from it what the tokens of a paragraph do: which regions
are open afterwards and which marks have been added. Of all that the parser keeps, only this
matters: the number of paragraphs that have been read, and whether a directive has been read before,
since after that a declaration of the parent is ignored (`keptMarks`).
-/

namespace StyledTemplate

/-! ## Declarations of the parent -/

/-- Has a directive been read, other than the markers of repeated rows? -/
def Progress.begun (s : Progress) : Bool := s.seenDirective || s.parent.isSome

/-- Is the directive a declaration of the parent? -/
def Directive.isInherits : Directive → Bool
  | .inherits _ => true
  | _ => false

theorem Directive.exists_parent {d : Directive} (h : d.isInherits = true) :
    ∃ parent, d = .inherits parent := by
  cases d <;> first | exact ⟨_, rfl⟩ | simp [isInherits] at h

/-- Have directives been read after some marks? The markers of repeated rows do not count. -/
def begunAfter (begun : Bool) (marks : List Mark) : Bool := begun || marks.any (!·.ofRow)

/-- The marks without the declarations of the parent that come after another directive. -/
def keptMarks : Bool → List Mark → List Mark
  | _, [] => []
  | begun, m :: marks =>
    if begun && m.directive.isInherits then keptMarks begun marks
    else m :: keptMarks (begun || !m.ofRow) marks

@[simp] theorem begunAfter_nil (begun : Bool) : begunAfter begun [] = begun := by simp [begunAfter]

@[simp] theorem begunAfter_append (begun : Bool) (as bs : List Mark) :
    begunAfter begun (as ++ bs) = begunAfter (begunAfter begun as) bs := by
  simp [begunAfter, Bool.or_assoc]

@[simp] theorem keptMarks_nil (begun : Bool) : keptMarks begun [] = [] := rfl

@[simp] theorem keptMarks_append (begun : Bool) (as bs : List Mark) :
    keptMarks begun (as ++ bs) = keptMarks begun as ++ keptMarks (begunAfter begun as) bs := by
  induction as generalizing begun with
  | nil => simp
  | cons m as ih =>
    rw [List.cons_append, keptMarks, keptMarks, ih, ih]
    split
    · next h =>
      rw [Bool.and_eq_true] at h
      simp [begunAfter, h.1]
    · simp [begunAfter, Bool.or_assoc]

theorem keptMarks_of_not_inherits {begun : Bool} {m : Mark} (h : m.directive.isInherits = false) :
    keptMarks begun [m] = [m] := by
  simp [keptMarks, h]

/-! ## Progress -/

/-- What reading a part of a template adds to a tree of blocks and to the progress: `ms` are the
marks of the part, and `n` is the number of its paragraphs. -/
structure Adds (s : Progress) (ms : List Mark) (n : Nat) (added : List Mark) (s' : Progress) :
    Prop where
  /-- The marks that are kept are added. -/
  marks : added = keptMarks s.begun ms
  /-- The paragraphs are counted. -/
  paragraph : s'.paragraph = s.paragraph + n
  /-- It is known whether a directive has been read. -/
  begun : s'.begun = begunAfter s.begun ms

namespace Adds

variable {s s' s'' : Progress} {ms ns added added' : List Mark} {m n : Nat}

theorem refl (s : Progress) : Adds s [] 0 [] s := ⟨rfl, rfl, (begunAfter_nil _).symm⟩

/-- Two parts are read one after the other. -/
theorem trans (h : Adds s ms m added s') (h' : Adds s' ns n added' s'') :
    Adds s (ms ++ ns) (m + n) (added ++ added') s'' where
  marks := by rw [h'.marks, h.marks, h.begun, keptMarks_append]
  paragraph := by rw [h'.paragraph, h.paragraph, Nat.add_assoc]
  begun := by rw [h'.begun, h.begun, begunAfter_append]

/-- A marker of a repeated row is kept and does not count as a directive. -/
theorem marker {m : Mark} (hd : m.directive.isInherits = false) (hrow : m.ofRow = true)
    (s : Progress) : Adds s [m] 0 [m] s :=
  ⟨(keptMarks_of_not_inherits hd).symm, rfl, by simp [begunAfter, hrow]⟩

end Adds

/-! ## One directive -/

/-- What reading a part of a body does to the parser and its builder: `ds` are the directives that
work on the builder, `ms` the marks of all directives, and `n` is the number of paragraphs. -/
structure Advances (b : Builder) (s : Progress) (ds : List Directive) (ms : List Mark) (n : Nat)
    (b' : Builder) (s' : Progress) : Prop where
  /-- The open regions are those that the directives leave open. -/
  nest : nestAfterAll? b.nest ds = some b'.nest
  /-- The builder has what it had before, and what the part adds. -/
  adds : ∃ added, Adds s ms n added s' ∧ b'.marks = b.marks ++ added
  /-- The regions around the builder are the same. -/
  baseDepth : b'.baseDepth = b.baseDepth
  /-- The limit is the same. -/
  limit : b'.limit = b.limit

namespace Advances

variable {b b' b'' : Builder} {s s' s'' : Progress} {ds es : List Directive} {ms ns : List Mark}
  {m n : Nat}

theorem refl (b : Builder) (s : Progress) : Advances b s [] [] 0 b s :=
  ⟨rfl, ⟨[], .refl s, (List.append_nil _).symm⟩, rfl, rfl⟩

/-- Two parts of a body are read one after the other. -/
theorem trans (h : Advances b s ds ms m b' s') (h' : Advances b' s' es ns n b'' s'') :
    Advances b s (ds ++ es) (ms ++ ns) (m + n) b'' s'' := by
  obtain ⟨added, hadds, hmarks⟩ := h.adds
  obtain ⟨added', hadds', hmarks'⟩ := h'.adds
  refine ⟨?_, ⟨added ++ added', hadds.trans hadds', ?_⟩, h'.baseDepth.trans h.baseDepth,
    h'.limit.trans h.limit⟩
  · rw [nestAfterAll?_append, h.nest, Option.bind_some, h'.nest]
  · rw [hmarks', hmarks, List.append_assoc]

/-- Adding a block to the builder adds the marks in it. -/
theorem push (b : Builder) {block : Block} (h : Adds s ms n block.marks s') :
    Advances b s [] ms n (b.push block) s' :=
  ⟨congrArg some (Builder.nest_push _ _).symm, ⟨_, h, Builder.marks_push _ _⟩,
    Builder.baseDepth_push _ _, Builder.limit_push _ _⟩

theorem depth (h : Advances b s ds ms n b' s') : b'.depth = depthAfterAll b.depth ds := by
  rw [b'.depth_eq, b.depth_eq, h.baseDepth, depthAfterAll_nestAfterAll? _ h.nest]

end Advances

section Directives

variable {strict : Bool} {opener : String} {style : RunProperties} {position : Position}
  {b b' : Builder} {d : Directive} {s s' : Progress}

/-- The progress once a directive has been read that declares no parent. -/
def Progress.noted (s : Progress) : Directive → Progress
  | .placeholder path =>
    { s with seenDirective := true, placeholders := s.placeholders.add path }
  | _ => { s with seenDirective := true }

/-- Any directive but a declaration of the parent is fed to the builder and noted. -/
theorem applyDirective_eq (strict : Bool) (opener : String) (style : RunProperties)
    (position : Position) (hd : d.isInherits = false) (s : Progress) (b : Builder) :
    applyDirective strict opener style position b d s =
      (b.apply opener style position d).map fun b' => (b', s.noted d) := by
  cases d with
  | inherits parent => simp [Directive.isInherits] at hd
  | _ => rfl

theorem exists_applyDirective_eq (strict : Bool) (opener : String) (style : RunProperties)
    (position : Position) (hd : d.isInherits = false) (s : Progress) :
    ∃ s₁ : Progress, s₁.paragraph = s.paragraph ∧ s₁.begun = true ∧ s₁.parent = s.parent ∧
      ∀ b : Builder, applyDirective strict opener style position b d s =
        (b.apply opener style position d).map fun b' => (b', s₁) := by
  refine ⟨s.noted d, ?_, ?_, ?_, applyDirective_eq strict opener style position hd s⟩
  all_goals cases d <;> rfl

/-- A declaration of the parent counts if no directive has been read before. Otherwise it is left
out, which strict mode does not allow. -/
theorem declareParent_cases {parent : String}
    (h : declareParent strict parent position b s = .ok (b', s')) :
    (s.begun = false ∧ b' = b.push (.inherits parent position) ∧
      s' = { s with seenDirective := true, parent := some parent }) ∨
    (s.begun = true ∧ strict = false ∧ b' = b ∧ s' = s) := by
  rw [declareParent, stateT_get_bind] at h
  split at h
  · next hfirst =>
    rw [Bool.and_eq_true, Bool.not_eq_true', Option.isNone_iff_eq_none] at hfirst
    obtain ⟨rfl, rfl⟩ := Prod.mk.inj (Except.ok.inj h)
    exact .inl ⟨by rw [Progress.begun, hfirst.1, hfirst.2]; rfl, rfl, rfl⟩
  · next hlater =>
    have hbegun : s.begun = true := by
      rw [Progress.begun]
      cases hseen : s.seenDirective <;> cases hparent : s.parent <;> simp_all
    split at h
    · cases h
    · next hstrict =>
      obtain ⟨rfl, rfl⟩ := Prod.mk.inj (Except.ok.inj h)
      exact .inr ⟨hbegun, Bool.eq_false_iff.2 hstrict, rfl, rfl⟩

/-- A directive advances the builder by itself, and opens a region only below the limit. -/
theorem advances_of_applyDirective
    (h : applyDirective strict opener style position b d s = .ok (b', s')) :
    Advances b s [d] [d.mark position] 0 b' s' ∧ (d.isOpener = true → b.depth < b.limit) := by
  have hafter : begunAfter s.begun [d.mark position] = true := by
    cases s.begun <;> rfl
  cases hd : d.isInherits with
  | false =>
    obtain ⟨s₁, hparagraph, hbegun, -, heq⟩ :=
      exists_applyDirective_eq strict opener style position hd s
    rw [heq] at h
    obtain ⟨b₁, happly, hpair⟩ := exists_of_map_eq_ok h
    obtain ⟨rfl, rfl⟩ := Prod.mk.inj hpair
    have happlied := Builder.applied_of_apply happly
    refine ⟨⟨?_, ⟨[d.mark position], ⟨?_, hparagraph, hbegun.trans hafter.symm⟩, happlied.marks⟩,
      happlied.baseDepth, happlied.limit⟩, happlied.below⟩
    · rw [nestAfterAll?, happlied.nest]
      rfl
    · exact (keptMarks_of_not_inherits hd).symm
  | true =>
    obtain ⟨parent, rfl⟩ := Directive.exists_parent hd
    have hopens : (Directive.inherits parent).isOpener = true → b.depth < b.limit := by
      simp [Directive.isOpener]
    obtain ⟨hbegun, rfl, rfl⟩ | ⟨hbegun, -, rfl, rfl⟩ := declareParent_cases h
    · refine ⟨⟨?_, ⟨_, ⟨?_, rfl, hafter.symm⟩, Builder.marks_push _ _⟩,
        Builder.baseDepth_push _ _, Builder.limit_push _ _⟩, hopens⟩
      · rw [Builder.nest_push]
        rfl
      · rw [hbegun]
        rfl
    · refine ⟨⟨rfl, ⟨[], ⟨?_, rfl, hbegun.trans hafter.symm⟩, (List.append_nil _).symm⟩, rfl,
        rfl⟩, hopens⟩
      rw [hbegun]
      rfl

/-- Out of strict mode a directive can be fed if it fits the innermost region and does not open one
too many. -/
theorem exists_applyDirective (opener : String) (style : RunProperties) (position : Position)
    (hnest : (nestAfter? b.nest d).isSome)
    (hbelow : d.isOpener = true → b.depth < b.limit) (s : Progress) :
    ∃ b' s', applyDirective false opener style position b d s = .ok (b', s') := by
  cases hd : d.isInherits with
  | false =>
    obtain ⟨s₁, -, -, -, heq⟩ := exists_applyDirective_eq false opener style position hd s
    obtain ⟨b', happly⟩ := Builder.exists_apply opener style position hnest hbelow
    rw [heq, happly]
    exact ⟨b', s₁, rfl⟩
  | true =>
    obtain ⟨parent, rfl⟩ := Directive.exists_parent hd
    by_cases hfirst : (!s.seenDirective && s.parent.isNone) = true
    · refine ⟨b.push (.inherits parent position),
        { s with seenDirective := true, parent := some parent }, ?_⟩
      rw [applyDirective, declareParent, stateT_get_bind, if_pos hfirst]
      rfl
    · refine ⟨b, s, ?_⟩
      rw [applyDirective, declareParent, stateT_get_bind, if_neg hfirst]
      rfl

end Directives

end StyledTemplate
