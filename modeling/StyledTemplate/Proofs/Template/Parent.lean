import StyledTemplate.Proofs.Template.Progress

/-!
# Which declaration of a parent counts

A template has the parent that its first directive declares, where the markers of repeated rows are
not among the directives that are looked at: a declaration behind such a marker still counts, in
strict mode too. All other declarations are left out of the tree of blocks, and strict mode rejects
a document that has one (`Template.parent_of_ofDocument`).
-/

namespace StyledTemplate

/-! ## Declarations among marks -/

/-- The parent that the directive declares. -/
def Directive.parent? : Directive → Option String
  | .inherits parent => some parent
  | _ => none

theorem Directive.parent?_eq_some_iff {d : Directive} {parent : String} :
    d.parent? = some parent ↔ d = .inherits parent := by
  cases d <;> simp [parent?]

theorem Directive.parent?_eq_none_iff {d : Directive} :
    d.parent? = none ↔ d.isInherits = false := by
  cases d <;> simp [parent?, isInherits]

/-- The parent that is declared first among some marks. -/
def declaredIn (marks : List Mark) : Option String := marks.findSome? (·.directive.parent?)

theorem declaredIn_cons (m : Mark) (ms : List Mark) :
    declaredIn (m :: ms) = m.directive.parent?.or (declaredIn ms) := by
  rw [declaredIn, List.findSome?_cons]
  cases m.directive.parent? <;> rfl

theorem declaredIn_append (as bs : List Mark) :
    declaredIn (as ++ bs) = (declaredIn as).or (declaredIn bs) := List.findSome?_append

/-- After a directive no declaration is kept. -/
theorem isInherits_of_mem_keptMarks {m : Mark} {ms : List Mark} (h : m ∈ keptMarks true ms) :
    m.directive.isInherits = false := by
  induction ms with
  | nil => simp at h
  | cons m' ms ih =>
    rw [keptMarks, Bool.true_and] at h
    split at h
    · exact ih h
    · next hno =>
      rcases List.mem_cons.1 h with rfl | h
      · exact Bool.eq_false_iff.2 hno
      · exact ih h

theorem keptMarks_sublist (begun : Bool) (ms : List Mark) : (keptMarks begun ms).Sublist ms := by
  induction ms generalizing begun with
  | nil => exact .slnil
  | cons m ms ih =>
    rw [keptMarks]
    split
    · exact (ih begun).cons m
    · exact (ih _).cons_cons m

/-- Only declarations are left out. -/
theorem filter_keptMarks (begun : Bool) (ms : List Mark) :
    (keptMarks begun ms).filter (!·.directive.isInherits) =
      ms.filter (!·.directive.isInherits) := by
  induction ms generalizing begun with
  | nil => rfl
  | cons m ms ih =>
    rw [keptMarks]
    split
    · next h =>
      rw [Bool.and_eq_true] at h
      rw [ih, List.filter_cons_of_neg (by simp [h.2])]
    · rw [List.filter_cons, List.filter_cons, ih]

/-- If no declaration is left out, then none comes after a directive. -/
theorem begunAfter_eq_false_of_kept {begun : Bool} {before after : List Mark} {m : Mark}
    (h : keptMarks begun (before ++ m :: after) = before ++ m :: after)
    (hm : m.directive.isInherits = true) : begunAfter begun before = false := by
  rw [keptMarks_append] at h
  have hbefore := (keptMarks_sublist begun before).length_le
  have hrest := congrArg List.length h
  rw [List.length_append, List.length_append, List.length_cons] at hrest
  cases hafter : begunAfter begun before with
  | false => rfl
  | true =>
    have hafter' := (keptMarks_sublist true after).length_le
    rw [hafter, keptMarks, if_pos (by rw [hm]; rfl)] at hrest
    omega

/-- The kept marks declare what the first mark declares that is not a marker of a repeated row. -/
theorem declaredIn_keptMarks {ms : List Mark}
    (h : ∀ m ∈ ms, m.ofRow = true → m.directive.isInherits = false) :
    declaredIn (keptMarks false ms) = (ms.find? (!·.ofRow)).bind (·.directive.parent?) := by
  induction ms with
  | nil => rfl
  | cons m ms ih =>
    rw [List.forall_mem_cons] at h
    rw [keptMarks, Bool.false_and, if_neg Bool.false_ne_true, Bool.false_or, declaredIn_cons]
    cases hrow : m.ofRow with
    | true =>
      rw [List.find?_cons_of_neg (by simp [hrow]), Directive.parent?_eq_none_iff.2 (h.1 hrow),
        Option.none_or]
      exact ih h.2
    | false =>
      have hrest : declaredIn (keptMarks true ms) = none := by
        rw [declaredIn, List.findSome?_eq_none_iff]
        exact fun m' hm' => Directive.parent?_eq_none_iff.2 (isInherits_of_mem_keptMarks hm')
      rw [List.find?_cons_of_pos (by simp [hrow]), Option.bind_some, Bool.not_false, hrest,
        Option.or_none]

/-- At most one declaration is kept. -/
theorem filterMap_parent?_keptMarks {ms : List Mark}
    (h : ∀ m ∈ ms, m.ofRow = true → m.directive.isInherits = false) :
    (keptMarks false ms).filterMap (·.directive.parent?) =
      (declaredIn (keptMarks false ms)).toList := by
  induction ms with
  | nil => rfl
  | cons m ms ih =>
    rw [List.forall_mem_cons] at h
    rw [keptMarks, Bool.false_and, if_neg Bool.false_ne_true, Bool.false_or, declaredIn_cons,
      List.filterMap_cons]
    cases hrow : m.ofRow with
    | true =>
      rw [Directive.parent?_eq_none_iff.2 (h.1 hrow), Option.none_or]
      exact ih h.2
    | false =>
      have hnone : ∀ m' ∈ keptMarks true ms, m'.directive.parent? = none := fun m' hm' =>
        Directive.parent?_eq_none_iff.2 (isInherits_of_mem_keptMarks hm')
      have hrest : declaredIn (keptMarks true ms) = none := by
        rw [declaredIn, List.findSome?_eq_none_iff]
        exact hnone
      rw [Bool.not_false, hrest, List.filterMap_eq_nil_iff.2 hnone, Option.or_none]
      cases m.directive.parent? <;> rfl

/-! ## What reading declares -/

/-- What reading a part of a template does to the declared parent: `ms` are the marks of the part,
and `n` is the number of its paragraphs. -/
structure Declares (strict : Bool) (s : Progress) (ms : List Mark) (n : Nat) (s' : Progress) :
    Prop where
  /-- The paragraphs are counted. -/
  paragraph : s'.paragraph = s.paragraph + n
  /-- It is known whether a directive has been read. -/
  begun : s'.begun = begunAfter s.begun ms
  /-- A parent that has been declared stays, and else the first one that is kept counts. -/
  parent : s'.parent = s.parent.or (declaredIn (keptMarks s.begun ms))
  /-- In strict mode no declaration is left out. -/
  kept : strict = true → keptMarks s.begun ms = ms
  /-- The markers of repeated rows declare nothing. -/
  markers : ∀ m ∈ ms, m.ofRow = true → m.directive.isInherits = false

namespace Declares

variable {strict : Bool} {s s' s'' : Progress} {ms ns : List Mark} {m n : Nat}

theorem refl (strict : Bool) (s : Progress) : Declares strict s [] 0 s where
  paragraph := rfl
  begun := (begunAfter_nil _).symm
  parent := Option.or_none.symm
  kept := fun _ => rfl
  markers := List.forall_mem_nil _

/-- Two parts are read one after the other. -/
theorem trans (h : Declares strict s ms m s') (h' : Declares strict s' ns n s'') :
    Declares strict s (ms ++ ns) (m + n) s'' where
  paragraph := by rw [h'.paragraph, h.paragraph, Nat.add_assoc]
  begun := by rw [h'.begun, h.begun, begunAfter_append]
  parent := by
    rw [h'.parent, h.parent, h.begun, keptMarks_append, declaredIn_append, Option.or_assoc]
  kept := by
    intro hstrict
    rw [keptMarks_append, h.kept hstrict, ← h.begun, h'.kept hstrict]
  markers := List.forall_mem_append.2 ⟨h.markers, h'.markers⟩

/-- A marker of a repeated row leaves the progress as it is. -/
theorem marker {m : Mark} (hd : m.directive.isInherits = false) (hrow : m.ofRow = true)
    (strict : Bool) (s : Progress) : Declares strict s [m] 0 s where
  paragraph := rfl
  begun := by simp [begunAfter, hrow]
  parent := by
    rw [keptMarks_of_not_inherits hd, declaredIn_cons, Directive.parent?_eq_none_iff.2 hd,
      Option.none_or]
    exact Option.or_none.symm
  kept := fun _ => keptMarks_of_not_inherits hd
  markers := List.forall_mem_singleton.2 fun _ => hd

/-- A paragraph is counted before it is read. -/
theorem counted (h : Declares strict { s with paragraph := s.paragraph + 1 } ms 0 s') :
    Declares strict s ms 1 s' :=
  ⟨h.paragraph, h.begun, h.parent, h.kept, h.markers⟩

end Declares

section Directives

variable {strict : Bool} {b b' : Builder} {s s' : Progress}

theorem declares_of_applyDirective {opener : String} {style : RunProperties} {position : Position}
    {d : Directive} (h : applyDirective strict opener style position b d s = .ok (b', s')) :
    Declares strict s [d.mark position] 0 s' := by
  obtain ⟨added, hadds, -⟩ := (advances_of_applyDirective h).1.adds
  have hmarkers : ∀ m ∈ [d.mark position], m.ofRow = true → m.directive.isInherits = false :=
    List.forall_mem_singleton.2 nofun
  cases hd : d.isInherits with
  | false =>
    obtain ⟨s₁, -, -, hparent, heq⟩ :=
      exists_applyDirective_eq strict opener style position hd s
    rw [heq] at h
    obtain ⟨b₁, -, hpair⟩ := exists_of_map_eq_ok h
    obtain ⟨rfl, rfl⟩ := Prod.mk.inj hpair
    have hkept : keptMarks s.begun [d.mark position] = [d.mark position] :=
      keptMarks_of_not_inherits hd
    refine ⟨hadds.paragraph, hadds.begun, ?_, fun _ => hkept, hmarkers⟩
    have hnone : (d.mark position).directive.parent? = none := Directive.parent?_eq_none_iff.2 hd
    rw [hkept, declaredIn_cons, hnone, hparent]
    exact Option.or_none.symm
  | true =>
    obtain ⟨parent, rfl⟩ := Directive.exists_parent hd
    refine ⟨hadds.paragraph, hadds.begun, ?_, ?_, hmarkers⟩
    · obtain ⟨hbegun, -, rfl⟩ | ⟨hbegun, -, -, rfl⟩ := declareParent_cases h
      · have hnone : s.parent = none := by
          rw [Progress.begun, Bool.or_eq_false_iff] at hbegun
          simpa using hbegun.2
        rw [hbegun, hnone]
        rfl
      · rw [hbegun]
        exact Option.or_none.symm
    · intro hstrict
      obtain ⟨hbegun, -⟩ | ⟨-, hlenient, -⟩ := declareParent_cases h
      · rw [hbegun]
        rfl
      · rw [hstrict] at hlenient
        cases hlenient

/-- What is declared follows the marks. -/
theorem followsMarks_declares (strict : Bool) : FollowsMarks strict (Declares strict) where
  refl := Declares.refl strict
  trans := Declares.trans
  directive := declares_of_applyDirective
  rowOpen s _ := .marker rfl rfl strict s
  rowClose s := .marker rfl rfl strict s
  counted := Declares.counted
  paragraph := Declares.paragraph

end Directives

/-! ## Documents -/

/-- The directives of a document, in document order. -/
def Document.directives (strict : Bool) (d : Document) : List Directive :=
  d.allParagraphs.flatMap fun p => directivesOf (p.placed strict)

/-- Is the first directive of the document a marker of a repeated row? -/
def Document.startsWithMarker (strict : Bool) (d : Document) : Bool :=
  (d.occurrences strict).head?.any (·.ofRow)

theorem map_directive_occurrences (strict : Bool) (d : Document) :
    (d.occurrences strict).map Occurrence.directive = d.directives strict := by
  have hplaces := congrArg (List.map Prod.fst) (map_occurrences strict d)
  rw [map_placesFrom, List.map_map] at hplaces
  exact hplaces

/-- If no declaration is left out, then only markers of repeated rows stand before one. -/
theorem ofRow_of_kept {os : List Occurrence} {i : Nat} {parent : String}
    (h : keptMarks false (os.map Occurrence.mark) = os.map Occurrence.mark)
    (hi : (os.map Occurrence.directive)[i]? = some (.inherits parent)) :
    ∀ o ∈ os.take i, o.ofRow = true := by
  rw [List.getElem?_map, Option.map_eq_some_iff] at hi
  obtain ⟨o', ho', hparent⟩ := hi
  obtain ⟨hlt, rfl⟩ := List.getElem?_eq_some_iff.1 ho'
  rw [← List.take_append_drop i os, List.drop_eq_getElem_cons hlt, List.map_append,
    List.map_cons] at h
  have hinherits : os[i].mark.directive.isInherits = true := by
    show os[i].directive.isInherits = true
    rw [hparent]
    rfl
  have hnone := begunAfter_eq_false_of_kept h hinherits
  rw [begunAfter, Bool.false_or, List.any_eq_false] at hnone
  intro o ho
  have hrow : o.mark.ofRow = true := by simpa using hnone o.mark (List.mem_map_of_mem ho)
  exact hrow

/-- The first directive decides which parent is declared, unless it is a marker of a repeated row
and one is declared all the same. -/
theorem parent?_first_iff {os : List Occurrence}
    (h : ∀ o ∈ os, o.ofRow = true → o.directive.isInherits = false) :
    (∀ parent, (os.find? (!·.ofRow)).bind (·.directive.parent?) = some parent ↔
        (os.map Occurrence.directive).head? = some (.inherits parent)) ↔
      os.head?.any (·.ofRow) = false ∨
        (os.find? (!·.ofRow)).bind (·.directive.parent?) = none := by
  cases os with
  | nil => simp
  | cons o os =>
    cases hrow : o.ofRow with
    | true =>
      -- the marker declares nothing, so nothing may be declared behind it
      have hno : ∀ parent, o.directive ≠ .inherits parent := by
        intro parent heq
        have hmarker := h o List.mem_cons_self hrow
        rw [heq] at hmarker
        cases hmarker
      simp [hrow, hno, Option.eq_none_iff_forall_ne_some]
    | false => simp [hrow, Directive.parent?_eq_some_iff]

namespace Template

variable {settings : TemplateSettings} {name : String} {d : Document} {t : Template}

/-- A template declares what the directives of its document do. -/
theorem declares_of_ofDocument (h : ofDocument settings name d = .ok t) :
    ∃ n s, Declares settings.strict {} ((d.occurrences settings.strict).map Occurrence.mark) n s ∧
      t.parent = s.parent := by
  obtain ⟨n, s, hdeclares, hparent, -⟩ := (followsMarks_declares settings.strict).ofDocument h
  exact ⟨n, s, hdeclares, hparent⟩

/-- The parent of a template is the one that the first directive declares which is not a marker of a
repeated row. All other declarations are left out, and nothing else is; in strict mode there are
none. So the first directive of the document decides, unless it is such a marker and a parent is
declared all the same. -/
theorem parent_of_ofDocument (h : ofDocument settings name d = .ok t) :
    t.parent =
      ((d.occurrences settings.strict).find? (!·.ofRow)).bind (·.directive.parent?) ∧
    (marksOf t.blocks).filterMap (·.directive.parent?) = t.parent.toList ∧
    (marksOf t.blocks).filter (!·.directive.isInherits) =
      ((d.occurrences settings.strict).filter (!·.directive.isInherits)).map Occurrence.mark ∧
    (settings.strict = true → ∀ i parent,
      (d.directives settings.strict)[i]? = some (.inherits parent) →
        ∀ o ∈ (d.occurrences settings.strict).take i, o.ofRow = true) ∧
    ((∀ parent, t.parent = some parent ↔
        (d.directives settings.strict).head? = some (.inherits parent)) ↔
      d.startsWithMarker settings.strict = false ∨ t.parent = none) := by
  obtain ⟨n, s, hdeclares, hparent⟩ := declares_of_ofDocument h
  have hmarks := (fits_of_ofDocument h).2.2
  rw [← keptMarks_map_mark] at hmarks
  rw [← map_directive_occurrences, Document.startsWithMarker]
  generalize d.occurrences settings.strict = os at hdeclares hmarks ⊢
  have hkept : t.parent = declaredIn (keptMarks false (os.map Occurrence.mark)) := by
    rw [hparent, hdeclares.parent]
    exact Option.none_or
  have hfirst : t.parent = (os.find? (!·.ofRow)).bind (·.directive.parent?) := by
    rw [hkept, declaredIn_keptMarks hdeclares.markers, List.find?_map, Option.bind_map]
    rfl
  refine ⟨hfirst, ?_, ?_, ?_, ?_⟩
  · rw [hmarks, hkept, filterMap_parent?_keptMarks hdeclares.markers]
  · rw [hmarks, filter_keptMarks, List.filter_map]
    rfl
  · intro hstrict i parent hi
    exact ofRow_of_kept (hdeclares.kept hstrict) hi
  · rw [hfirst]
    exact parent?_first_iff fun o ho => hdeclares.markers o.mark (List.mem_map_of_mem ho)

end Template

/-- A table whose only row is repeated and declares a parent behind its opening marker. -/
def parentInRow : Document :=
  let line (text : String) : Element := .paragraph { runs := [.ofText text] }
  { body := [.table { rows := [{ cells := [{ body := [line "\x7b\x7b#each items\x7d\x7d",
      line "\x7b\x7bextends 'base'\x7d\x7d", line "\x7b\x7b/each\x7d\x7d"] }] }] }] }

theorem exists_parentInRow (strict : Bool) :
    ∃ t, Template.ofDocument { strict } "t" parentInRow = .ok t ∧ t.parent = some "base" := by
  have hparent : (Template.ofDocument { strict } "t" parentInRow).toOption.map Template.parent =
      some (some "base") := by
    cases strict <;> decide +kernel
  obtain ⟨t, ht, hparent⟩ := Option.map_eq_some_iff.1 hparent
  exact ⟨t, toOption_eq_some_iff.1 ht, hparent⟩

theorem parentInRow_parent : ∃ t, Template.ofDocument {} "t" parentInRow = .ok t ∧
    t.parent =
      ((parentInRow.occurrences false).find? (!·.ofRow)).bind (·.directive.parent?) := by
  obtain ⟨t, ht, -⟩ := exists_parentInRow false
  exact ⟨t, ht, (Template.parent_of_ofDocument ht).1⟩

/-- The row declares the parent of the template, in strict mode too, though the first directive of
the document is the opening marker of the row. -/
theorem parentInRow_not_first :
    (parentInRow.directives false = [.eachOpen "items", .inherits "base", .eachClose] ∧
      ∃ t, Template.ofDocument {} "t" parentInRow = .ok t ∧ t.parent = some "base") ∧
    (parentInRow.directives true = [.eachOpen "items", .inherits "base", .eachClose] ∧
      ∃ t, Template.ofDocument { strict := true } "t" parentInRow = .ok t ∧
        t.parent = some "base") :=
  ⟨⟨by decide +kernel, exists_parentInRow false⟩, by decide +kernel, exists_parentInRow true⟩

end StyledTemplate
