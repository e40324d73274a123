import StyledTemplate.Proofs.Template.Parsing

/-!
# The places that a tree of blocks keeps

A tree of blocks keeps the place of each directive that opens a region or stands for itself. This is
where the directive stands in the document, except in repeated rows: the parser reads these without
their markers, so that directives behind a paragraph which goes with its marker are placed too far
to the front, and so are the directives behind an opening marker in the same paragraph.
-/

namespace StyledTemplate

open Text (byteLength)

/-- The directive stands at the place in the document: the paragraphs are counted in document order,
those in cells included, and the offset is one into the text of the runs. -/
def Document.HasAt (d : Document) (directive : Directive) (position : Position) : Prop :=
  ∃ p before source after, d.allParagraphs[position.paragraph]? = some p ∧
    StandsAt directive (runsText p.runs) before source after ∧
    byteLength before = position.offset

/-- The directives of a document stand at their places. -/
theorem hasAt_of_mem_occurrences {strict : Bool} {d : Document} {o : Occurrence}
    (h : o ∈ d.occurrences strict) : d.HasAt o.directive o.position := by
  have hmem : (o.directive, o.position) ∈ placesFrom strict 0 d.allParagraphs := by
    rw [← map_occurrences]
    exact List.mem_map_of_mem h
  obtain ⟨i, p, hp, hnumber, hplaced⟩ := mem_placesFrom hmem
  obtain ⟨before, source, after, hstands, hoffset⟩ := standsAt_of_mem_placed hplaced
  refine ⟨p, before, source, after, ?_, hstands, hoffset⟩
  rw [hnumber, Nat.zero_add]
  exact hp

/-! ## When a place is exact -/

/-- What is taken out before a directive stands before it. -/
structure Occurrence.Within (o : Occurrence) : Prop where
  /-- The paragraphs that are dropped stand before its own. -/
  dropped : o.dropped ≤ o.position.paragraph
  /-- The bytes that are cut stand before it. -/
  cut : o.cut ≤ o.position.offset

/-- The parser places a directive exactly if nothing is taken out before it. -/
theorem Occurrence.Within.reported_eq_iff {o : Occurrence} (h : o.Within) :
    o.reported = o.position ↔ o.dropped = 0 ∧ o.cut = 0 := by
  obtain ⟨hdropped, hcut⟩ := h
  obtain ⟨directive, ⟨paragraph, offset⟩, dropped, cut, ofRow⟩ := o
  simp only [reported, Position.mk.injEq] at hdropped hcut ⊢
  omega

/-- The bytes that are cut out of a line stand before its directives. -/
def Line.Within (strict : Bool) (line : Line) : Prop :=
  ∀ o ∈ line.occurrences strict, o.cut ≤ o.position.offset

theorem forall_mem_modifyLast {α : Type} {f : α → α} {P : α → Prop} {as : List α}
    (h : ∀ a ∈ as, P a) (hf : ∀ a, P a → P (f a)) : ∀ a ∈ modifyLast f as, P a := by
  rcases List.eq_nil_or_concat as with rfl | ⟨front, last, rfl⟩
  · exact h
  · rw [List.concat_eq_append] at h ⊢
    rw [modifyLast_concat]
    rw [List.forall_mem_append, List.forall_mem_singleton] at h ⊢
    exact ⟨h.1, hf _ h.2⟩

/-- Nothing is cut out of a line without an opening marker. -/
theorem Line.within_of_no_opener {strict : Bool} {line : Line} (h : line.opener = none) :
    line.Within strict := by
  have hfound : ∀ o ∈ (line.paragraph.placed strict).map (Placed.occurrence 0),
      o.cut ≤ o.position.offset := by
    intro o ho
    obtain ⟨d, -, rfl⟩ := List.mem_map.1 ho
    exact Nat.zero_le _
  rw [Line.Within, Line.occurrences, Line.cut, h]
  split
  · exact forall_mem_modifyLast hfound fun _ hcut => hcut
  · exact hfound

/-- The directives behind an opening marker stand behind the bytes of the marker. -/
theorem Line.within_of_opener {strict : Bool} {p : Paragraph} {d : Placed} {opener : Token}
    {ds : List Placed} (hreads : p.Reads strict (d :: ds))
    (hds : ∀ d ∈ ds, opener.stop ≤ d.offset) (closes dropped : Bool) :
    Line.Within strict { paragraph := p, opener := some opener, closes, dropped } := by
  have hfound : ∀ o ∈ ((d :: ds).map (Placed.occurrence (opener.stop - opener.start))).modifyHead
      (fun o => { o with cut := o.position.offset, ofRow := true }),
      o.cut ≤ o.position.offset := by
    rw [List.map_cons, List.modifyHead_cons, List.forall_mem_cons]
    refine ⟨Nat.le_refl _, fun o ho => ?_⟩
    obtain ⟨d', hd', rfl⟩ := List.mem_map.1 ho
    exact Nat.le_trans (Nat.sub_le _ _) (hds d' hd')
  rw [Line.Within, Line.occurrences, Line.cut, hreads.placed_eq]
  split
  · exact forall_mem_modifyLast hfound fun _ hcut => hcut
  · exact hfound

theorem within_markLines {strict : Bool} {row : Row Element}
    (h : ∀ line ∈ cellsLines strict row.cells, line.Within strict) :
    ∀ line ∈ row.markLines strict (cellsLines strict row.cells), line.Within strict := by
  by_cases hrepeated : ∃ markers, rowMarkers? strict row = .ok (some markers)
  · obtain ⟨markers, hmarkers⟩ := hrepeated
    have hshift : ∀ ds : List Placed, ∀ d ∈ ds.map (Placed.shift markers.opener.stop),
        markers.opener.stop ≤ d.offset := by
      intro ds d hd
      obtain ⟨d', -, rfl⟩ := List.mem_map.1 hd
      exact Nat.le_add_right _ _
    cases unmarked_of_rowMarkers? hmarkers with
    | @together p left ds hsource hrest hopener hcloser horder hreads hleaves =>
      rw [List.cons_append] at hreads
      rw [markLines_together hmarkers hsource hopener hcloser, List.forall_mem_singleton]
      refine Line.within_of_opener hreads ?_ true false
      rw [List.forall_mem_append, List.forall_mem_singleton]
      exact ⟨hshift ds, horder⟩
    | @apart first last first' last' mid ds es hsource hrest hfirst =>
      rw [cellsLines_eq, ← Row.elements, hsource] at h
      rw [markLines_apart hmarkers hsource, List.cons_append, List.forall_mem_cons,
        List.forall_mem_append, List.forall_mem_singleton]
      refine ⟨Line.within_of_opener hfirst (hshift ds) _ _, fun line hline => ?_,
        Line.within_of_no_opener rfl⟩
      exact h line (by simp [hline])
  · rw [markLines_of_not_repeated fun markers hmarkers => hrepeated ⟨markers, hmarkers⟩]
    exact h

/-- What is cut out of the lines of a body stands before their directives. -/
theorem within_bodyLines (strict : Bool) (body : List Element) :
    ∀ line ∈ bodyLines strict body, line.Within strict :=
  (Element.lines.mutual_induct
    (fun element => ∀ line ∈ element.lines strict, line.Within strict)
    (fun rows => ∀ line ∈ rowsLines strict rows, line.Within strict)
    (fun cells => ∀ line ∈ cellsLines strict cells, line.Within strict)
    (fun body => ∀ line ∈ bodyLines strict body, line.Within strict)
    (fun p => by
      rw [lines_paragraph, List.forall_mem_singleton]
      exact Line.within_of_no_opener rfl)
    (fun t ih => by
      rw [lines_table]
      exact ih)
    (by simp)
    (fun properties cells rows ihCells ihRows => by
      rw [rowsLines_cons, List.forall_mem_append]
      exact ⟨within_markLines ihCells, ihRows⟩)
    (by simp)
    (fun properties body cells ihBody ihCells => by
      rw [cellsLines_cons, List.forall_mem_append]
      exact ⟨ihBody, ihCells⟩)
    (by simp)
    (fun element rest ihElement ih => by
      rw [bodyLines_cons, List.forall_mem_append]
      exact ⟨ihElement, ih⟩)).2.2.2 body

/-- What is taken out before the directives of a document stands before them. -/
theorem within_of_mem_occurrences {strict : Bool} {d : Document} {o : Occurrence}
    (h : o ∈ d.occurrences strict) : o.Within := by
  have hfrom : ∀ lines : List Line, (∀ line ∈ lines, line.Within strict) →
      ∀ number dropped, dropped ≤ number →
        ∀ o ∈ occurrencesFrom strict number dropped lines, o.Within := by
    intro lines hlines
    induction lines with
    | nil => simp [occurrencesFrom]
    | cons line lines ih =>
      rw [List.forall_mem_cons] at hlines
      intro number dropped hle
      rw [occurrencesFrom, List.forall_mem_append]
      refine ⟨fun o ho => ?_, ih hlines.2 _ _ (by omega)⟩
      obtain ⟨o', ho', rfl⟩ := List.mem_map.1 ho
      exact ⟨hle, hlines.1 o' ho'⟩
  exact hfrom _ (within_bodyLines strict d.body) 0 0 (Nat.le_refl _) o h

/-! ## Places in a tree of blocks -/

namespace Template

/-- The directives that open a region or stand for themselves, and the places that the tree of
blocks keeps for them. -/
def places (t : Template) : List (Directive × Position) :=
  (marksOf t.blocks).filterMap fun m => m.position.map fun position => (m.directive, position)

/-- The tree of blocks places each directive where it stands in the document, less the paragraphs
and the bytes that are taken out before it; the place is exact if and only if there are none. -/
theorem places_of_ofDocument {settings : TemplateSettings} {name : String} {d : Document}
    {t : Template} (h : ofDocument settings name d = .ok t) :
    t.places =
      ((keptOccurrences false (d.occurrences settings.strict)).filter
        (·.directive.keepsPlace)).map (fun o => (o.directive, o.reported)) ∧
    (∀ o ∈ d.occurrences settings.strict, d.HasAt o.directive o.position ∧
      (o.reported = o.position ↔ o.dropped = 0 ∧ o.cut = 0)) ∧
    (d.occurrences settings.strict).map (fun o => (o.directive, o.position)) =
      placesFrom settings.strict 0 d.allParagraphs := by
  refine ⟨?_, fun o ho => ?_, map_occurrences settings.strict d⟩
  · rw [places, (fits_of_ofDocument h).2.2, List.filterMap_map, ← List.filterMap_eq_map,
      List.filterMap_filter]
    congr 1
    funext o
    cases hkeeps : o.directive.keepsPlace <;> simp [Occurrence.mark, hkeeps]
  · exact ⟨hasAt_of_mem_occurrences ho, (within_of_mem_occurrences ho).reported_eq_iff⟩

end Template

/-- A list in a row of a table whose markers stand in paragraphs of their own. -/
def itemList : Document :=
  let line (text : String) : Element := .paragraph { runs := [.ofText text] }
  { body := [.table { rows := [{ cells := [{ body := [line "\x7b\x7b#each items\x7d\x7d",
      line "\x7b\x7bname\x7d\x7d", line "\x7b\x7b/each\x7d\x7d"] }] }] }] }

theorem exists_itemList : ∃ t, Template.ofDocument {} "t" itemList = .ok t ∧
    t.places = [(.eachOpen "items", {}), (.placeholder "name", {})] := by
  have hplaces : (Template.ofDocument {} "t" itemList).toOption.map Template.places =
      some [(.eachOpen "items", {}), (.placeholder "name", {})] := by decide +kernel
  obtain ⟨t, ht, hplaces⟩ := Option.map_eq_some_iff.1 hplaces
  cases hresult : Template.ofDocument {} "t" itemList with
  | error e => simp [hresult, Except.toOption] at ht
  | ok t' =>
    obtain rfl : t' = t := Option.some.inj ((congrArg Except.toOption hresult).symm.trans ht)
    exact ⟨t', rfl, hplaces⟩

theorem itemList_places : ∃ t, Template.ofDocument {} "t" itemList = .ok t ∧
    t.places =
      ((keptOccurrences false (itemList.occurrences false)).filter
        (·.directive.keepsPlace)).map (fun o => (o.directive, o.reported)) := by
  obtain ⟨t, ht, -⟩ := exists_itemList
  exact ⟨t, ht, (Template.places_of_ofDocument ht).1⟩

/-- The name in the list is placed where the row is opened, and not where it stands. -/
theorem itemList_name_misplaced : ∃ t, Template.ofDocument {} "t" itemList = .ok t ∧
    (.placeholder "name", { paragraph := 0, offset := 0 }) ∈ t.places ∧
    ¬ itemList.HasAt (.placeholder "name") { paragraph := 0, offset := 0 } := by
  obtain ⟨t, ht, hplaces⟩ := exists_itemList
  refine ⟨t, ht, by simp [hplaces], ?_⟩
  rintro ⟨p, before, source, after, hp, ⟨htext, inner, rfl, hreads⟩, hoffset⟩
  obtain rfl := eq_nil_of_byteLength_eq_zero hoffset
  -- the text of the first paragraph is the opening marker
  have hfirst : itemList.allParagraphs[0]? =
      some { runs := [.ofText "\x7b\x7b#each items\x7d\x7d"] } := by decide +kernel
  obtain rfl := Option.some.inj (hp.symm.trans hfirst)
  have hrest : inner ++ '}' :: '}' :: after = "#each items\x7d\x7d".toList := by
    have : "\x7b\x7b#each items\x7d\x7d".toList =
        '{' :: '{' :: (inner ++ '}' :: '}' :: after) := by
      simpa [runsText, Run.ofText, Run.text?] using htext
    simpa using this.symm
  have hinner : inner = "#each items\x7d\x7d".toList.take inner.length := by
    rw [← hrest, List.take_left]
  have hlength : inner.length < 12 := by
    have := congrArg List.length hrest
    simp at this
    omega
  have hno : ∀ n < 12, Reading.ofContent (Text.trim ("#each items\x7d\x7d".toList.take n)) ≠
      .directive (.placeholder "name") := by decide +kernel
  exact hno _ hlength (hinner ▸ hreads)

end StyledTemplate
