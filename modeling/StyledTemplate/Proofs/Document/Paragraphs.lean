import StyledTemplate.Proofs.Directive.Tokens
import StyledTemplate.Proofs.Text.Slices

/-!
# The paragraphs of a document

The paragraphs of a document in document order, those in cells included, and the directives of each.
Cutting bytes out of a paragraph cuts them out of its text, whatever its runs are; this is what
ties the runs of a paragraph, which are cut, to its text, which is read.
-/

namespace StyledTemplate

open Text (byteLength takeBytes dropBytes allBlank)

/-! ## Document order -/

mutual

/-- The paragraphs of an element, in document order. -/
def Element.paragraphs : Element → List Paragraph
  | .paragraph p => [p]
  | .table t => rowsParagraphs t.rows

/-- The paragraphs in the rows of a table. -/
def rowsParagraphs : List (Row Element) → List Paragraph
  | [] => []
  | ⟨_, cells⟩ :: rows => cellsParagraphs cells ++ rowsParagraphs rows

/-- The paragraphs in the cells of a row. -/
def cellsParagraphs : List (Cell Element) → List Paragraph
  | [] => []
  | ⟨_, body⟩ :: cells => bodyParagraphs body ++ cellsParagraphs cells

/-- The paragraphs of a body. -/
def bodyParagraphs : List Element → List Paragraph
  | [] => []
  | element :: rest => element.paragraphs ++ bodyParagraphs rest

end

/-- The paragraphs of a document, those in tables included. -/
def Document.allParagraphs (d : Document) : List Paragraph := bodyParagraphs d.body

@[simp] theorem bodyParagraphs_nil : bodyParagraphs [] = [] := by rw [bodyParagraphs]

@[simp] theorem bodyParagraphs_cons (element : Element) (rest : List Element) :
    bodyParagraphs (element :: rest) = element.paragraphs ++ bodyParagraphs rest := by
  rw [bodyParagraphs]

@[simp] theorem paragraphs_paragraph (p : Paragraph) :
    (Element.paragraph p).paragraphs = [p] := by rw [Element.paragraphs]

@[simp] theorem paragraphs_table (t : Table (Row Element)) :
    (Element.table t).paragraphs = rowsParagraphs t.rows := by rw [Element.paragraphs]

@[simp] theorem rowsParagraphs_nil : rowsParagraphs [] = [] := by rw [rowsParagraphs]

@[simp] theorem rowsParagraphs_cons (row : Row Element) (rows : List (Row Element)) :
    rowsParagraphs (row :: rows) = cellsParagraphs row.cells ++ rowsParagraphs rows := by
  rw [rowsParagraphs]

@[simp] theorem cellsParagraphs_nil : cellsParagraphs [] = [] := by rw [cellsParagraphs]

@[simp] theorem cellsParagraphs_cons (cell : Cell Element) (cells : List (Cell Element)) :
    cellsParagraphs (cell :: cells) = bodyParagraphs cell.body ++ cellsParagraphs cells := by
  rw [cellsParagraphs]

@[simp] theorem bodyParagraphs_append (as bs : List Element) :
    bodyParagraphs (as ++ bs) = bodyParagraphs as ++ bodyParagraphs bs := by
  induction as with
  | nil => simp
  | cons a as ih => simp [ih]

@[simp] theorem cellsParagraphs_append (as bs : List (Cell Element)) :
    cellsParagraphs (as ++ bs) = cellsParagraphs as ++ cellsParagraphs bs := by
  induction as with
  | nil => simp
  | cons a as ih => simp [ih]

/-- The paragraphs of cells are those of the elements in them. -/
theorem cellsParagraphs_eq (cells : List (Cell Element)) :
    cellsParagraphs cells = bodyParagraphs (cells.flatMap Cell.body) := by
  induction cells with
  | nil => simp
  | cons cell cells ih => simp [ih]

theorem bodyParagraphs_map_paragraph (ps : List Paragraph) :
    bodyParagraphs (ps.map .paragraph) = ps := by
  induction ps with
  | nil => simp
  | cons p ps ih => simp [ih]

/-! ## Cutting -/

theorem takeBytes_eq_of_byteLength_le {n : Nat} {cs : List Char} (h : byteLength cs ≤ n) :
    takeBytes n cs = cs := by
  induction cs generalizing n with
  | nil => rfl
  | cons c cs ih =>
    rw [Text.byteLength_cons] at h
    rw [takeBytes, if_pos (by omega), ih (by omega)]

theorem dropBytes_eq_nil_of_byteLength_le {n : Nat} {cs : List Char} (h : byteLength cs ≤ n) :
    dropBytes n cs = [] := by
  induction cs generalizing n with
  | nil => rfl
  | cons c cs ih =>
    rw [Text.byteLength_cons] at h
    rw [dropBytes, if_pos (by omega), ih (by omega)]

/-- A cut through two texts goes through the first one, and as far as it reaches beyond it through
the second one. -/
theorem takeBytes_append (n : Nat) (as bs : List Char) :
    takeBytes n (as ++ bs) = takeBytes n as ++ takeBytes (n - byteLength as) bs := by
  induction as generalizing n with
  | nil => simp [takeBytes]
  | cons c cs ih =>
    by_cases h : c.utf8Size ≤ n
    · simp [takeBytes, h, ih, Nat.sub_add_eq]
    · have : n - (c.utf8Size + byteLength cs) = 0 := by omega
      simp [takeBytes, h, this]

theorem dropBytes_append (n : Nat) (as bs : List Char) :
    dropBytes n (as ++ bs) = dropBytes n as ++ dropBytes (n - byteLength as) bs := by
  induction as generalizing n with
  | nil => simp [dropBytes]
  | cons c cs ih =>
    by_cases h : c.utf8Size ≤ n
    · simp [dropBytes, h, ih, Nat.sub_add_eq]
    · have : n - (c.utf8Size + byteLength cs) = 0 := by omega
      simp [dropBytes, h, this]

/-- If a cut takes nothing of the first of two texts, it does not reach the second one. -/
theorem takeBytes_eq_nil_of_dropBytes_ne_nil {m n : Nat} {cs : List Char} (hmn : m ≤ n)
    (h : dropBytes n cs ≠ []) (ds : List Char) : takeBytes (m - byteLength cs) ds = [] := by
  have hlt : n < byteLength cs := by
    refine Nat.lt_of_not_le fun hle => h ?_
    exact dropBytes_eq_nil_of_byteLength_le hle
  have hzero : m - byteLength cs = 0 := by omega
  rw [hzero, Text.takeBytes_zero]

theorem runsText_cons (run : Run) (runs : List Run) :
    runsText (run :: runs) = ((run.text?.map String.toList).getD []) ++ runsText runs := by
  rw [runsText]
  cases run.text? <;> rfl

/-- Cutting some bytes out of runs cuts them out of the text of the runs. -/
theorem runsText_cutRuns {start stop : Nat} (h : start ≤ stop) (offset : Nat) (runs : List Run) :
    runsText (cutRuns start stop offset runs) =
      takeBytes (start - offset) (runsText runs) ++ dropBytes (stop - offset) (runsText runs) := by
  induction runs generalizing offset with
  | nil => simp [cutRuns, runsText, takeBytes, dropBytes]
  | cons run runs ih =>
    rw [cutRuns, runsText_cons]
    cases hs : run.text? with
    | none =>
      simp only [Option.map_none, Option.getD_none, List.nil_append]
      rw [runsText_cons, hs, ih]
      rfl
    | some s =>
      simp only [Option.map_some, Option.getD_some]
      rw [takeBytes_append, dropBytes_append, Nat.sub_sub, Nat.sub_sub]
      split
      · next hout =>
        rw [runsText_cons, hs, ih]
        rcases hout with hbefore | hbehind
        · have htake : takeBytes (start - offset) s.toList = s.toList :=
            takeBytes_eq_of_byteLength_le (by omega)
          have hdrop : dropBytes (stop - offset) s.toList = [] :=
            dropBytes_eq_nil_of_byteLength_le (by omega)
          simp [htake, hdrop]
        · have hstart : start - offset = 0 := by omega
          have hstop : stop - offset = 0 := by omega
          have hstart' : start - (offset + byteLength s.toList) = 0 := by omega
          have hstop' : stop - (offset + byteLength s.toList) = 0 := by omega
          simp [hstart, hstop, hstart', hstop']
      · have hkept : ∀ bs, dropBytes (stop - offset) s.toList ++
            takeBytes (start - (offset + byteLength s.toList)) bs =
            takeBytes (start - (offset + byteLength s.toList)) bs ++
              dropBytes (stop - offset) s.toList := by
          intro bs
          by_cases hd : dropBytes (stop - offset) s.toList = []
          · simp [hd]
          · rw [← Nat.sub_sub, takeBytes_eq_nil_of_dropBytes_ne_nil (by omega) hd]
            simp
        split
        · next hnil =>
          rw [List.append_eq_nil_iff] at hnil
          rw [ih, hnil.1, hnil.2]
          simp
        · rw [runsText_cons, ih]
          simp only [Run.ofText, Run.text?, Option.map_some, Option.getD_some, String.toList_ofList,
            List.append_assoc]
          rw [← List.append_assoc (dropBytes _ _) (takeBytes _ _), hkept]
          simp

/-- Cutting the middle out of a paragraph leaves what is before and behind it. -/
theorem runsText_cut {p : Paragraph} {before middle after : List Char} {start stop : Nat}
    (htext : runsText p.runs = before ++ middle ++ after) (hstart : start = byteLength before)
    (hstop : stop = start + byteLength middle) :
    runsText (p.cut start stop).runs = before ++ after := by
  subst hstart
  have htake : takeBytes (byteLength before) (before ++ middle ++ after) = before := by
    rw [List.append_assoc, Text.takeBytes_byteLength_append]
  have hdrop : dropBytes stop (before ++ middle ++ after) = after := by
    rw [hstop, ← Text.byteLength_append, Text.dropBytes_byteLength_append]
  rw [Paragraph.cut, runsText_cutRuns (by omega), htext, Nat.sub_zero, Nat.sub_zero, htake, hdrop]

end StyledTemplate
