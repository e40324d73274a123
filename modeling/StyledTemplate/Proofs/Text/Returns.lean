import StyledTemplate.Document.Text

/-!
# Carriage returns at the ends of lines

`Document.ofText` takes the carriage returns off the end of each line. Put together again, the lines
are the text without the carriage returns before a line feed or the end (`intercalate_trimReturns`).
-/

namespace StyledTemplate

/-- Are there only carriage returns before the next line feed or the end? -/
def endsLine : List Char → Bool
  | [] => true
  | c :: cs => c == '\n' || (c == '\r' && endsLine cs)

/-- The text without the carriage returns before a line feed or the end. -/
def dropReturns : List Char → List Char
  | [] => []
  | c :: cs => if c = '\r' ∧ endsLine cs then dropReturns cs else c :: dropReturns cs

theorem Text.splitOn_ne_nil (separator : Char) (cs : List Char) :
    Text.splitOn separator cs ≠ [] := by
  cases cs with
  | nil => exact List.cons_ne_nil _ _
  | cons c cs =>
    rw [Text.splitOn]
    split
    · exact List.cons_ne_nil _ _
    · split <;> exact List.cons_ne_nil _ _

/-- A carriage return is taken off if all that stands behind it on the line is. -/
theorem trimReturns_cons (c : Char) (line : List Char) :
    trimReturns (c :: line) =
      if c = '\r' ∧ line.all (· == '\r') then trimReturns line else c :: trimReturns line := by
  have hnil : line.reverse.dropWhile (· == '\r') = [] ↔ line.all (· == '\r') = true := by
    rw [← List.all_reverse]
    generalize line.reverse = back
    induction back with
    | nil => simp
    | cons d back ih =>
      rw [List.dropWhile_cons, List.all_cons]
      by_cases hd : d = '\r'
      · simp [hd, ih]
      · simp [hd]
  rw [trimReturns, trimReturns, List.reverse_cons, List.dropWhile_append]
  cases hall : line.all (· == '\r') with
  | true =>
    rw [hnil.2 hall]
    by_cases hc : c = '\r' <;> simp [hc]
  | false =>
    have hne : line.reverse.dropWhile (· == '\r') ≠ [] := fun h => by
      rw [hnil.1 h] at hall
      cases hall
    simp [hne]

/-- The first line ends where the text says so. -/
theorem endsLine_eq_all {cs line : List Char} {lines : List (List Char)}
    (h : Text.splitOn '\n' cs = line :: lines) : endsLine cs = line.all (· == '\r') := by
  induction cs generalizing line lines with
  | nil =>
    obtain ⟨rfl, rfl⟩ := List.cons.inj h
    rfl
  | cons c cs ih =>
    rw [Text.splitOn] at h
    split at h
    · next hc =>
      obtain ⟨rfl, rfl⟩ := List.cons.inj h
      rw [hc]
      rfl
    · next hc =>
      split at h
      · next hnil => exact absurd hnil (Text.splitOn_ne_nil _ _)
      · next line' lines' hsplit =>
        obtain ⟨rfl, rfl⟩ := List.cons.inj h
        rw [endsLine, List.all_cons, ih hsplit, beq_false_of_ne hc, Bool.false_or]

/-- The lines without the carriage returns at their ends make up the text without those. -/
theorem intercalate_trimReturns (cs : List Char) :
    ['\n'].intercalate ((Text.splitOn '\n' cs).map trimReturns) = dropReturns cs := by
  induction cs with
  | nil => rfl
  | cons c cs ih =>
    rw [Text.splitOn, dropReturns]
    split
    · next hc =>
      have hne : (Text.splitOn '\n' cs).map trimReturns ≠ [] := by
        simp [Text.splitOn_ne_nil]
      rw [List.map_cons, List.intercalate_cons_of_ne_nil hne, ih, if_neg (by simp [hc]), hc]
      rfl
    · next hc =>
      split
      · next hnil => exact absurd hnil (Text.splitOn_ne_nil _ _)
      · next line lines hsplit =>
        rw [hsplit, List.map_cons] at ih
        rw [List.map_cons, trimReturns_cons, endsLine_eq_all hsplit, ← ih]
        split
        · rfl
        · cases lines.map trimReturns with
          | nil => simp
          | cons next rest => simp [List.intercalate_cons_cons]

end StyledTemplate
