import StyledTemplate.Text.Blank
import StyledTemplate.Text.Name

/-!
# Blank characters around a text

Blank characters put around a text are taken off again by `trim`, as long as the text itself neither
starts nor ends with one (`trim_padded`). Names have no blank characters anywhere, no quotes and no
braces.
-/

namespace StyledTemplate.Text

/-! ## Taking the padding off -/

/-- A text that neither starts nor ends with a blank character. -/
structure Compact (cs : List Char) : Prop where
  /-- It is not empty. -/
  ne : cs ≠ []
  /-- Its first character is not blank. -/
  head : ∀ c ∈ cs.head?, isBlank c = false
  /-- Its last character is not blank. -/
  last : ∀ c ∈ cs.getLast?, isBlank c = false

theorem compact_iff {cs : List Char} :
    Compact cs ↔
      cs ≠ [] ∧ cs.head?.all (!isBlank ·) = true ∧ cs.getLast?.all (!isBlank ·) = true := by
  simp only [Option.all_eq_true, Bool.not_eq_true']
  exact ⟨fun h => ⟨h.ne, h.head, h.last⟩, fun ⟨hne, hhead, hlast⟩ => ⟨hne, hhead, hlast⟩⟩

instance (cs : List Char) : Decidable (Compact cs) := decidable_of_iff _ compact_iff.symm

/-- What stands before the first character that fails is all that is dropped. -/
theorem dropWhile_append_of_head {α : Type} {p : α → Bool} {front rest : List α}
    (hfront : ∀ a ∈ front, p a = true) (hrest : ∀ a ∈ rest.head?, p a = false) :
    (front ++ rest).dropWhile p = rest := by
  rw [List.dropWhile_append_of_pos hfront]
  cases rest with
  | nil => rfl
  | cons a rest => rw [List.dropWhile_cons_of_neg (by simp [hrest a rfl])]

theorem takeWhile_append_of_head {α : Type} {p : α → Bool} {front rest : List α}
    (hfront : ∀ a ∈ front, p a = true) (hrest : ∀ a ∈ rest.head?, p a = false) :
    (front ++ rest).takeWhile p = front := by
  rw [List.takeWhile_append_of_pos hfront]
  cases rest with
  | nil => simp
  | cons a rest => rw [List.takeWhile_cons_of_neg (by simp [hrest a rfl]), List.append_nil]

theorem forall_mem_of_allBlank {cs : List Char} (h : allBlank cs = true) :
    ∀ c ∈ cs, isBlank c = true := by
  rw [allBlank, List.all_eq_true] at h
  exact h

/-- Blank characters around a text are taken off. -/
theorem trim_padded {left mid right : List Char} (hleft : allBlank left = true)
    (hright : allBlank right = true) (hmid : Compact mid) : trim (left ++ mid ++ right) = mid := by
  have hstart : trimStart (left ++ mid ++ right) = mid ++ right := by
    rw [trimStart, List.append_assoc]
    refine dropWhile_append_of_head (forall_mem_of_allBlank hleft) ?_
    intro c hc
    rw [List.head?_append, Option.or_of_isSome (by simpa using hmid.ne)] at hc
    exact hmid.head c hc
  have hend : (mid ++ right).reverse.dropWhile isBlank = mid.reverse := by
    rw [List.reverse_append]
    refine dropWhile_append_of_head (fun c hc => ?_) ?_
    · exact forall_mem_of_allBlank hright c (List.mem_reverse.1 hc)
    · rw [List.head?_reverse]
      exact hmid.last
  rw [trim, hstart, trimEnd, hend, List.reverse_reverse]

/-! ## Names -/

/-- The code points of the blank characters. -/
def blankCodes : List Nat :=
  [0x09, 0x0A, 0x0B, 0x0C, 0x0D, 0x20, 0x85, 0xA0, 0x1680, 0x2000, 0x2001, 0x2002, 0x2003, 0x2004,
   0x2005, 0x2006, 0x2007, 0x2008, 0x2009, 0x200A, 0x2028, 0x2029, 0x202F, 0x205F, 0x3000]

theorem mem_blankCodes {c : Char} (h : isBlank c = true) : c.toNat ∈ blankCodes := by
  simp only [isBlank, Bool.or_eq_true, Bool.and_eq_true, decide_eq_true_eq, beq_iff_eq] at h
  simp only [blankCodes, List.mem_cons, List.not_mem_nil, or_false]
  omega

theorem isNamePart_blankCodes : ∀ n ∈ blankCodes, isNamePart (Char.ofNat n) = false := by
  decide +kernel

/-- No blank character may stand in a name. -/
theorem isBlank_of_isNamePart {c : Char} (h : isNamePart c = true) : isBlank c = false := by
  cases hblank : isBlank c with
  | false => rfl
  | true =>
    have hpart := isNamePart_blankCodes c.toNat (mem_blankCodes hblank)
    rw [Char.ofNat_toNat, h] at hpart
    cases hpart

theorem isNamePart_of_isNameStart {c : Char} (h : isNameStart c = true) : isNamePart c = true := by
  rw [isNameStart, Bool.or_eq_true, Bool.or_eq_true] at h
  rw [isNamePart]
  rcases h with (h | h) | h <;> simp [h]

theorem isNamePart_of_isValidName {name : List Char} (h : isValidName name = true) :
    ∀ c ∈ name, isNamePart c = true := by
  cases name with
  | nil => cases h
  | cons c cs =>
    rw [isValidName, Bool.and_eq_true, List.all_eq_true] at h
    rw [List.forall_mem_cons]
    exact ⟨isNamePart_of_isNameStart h.1, h.2⟩

theorem isNameStart_of_isValidName {name : List Char} (h : isValidName name = true) :
    ∀ c ∈ name.head?, isNameStart c = true := by
  cases name with
  | nil => cases h
  | cons c cs =>
    rw [isValidName, Bool.and_eq_true] at h
    intro d hd
    obtain rfl := Option.some.inj hd
    exact h.1

/-- A character that is not a part of names does not stand in a name. -/
theorem not_mem_of_isValidName {name : List Char} {c : Char} (h : isValidName name = true)
    (hc : isNamePart c = false) : c ∉ name := by
  intro hmem
  rw [isNamePart_of_isValidName h c hmem] at hc
  cases hc

theorem compact_of_isValidName {name : List Char} (h : isValidName name = true) :
    Compact name where
  ne := by
    rintro rfl
    cases h
  head c hc := isBlank_of_isNamePart (isNamePart_of_isValidName h c (List.mem_of_mem_head? hc))
  last c hc := isBlank_of_isNamePart (isNamePart_of_isValidName h c (List.mem_of_getLast? hc))

end StyledTemplate.Text
