/-!
# Byte offsets into text

Template sources are lists of characters, but every offset that is reported counts the bytes of the
UTF-8 form. `byteLength` measures a text, and `takeBytes` and `dropBytes` cut it at an offset; at an
offset between two characters the cut loses nothing.
-/

namespace StyledTemplate.Text

/-- The number of bytes of the UTF-8 form. -/
def byteLength : List Char → Nat
  | [] => 0
  | c :: cs => c.utf8Size + byteLength cs

/-- The longest prefix of at most `n` bytes. -/
def takeBytes (n : Nat) : List Char → List Char
  | [] => []
  | c :: cs => if c.utf8Size ≤ n then c :: takeBytes (n - c.utf8Size) cs else []

/-- What follows the longest prefix of at most `n` bytes. -/
def dropBytes (n : Nat) : List Char → List Char
  | [] => []
  | c :: cs => if c.utf8Size ≤ n then dropBytes (n - c.utf8Size) cs else c :: cs

/-- The text between two byte offsets. -/
def sliceBytes (start stop : Nat) (cs : List Char) : List Char :=
  takeBytes (stop - start) (dropBytes start cs)

@[simp] theorem byteLength_nil : byteLength [] = 0 := rfl

@[simp] theorem byteLength_cons (c : Char) (cs : List Char) :
    byteLength (c :: cs) = c.utf8Size + byteLength cs := rfl

@[simp] theorem byteLength_append (as bs : List Char) :
    byteLength (as ++ bs) = byteLength as + byteLength bs := by
  induction as with
  | nil => simp
  | cons c cs ih => simp [ih, Nat.add_assoc]

/-- Cutting at any offset loses nothing. -/
@[simp] theorem takeBytes_append_dropBytes (n : Nat) (cs : List Char) :
    takeBytes n cs ++ dropBytes n cs = cs := by
  induction cs generalizing n with
  | nil => rfl
  | cons c cs ih =>
    by_cases h : c.utf8Size ≤ n
    · simp [takeBytes, dropBytes, h, ih]
    · simp [takeBytes, dropBytes, h]

private theorem utf8Size_pos' (c : Char) : ¬ c.utf8Size ≤ 0 := by
  have := c.utf8Size_pos
  omega

@[simp] theorem takeBytes_zero (cs : List Char) : takeBytes 0 cs = [] := by
  cases cs with
  | nil => rfl
  | cons c cs => simp only [takeBytes, utf8Size_pos' c, if_false]

@[simp] theorem dropBytes_zero (cs : List Char) : dropBytes 0 cs = cs := by
  cases cs with
  | nil => rfl
  | cons c cs => simp only [dropBytes, utf8Size_pos' c, if_false]

/-- The cut after a prefix takes that prefix. -/
@[simp] theorem takeBytes_byteLength_append (as bs : List Char) :
    takeBytes (byteLength as) (as ++ bs) = as := by
  induction as with
  | nil => simp
  | cons c cs ih => simp [takeBytes, ih]

/-- The cut after a prefix leaves what follows it. -/
@[simp] theorem dropBytes_byteLength_append (as bs : List Char) :
    dropBytes (byteLength as) (as ++ bs) = bs := by
  induction as with
  | nil => simp
  | cons c cs ih => simp [dropBytes, ih]

end StyledTemplate.Text
