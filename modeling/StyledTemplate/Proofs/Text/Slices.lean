import StyledTemplate.Text.Bytes

/-!
# Slices of a text

A slice is given by the byte it starts at and the byte behind it. `slice?` takes one only if it is a
part of the text and cuts no character (`slice?_eq_some_iff`).
-/

namespace StyledTemplate

open Text (byteLength takeBytes dropBytes sliceBytes)

theorem eq_nil_of_byteLength_eq_zero {cs : List Char} (h : byteLength cs = 0) : cs = [] := by
  cases cs with
  | nil => rfl
  | cons c cs =>
    rw [Text.byteLength_cons] at h
    have := c.utf8Size_pos
    omega

theorem byteLength_pos {cs : List Char} (h : cs ≠ []) : 0 < byteLength cs :=
  Nat.pos_of_ne_zero fun hzero => h (eq_nil_of_byteLength_eq_zero hzero)

theorem sliceBytes_append (as bs cs : List Char) :
    sliceBytes (byteLength as) (byteLength (as ++ bs)) (as ++ bs ++ cs) = bs := by
  have hlength : byteLength (as ++ bs) - byteLength as = byteLength bs := by
    rw [Text.byteLength_append]
    omega
  rw [sliceBytes, hlength, List.append_assoc, Text.dropBytes_byteLength_append,
    Text.takeBytes_byteLength_append]

/-- The part of a text from one byte to another one, if there is one and it cuts no character. -/
def slice? (start stop : Nat) (text : List Char) : Option (List Char) :=
  if start ≤ stop ∧ byteLength (takeBytes start text) = start ∧
      byteLength (sliceBytes start stop text) = stop - start then
    some (sliceBytes start stop text)
  else none

theorem slice?_eq_some_iff {start stop : Nat} {text part : List Char} :
    slice? start stop text = some part ↔ ∃ before after, text = before ++ part ++ after ∧
      byteLength before = start ∧ byteLength (before ++ part) = stop := by
  constructor
  · intro h
    rw [slice?] at h
    split at h
    · next hwhole =>
      obtain ⟨hle, hstart, hlength⟩ := hwhole
      obtain rfl := Option.some.inj h
      refine ⟨takeBytes start text, dropBytes (stop - start) (dropBytes start text), ?_, hstart, ?_⟩
      · rw [sliceBytes, List.append_assoc, Text.takeBytes_append_dropBytes,
          Text.takeBytes_append_dropBytes]
      · rw [Text.byteLength_append, hstart, hlength]
        omega
    · cases h
  · rintro ⟨before, after, rfl, rfl, rfl⟩
    have htake : takeBytes (byteLength before) (before ++ part ++ after) = before := by
      rw [List.append_assoc, Text.takeBytes_byteLength_append]
    have hlength : byteLength (before ++ part) = byteLength before + byteLength part :=
      Text.byteLength_append _ _
    rw [slice?, sliceBytes_append, htake, if_pos]
    refine ⟨?_, rfl, ?_⟩
    · omega
    · omega

/-- The slice at the bytes of a part is that part. -/
theorem slice?_append (before part after : List Char) :
    slice? (byteLength before) (byteLength before + byteLength part) (before ++ part ++ after) =
      some part :=
  slice?_eq_some_iff.2 ⟨before, after, rfl, rfl, Text.byteLength_append _ _⟩

end StyledTemplate
