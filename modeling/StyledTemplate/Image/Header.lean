import StyledTemplate.Document.Basic

/-!
# Headers of encoded images

The first bytes of an encoded image tell its format, and its header tells how many pixels it has. No
answer depends on bytes behind the header.
-/

namespace StyledTemplate

/-- The number that some bytes write, the most significant byte first. -/
def bigEndian (bytes : List UInt8) : Nat := bytes.foldl (fun n byte => n * 256 + byte.toNat) 0

/-- The number that some bytes write, the least significant byte first. -/
def littleEndian (bytes : List UInt8) : Nat := bigEndian bytes.reverse

/-- `count` bytes at an offset. -/
def bytesAt? (offset count : Nat) (data : List UInt8) : Option (List UInt8) :=
  let bytes := (data.drop offset).take count
  if bytes.length = count then some bytes else none

/-- The magnitude of a signed number of 32 bits. -/
def magnitude32 (n : Nat) : Nat := if n < Nat.pow 2 31 then n else Nat.pow 2 32 - n

namespace ImageFormat

/-- The bytes that a PNG file starts with. -/
def pngSignature : List UInt8 := [0x89, 0x50, 0x4E, 0x47, 0x0D, 0x0A, 0x1A, 0x0A]

/-- The bytes that a JPEG file starts with: its first marker and the first byte of the next one. -/
def jpegSignature : List UInt8 := [0xFF, 0xD8, 0xFF]

/-- The bytes that a GIF file starts with, in two versions of the format. -/
def gifSignatures : List (List UInt8) :=
  [[0x47, 0x49, 0x46, 0x38, 0x37, 0x61], [0x47, 0x49, 0x46, 0x38, 0x39, 0x61]]

/-- The bytes that a BMP file starts with. -/
def bmpSignature : List UInt8 := [0x42, 0x4D]

/-- The number of bytes up to the end of the sizes in a BMP file. -/
def bmpSizesEnd : Nat := 26

/-- The format that the first bytes tell. -/
def ofBytes? (data : List UInt8) : Option ImageFormat :=
  if pngSignature.isPrefixOf data then some .png
  else if jpegSignature.isPrefixOf data then some .jpeg
  else if gifSignatures.any (·.isPrefixOf data) then some .gif
  else if bmpSignature.isPrefixOf data && bmpSizesEnd ≤ data.length then some .bmp
  else none

end ImageFormat

/-! ## Sizes in pixels -/

/-- The width and the height of a PNG image, which its first chunk holds. -/
def pngSize? (data : List UInt8) : Option (Nat × Nat) := do
  let name ← bytesAt? 12 4 data
  if name = [0x49, 0x48, 0x44, 0x52] then
    let width ← bytesAt? 16 4 data
    let height ← bytesAt? 20 4 data
    return (bigEndian width, bigEndian height)
  else none

/-- The width and the height of a GIF image, which stand behind the signature. -/
def gifSize? (data : List UInt8) : Option (Nat × Nat) := do
  let width ← bytesAt? 6 2 data
  let height ← bytesAt? 8 2 data
  return (littleEndian width, littleEndian height)

/-- The width and the height of a BMP image. A negative height tells that the rows are stored from
top to bottom. -/
def bmpSize? (data : List UInt8) : Option (Nat × Nat) := do
  let width ← bytesAt? 18 4 data
  let height ← bytesAt? 22 4 data
  return (magnitude32 (littleEndian width), magnitude32 (littleEndian height))

/-- What a marker of a JPEG image announces. -/
inductive Marker where
  /-- Nothing: another marker follows at once. -/
  | standalone
  /-- The end of the headers. -/
  | last
  /-- A segment that holds the size of the image. -/
  | frame
  /-- A segment of another kind. -/
  | segment
  deriving Repr, DecidableEq

/-- What the second byte of a marker announces. -/
def Marker.ofByte (byte : UInt8) : Marker :=
  if byte = 0x01 ∨ (0xD0 ≤ byte ∧ byte ≤ 0xD7) then .standalone
  else if byte = 0xD9 ∨ byte = 0xDA then .last
  else if 0xC0 ≤ byte ∧ byte ≤ 0xCF ∧ byte ≠ 0xC4 ∧ byte ≠ 0xC8 ∧ byte ≠ 0xCC then .frame
  else .segment

/-- The width and the height of a JPEG image, which its first frame segment holds. A segment tells
its length, and a marker may follow any number of filling bytes. -/
def frameSize? : List UInt8 → Option (Nat × Nat)
  | 0xFF :: 0xFF :: rest => frameSize? (0xFF :: rest)
  | 0xFF :: byte :: rest =>
    match Marker.ofByte byte with
    | .standalone => frameSize? rest
    | .last => none
    | .frame => do
      let _ ← bytesAt? 0 2 rest
      let height ← bytesAt? 3 2 rest
      let width ← bytesAt? 5 2 rest
      return (bigEndian width, bigEndian height)
    | .segment =>
      match bytesAt? 0 2 rest with
      | none => none
      | some length => frameSize? (rest.drop (bigEndian length))
  | _ => none
termination_by data => data.length
decreasing_by all_goals simp only [List.length_cons, List.length_drop]; omega

/-- A filling byte in front of a marker is passed over. -/
theorem frameSize?_fill (rest : List UInt8) :
    frameSize? (0xFF :: 0xFF :: rest) = frameSize? (0xFF :: rest) := by
  rw [frameSize?]

/-- The width and the height that the header of an image of a known format tells. -/
def ImageFormat.size? (format : ImageFormat) (data : List UInt8) : Option (Nat × Nat) :=
  match format with
  | .png => pngSize? data
  | .jpeg => frameSize? (data.drop 2)
  | .gif => gifSize? data
  | .bmp => bmpSize? data

end StyledTemplate
