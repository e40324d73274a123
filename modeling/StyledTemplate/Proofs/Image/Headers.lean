import Mathlib.Algebra.Group.Nat.Defs
import Mathlib.Data.List.Basic
import StyledTemplate.Image.Header

/-!
# What the header of an image says is read from it

`ImageHeader` lists the headers that images have, each with all that its format leaves open: in a
JPEG stream any markers and segments may stand in front of the frame segment, with any bytes in
them. From the bytes of a header, and whatever stands behind them, the format is recognised and the
size is read (`ImageHeader.decodes`).
-/

namespace StyledTemplate

/-! ## Numbers -/

/-- The last `count` bytes of a number, the most significant one first. -/
def bigEndianBytes : Nat → Nat → List UInt8
  | 0, _ => []
  | count + 1, n => bigEndianBytes count (n / 256) ++ [UInt8.ofNat n]

/-- The last `count` bytes of a number, the least significant one first. -/
def littleEndianBytes (count n : Nat) : List UInt8 := (bigEndianBytes count n).reverse

@[simp] theorem length_bigEndianBytes (count n : Nat) : (bigEndianBytes count n).length = count := by
  induction count generalizing n with
  | zero => rfl
  | succ count ih => rw [bigEndianBytes, List.length_append, ih, List.length_singleton]

@[simp] theorem length_littleEndianBytes (count n : Nat) :
    (littleEndianBytes count n).length = count := by
  rw [littleEndianBytes, List.length_reverse, length_bigEndianBytes]

theorem bigEndian_concat (bytes : List UInt8) (byte : UInt8) :
    bigEndian (bytes ++ [byte]) = bigEndian bytes * 256 + byte.toNat := by
  rw [bigEndian, List.foldl_append]
  rfl

theorem bigEndian_bigEndianBytes (count n : Nat) :
    bigEndian (bigEndianBytes count n) = n % 256 ^ count := by
  induction count generalizing n with
  | zero => rw [Nat.pow_zero, Nat.mod_one, bigEndianBytes, bigEndian, List.foldl_nil]
  | succ count ih =>
    have hbyte : (UInt8.ofNat n).toNat = n % 256 := UInt8.toNat_ofNat'
    rw [bigEndianBytes, bigEndian_concat, ih, hbyte, Nat.pow_succ, Nat.mul_comm (256 ^ count),
      Nat.mod_mul]
    omega

theorem bigEndian_uint32 (n : UInt32) : bigEndian (bigEndianBytes 4 n.toNat) = n.toNat := by
  rw [bigEndian_bigEndianBytes]
  exact Nat.mod_eq_of_lt n.toNat_lt

theorem bigEndian_uint16 (n : UInt16) : bigEndian (bigEndianBytes 2 n.toNat) = n.toNat := by
  rw [bigEndian_bigEndianBytes]
  exact Nat.mod_eq_of_lt n.toNat_lt

theorem littleEndian_littleEndianBytes (count n : Nat) :
    littleEndian (littleEndianBytes count n) = n % 256 ^ count := by
  rw [littleEndian, littleEndianBytes, List.reverse_reverse, bigEndian_bigEndianBytes]

theorem littleEndian_uint16 (n : UInt16) : littleEndian (littleEndianBytes 2 n.toNat) = n.toNat := by
  rw [littleEndian_littleEndianBytes]
  exact Nat.mod_eq_of_lt n.toNat_lt

/-- The magnitude of a signed number of 32 bits, the least one included, from its bytes. -/
theorem magnitude32_int32 (n : Int32) :
    magnitude32 (littleEndian (littleEndianBytes 4 n.toUInt32.toNat)) = n.toInt.natAbs := by
  have hbits : n.toUInt32.toNat < 2 ^ 32 := n.toUInt32.toNat_lt
  have hvalue : n.toInt = if 2 * n.toUInt32.toNat < 2 ^ 32 then (n.toUInt32.toNat : Int)
      else n.toUInt32.toNat - (2 ^ 32 : Nat) := BitVec.toInt_eq_toNat_cond n.toBitVec
  have hread : n.toUInt32.toNat % 256 ^ 4 = n.toUInt32.toNat := Nat.mod_eq_of_lt hbits
  have hhalf : Nat.pow 2 31 = 2147483648 := rfl
  have hall : Nat.pow 2 32 = 4294967296 := rfl
  rw [littleEndian_littleEndianBytes, hread, hvalue, magnitude32, hhalf, hall]
  split <;> split <;> omega

/-! ## Bytes at an offset -/

/-- Of data that is put together from fields, each field is found behind those in front of it. -/
theorem bytesAt?_flatten {fields : List (List UInt8)} {field : List UInt8} {offset count : Nat}
    (i : Nat) (hfield : fields[i]? = some field) (hoffset : (fields.take i).flatten.length = offset)
    (hcount : field.length = count) (rest : List UInt8) :
    bytesAt? offset count (fields.flatten ++ rest) = some field := by
  subst hoffset hcount
  obtain ⟨hi, hget⟩ := List.getElem?_eq_some_iff.1 hfield
  have hsplit : fields.flatten ++ rest =
      (fields.take i).flatten ++ (field ++ ((fields.drop (i + 1)).flatten ++ rest)) := by
    conv => lhs; rw [← List.take_append_drop i fields, List.drop_eq_getElem_cons hi, hget]
    rw [List.flatten_append, List.flatten_cons, List.append_assoc, List.append_assoc]
  rw [bytesAt?, hsplit, List.drop_left, List.take_left, if_pos rfl]

/-! ## Headers -/

/-- The markers of a JPEG stream that have no segment. -/
def standaloneCodes : List UInt8 := [0x01, 0xD0, 0xD1, 0xD2, 0xD3, 0xD4, 0xD5, 0xD6, 0xD7]

/-- The markers of segments that may stand in front of the frame segment of a JPEG stream: tables,
comments and what applications add. -/
def segmentCodes : List UInt8 :=
  [0xC4, 0xC8, 0xCC, 0xDB, 0xDD, 0xE0, 0xE1, 0xE2, 0xE3, 0xE4, 0xE5, 0xE6, 0xE7, 0xE8, 0xE9, 0xEA,
    0xEB, 0xEC, 0xED, 0xEE, 0xEF, 0xFE]

/-- The markers of the frame segments of JPEG streams. -/
def frameCodes : List UInt8 :=
  [0xC0, 0xC1, 0xC2, 0xC3, 0xC5, 0xC6, 0xC7, 0xC9, 0xCA, 0xCB, 0xCD, 0xCE, 0xCF]

/-- A marker behind any number of filling bytes. -/
def markerBytes (fill : Nat) (code : UInt8) : List UInt8 := List.replicate fill 0xFF ++ [0xFF, code]

/-- What may stand in front of the frame segment of a JPEG stream, behind filling bytes. -/
inductive JpegItem where
  /-- A marker without a segment. -/
  | standalone (fill : Nat) (code : UInt8) (hcode : code ∈ standaloneCodes)
  /-- A segment with any bytes in it. Its length counts the two bytes that tell the length. -/
  | segment (fill : Nat) (code : UInt8) (payload : List UInt8) (hcode : code ∈ segmentCodes)
      (hfits : payload.length ≤ 65533)

/-- The bytes of what stands in front of the frame segment. -/
def JpegItem.bytes : JpegItem → List UInt8
  | .standalone fill code _ => markerBytes fill code
  | .segment fill code payload _ _ =>
    markerBytes fill code ++ [bigEndianBytes 2 (payload.length + 2), payload].flatten

/-- The frame segment of a JPEG stream up to the size of the image. -/
structure JpegFrame where
  /-- The number of filling bytes in front. -/
  fill : Nat
  /-- The marker. -/
  code : UInt8
  /-- The length of the segment. -/
  length : UInt16
  /-- The number of bits of a sample. -/
  precision : UInt8
  /-- The height of the image. -/
  height : UInt16
  /-- The width of the image. -/
  width : UInt16
  /-- The marker is that of a frame. -/
  hcode : code ∈ frameCodes

/-- The bytes of a frame segment up to the size of the image. -/
def JpegFrame.bytes (frame : JpegFrame) : List UInt8 :=
  markerBytes frame.fill frame.code ++
    [bigEndianBytes 2 frame.length.toNat, [frame.precision], bigEndianBytes 2 frame.height.toNat,
      bigEndianBytes 2 frame.width.toNat].flatten

/-- The header of an image, up to its size. -/
inductive ImageHeader where
  /-- The signature of a PNG file and its first chunk. -/
  | png (chunkLength width height : UInt32)
  /-- The signature of a GIF file and the size of its screen. -/
  | gif (signature : List UInt8) (hsignature : signature ∈ ImageFormat.gifSignatures)
      (width height : UInt16)
  /-- The signature of a BMP file, sixteen bytes that do not tell the size, and the size. -/
  | bmp (fields : List UInt8) (hfields : fields.length = 16) (width height : Int32)
  /-- The first marker of a JPEG stream, and what follows up to the frame segment. -/
  | jpeg (items : List JpegItem) (frame : JpegFrame)

namespace ImageHeader

/-- The name of the first chunk of a PNG file. -/
def pngChunkName : List UInt8 := [0x49, 0x48, 0x44, 0x52]

/-- The fields of the header, in order. -/
def fields : ImageHeader → List (List UInt8)
  | png chunkLength width height =>
    [ImageFormat.pngSignature, bigEndianBytes 4 chunkLength.toNat, pngChunkName,
      bigEndianBytes 4 width.toNat, bigEndianBytes 4 height.toNat]
  | gif signature _ width height =>
    [signature, littleEndianBytes 2 width.toNat, littleEndianBytes 2 height.toNat]
  | bmp fields _ width height =>
    [ImageFormat.bmpSignature, fields, littleEndianBytes 4 width.toUInt32.toNat,
      littleEndianBytes 4 height.toUInt32.toNat]
  | jpeg items frame => [[0xFF, 0xD8], items.flatMap JpegItem.bytes, frame.bytes]

/-- The bytes of the header. -/
def bytes (header : ImageHeader) : List UInt8 := header.fields.flatten

/-- The format of the image. -/
def format : ImageHeader → ImageFormat
  | png .. => .png
  | gif .. => .gif
  | bmp .. => .bmp
  | jpeg .. => .jpeg

/-- The width and the height of the image. A negative height tells the order of the rows. -/
def size : ImageHeader → Nat × Nat
  | png _ width height => (width.toNat, height.toNat)
  | gif _ _ width height => (width.toNat, height.toNat)
  | bmp _ _ width height => (width.toInt.natAbs, height.toInt.natAbs)
  | jpeg _ frame => (frame.width.toNat, frame.height.toNat)

end ImageHeader

/-! ## JPEG streams -/

theorem Marker.ofByte_standalone : ∀ code ∈ standaloneCodes, Marker.ofByte code = .standalone := by
  decide +kernel

theorem Marker.ofByte_segment : ∀ code ∈ segmentCodes, Marker.ofByte code = .segment := by
  decide +kernel

theorem Marker.ofByte_frame : ∀ code ∈ frameCodes, Marker.ofByte code = .frame := by
  decide +kernel

/-- A filling byte does not announce anything. -/
theorem Marker.ne_fill {code : UInt8} {marker : Marker} (h : ofByte code = marker)
    (hmarker : marker ≠ .segment) : code ≠ 0xFF := by
  rintro rfl
  exact hmarker h.symm

/-- Where the data ends in front of a marker or within it, no size is found. -/
theorem frameSize?_of_length_lt {data : List UInt8} (h : data.length < 2) :
    frameSize? data = none := by
  rw [frameSize?]
  · rintro rest rfl
    exact absurd h (by simp)
  · rintro byte rest rfl
    exact absurd h (by simp)

/-- Where no marker stands, no size is found. -/
theorem frameSize?_of_ne {first : UInt8} (h : first ≠ 0xFF) (rest : List UInt8) :
    frameSize? (first :: rest) = none := by
  rw [frameSize?]
  · intro rest' hdata
    exact h (List.cons.inj hdata).1
  · intro byte rest' hdata
    exact h (List.cons.inj hdata).1

/-- Any number of filling bytes in front of a marker is passed over. -/
theorem frameSize?_markerBytes (fill : Nat) (code : UInt8) (rest : List UInt8) :
    frameSize? (markerBytes fill code ++ rest) = frameSize? (0xFF :: code :: rest) := by
  induction fill with
  | zero => rfl
  | succ fill ih =>
    rw [← ih, markerBytes, List.replicate_succ]
    cases fill with
    | zero => exact frameSize?_fill _
    | succ fill => exact frameSize?_fill _

theorem frameSize?_standalone {code : UInt8} (h : Marker.ofByte code = .standalone)
    (rest : List UInt8) : frameSize? (0xFF :: code :: rest) = frameSize? rest := by
  have hcode := Marker.ne_fill h (by decide)
  rw [frameSize?, h]
  exact hcode

theorem frameSize?_last {code : UInt8} (h : Marker.ofByte code = .last) (rest : List UInt8) :
    frameSize? (0xFF :: code :: rest) = none := by
  have hcode := Marker.ne_fill h (by decide)
  rw [frameSize?, h]
  exact hcode

theorem frameSize?_frame {code : UInt8} (h : Marker.ofByte code = .frame) (rest : List UInt8) :
    frameSize? (0xFF :: code :: rest) =
      (bytesAt? 0 2 rest).bind fun _ => (bytesAt? 3 2 rest).bind fun height =>
        (bytesAt? 5 2 rest).bind fun width => some (bigEndian width, bigEndian height) := by
  have hcode := Marker.ne_fill h (by decide)
  rw [frameSize?, h]
  · rfl
  · exact hcode

/-- A segment that does not hold the size is passed over by its length. -/
theorem frameSize?_segment {code : UInt8} (h : Marker.ofByte code = .segment) (hcode : code ≠ 0xFF)
    (rest : List UInt8) :
    frameSize? (0xFF :: code :: rest) =
      (bytesAt? 0 2 rest).bind fun length => frameSize? (rest.drop (bigEndian length)) := by
  rw [frameSize?, h]
  · cases bytesAt? 0 2 rest <;> rfl
  · exact hcode

/-- What stands in front of the frame segment is passed over, whatever bytes are in it. -/
theorem frameSize?_item (item : JpegItem) (rest : List UInt8) :
    frameSize? (item.bytes ++ rest) = frameSize? rest := by
  cases item with
  | standalone fill code hcode =>
    rw [JpegItem.bytes, frameSize?_markerBytes,
      frameSize?_standalone (Marker.ofByte_standalone code hcode)]
  | segment fill code payload hcode hfits =>
    have hmarker := Marker.ofByte_segment code hcode
    have hcode : code ≠ 0xFF := by
      rintro rfl
      exact absurd hcode (by decide)
    generalize hfields : [bigEndianBytes 2 (payload.length + 2), payload] = fields
    have hread : bytesAt? 0 2 (fields.flatten ++ rest) =
        some (bigEndianBytes 2 (payload.length + 2)) := by
      subst hfields
      refine bytesAt?_flatten 0 ?_ ?_ ?_ rest <;> rfl
    have hlength : bigEndian (bigEndianBytes 2 (payload.length + 2)) = fields.flatten.length := by
      subst hfields
      rw [bigEndian_bigEndianBytes, Nat.mod_eq_of_lt (by omega)]
      simp [Nat.add_comm]
    rw [JpegItem.bytes, List.append_assoc, frameSize?_markerBytes, hfields,
      frameSize?_segment hmarker hcode, hread, Option.bind_some, hlength, List.drop_left]

theorem frameSize?_items (items : List JpegItem) (rest : List UInt8) :
    frameSize? (items.flatMap JpegItem.bytes ++ rest) = frameSize? rest := by
  induction items with
  | nil => rfl
  | cons item items ih =>
    rw [List.flatMap_cons, List.append_assoc, frameSize?_item, ih]

theorem frameSize?_frameBytes (frame : JpegFrame) (rest : List UInt8) :
    frameSize? (frame.bytes ++ rest) = some (frame.width.toNat, frame.height.toNat) := by
  have hmarker := Marker.ofByte_frame frame.code frame.hcode
  rw [JpegFrame.bytes, List.append_assoc, frameSize?_markerBytes, frameSize?_frame hmarker]
  generalize hfields : [bigEndianBytes 2 frame.length.toNat, [frame.precision],
    bigEndianBytes 2 frame.height.toNat, bigEndianBytes 2 frame.width.toNat] = fields
  have hlength : bytesAt? 0 2 (fields.flatten ++ rest) =
      some (bigEndianBytes 2 frame.length.toNat) := by
    subst hfields
    refine bytesAt?_flatten 0 ?_ ?_ ?_ rest <;> rfl
  have hheight : bytesAt? 3 2 (fields.flatten ++ rest) =
      some (bigEndianBytes 2 frame.height.toNat) := by
    subst hfields
    refine bytesAt?_flatten 2 ?_ ?_ ?_ rest <;> rfl
  have hwidth : bytesAt? 5 2 (fields.flatten ++ rest) =
      some (bigEndianBytes 2 frame.width.toNat) := by
    subst hfields
    refine bytesAt?_flatten 3 ?_ ?_ ?_ rest <;> rfl
  rw [hlength, hheight, hwidth]
  simp only [Option.bind_some, bigEndian_uint16]

/-! ## Reading headers -/

theorem exists_markerBytes_eq_cons (fill : Nat) (code : UInt8) :
    ∃ rest, markerBytes fill code = 0xFF :: rest := by
  cases fill with
  | zero => exact ⟨[code], rfl⟩
  | succ fill => exact ⟨markerBytes fill code, rfl⟩

theorem JpegItem.exists_bytes_eq_cons (item : JpegItem) : ∃ rest, item.bytes = 0xFF :: rest := by
  cases item with
  | standalone fill code hcode => exact exists_markerBytes_eq_cons fill code
  | segment fill code payload hcode hfits =>
    obtain ⟨rest, hmarker⟩ := exists_markerBytes_eq_cons fill code
    rw [bytes, hmarker]
    exact ⟨_, rfl⟩

/-- Behind its first marker a JPEG stream goes on with the first byte of another one. -/
theorem exists_jpeg_eq_cons (items : List JpegItem) (frame : JpegFrame) :
    ∃ rest, items.flatMap JpegItem.bytes ++ frame.bytes = 0xFF :: rest := by
  cases items with
  | nil =>
    obtain ⟨rest, hmarker⟩ := exists_markerBytes_eq_cons frame.fill frame.code
    rw [List.flatMap_nil, List.nil_append, JpegFrame.bytes, hmarker]
    exact ⟨_, rfl⟩
  | cons item items =>
    obtain ⟨rest, hitem⟩ := item.exists_bytes_eq_cons
    rw [List.flatMap_cons, hitem]
    exact ⟨_, rfl⟩

/-- The first bytes of a BMP file are those of no other format, but its sizes have to be there. -/
theorem ofBytes?_bmp (rest : List UInt8) :
    ImageFormat.ofBytes? (ImageFormat.bmpSignature ++ rest) =
      if decide (ImageFormat.bmpSizesEnd ≤ (ImageFormat.bmpSignature ++ rest).length) then some .bmp
      else none := rfl

namespace ImageHeader

/-- The first bytes of a header tell its format. -/
theorem ofBytes?_bytes (header : ImageHeader) (trailing : List UInt8) :
    ImageFormat.ofBytes? (header.bytes ++ trailing) = some header.format := by
  cases header with
  | png chunkLength width height => rfl
  | gif signature hsignature width height =>
    obtain rfl | rfl : signature = [0x47, 0x49, 0x46, 0x38, 0x37, 0x61] ∨
        signature = [0x47, 0x49, 0x46, 0x38, 0x39, 0x61] := by
      simpa [ImageFormat.gifSignatures] using hsignature
    · rfl
    · rfl
  | bmp fields hfields width height =>
    have hbytes : (bmp fields hfields width height).bytes ++ trailing =
        ImageFormat.bmpSignature ++ (fields ++ (littleEndianBytes 4 width.toUInt32.toNat ++
          (littleEndianBytes 4 height.toUInt32.toNat ++ trailing))) := by
      simp [bytes, ImageHeader.fields]
    rw [hbytes, ofBytes?_bmp, if_pos]
    · rfl
    · simp [hfields, ImageFormat.bmpSignature, ImageFormat.bmpSizesEnd]
      omega
  | jpeg items frame =>
    obtain ⟨rest, hrest⟩ := exists_jpeg_eq_cons items frame
    have hbytes : (jpeg items frame).bytes ++ trailing = 0xFF :: 0xD8 :: 0xFF :: (rest ++ trailing) := by
      simp [bytes, fields, hrest]
    rw [hbytes]
    rfl

/-- The size in the header of a PNG file. -/
theorem pngSize?_bytes (chunkLength width height : UInt32) (trailing : List UInt8) :
    pngSize? ((png chunkLength width height).bytes ++ trailing) =
      some (width.toNat, height.toNat) := by
  generalize hdata : (png chunkLength width height).bytes ++ trailing = data
  have hname : bytesAt? 12 4 data = some pngChunkName := by
    subst hdata
    refine bytesAt?_flatten 2 ?_ ?_ ?_ trailing <;> rfl
  have hwidth : bytesAt? 16 4 data = some (bigEndianBytes 4 width.toNat) := by
    subst hdata
    refine bytesAt?_flatten 3 ?_ ?_ ?_ trailing <;> rfl
  have hheight : bytesAt? 20 4 data = some (bigEndianBytes 4 height.toNat) := by
    subst hdata
    refine bytesAt?_flatten 4 ?_ ?_ ?_ trailing <;> rfl
  rw [pngSize?, hname, hwidth, hheight]
  simp only [Option.bind_eq_bind, Option.bind_some, bigEndian_uint32]
  rfl

/-- The size in the header of a GIF file. -/
theorem gifSize?_bytes {signature : List UInt8} (hsignature : signature ∈ ImageFormat.gifSignatures)
    (width height : UInt16) (trailing : List UInt8) :
    gifSize? ((gif signature hsignature width height).bytes ++ trailing) =
      some (width.toNat, height.toNat) := by
  have hlength : signature.length = 6 := by
    revert signature
    decide
  generalize hdata : (gif signature hsignature width height).bytes ++ trailing = data
  have hwidth : bytesAt? 6 2 data = some (littleEndianBytes 2 width.toNat) := by
    subst hdata
    refine bytesAt?_flatten 1 rfl ?_ ?_ trailing
    · simpa [fields] using hlength
    · rfl
  have hheight : bytesAt? 8 2 data = some (littleEndianBytes 2 height.toNat) := by
    subst hdata
    refine bytesAt?_flatten 2 rfl ?_ ?_ trailing
    · simpa [fields] using hlength
    · rfl
  rw [gifSize?, hwidth, hheight]
  simp only [Option.bind_eq_bind, Option.bind_some, littleEndian_uint16]
  rfl

/-- The size in the header of a BMP file, without the signs. -/
theorem bmpSize?_bytes {fields : List UInt8} (hfields : fields.length = 16) (width height : Int32)
    (trailing : List UInt8) :
    bmpSize? ((bmp fields hfields width height).bytes ++ trailing) =
      some (width.toInt.natAbs, height.toInt.natAbs) := by
  generalize hdata : (bmp fields hfields width height).bytes ++ trailing = data
  have hwidth : bytesAt? 18 4 data = some (littleEndianBytes 4 width.toUInt32.toNat) := by
    subst hdata
    refine bytesAt?_flatten 2 rfl ?_ ?_ trailing
    · simp [ImageHeader.fields, hfields, ImageFormat.bmpSignature]
    · rfl
  have hheight : bytesAt? 22 4 data = some (littleEndianBytes 4 height.toUInt32.toNat) := by
    subst hdata
    refine bytesAt?_flatten 3 rfl ?_ ?_ trailing
    · simp [ImageHeader.fields, hfields, ImageFormat.bmpSignature]
    · rfl
  rw [bmpSize?, hwidth, hheight]
  simp only [Option.bind_eq_bind, Option.bind_some, magnitude32_int32]
  rfl

/-- The size in the frame segment of a JPEG stream. -/
theorem frameSize?_bytes (items : List JpegItem) (frame : JpegFrame) (trailing : List UInt8) :
    frameSize? (((jpeg items frame).bytes ++ trailing).drop 2) =
      some (frame.width.toNat, frame.height.toNat) := by
  have hdrop : ((jpeg items frame).bytes ++ trailing).drop 2 =
      items.flatMap JpegItem.bytes ++ (frame.bytes ++ trailing) := by
    simp [bytes, fields]
  rw [hdrop, frameSize?_items, frameSize?_frameBytes]

/-- Whatever the header of an image says, and whatever stands behind it, its bytes tell the format of
the image and the width and the height that it says: sizes from the whole range of each format, with
signs left out where the format has them, and, in a JPEG stream, any markers and segments in front of
the frame segment, which may hold bytes that look like markers. -/
theorem decodes (header : ImageHeader) (trailing : List UInt8) :
    ImageFormat.ofBytes? (header.bytes ++ trailing) = some header.format ∧
      header.format.size? (header.bytes ++ trailing) = some header.size := by
  refine ⟨header.ofBytes?_bytes trailing, ?_⟩
  cases header with
  | png chunkLength width height => exact pngSize?_bytes chunkLength width height trailing
  | gif signature hsignature width height => exact gifSize?_bytes hsignature width height trailing
  | bmp fields hfields width height => exact bmpSize?_bytes hfields width height trailing
  | jpeg items frame => exact frameSize?_bytes items frame trailing

/-- A segment in front of the frame segment may hold the bytes of another one. -/
example : frameSize? [0xFF, 0xE1, 0x00, 0x06, 0xFF, 0xC0, 0x00, 0x0B, 0xFF, 0xC2, 0x00, 0x0B, 0x08,
    0x00, 0x02, 0x00, 0x03] = some (3, 2) := by decide +kernel

end ImageHeader

end StyledTemplate
