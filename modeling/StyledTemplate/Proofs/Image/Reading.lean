import Mathlib.Data.List.Induction
import StyledTemplate.Image.Embed
import StyledTemplate.Proofs.Image.Headers

/-!
# Reading headers at positions

The size of an image is read at positions in its data, each number from a range of bytes that is cut
out first, and in a JPEG stream the next position follows from a length that the stream tells. Here
taking a byte that is not there is a failure. `ReadsSize` holds of the answers that are read without
a failure in finitely many rounds: always exactly one, and the one of `ImageFormat.size?`. An answer
that is found stays the same when more bytes follow (`sizes_read_safely`).
-/

namespace StyledTemplate

/-! ## Checked reading -/

/-- A byte is taken at an index that is not in range. -/
structure OutOfRange where
  /-- The index. -/
  index : Nat
  /-- The number of bytes. -/
  length : Nat

/-- The byte at an index. -/
def byteAt (bytes : List UInt8) (index : Nat) : Except OutOfRange UInt8 :=
  match bytes[index]? with
  | some byte => .ok byte
  | none => .error { index, length := bytes.length }

/-- The bytes between two positions, if the data goes that far. -/
def range? (start stop : Nat) (data : List UInt8) : Option (List UInt8) :=
  if start ≤ stop ∧ stop ≤ data.length then some ((data.drop start).take (stop - start)) else none

/-- The number in the bytes from a position on, each of which is taken from the range that is cut
out. -/
def readNumber (decode : List UInt8 → Nat) (count position : Nat) (data : List UInt8) :
    Except OutOfRange (Option Nat) :=
  match range? position (position + count) data with
  | none => return none
  | some bytes => return some (decode (← (List.range count).mapM (byteAt bytes)))

/-- Reads one number and then another one. -/
def readPair (first second : Except OutOfRange (Option Nat)) :
    Except OutOfRange (Option (Nat × Nat)) := do
  let some a ← first | return none
  let some b ← second | return none
  return some (a, b)

/-- Reads the size of a PNG image. -/
def readPng (data : List UInt8) : Except OutOfRange (Option (Nat × Nat)) :=
  match range? 12 16 data with
  | none => return none
  | some name =>
    if name ≠ ImageHeader.pngChunkName then return none
    else readPair (readNumber bigEndian 4 16 data) (readNumber bigEndian 4 20 data)

/-- Reads the size of a GIF image. -/
def readGif (data : List UInt8) : Except OutOfRange (Option (Nat × Nat)) :=
  readPair (readNumber littleEndian 2 6 data) (readNumber littleEndian 2 8 data)

/-- Reads the size of a BMP image. -/
def readBmp (data : List UInt8) : Except OutOfRange (Option (Nat × Nat)) :=
  readPair (readNumber (magnitude32 ∘ littleEndian) 4 18 data)
    (readNumber (magnitude32 ∘ littleEndian) 4 22 data)

/-- What a round of the walk through a JPEG stream comes to. -/
inductive Round where
  /-- The walk ends with an answer. -/
  | ended (size : Option (Nat × Nat))
  /-- The walk goes on at a position. -/
  | moved (position : Nat)

/-- A round of the walk through a JPEG stream. -/
def walkRound (data : List UInt8) (position : Nat) : Except OutOfRange Round :=
  match data[position]?, data[position + 1]? with
  | some first, some code =>
    if first ≠ 0xFF then return .ended none
    else if code = 0xFF then return .moved (position + 1)
    else
      match Marker.ofByte code with
      | .standalone => return .moved (position + 2)
      | .last => return .ended none
      | marker => do
        let some length ← readNumber bigEndian 2 (position + 2) data | return .ended none
        if marker = .frame then
          let some height ← readNumber bigEndian 2 (position + 5) data | return .ended none
          let some width ← readNumber bigEndian 2 (position + 7) data | return .ended none
          return .ended (some (width, height))
        else return .moved (position + 2 + length)
  | _, _ => return .ended none

/-- The walk from a position comes to an end with an answer, after a round at each of the positions
that it visits. -/
inductive Walks (data : List UInt8) : Nat → List Nat → Option (Nat × Nat) → Prop
  | ends {position : Nat} {size : Option (Nat × Nat)}
      (hround : walkRound data position = .ok (.ended size)) : Walks data position [position] size
  | moves {position next : Nat} {visited : List Nat} {size : Option (Nat × Nat)}
      (hround : walkRound data position = .ok (.moved next)) (hrest : Walks data next visited size) :
      Walks data position (position :: visited) size

/-- The size of an image is read as the format has it, without a failure. -/
inductive ReadsSize (data : List UInt8) : ImageFormat → Option (Nat × Nat) → Prop
  | png {size : Option (Nat × Nat)} (h : readPng data = .ok size) : ReadsSize data .png size
  | gif {size : Option (Nat × Nat)} (h : readGif data = .ok size) : ReadsSize data .gif size
  | bmp {size : Option (Nat × Nat)} (h : readBmp data = .ok size) : ReadsSize data .bmp size
  | jpeg {visited : List Nat} {size : Option (Nat × Nat)} (h : Walks data 2 visited size) :
      ReadsSize data .jpeg size

/-! ## Reading numbers -/

section Numbers

variable {data : List UInt8} {position : Nat}

theorem mapM_byteAt {bytes : List UInt8} {start count : Nat} (h : start + count ≤ bytes.length) :
    (List.range' start count).mapM (byteAt bytes) = .ok ((bytes.drop start).take count) := by
  induction count generalizing start with
  | zero => rfl
  | succ count ih =>
    have hstart : start < bytes.length := by omega
    have hbyte : byteAt bytes start = .ok bytes[start] := by
      rw [byteAt, List.getElem?_eq_getElem hstart]
    rw [List.range'_succ, List.mapM_cons, hbyte, ih (by omega), List.drop_eq_getElem_cons hstart,
      List.take_succ_cons]
    rfl

theorem range?_eq_bytesAt? {count : Nat} (hcount : 0 < count) :
    range? position (position + count) data = bytesAt? position count data := by
  have hstart : position ≤ position + count := Nat.le_add_right _ _
  rw [range?, bytesAt?, Nat.add_sub_cancel_left]
  by_cases h : position + count ≤ data.length
  · have hlength : ((data.drop position).take count).length = count := by
      rw [List.length_take, List.length_drop]
      omega
    rw [if_pos ⟨hstart, h⟩, if_pos hlength]
  · have hlength : ((data.drop position).take count).length ≠ count := by
      rw [List.length_take, List.length_drop]
      omega
    rw [if_neg fun hrange => h hrange.2, if_neg hlength]

theorem length_of_bytesAt? {count : Nat} {bytes : List UInt8}
    (h : bytesAt? position count data = some bytes) : bytes.length = count := by
  rw [bytesAt?] at h
  split at h
  · next hlength =>
    obtain rfl := Option.some.inj h
    exact hlength
  · cases h

/-- A number is read without a failure. -/
theorem readNumber_eq {decode : List UInt8 → Nat} {count : Nat} (hcount : 0 < count) :
    readNumber decode count position data = .ok ((bytesAt? position count data).map decode) := by
  rw [readNumber, range?_eq_bytesAt? hcount]
  cases hbytes : bytesAt? position count data with
  | none => rfl
  | some bytes =>
    have hlength := length_of_bytesAt? hbytes
    have hall : (List.range count).mapM (byteAt bytes) = .ok bytes := by
      rw [List.range_eq_range', mapM_byteAt (by omega), List.drop_zero,
        List.take_of_length_le (Nat.le_of_eq hlength)]
    dsimp only
    rw [hall]
    rfl

theorem readPair_ok (first second : Option Nat) :
    readPair (.ok first) (.ok second) =
      .ok (first.bind fun a => second.bind fun b => some (a, b)) := by
  cases first <;> cases second <;> rfl

theorem readPng_eq (data : List UInt8) : readPng data = .ok (pngSize? data) := by
  have hname : range? 12 16 data = bytesAt? 12 4 data := range?_eq_bytesAt? (Nat.succ_pos 3)
  rw [readPng, pngSize?, hname]
  cases bytesAt? 12 4 data with
  | none => rfl
  | some name =>
    by_cases hchunk : name = ImageHeader.pngChunkName
    · subst hchunk
      dsimp only
      rw [if_neg (not_not_intro rfl), readNumber_eq (by decide), readNumber_eq (by decide),
        readPair_ok]
      cases bytesAt? 16 4 data <;> cases bytesAt? 20 4 data <;> rfl
    · dsimp only
      rw [if_pos hchunk, Option.bind_eq_bind, Option.bind_some]
      exact congrArg Except.ok (if_neg hchunk).symm

theorem readGif_eq (data : List UInt8) : readGif data = .ok (gifSize? data) := by
  rw [readGif, gifSize?, readNumber_eq (by decide), readNumber_eq (by decide), readPair_ok]
  cases bytesAt? 6 2 data <;> cases bytesAt? 8 2 data <;> rfl

theorem readBmp_eq (data : List UInt8) : readBmp data = .ok (bmpSize? data) := by
  rw [readBmp, bmpSize?, readNumber_eq (by decide), readNumber_eq (by decide), readPair_ok]
  cases bytesAt? 18 4 data <;> cases bytesAt? 22 4 data <;> rfl

end Numbers

/-! ## The walk through a JPEG stream -/

theorem bigEndian_lt (bytes : List UInt8) : bigEndian bytes < 256 ^ bytes.length := by
  induction bytes using List.reverseRecOn with
  | nil => decide
  | append_singleton bytes byte ih =>
    have hbyte := byte.toNat_lt
    rw [bigEndian_concat, List.length_append, List.length_singleton, Nat.pow_succ]
    omega

section Drop

variable {data rest : List UInt8} {position : Nat} {first code : UInt8}

/-- Behind a marker the data goes on with what stands there. -/
theorem drop_marker (hrest : data.drop position = first :: code :: rest) (offset : Nat) :
    data.drop (position + 2 + offset) = rest.drop offset := by
  rw [Nat.add_assoc, ← List.drop_drop, hrest, Nat.add_comm 2]
  rfl

theorem bytesAt?_marker (hrest : data.drop position = first :: code :: rest) (offset count : Nat) :
    bytesAt? (position + 2 + offset) count data = bytesAt? offset count rest := by
  rw [bytesAt?, bytesAt?, drop_marker hrest]

end Drop

/-- A round of the walk does not fail. It ends with the answer, or it goes on behind where it stands,
not more than a segment further, with the answer still to be found there. -/
theorem walkRound_cases (data : List UInt8) (position : Nat) :
    (∃ size, walkRound data position = .ok (.ended size) ∧
        frameSize? (data.drop position) = size) ∨
      ∃ next, walkRound data position = .ok (.moved next) ∧
        frameSize? (data.drop position) = frameSize? (data.drop next) ∧
        position < next ∧ next ≤ position + 65537 ∧ position + 1 < data.length := by
  have hfirst : data[position]? = (data.drop position)[0]? := by rw [List.getElem?_drop, Nat.add_zero]
  have hcode : data[position + 1]? = (data.drop position)[1]? := by rw [List.getElem?_drop]
  have hlength : (data.drop position).length = data.length - position := List.length_drop
  rw [walkRound, hfirst, hcode]
  rcases hdata : data.drop position with _ | ⟨first, _ | ⟨code, rest⟩⟩
  · exact .inl ⟨none, rfl, frameSize?_of_length_lt (by decide)⟩
  · exact .inl ⟨none, rfl, frameSize?_of_length_lt (Nat.lt_succ_self 1)⟩
  · have hwithin : position + 1 < data.length := by
      rw [hdata, List.length_cons, List.length_cons] at hlength
      omega
    dsimp only [List.getElem?_cons_zero, List.getElem?_cons_succ]
    by_cases hmarker : first = 0xFF
    · subst hmarker
      rw [if_neg (not_not_intro rfl)]
      by_cases hfill : code = 0xFF
      · subst hfill
        have hnext : data.drop (position + 1) = 0xFF :: rest := by
          rw [← List.drop_drop, hdata]
          rfl
        refine .inr ⟨position + 1, rfl, ?_, by omega, by omega, hwithin⟩
        rw [hnext, frameSize?_fill]
      · have hshort : bytesAt? (position + 2) 2 data = bytesAt? 0 2 rest := bytesAt?_marker hdata 0 2
        have hheight : bytesAt? (position + 5) 2 data = bytesAt? 3 2 rest := bytesAt?_marker hdata 3 2
        have hwidth : bytesAt? (position + 7) 2 data = bytesAt? 5 2 rest := bytesAt?_marker hdata 5 2
        have htwo : 0 < 2 := by decide
        rw [if_neg hfill, readNumber_eq htwo, readNumber_eq htwo, readNumber_eq htwo, hshort, hheight,
          hwidth]
        cases hannounced : Marker.ofByte code with
        | standalone =>
          refine .inr ⟨position + 2, rfl, ?_, by omega, by omega, hwithin⟩
          have hnext : data.drop (position + 2) = rest := drop_marker hdata 0
          rw [hnext, frameSize?_standalone hannounced]
        | last => exact .inl ⟨none, rfl, frameSize?_last hannounced rest⟩
        | frame =>
          refine .inl ⟨_, ?_, frameSize?_frame hannounced rest⟩
          cases bytesAt? 0 2 rest <;> cases bytesAt? 3 2 rest <;> cases bytesAt? 5 2 rest <;> rfl
        | segment =>
          have hrest := frameSize?_segment hannounced hfill rest
          cases hbytes : bytesAt? 0 2 rest with
          | none =>
            rw [hbytes] at hrest
            exact .inl ⟨none, rfl, hrest⟩
          | some bytes =>
            rw [hbytes, Option.bind_some] at hrest
            have hbound := bigEndian_lt bytes
            rw [length_of_bytesAt? hbytes] at hbound
            refine .inr ⟨position + 2 + bigEndian bytes, rfl, ?_, by omega, by omega, hwithin⟩
            rw [drop_marker hdata, hrest]
    · rw [if_pos hmarker]
      exact .inl ⟨none, rfl, frameSize?_of_ne hmarker _⟩

theorem exists_walks (data : List UInt8) (position : Nat) :
    ∃ visited, Walks data position visited (frameSize? (data.drop position)) := by
  -- every round moves on within the data
  induction hleft : data.length - position using Nat.strongRecOn generalizing position with
  | ind left ih =>
    rcases walkRound_cases data position with
      ⟨size, hround, hsize⟩ | ⟨next, hround, hsize, hlt, -, hwithin⟩
    · exact ⟨[position], hsize ▸ .ends hround⟩
    · obtain ⟨visited, hwalks⟩ := ih (data.length - next) (by omega) next rfl
      exact ⟨position :: visited, hsize ▸ .moves hround hwalks⟩

/-- What a walk from a position comes to. -/
structure WalksWithin (data : List UInt8) (position : Nat) (visited : List Nat)
    (size : Option (Nat × Nat)) : Prop where
  /-- The size is that of the data from the position on. -/
  size_eq : size = frameSize? (data.drop position)
  /-- Each round stands behind the one before. -/
  increasing : visited.Pairwise (· < ·)
  /-- No round stands before the position. -/
  least : ∀ p ∈ visited, position ≤ p
  /-- No round stands more than a segment behind the end of the data. -/
  within : position ≤ data.length + 65536 → ∀ p ∈ visited, p ≤ data.length + 65536
  /-- There are no more rounds than bytes, but for the last one. -/
  rounds : visited.length ≤ data.length - position + 1

theorem Walks.walksWithin {data : List UInt8} {position : Nat} {visited : List Nat}
    {size : Option (Nat × Nat)} (h : Walks data position visited size) :
    WalksWithin data position visited size := by
  induction h with
  | @ends position size hround =>
    have hsize : frameSize? (data.drop position) = size := by
      rcases walkRound_cases data position with ⟨size', hround', hsize⟩ | ⟨next, hround', -⟩
      · rw [hround] at hround'
        cases hround'
        exact hsize
      · rw [hround] at hround'
        cases hround'
    exact ⟨hsize.symm, List.pairwise_singleton _ _, by simp, by simp, by simp⟩
  | @moves position next visited size hround hrest ih =>
    obtain ⟨hsize, hincreasing, hleast, hwithin, hrounds⟩ := ih
    rcases walkRound_cases data position with
      ⟨size', hround', -⟩ | ⟨next', hround', hsize', hlt, hstep, hinside⟩
    · rw [hround] at hround'
      cases hround'
    · rw [hround] at hround'
      cases hround'
      refine ⟨hsize.trans hsize'.symm, ?_, ?_, ?_, ?_⟩
      · refine List.pairwise_cons.2 ⟨fun p hp => ?_, hincreasing⟩
        have := hleast p hp
        omega
      · intro p hp
        rcases List.mem_cons.1 hp with rfl | hp
        · exact Nat.le_refl _
        · have := hleast p hp
          omega
      · intro hposition p hp
        rcases List.mem_cons.1 hp with rfl | hp
        · exact hposition
        · exact hwithin (by omega) p hp
      · rw [List.length_cons]
        omega

theorem readsSize_iff {data : List UInt8} {format : ImageFormat} {size : Option (Nat × Nat)} :
    ReadsSize data format size ↔ size = format.size? data := by
  constructor
  · intro h
    cases h with
    | png h => exact (Except.ok.inj ((readPng_eq data).symm.trans h)).symm
    | gif h => exact (Except.ok.inj ((readGif_eq data).symm.trans h)).symm
    | bmp h => exact (Except.ok.inj ((readBmp_eq data).symm.trans h)).symm
    | jpeg h => exact h.walksWithin.size_eq
  · rintro rfl
    cases format with
    | png => exact .png (readPng_eq data)
    | gif => exact .gif (readGif_eq data)
    | bmp => exact .bmp (readBmp_eq data)
    | jpeg =>
      obtain ⟨visited, hwalks⟩ := exists_walks data 2
      exact .jpeg hwalks

/-! ## More bytes behind -/

/-- An answer that is read stays the same when more bytes follow. -/
def Settled {α : Type} (read : List UInt8 → Option α) : Prop :=
  ∀ data more answer, read data = some answer → read (data ++ more) = some answer

section Settled

variable {α β : Type}

theorem settled_const (answer : Option α) : Settled fun _ => answer :=
  fun _ _ _ h => h

theorem Settled.bind {read : List UInt8 → Option α} {next : α → List UInt8 → Option β}
    (hread : Settled read) (hnext : ∀ a, Settled (next a)) :
    Settled fun data => (read data).bind fun a => next a data := by
  intro data more answer h
  obtain ⟨a, ha, hanswer⟩ := Option.bind_eq_some_iff.1 h
  exact Option.bind_eq_some_iff.2 ⟨a, hread data more a ha, hnext a data more answer hanswer⟩

theorem Settled.ite {read read' : List UInt8 → Option α} (c : Prop) [Decidable c]
    (hread : Settled read) (hread' : Settled read') :
    Settled fun data => if c then read data else read' data := by
  intro data more answer h
  by_cases hc : c
  · exact (if_pos hc).trans (hread data more answer ((if_pos hc).symm.trans h))
  · exact (if_neg hc).trans (hread' data more answer ((if_neg hc).symm.trans h))

theorem settled_bytesAt? (offset count : Nat) : Settled (bytesAt? offset count) := by
  intro data more bytes h
  rw [bytesAt?] at h
  split at h
  · next hlength =>
    have hle : count ≤ (data.drop offset).length := by
      rw [List.length_take] at hlength
      omega
    rw [bytesAt?, List.drop_append, List.take_append_of_le_length hle, if_pos hlength, ← h]
  · cases h

end Settled

/-- The first bytes go on telling the format: no two signatures start with the same byte. -/
theorem settled_ofBytes? : Settled ImageFormat.ofBytes? := by
  intro data more format h
  rw [ImageFormat.ofBytes?] at h
  split at h
  · next hstart =>
    obtain ⟨rest, rfl⟩ := List.isPrefixOf_iff_prefix.1 hstart
    exact h
  · split at h
    · next hstart =>
      obtain ⟨rest, rfl⟩ := List.isPrefixOf_iff_prefix.1 hstart
      exact h
    · split at h
      · next hstart =>
        obtain ⟨signature, hsignature, hstart⟩ := List.any_eq_true.1 hstart
        obtain ⟨rest, rfl⟩ := List.isPrefixOf_iff_prefix.1 hstart
        rcases List.mem_pair.1 hsignature with rfl | rfl
        · exact h
        · exact h
      · split at h
        · next hwhole =>
          obtain ⟨hstart, hlength⟩ := Bool.and_eq_true_iff.1 hwhole
          obtain ⟨rest, rfl⟩ := List.isPrefixOf_iff_prefix.1 hstart
          have hmore : ImageFormat.bmpSizesEnd ≤
              (ImageFormat.bmpSignature ++ (rest ++ more)).length := by
            have hless := of_decide_eq_true hlength
            rw [← List.append_assoc, List.length_append]
            omega
          rw [List.append_assoc, ofBytes?_bmp, if_pos (decide_eq_true hmore), h]
        · cases h

theorem settled_pngSize? : Settled pngSize? :=
  (settled_bytesAt? 12 4).bind fun name => Settled.ite (name = ImageHeader.pngChunkName)
    ((settled_bytesAt? 16 4).bind fun width => (settled_bytesAt? 20 4).bind fun height =>
      settled_const (some (bigEndian width, bigEndian height)))
    (settled_const none)

theorem settled_gifSize? : Settled gifSize? :=
  (settled_bytesAt? 6 2).bind fun width => (settled_bytesAt? 8 2).bind fun height =>
    settled_const (some (littleEndian width, littleEndian height))

theorem settled_bmpSize? : Settled bmpSize? :=
  (settled_bytesAt? 18 4).bind fun width => (settled_bytesAt? 22 4).bind fun height =>
    settled_const (some (magnitude32 (littleEndian width), magnitude32 (littleEndian height)))

theorem settled_frameSize? : Settled frameSize? := by
  intro data more answer h
  fun_induction frameSize? data with
  | case1 rest ih =>
    have hmore := ih h
    rw [List.cons_append] at hmore
    rw [List.cons_append, List.cons_append, frameSize?_fill, hmore]
  | case2 code rest hfill hannounced ih =>
    rw [List.cons_append, List.cons_append, frameSize?_standalone hannounced, ih h]
  | case4 code rest hfill hannounced =>
    rw [List.cons_append, List.cons_append, frameSize?_frame hannounced]
    have hframe := (settled_bytesAt? 0 2).bind fun _ => (settled_bytesAt? 3 2).bind fun height =>
      (settled_bytesAt? 5 2).bind fun width =>
        settled_const (some (bigEndian width, bigEndian height))
    exact hframe rest more answer h
  | case6 code rest hfill hannounced length hlength ih =>
    -- an answer is found behind the segment, which the data goes on after
    have hle : bigEndian length ≤ rest.length := by
      by_contra hgt
      rw [List.drop_eq_nil_of_le (Nat.le_of_not_le hgt)] at h
      exact absurd h (by rw [frameSize?_of_length_lt (by decide)]; exact nofun)
    have hmore := ih h
    rw [← List.drop_append_of_le_length hle] at hmore
    rw [List.cons_append, List.cons_append, frameSize?_segment hannounced hfill,
      settled_bytesAt? 0 2 rest more length hlength, Option.bind_some, hmore]
  | case3 => cases h
  | case5 => cases h
  | case7 => cases h

theorem settled_size? (format : ImageFormat) : Settled format.size? := by
  cases format with
  | png => exact settled_pngSize?
  | gif => exact settled_gifSize?
  | bmp => exact settled_bmpSize?
  | jpeg =>
    intro data more size h
    have hle : 2 ≤ data.length := by
      by_contra hgt
      have hnil : data.drop 2 = [] := List.drop_eq_nil_of_le (by omega)
      rw [ImageFormat.size?, hnil, frameSize?_of_length_lt (by decide)] at h
      cases h
    have hmore := settled_frameSize? (data.drop 2) more size h
    rw [← List.drop_append_of_le_length hle] at hmore
    exact hmore

/-- An image that can be embedded is embedded alike when more bytes follow its own. -/
theorem embed_append {binding : ImageBinding} {name : String} {data : List UInt8}
    {image : EmbeddedImage} (h : binding.embed name data = .ok image) (more : List UInt8) :
    binding.embed name (data ++ more) = .ok { image with data := data ++ more } := by
  rw [ImageBinding.embed] at h ⊢
  cases hformat : ImageFormat.ofBytes? data with
  | none =>
    rw [hformat] at h
    cases h
  | some format =>
    rw [hformat] at h
    rw [settled_ofBytes? data more format hformat]
    cases hsize : format.size? data with
    | none =>
      dsimp only at h
      rw [hsize] at h
      cases h
    | some size =>
      dsimp only at h ⊢
      rw [hsize] at h
      rw [settled_size? format data more size hsize]
      obtain rfl := Except.ok.inj h
      rfl

/-- Whatever the bytes of an image are, reading its size takes no byte that is not there and comes to
an end with the one answer of `ImageFormat.size?`. Through a JPEG stream each round of the walk stands
behind the one before, whatever lengths the stream tells, so that there are no more rounds than bytes.
A format or a size that is found stays the same whatever bytes follow, and so does what is embedded. -/
theorem sizes_read_safely (data : List UInt8) :
    (∀ format size, ReadsSize data format size ↔ size = format.size? data) ∧
      (∀ visited size, Walks data 2 visited size →
        visited.Pairwise (· < ·) ∧ visited.length ≤ data.length + 1 ∧
          ∀ position ∈ visited, position ≤ data.length + 65536) ∧
      ∀ more : List UInt8,
        (∀ format, ImageFormat.ofBytes? data = some format →
          ImageFormat.ofBytes? (data ++ more) = some format) ∧
        (∀ (format : ImageFormat) size, format.size? data = some size →
          format.size? (data ++ more) = some size) ∧
        ∀ (binding : ImageBinding) name image, binding.embed name data = .ok image →
          binding.embed name (data ++ more) = .ok { image with data := data ++ more } := by
  refine ⟨fun format size => readsSize_iff, ?_, fun more => ⟨?_, ?_, ?_⟩⟩
  · intro visited size hwalks
    obtain ⟨-, hincreasing, -, hwithin, hrounds⟩ := hwalks.walksWithin
    exact ⟨hincreasing, by omega, hwithin (by omega)⟩
  · exact settled_ofBytes? data more
  · exact fun format => settled_size? format data more
  · exact fun binding name image h => embed_append h more

/-- A JPEG stream that is cut off behind the size of the image. In front of its frame segment stand
two filling bytes and a segment that holds the bytes of a frame marker. -/
def cutPhoto : List UInt8 :=
  [0xFF, 0xD8, 0xFF, 0xFF, 0xFF, 0xE0, 0x00, 0x04, 0xFF, 0xC0, 0xFF, 0xC2, 0x00, 0x0B, 0x08, 0x00,
    0x02, 0x00, 0x03]

/-- The walk stands at the two filling bytes, at the segment and at the frame segment, and the whole
photo does not have another size than the part of it. -/
theorem cutPhoto_read_safely :
    Walks cutPhoto 2 [2, 3, 4, 10] (some (3, 2)) ∧ ImageFormat.jpeg.size? cutPhoto = some (3, 2) ∧
      ImageFormat.ofBytes? cutPhoto = some .jpeg ∧
      ∀ more, ImageFormat.ofBytes? (cutPhoto ++ more) = some .jpeg ∧
        ImageFormat.jpeg.size? (cutPhoto ++ more) = some (3, 2) := by
  obtain ⟨hread, -, hmore⟩ := sizes_read_safely cutPhoto
  have hwalks : Walks cutPhoto 2 [2, 3, 4, 10] (some (3, 2)) :=
    .moves rfl (.moves rfl (.moves rfl (.ends (by cbv))))
  have hsize := ((hread .jpeg _).1 (.jpeg hwalks)).symm
  refine ⟨hwalks, hsize, rfl, fun more => ?_⟩
  obtain ⟨hformats, hsizes, -⟩ := hmore more
  exact ⟨hformats .jpeg rfl, hsizes .jpeg _ hsize⟩

end StyledTemplate
