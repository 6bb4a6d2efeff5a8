import Mapae.Arcade.PngFilters

/-!
# The chunks of a file

A file is the signature, the header, pieces that are image data or something else, the end and
whatever follows it.

* `readChunks_file`: the chunks of such a file are read
* `ends_readChunks`: the loop ends on every text of bytes, with an image within the limits or an
  error; only the height of a short header is read behind the end
-/

namespace Mapae.Arcade

/-! ## Numbers of four bytes -/

@[simp] theorem length_uint32Bytes (n : Nat) : (uint32Bytes n).length = 4 := rfl

theorem getUint32_append {bytes : Bytes} {n offset : Nat} (front rest : Bytes) (hn : n < 2 ^ 32)
    (hbytes : bytes = front ++ (uint32Bytes n ++ rest)) (hoffset : offset = front.length) :
    getUint32 bytes offset = .ok n := by
  subst hbytes hoffset
  have hpiece : subarray (front ++ (uint32Bytes n ++ rest)) front.length (front.length + 4) =
      uint32Bytes n := subarray_append rfl
  rw [getUint32, hpiece]
  simp only [uint32Bytes, UInt8.toNat_ofNat', Except.ok.injEq]
  omega

theorem exists_getUint32 {bytes : Bytes} {offset : Nat} (h : offset + 4 ≤ bytes.length) :
    ∃ n < 2 ^ 32, getUint32 bytes offset = .ok n := by
  have hlength : (subarray bytes offset (offset + 4)).length = 4 := by
    simp only [subarray, List.length_take, List.length_drop]
    omega
  obtain ⟨a, b, c, d, hpiece⟩ := List.length_eq_four.mp hlength
  refine ⟨_, ?_, by rw [getUint32, hpiece]⟩
  have ha := a.toNat_lt
  have hb := b.toNat_lt
  have hc := c.toNat_lt
  have hd := d.toNat_lt
  omega

theorem getUint32_error {bytes : Bytes} {offset : Nat} {e : PngError}
    (h : getUint32 bytes offset = .error e) : e = .outOfRange ∧ bytes.length < offset + 4 := by
  refine ⟨?_, ?_⟩
  · unfold getUint32 at h
    split at h
    · cases h
    · exact (Except.error.inj h).symm
  · by_contra hlength
    obtain ⟨n, -, hn⟩ := exists_getUint32 (not_lt.mp hlength)
    rw [hn] at h
    cases h

theorem crc32_lt (bytes : Bytes) : crc32 bytes < 2 ^ 32 := UInt32.toNat_lt _

/-! ## One chunk -/

@[simp] theorem length_chunk {type data : Bytes} (htype : type.length = 4) :
    (chunk type data).length = 12 + data.length := by
  simp [chunk, htype]
  omega

/-- What a chunk of a type does to the state. -/
def chunkStep (bytes : Bytes) (offset : Nat) (type data : Bytes) (st : PngState) :
    Except PngError PngState :=
  if type = IHDR then readHeader bytes offset data st
  else if type = IDAT then .ok { st with parts := st.parts ++ [data] }
  else .ok st

/-- **A chunk is read**, and the loop goes on behind it unless it is the last. -/
theorem readChunks_chunk {bytes front type data rest : Bytes} (fuel : Nat) (st : PngState)
    (hbytes : bytes = front ++ (chunk type data ++ rest)) (htype : type.length = 4)
    (hdata : data.length < 2 ^ 32) :
    readChunks bytes (fuel + 1) front.length st =
      if type = IEND then .ok st
      else
        (chunkStep bytes front.length type data st).bind
          (readChunks bytes fuel (front ++ chunk type data).length) := by
  have hlength : bytes.length = front.length + (12 + data.length) + rest.length := by
    rw [hbytes]
    simp [htype]
    omega
  have hsize : getUint32 bytes front.length = .ok data.length := by
    refine getUint32_append front (type ++ (data ++ (uint32Bytes (crc32 (type ++ data)) ++ rest)))
      hdata ?_ rfl
    rw [hbytes, chunk]
    simp
  have hread : subarray bytes (front.length + 4) (front.length + 8) = type := by
    have hsplit : bytes = (front ++ uint32Bytes data.length) ++ (type ++ (data ++
        uint32Bytes (crc32 (type ++ data)) ++ rest)) := by
      rw [hbytes, chunk]
      simp
    have hstart : front.length + 4 = (front ++ uint32Bytes data.length).length := by simp
    rw [hsplit, hstart]
    exact subarray_append (by simp [htype])
  have hcontent : subarray bytes (front.length + 8) (front.length + 8 + data.length) = data := by
    have hsplit : bytes = (front ++ uint32Bytes data.length ++ type) ++ (data ++
        (uint32Bytes (crc32 (type ++ data)) ++ rest)) := by
      rw [hbytes, chunk]
      simp
    have hstart : front.length + 8 = (front ++ uint32Bytes data.length ++ type).length := by
      simp [htype]
    rw [hsplit, hstart]
    exact subarray_append rfl
  have hchecked : subarray bytes (front.length + 4) (front.length + 8 + data.length) =
      type ++ data := by
    have hsplit : bytes = (front ++ uint32Bytes data.length) ++ ((type ++ data) ++
        (uint32Bytes (crc32 (type ++ data)) ++ rest)) := by
      rw [hbytes, chunk]
      simp
    have hstart : front.length + 4 = (front ++ uint32Bytes data.length).length := by simp
    rw [hsplit, hstart]
    refine subarray_append ?_
    simp [htype]
    omega
  have hcrc : getUint32 bytes (front.length + 8 + data.length) = .ok (crc32 (type ++ data)) := by
    refine getUint32_append (front ++ uint32Bytes data.length ++ type ++ data) rest (crc32_lt _)
      (by rw [hbytes, chunk]; simp) ?_
    simp [htype]
    omega
  have hend : front.length + 12 + data.length = (front ++ chunk type data).length := by
    simp [htype]
    omega
  rw [readChunks, if_pos (by omega), hsize]
  simp only [bind, Except.bind, hread, hcontent, hchecked, hcrc, hend, chunkStep, ne_eq,
    not_true_eq_false, if_false]
  rw [if_neg (by rw [← hend, hlength]; omega)]
  by_cases hheader : type = IHDR
  · subst hheader
    rfl
  · by_cases himage : type = IDAT
    · subst himage
      rfl
    · simp only [if_neg hheader, if_neg himage]
      rfl

/-- The header of a supported image is accepted. -/
theorem readHeader_headerBytes {bytes front rest : Bytes} {width height : Nat} {color : UInt8}
    (st : PngState)
    (hbytes : bytes = front ++ (chunk IHDR (headerBytes width height color) ++ rest))
    (hcolor : color = 2 ∨ color = 6) (hpositive : 1 ≤ width ∧ 1 ≤ height)
    (hpixels : width * height ≤ MAX_PIXELS) :
    readHeader bytes front.length (headerBytes width height color) st =
      .ok { st with width, height, channels := if color = 6 then 4 else 3 } := by
  have hle : width ≤ MAX_PIXELS ∧ height ≤ MAX_PIXELS :=
    ⟨(Nat.le_mul_of_pos_right width hpositive.2).trans hpixels,
      (Nat.le_mul_of_pos_left height hpositive.1).trans hpixels⟩
  have hmax : MAX_PIXELS < 2 ^ 32 := by decide
  have hwidth : getUint32 bytes (front.length + 8) = .ok width := by
    refine getUint32_append (front ++ uint32Bytes 13 ++ IHDR) (uint32Bytes height ++
      [8, color, 0, 0, 0] ++ uint32Bytes (crc32 (IHDR ++ headerBytes width height color)) ++ rest)
      (hle.1.trans_lt hmax) ?_ (by simp [IHDR])
    rw [hbytes, chunk]
    simp [headerBytes]
  have hheight : getUint32 bytes (front.length + 12) = .ok height := by
    refine getUint32_append (front ++ uint32Bytes 13 ++ IHDR ++ uint32Bytes width)
      ([8, color, 0, 0, 0] ++ uint32Bytes (crc32 (IHDR ++ headerBytes width height color)) ++
        rest) (hle.2.trans_lt hmax) ?_ (by simp [IHDR])
    rw [hbytes, chunk]
    simp [headerBytes]
  have hfields : (headerBytes width height color)[8]? = some 8 ∧
      (headerBytes width height color)[9]? = some color ∧
      (headerBytes width height color)[12]? = some 0 := ⟨rfl, rfl, rfl⟩
  simp only [readHeader, hwidth, hheight, hfields, bind, Except.bind]
  rw [if_neg]
  · rcases hcolor with rfl | rfl <;> rfl
  · simp only [Option.some.injEq, ne_eq, not_true_eq_false, false_or, not_or, not_and, not_not,
      not_lt]
    exact ⟨fun h => hcolor.resolve_left h, hpositive.1, hpositive.2, hpixels⟩

/-! ## A file -/

/-- A chunk between the header and the end: image data where the type is `IDAT`. -/
structure Piece where
  type : Bytes
  data : Bytes
  length_type : type.length = 4
  length_data : data.length < 2 ^ 32
  inner : type ≠ IHDR ∧ type ≠ IEND

def Piece.bytes (piece : Piece) : Bytes := chunk piece.type piece.data

/-- The parts of the compressed data. -/
def imageData (pieces : List Piece) : List Bytes :=
  (pieces.filter (·.type = IDAT)).map (·.data)

/-- A file with a header of 8 bits a channel, and whatever follows its end. -/
def file (width height : Nat) (color : UInt8) (pieces : List Piece) (trailing : Bytes) : Bytes :=
  SIGNATURE ++ (chunk IHDR (headerBytes width height color) ++
    (pieces.flatMap Piece.bytes ++ (chunk IEND [] ++ trailing)))

theorem length_pieces (pieces : List Piece) :
    12 * pieces.length ≤ (pieces.flatMap Piece.bytes).length := by
  induction pieces with
  | nil => simp
  | cons piece pieces ih =>
    rw [List.flatMap_cons, List.length_append, Piece.bytes, length_chunk piece.length_type,
      List.length_cons]
    omega

theorem readChunks_pieces {bytes front rest : Bytes} {pieces : List Piece} (fuel : Nat)
    (st : PngState) (hbytes : bytes = front ++ (pieces.flatMap Piece.bytes ++ rest)) :
    readChunks bytes (pieces.length + fuel) front.length st =
      readChunks bytes fuel (front ++ pieces.flatMap Piece.bytes).length
        { st with parts := st.parts ++ imageData pieces } := by
  induction pieces generalizing front st with
  | nil => simp [imageData]
  | cons piece pieces ih =>
    have hstep : chunkStep bytes front.length piece.type piece.data st =
        .ok { st with parts := st.parts ++ imageData [piece] } := by
      by_cases himage : piece.type = IDAT
      · have hother : IDAT ≠ IHDR := by decide
        simp [chunkStep, imageData, himage, hother]
      · simp [chunkStep, imageData, himage, piece.inner.1]
    have hfuel : (piece :: pieces).length + fuel = pieces.length + fuel + 1 := by
      simp only [List.length_cons]
      omega
    have hdata : imageData (piece :: pieces) = imageData [piece] ++ imageData pieces := by
      simp [imageData, List.filter_cons]
      split <;> rfl
    have hfirst : bytes = front ++ (chunk piece.type piece.data ++
        (pieces.flatMap Piece.bytes ++ rest)) := by
      rw [hbytes, List.flatMap_cons, Piece.bytes, List.append_assoc]
    have hnext : bytes = (front ++ chunk piece.type piece.data) ++
        (pieces.flatMap Piece.bytes ++ rest) := by
      rw [hfirst, List.append_assoc]
    rw [hfuel, readChunks_chunk _ st hfirst piece.length_type piece.length_data,
      if_neg piece.inner.2, hstep]
    simp only [Except.bind]
    rw [ih { st with parts := st.parts ++ imageData [piece] } hnext]
    simp [hdata, Piece.bytes]

/-- **The chunks of a file are read.** -/
theorem readChunks_file {width height : Nat} {color : UInt8} {pieces : List Piece}
    {trailing bytes : Bytes} (hbytes : bytes = file width height color pieces trailing)
    (hcolor : color = 2 ∨ color = 6) (hpositive : 1 ≤ width ∧ 1 ≤ height)
    (hpixels : width * height ≤ MAX_PIXELS) :
    readChunks bytes (bytes.length + 1) 8 .initial =
      .ok ⟨width, height, if color = 6 then 4 else 3, imageData pieces⟩ := by
  have hlength := length_pieces pieces
  obtain ⟨fuel, hfuel⟩ : ∃ fuel, bytes.length + 1 = (pieces.length + (fuel + 1)) + 1 := by
    refine ⟨bytes.length - pieces.length - 1, ?_⟩
    have : pieces.length + 1 ≤ bytes.length := by
      rw [hbytes, file]
      simp only [List.length_append, length_chunk (show IEND.length = 4 from rfl)]
      omega
    omega
  have hheader : (headerBytes width height color).length < 2 ^ 32 := by simp [headerBytes]
  have hend : bytes = (SIGNATURE ++ chunk IHDR (headerBytes width height color) ++
      pieces.flatMap Piece.bytes) ++ (chunk IEND [] ++ trailing) := by
    rw [hbytes, file]
    simp
  have hpieces : bytes = (SIGNATURE ++ chunk IHDR (headerBytes width height color)) ++
      (pieces.flatMap Piece.bytes ++ (chunk IEND [] ++ trailing)) := by
    rw [hbytes, file]
    simp
  rw [hfuel, show (8 : Nat) = SIGNATURE.length from rfl,
    readChunks_chunk (pieces.length + (fuel + 1)) .initial hbytes rfl hheader, if_neg (by decide)]
  simp only [chunkStep, if_pos, readHeader_headerBytes .initial hbytes hcolor hpositive hpixels,
    Except.bind]
  rw [readChunks_pieces (fuel + 1) _ hpieces, readChunks_chunk fuel _ hend rfl (by decide), if_pos rfl]
  rfl

/-! ## Every text of bytes -/

theorem readHeader_error {bytes data : Bytes} {offset : Nat} {st : PngState} {e : PngError}
    (h : readHeader bytes offset data st = .error e) :
    e = .unsupported ∨ e = .outOfRange ∧ bytes.length < offset + 16 := by
  unfold readHeader at h
  cases hwidth : getUint32 bytes (offset + 8) with
  | error e' =>
    obtain ⟨rfl, hlength⟩ := getUint32_error hwidth
    simp only [hwidth, bind, Except.bind, Except.error.injEq] at h
    exact .inr ⟨h.symm, by omega⟩
  | ok width =>
    cases hheight : getUint32 bytes (offset + 12) with
    | error e' =>
      obtain ⟨rfl, hlength⟩ := getUint32_error hheight
      simp only [hwidth, hheight, bind, Except.bind, Except.error.injEq] at h
      exact .inr ⟨h.symm, by omega⟩
    | ok height =>
      simp only [hwidth, hheight, bind, Except.bind] at h
      split at h
      · exact .inl (Except.error.inj h).symm
      · cases h

theorem uint32Bytes_of_getUint32 {bytes : Bytes} {offset n : Nat}
    (h : getUint32 bytes offset = .ok n) : subarray bytes offset (offset + 4) = uint32Bytes n := by
  unfold getUint32 at h
  split at h
  · next a b c d hpiece =>
    have ha := a.toNat_lt
    have hb := b.toNat_lt
    have hc := c.toNat_lt
    have hd := d.toNat_lt
    obtain rfl := Except.ok.inj h
    rw [hpiece, uint32Bytes]
    simp only [List.cons.injEq, ← UInt8.toNat_inj, UInt8.toNat_ofNat', and_true]
    refine ⟨?_, ?_, ?_, ?_⟩ <;> omega
  · cases h

/-- What a pass of the loop does with the chunk at `offset`. -/
theorem readChunks_cases {bytes : Bytes} {offset : Nat} (hoffset : offset + 12 ≤ bytes.length) :
    ∃ type data, type = subarray bytes (offset + 4) (offset + 8) ∧
      ∀ fuel st, readChunks bytes (fuel + 1) offset st = .error .truncated ∨
        readChunks bytes (fuel + 1) offset st = .error .crcMismatch ∨
        type.length = 4 ∧ data.length < 2 ^ 32 ∧ offset + 12 + data.length ≤ bytes.length ∧
          bytes.drop offset = chunk type data ++ bytes.drop (offset + 12 + data.length) ∧
          readChunks bytes (fuel + 1) offset st =
            if type = IEND then .ok st
            else (chunkStep bytes offset type data st).bind
              (readChunks bytes fuel (offset + 12 + data.length)) := by
  obtain ⟨length, hlt, hlength⟩ : ∃ n < 2 ^ 32, getUint32 bytes offset = .ok n :=
    exists_getUint32 (by omega)
  refine ⟨_, subarray bytes (offset + 8) (offset + 8 + length), rfl, fun fuel st => ?_⟩
  rw [readChunks, if_pos hoffset, hlength]
  simp only [bind, Except.bind]
  by_cases hfits : offset + 12 + length > bytes.length
  · exact .inl (if_pos hfits)
  · obtain ⟨crc, -, hcrc⟩ : ∃ n < 2 ^ 32, getUint32 bytes (offset + 8 + length) = .ok n :=
      exists_getUint32 (by omega)
    rw [if_neg hfits, hcrc]
    simp only [pure, Except.pure]
    by_cases hchecked : crc32 (subarray bytes (offset + 4) (offset + 8 + length)) ≠ crc
    · exact .inr (.inl (if_pos hchecked))
    · have hdata : (subarray bytes (offset + 8) (offset + 8 + length)).length = length := by
        simp only [subarray, List.length_take, List.length_drop]
        omega
      have htype : (subarray bytes (offset + 4) (offset + 8)).length = 4 := by
        simp only [subarray, List.length_take, List.length_drop]
        omega
      have hcontent : subarray bytes (offset + 4) (offset + 8 + length) =
          subarray bytes (offset + 4) (offset + 8) ++
            subarray bytes (offset + 8) (offset + 8 + length) := by
        have hcut : bytes.drop (offset + 4) =
            subarray bytes (offset + 4) (offset + 8) ++ bytes.drop (offset + 8) :=
          drop_eq_subarray (by omega)
        rw [subarray, hcut, List.take_append, htype, subarray, subarray]
        congr 1
        rw [List.take_of_length_le]
        simp only [List.length_take, List.length_drop]
        omega
      have hcut : bytes.drop offset = chunk (subarray bytes (offset + 4) (offset + 8))
          (subarray bytes (offset + 8) (offset + 8 + length)) ++ bytes.drop (offset + 12 + length) := by
        rw [chunk, ← hcontent, not_not.mp hchecked, hdata, ← uint32Bytes_of_getUint32 hlength,
          ← uint32Bytes_of_getUint32 hcrc]
        rw [drop_eq_subarray (show offset ≤ offset + 4 by omega),
          drop_eq_subarray (show offset + 4 ≤ offset + 8 by omega),
          drop_eq_subarray (show offset + 8 ≤ offset + 8 + length by omega),
          drop_eq_subarray (show offset + 8 + length ≤ offset + 8 + length + 4 by omega)]
        simp only [List.append_assoc]
        have hstop : offset + 8 + length + 4 = offset + 12 + length := by omega
        rw [hstop]
      rw [hdata]
      refine .inr (.inr ⟨htype, hlt, not_lt.mp hfits, hcut, ?_⟩)
      rw [if_neg hchecked]
      generalize subarray bytes (offset + 4) (offset + 8) = type
      by_cases hheader : type = IHDR
      · subst hheader
        rfl
      · by_cases himage : type = IDAT
        · subst himage
          rfl
        · simp only [chunkStep, if_neg hheader, if_neg himage]

/-- A chunk `IHDR` so short, and so near to the end, that the height would stand behind it. -/
def ShortHeader (bytes : Bytes) : Prop :=
  ∃ offset, offset + 12 ≤ bytes.length ∧ bytes.length < offset + 16 ∧
    subarray bytes (offset + 4) (offset + 8) = IHDR

/-- The state is as it was at first, or the image is within the limits. -/
def PngState.Fits (st : PngState) : Prop :=
  st.channels = 0 ∨ (st.channels = 3 ∨ st.channels = 4) ∧ 1 ≤ st.width ∧ 1 ≤ st.height ∧
    st.width * st.height ≤ MAX_PIXELS

/-- The header sets the image, within the limits. -/
theorem readHeader_spec {bytes data : Bytes} {offset : Nat} {st st' : PngState}
    (h : readHeader bytes offset data st = .ok st') : st'.Fits ∧ st'.parts = st.parts := by
  unfold readHeader at h
  cases hwidth : getUint32 bytes (offset + 8) with
  | error e => simp [hwidth, bind, Except.bind] at h
  | ok width =>
    cases hheight : getUint32 bytes (offset + 12) with
    | error e => simp [hwidth, hheight, bind, Except.bind] at h
    | ok height =>
      simp only [hwidth, hheight, bind, Except.bind] at h
      split at h
      · cases h
      · next hsupported =>
        simp only [not_or, not_lt, gt_iff_lt] at hsupported
        obtain rfl := Except.ok.inj h
        refine ⟨.inr ⟨?_, hsupported.2.2.2.1, hsupported.2.2.2.2.1, hsupported.2.2.2.2.2⟩, rfl⟩
        show (if _ then 4 else 3) = 3 ∨ (if _ then 4 else 3) = 4
        split
        · exact .inr rfl
        · exact .inl rfl

theorem fits_of_chunkStep {bytes type data : Bytes} {offset : Nat} {st st' : PngState}
    (hfits : st.Fits) (h : chunkStep bytes offset type data st = .ok st') : st'.Fits := by
  unfold chunkStep at h
  split at h
  · exact (readHeader_spec h).1
  · split at h
    · obtain rfl := Except.ok.inj h
      exact hfits
    · obtain rfl := Except.ok.inj h
      exact hfits

theorem chunkStep_error {bytes type data : Bytes} {offset : Nat} {st : PngState} {e : PngError}
    (h : chunkStep bytes offset type data st = .error e) :
    e = .unsupported ∨ e = .outOfRange ∧ type = IHDR ∧ bytes.length < offset + 16 := by
  unfold chunkStep at h
  split at h
  · next htype =>
    rcases readHeader_error h with he | ⟨he, hlength⟩
    · exact .inl he
    · exact .inr ⟨he, htype, hlength⟩
  · split at h <;> cases h

/-- What can come of the loop. -/
def Ends (bytes : Bytes) : Except PngError PngState → Prop
  | .ok st => st.Fits
  | .error e => e = .truncated ∨ e = .crcMismatch ∨ e = .unsupported ∨
      e = .outOfRange ∧ ShortHeader bytes

/-- **The loop over the chunks ends** on every text of bytes, and leaves it in one read only. -/
theorem ends_readChunks {bytes : Bytes} (fuel offset : Nat) (st : PngState) (hst : st.Fits)
    (hoffset : offset ≤ bytes.length) (hfuel : bytes.length < offset + 12 * fuel) :
    Ends bytes (readChunks bytes fuel offset st) := by
  induction fuel generalizing offset st with
  | zero => omega
  | succ fuel ih =>
    by_cases hmore : offset + 12 ≤ bytes.length
    · obtain ⟨type, data, htype, hpass⟩ := readChunks_cases hmore
      rcases hpass fuel st with h | h | ⟨-, -, hfits, -, h⟩
      · rw [h]
        exact .inl rfl
      · rw [h]
        exact .inr (.inl rfl)
      · rw [h]
        by_cases hend : type = IEND
        · rw [if_pos hend]
          exact hst
        · rw [if_neg hend]
          cases hstep : chunkStep bytes offset type data st with
          | error e =>
            rcases chunkStep_error hstep with rfl | ⟨rfl, rfl, hlength⟩
            · exact .inr (.inr (.inl rfl))
            · exact .inr (.inr (.inr ⟨rfl, offset, hmore, hlength, htype.symm⟩))
          | ok st' => exact ih _ st' (fits_of_chunkStep hst hstep) hfits (by omega)
    · rw [readChunks, if_neg hmore]
      exact hst

/-- The parts that a state gains from chunks. -/
def partsOf (chunks : List (Bytes × Bytes)) : List Bytes :=
  (chunks.filter (·.1 = IDAT)).map (·.2)

theorem parts_of_chunkStep {bytes type data : Bytes} {offset : Nat} {st st' : PngState}
    (h : chunkStep bytes offset type data st = .ok st') :
    st'.parts = st.parts ++ partsOf [(type, data)] := by
  unfold chunkStep at h
  split at h
  · next htype =>
    subst htype
    have hother : IHDR ≠ IDAT := by decide
    simp [(readHeader_spec h).2, partsOf, hother]
  · split at h
    · next htype =>
      obtain rfl := Except.ok.inj h
      simp [partsOf, htype]
    · next htype =>
      obtain rfl := Except.ok.inj h
      simp [partsOf, htype]

/-- **What is accepted is a file**: whole chunks with the right checksums, and what follows. -/
theorem chunks_of_readChunks {bytes : Bytes} (fuel offset : Nat) {st st' : PngState}
    (h : readChunks bytes fuel offset st = .ok st') :
    ∃ chunks tail, bytes.drop offset = chunks.flatMap (fun c => chunk c.1 c.2) ++ tail ∧
      st'.parts = st.parts ++ partsOf chunks := by
  induction fuel generalizing offset st with
  | zero => cases h
  | succ fuel ih =>
    by_cases hmore : offset + 12 ≤ bytes.length
    · obtain ⟨type, data, -, hpass⟩ := readChunks_cases hmore
      rcases hpass fuel st with herror | herror | ⟨-, -, -, hcut, hread⟩
      · rw [herror] at h
        cases h
      · rw [herror] at h
        cases h
      · rw [hread] at h
        by_cases hend : type = IEND
        · rw [if_pos hend] at h
          obtain rfl := Except.ok.inj h
          have hother : IEND ≠ IDAT := by decide
          exact ⟨[(type, data)], _, by simpa using hcut, by simp [partsOf, hend, hother]⟩
        · rw [if_neg hend] at h
          cases hstep : chunkStep bytes offset type data st with
          | error e =>
            rw [hstep] at h
            cases h
          | ok next =>
            rw [hstep] at h
            obtain ⟨chunks, tail, hchunks, hparts⟩ := ih _ h
            refine ⟨(type, data) :: chunks, tail, ?_, ?_⟩
            · rw [hcut, hchunks, List.flatMap_cons, List.append_assoc]
            · rw [hparts, parts_of_chunkStep hstep, List.append_assoc]
              congr 1
              simp [partsOf, List.filter_cons]
              split <;> rfl
    · rw [readChunks, if_neg hmore] at h
      obtain rfl := Except.ok.inj h
      exact ⟨[], bytes.drop offset, rfl, by simp [partsOf]⟩

end Mapae.Arcade
