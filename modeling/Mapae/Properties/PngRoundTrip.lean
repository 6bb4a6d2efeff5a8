import Mathlib.Data.List.GetD
import Mapae.Arcade.PngChunks

/-!
# The PNG codec is lossless

What `encodePng` writes is one of the files that `decodePng` reads: the header, one chunk of image
data and the end. The decoder reads more: both colour types, any filter for each row, image data in
any number of chunks, with others between them.

* `Lossless`: what the codec promises for images of one pixel to two million
* `png_lossless`: that it keeps it
* `no_pixels`: a bitmap that is not read back, and a read behind the end
-/

namespace Mapae.Arcade

/-! ## Bitmaps without transparency -/

namespace Bitmap

/-- Four bytes for each pixel. -/
def Full (bitmap : Bitmap) : Prop := bitmap.data.length = bitmap.height * (bitmap.width * 4)

/-- No pixel is transparent. -/
def Opaque (bitmap : Bitmap) : Prop :=
  ∀ i < bitmap.height * bitmap.width, bitmap.data[i * 4 + 3]? = some 255

/-- At least one pixel and at most two million. -/
def Fits (bitmap : Bitmap) : Prop :=
  1 ≤ bitmap.width ∧ 1 ≤ bitmap.height ∧ bitmap.width * bitmap.height ≤ MAX_PIXELS

/-- The bytes of the `y`-th row. -/
def row (bitmap : Bitmap) (y : Nat) : Bytes :=
  (bitmap.data.drop (y * (bitmap.width * 4))).take (bitmap.width * 4)

end Bitmap

/-- The three colours of each pixel. -/
def colours : Bytes → Bytes
  | r :: g :: b :: _ :: rest => r :: g :: b :: colours rest
  | _ => []

/-- A pixel with its alpha and the rest of its row. -/
theorem exists_pixel_alpha {width : Nat} {row : Bytes} (h : row.length = (width + 1) * 4) :
    ∃ r g b a rest, row = r :: g :: b :: a :: rest ∧ rest.length = width * 4 := by
  rcases row with _ | ⟨r, _ | ⟨g, _ | ⟨b, _ | ⟨a, rest⟩⟩⟩⟩
  iterate 4
    · simp at h
      try omega
  · refine ⟨r, g, b, a, rest, rfl, ?_⟩
    simp only [List.length_cons] at h
    omega

theorem length_colours {width : Nat} {row : Bytes} (h : row.length = width * 4) :
    (colours row).length = width * 3 := by
  induction width generalizing row with
  | zero =>
    obtain rfl : row = [] := List.length_eq_zero_iff.mp (by omega)
    rfl
  | succ width ih =>
    obtain ⟨r, g, b, a, rest, rfl, hrest⟩ := exists_pixel_alpha h
    simp only [colours, List.length_cons, ih hrest]
    omega

theorem getElem?_colours {width : Nat} {row : Bytes} (h : row.length = width * 4) {x k : Nat}
    (hx : x < width) (hk : k < 3) : (colours row)[x * 3 + k]? = row[x * 4 + k]? := by
  induction width generalizing row x with
  | zero => omega
  | succ width ih =>
    obtain ⟨r, g, b, a, rest, rfl, hrest⟩ := exists_pixel_alpha h
    cases x with
    | zero => match k, hk with | 0, _ | 1, _ | 2, _ => rfl
    | succ x =>
      have hleft : (x + 1) * 3 + k = x * 3 + k + 3 := by omega
      have hright : (x + 1) * 4 + k = x * 4 + k + 4 := by omega
      rw [hleft, hright, colours]
      exact ih hrest (by omega)

/-- **Nothing but the alpha is lost.** -/
theorem opaqueRow_colours {width : Nat} {row : Bytes} (h : row.length = width * 4)
    (halphas : ∀ x < width, row[x * 4 + 3]? = some 255) : opaqueRow (colours row) = row := by
  induction width generalizing row with
  | zero =>
    obtain rfl : row = [] := List.length_eq_zero_iff.mp (by omega)
    rfl
  | succ width ih =>
    obtain ⟨r, g, b, a, rest, rfl, hrest⟩ := exists_pixel_alpha h
    have ha : a = 255 := by simpa using halphas 0 (by omega)
    have hnext : ∀ x < width, rest[x * 4 + 3]? = some 255 := by
      intro x hx
      have hright : (x + 1) * 4 + 3 = x * 4 + 3 + 4 := by omega
      have := halphas (x + 1) (by omega)
      rw [hright] at this
      exact this
    rw [colours, opaqueRow, ih hrest hnext, ha]

variable {bitmap : Bitmap}

theorem length_row (hfull : bitmap.Full) {y : Nat} (hy : y < bitmap.height) :
    (bitmap.row y).length = bitmap.width * 4 := by
  have hle : (y + 1) * (bitmap.width * 4) ≤ bitmap.data.length :=
    hfull ▸ Nat.mul_le_mul_right _ hy
  rw [Nat.add_mul, Nat.one_mul] at hle
  rw [Bitmap.row, List.length_take, List.length_drop]
  omega

theorem getElem?_row {y i : Nat} (hi : i < bitmap.width * 4) :
    (bitmap.row y)[i]? = bitmap.data[y * (bitmap.width * 4) + i]? := by
  rw [Bitmap.row, List.getElem?_take, if_pos hi, List.getElem?_drop]

/-- The rows are the data. -/
theorem flatMap_row (hfull : bitmap.Full) :
    (List.range bitmap.height).flatMap bitmap.row = bitmap.data := by
  have hrun : ∀ n, (List.range n).flatMap bitmap.row = bitmap.data.take (n * (bitmap.width * 4)) := by
    intro n
    induction n with
    | zero => simp
    | succ n ih =>
      rw [List.range_succ, List.flatMap_append, ih, Nat.add_mul, Nat.one_mul, List.take_add]
      simp [Bitmap.row]
  rw [hrun, ← hfull, List.take_length]

/-! ## What is encoded -/

/-- The image of the colours of a bitmap. -/
def Bitmap.image (bitmap : Bitmap) (hfull : bitmap.Full) (hfits : bitmap.Fits) : Image where
  width := bitmap.width
  height := bitmap.height
  alpha := false
  rows := (List.range bitmap.height).map fun y => colours (bitmap.row y)
  positive := ⟨hfits.1, hfits.2.1⟩
  pixels := hfits.2.2
  length_rows := by simp
  length_row := by
    intro row hrow
    obtain ⟨y, hy, rfl⟩ := List.mem_map.mp hrow
    exact length_colours (length_row hfull (List.mem_range.mp hy))

/-- **An opaque bitmap is the bitmap of its image.** -/
theorem bitmap_image (hfull : bitmap.Full) (hfits : bitmap.Fits) (halphas : bitmap.Opaque) :
    (bitmap.image hfull hfits).bitmap = bitmap := by
  have hrows : ∀ y ∈ List.range bitmap.height, opaqueRow (colours (bitmap.row y)) = bitmap.row y := by
    intro y hy
    have hlt := List.mem_range.mp hy
    refine opaqueRow_colours (length_row hfull hlt) fun x hx => ?_
    have hle : (y + 1) * bitmap.width ≤ bitmap.height * bitmap.width := Nat.mul_le_mul_right _ hlt
    rw [Nat.add_mul, Nat.one_mul] at hle
    have halpha := halphas (y * bitmap.width + x) (by omega)
    rw [getElem?_row (by omega)]
    rw [← halpha]
    congr 1
    ring
  have hdata : (bitmap.image hfull hfits).rows.flatMap opaqueRow = bitmap.data := by
    show ((List.range bitmap.height).map fun y => colours (bitmap.row y)).flatMap opaqueRow = _
    rw [List.flatMap_map, List.flatMap_congr hrows, flatMap_row hfull]
  show Bitmap.mk bitmap.width bitmap.height _ = bitmap
  simp only [Bitmap.image, Bool.false_eq_true, if_false] at hdata ⊢
  rw [hdata]

/-- The Sub filter of a row, as the encoder computes it from the data. -/
theorem flatMap_difference (hfull : bitmap.Full) {y : Nat} (hy : y < bitmap.height)
    (previous : Bytes) :
    (List.range bitmap.width).flatMap (fun x =>
        (List.range 3).map fun k =>
          difference bitmap.data[y * bitmap.width * 4 + x * 4 + k]?
            (if x = 0 then some 0 else bitmap.data[y * bitmap.width * 4 + x * 4 + k - 4]?)) =
      filterRow 3 .sub previous (colours (bitmap.row y)) := by
  have hrow := length_row hfull hy
  have hline := length_colours hrow
  generalize hcolours : colours (bitmap.row y) = line at hline ⊢
  have hget : ∀ x < bitmap.width, ∀ k < 3,
      bitmap.data[y * bitmap.width * 4 + x * 4 + k]? = (line)[x * 3 + k]? := by
    intro x hx k hk
    rw [← hcolours, getElem?_colours hrow hx hk, getElem?_row (by omega), ← Nat.mul_assoc,
      Nat.add_assoc]
  -- pixel by pixel, where the byte on the left is that of the pixel before
  have hrun : ∀ n ≤ bitmap.width,
      (List.range n).flatMap (fun x =>
        (List.range 3).map fun k =>
          difference bitmap.data[y * bitmap.width * 4 + x * 4 + k]?
            (if x = 0 then some 0 else bitmap.data[y * bitmap.width * 4 + x * 4 + k - 4]?)) =
        (line.take (n * 3)).mapIdx fun i x => x - before 3 line i := by
    intro n hn
    induction n with
    | zero => simp
    | succ n ih =>
      have hbyte : ∀ k < 3,
          difference bitmap.data[y * bitmap.width * 4 + n * 4 + k]?
            (if n = 0 then some 0 else bitmap.data[y * bitmap.width * 4 + n * 4 + k - 4]?) =
          line.getD (n * 3 + k) 0 - before 3 line (n * 3 + k) := by
        intro k hk
        have hlt : n * 3 + k < line.length := by omega
        rw [hget n (by omega) k hk, List.getElem?_eq_getElem hlt, List.getD_eq_getElem _ _ hlt]
        cases n with
        | zero =>
          rw [if_pos rfl, before, if_neg (by omega)]
          rfl
        | succ m =>
          have hsub : y * bitmap.width * 4 + (m + 1) * 4 + k - 4 =
              y * bitmap.width * 4 + m * 4 + k := by omega
          have hlt' : m * 3 + k < line.length := by omega
          have hleft : (m + 1) * 3 + k - 3 = m * 3 + k := by omega
          rw [if_neg (Nat.succ_ne_zero m), hsub, hget m (by omega) k hk,
            List.getElem?_eq_getElem hlt', before, if_pos (by omega), hleft,
            List.getD_eq_getElem _ _ hlt']
          rfl
      have hpixel : (line.drop (n * 3)).take 3 =
          [line.getD (n * 3) 0, line.getD (n * 3 + 1) 0, line.getD (n * 3 + 2) 0] := by
        rw [List.drop_eq_getElem_cons (by omega), List.drop_eq_getElem_cons (by omega),
          List.drop_eq_getElem_cons (by omega)]
        rw [List.getD_eq_getElem _ _ (by omega), List.getD_eq_getElem _ _ (by omega),
          List.getD_eq_getElem _ _ (by omega)]
        rfl
      have hlength : (line.take (n * 3)).length = n * 3 := by
        rw [List.length_take]
        omega
      rw [List.range_succ (n := n), List.flatMap_append, ih (by omega), Nat.add_mul, Nat.one_mul,
        List.take_add, hpixel, List.mapIdx_append, hlength]
      congr 1
      rw [List.flatMap_singleton, List.map_congr_left fun k hk => hbyte k (List.mem_range.mp hk)]
      simp [List.range_succ, Nat.add_comm]
  have hall := hrun bitmap.width le_rfl
  rw [List.take_of_length_le (by omega)] at hall
  exact hall

/-- **What is deflated is the image with the Sub filter in every row.** -/
theorem filtered_image (hfull : bitmap.Full) (hfits : bitmap.Fits) :
    filtered bitmap = (bitmap.image hfull hfits).filtered fun _ => .sub := by
  have hrun : ∀ ys : List Nat, (∀ y ∈ ys, y < bitmap.height) → ∀ first previous,
      ys.flatMap (fun y =>
        1 :: (List.range bitmap.width).flatMap fun x =>
          (List.range 3).map fun k =>
            difference bitmap.data[y * bitmap.width * 4 + x * 4 + k]?
              (if x = 0 then some 0 else bitmap.data[y * bitmap.width * 4 + x * 4 + k - 4]?)) =
        filteredRows 3 (fun _ => .sub) first previous (ys.map fun y => colours (bitmap.row y)) := by
    intro ys hys
    induction ys with
    | nil => intros; rfl
    | cons y ys ih =>
      intro first previous
      have hrow := flatMap_difference hfull (hys y List.mem_cons_self) previous
      have hrest := ih (fun y hy => hys y (List.mem_cons_of_mem _ hy)) (first + 1)
        (colours (bitmap.row y))
      rw [List.flatMap_cons, List.map_cons, filteredRows, hrest, hrow]
      rfl
  exact hrun (List.range bitmap.height) (fun y hy => List.mem_range.mp hy) 0 _

theorem length_filtered_le (hfull : bitmap.Full) (hfits : bitmap.Fits) :
    (filtered bitmap).length ≤ 4 * MAX_PIXELS := by
  rw [filtered_image hfull hfits, Image.length_filtered]
  show (bitmap.width * 3 + 1) * bitmap.height ≤ _
  calc (bitmap.width * 3 + 1) * bitmap.height
      ≤ (bitmap.width * 3 + bitmap.width) * bitmap.height :=
        Nat.mul_le_mul_right _ (Nat.add_le_add_left hfits.1 _)
    _ = 4 * (bitmap.width * bitmap.height) := by ring
    _ ≤ 4 * MAX_PIXELS := Nat.mul_le_mul_left _ hfits.2.2

/-! ## The codec -/

variable {zlib : Zlib}

/-- **A file is decoded to the image that its rows encode.** -/
theorem decodePng_file (image : Image) (choice : Nat → Filter) (pieces : List Piece)
    (trailing : Bytes)
    (hinflate : zlib.inflate (imageData pieces).flatten = some (image.filtered choice)) :
    decodePng zlib (file image.width image.height image.color pieces trailing) =
      .ok image.bitmap := by
  have hcolor : image.color = 2 ∨ image.color = 6 := by
    unfold Image.color
    split
    · exact .inr rfl
    · exact .inl rfl
  have hchannels : (if image.color = 6 then 4 else 3) = image.channels := by
    unfold Image.color Image.channels
    cases image.alpha <;> rfl
  generalize hbytes : file image.width image.height image.color pieces trailing = bytes
  have hread := readChunks_file hbytes.symm hcolor image.positive image.pixels
  have hparts : ¬ (image.channels = 0 ∨ imageData pieces = []) := by
    rintro (h | h)
    · exact absurd h image.channels_pos.ne'
    · rw [h, List.flatten_nil, zlib.inflate_nil] at hinflate
      cases hinflate
  have hsignature : ¬ (bytes.length < 33 ∨ bytes.take 8 ≠ SIGNATURE) := by
    rw [not_or, not_lt, not_not, ← hbytes]
    refine ⟨?_, rfl⟩
    rw [file]
    simp only [List.length_append, length_chunk (show IHDR.length = 4 from rfl), SIGNATURE,
      headerBytes, length_uint32Bytes, List.length_cons, List.length_nil]
    omega
  have hsize : ¬ (image.filtered choice).length ≠ (image.width * image.channels + 1) * image.height :=
    not_not.mpr (image.length_filtered choice)
  have hrows := image.readRows_filtered choice
  rw [Image.stride] at hrows
  simp only [decodePng, if_neg hsignature, hread, hchannels, bind, Except.bind, if_neg hparts,
    hinflate, Option.elim_some, pure, Except.pure, if_neg hsize, hrows]
  rfl

theorem encodePng_eq_file (hlength : (zlib.deflate (filtered bitmap)).length < 2 ^ 32) :
    encodePng zlib bitmap = file bitmap.width bitmap.height 2
      [⟨IDAT, zlib.deflate (filtered bitmap), rfl, hlength, by decide⟩] [] := by
  simp [encodePng, file, Piece.bytes]

/-- **What is encoded is decoded.** -/
theorem decodePng_encodePng (hfull : bitmap.Full) (hfits : bitmap.Fits) (halphas : bitmap.Opaque) :
    decodePng zlib (encodePng zlib bitmap) = .ok bitmap := by
  rw [encodePng_eq_file (zlib.length_deflate _ (length_filtered_le hfull hfits))]
  have hinflate : ∀ piece : Piece, piece.type = IDAT → piece.data = zlib.deflate (filtered bitmap) →
      zlib.inflate (imageData [piece]).flatten =
        some ((bitmap.image hfull hfits).filtered fun _ => .sub) := by
    intro piece htype hdata
    simp [imageData, htype, hdata, ← filtered_image hfull hfits, zlib.inflate_deflate]
  have hdecode := decodePng_file (bitmap.image hfull hfits) (fun _ => .sub) _ [] (hinflate
    ⟨IDAT, zlib.deflate (filtered bitmap), rfl,
      zlib.length_deflate _ (length_filtered_le hfull hfits), by decide⟩ rfl rfl)
  rw [bitmap_image hfull hfits halphas] at hdecode
  exact hdecode

/-! ## What is accepted -/

theorem readRows_error {width channels : Nat} {raw : Bytes} {rows y : Nat} {previous data : Bytes}
    {e : PngError} (h : readRows width channels raw rows y previous data = .error e) :
    e = .unknownFilter := by
  induction rows generalizing y previous data with
  | zero => cases h
  | succ rows ih =>
    simp only [readRows] at h
    split at h
    · exact (Except.error.inj h).symm
    · exact ih h

variable {bytes : Bytes}

/-- What the loop over the chunks leaves of a text of some length. -/
theorem ends_of_length (hlength : ¬ bytes.length < 33) :
    Ends bytes (readChunks bytes (bytes.length + 1) 8 .initial) :=
  ends_readChunks _ 8 .initial (.inl rfl) (by omega) (by omega)

/-- What can come of a text of bytes. -/
theorem decodePng_cases (zlib : Zlib) (bytes : Bytes) :
    (∃ e, decodePng zlib bytes = .error e ∧ e ≠ .unfinished ∧ e ≠ .outOfRange) ∨
    (∃ e, decodePng zlib bytes = .error e ∧ Ends bytes (.error e)) ∨
    bytes.take 8 = SIGNATURE ∧ ∃ st raw data,
      readChunks bytes (bytes.length + 1) 8 .initial = .ok st ∧ st.Fits ∧ st.channels ≠ 0 ∧
      zlib.inflate st.parts.flatten = some raw ∧
      raw.length = (st.width * st.channels + 1) * st.height ∧
      readRows st.width st.channels raw st.height 0
        (List.replicate (st.width * st.channels) 0) [] = .ok data ∧
      decodePng zlib bytes = .ok ⟨st.width, st.height, data⟩ := by
  unfold decodePng
  by_cases hsignature : bytes.length < 33 ∨ bytes.take 8 ≠ SIGNATURE
  · exact .inl ⟨.notPng, by rw [if_pos hsignature]; rfl, by simp, by simp⟩
  rw [if_neg hsignature]
  rw [not_or, not_not] at hsignature
  have hends := ends_of_length hsignature.1
  cases hread : readChunks bytes (bytes.length + 1) 8 .initial with
  | error e => exact .inr (.inl ⟨e, rfl, hread ▸ hends⟩)
  | ok st =>
    rw [hread] at hends
    simp only [bind, Except.bind, pure, Except.pure]
    by_cases hempty : st.channels = 0 ∨ st.parts = []
    · exact .inl ⟨.noImageData, by rw [if_pos hempty]; rfl, by simp, by simp⟩
    rw [if_neg hempty]
    cases hinflate : zlib.inflate st.parts.flatten with
    | none => exact .inl ⟨.inflate, rfl, by simp, by simp⟩
    | some raw =>
      simp only [Option.elim_some, Except.pure]
      by_cases hsize : raw.length ≠ (st.width * st.channels + 1) * st.height
      · exact .inl ⟨.sizeMismatch, by rw [if_pos hsize]; rfl, by simp, by simp⟩
      rw [if_neg hsize]
      cases hrows : readRows st.width st.channels raw st.height 0
          (List.replicate (st.width * st.channels) 0) [] with
      | error e =>
        obtain rfl := readRows_error hrows
        exact .inl ⟨.unknownFilter, rfl, by simp, by simp⟩
      | ok data =>
        exact .inr (.inr ⟨hsignature.2, st, raw, data, rfl, hends, (not_or.mp hempty).1, hinflate,
          not_not.mp hsize, hrows, rfl⟩)

theorem decodePng_error {e : PngError} (h : decodePng zlib bytes = .error e) :
    e ≠ .unfinished ∧ (e = .outOfRange → ShortHeader bytes) := by
  rcases decodePng_cases zlib bytes with ⟨e', he, hother⟩ | ⟨e', he, hends⟩ | ⟨-, _, _, _, -, -, -, -, -, -, he⟩
  · obtain rfl := Except.error.inj (h.symm.trans he)
    exact ⟨hother.1, fun hrange => absurd hrange hother.2⟩
  · obtain rfl := Except.error.inj (h.symm.trans he)
    rcases hends with rfl | rfl | rfl | ⟨rfl, hshort⟩
    · exact ⟨by simp, by simp⟩
    · exact ⟨by simp, by simp⟩
    · exact ⟨by simp, by simp⟩
    · exact ⟨by simp, fun _ => hshort⟩
  · rw [he] at h
    cases h

/-- **What is accepted is a file**, and the bitmap is that of the image its rows encode. -/
theorem decodePng_ok (h : decodePng zlib bytes = .ok bitmap) :
    ∃ (chunks : List (Bytes × Bytes)) (tail : Bytes) (image : Image) (choice : Nat → Filter),
      bytes = SIGNATURE ++ chunks.flatMap (fun c => chunk c.1 c.2) ++ tail ∧
      zlib.inflate (partsOf chunks).flatten = some (image.filtered choice) ∧ bitmap = image.bitmap := by
  rcases decodePng_cases zlib bytes with ⟨_, he, -⟩ | ⟨_, he, -⟩ |
    ⟨hsignature, st, raw, data, hread, hfits, hchannels, hinflate, hsize, hrows, hok⟩
  · rw [he] at h
    cases h
  · rw [he] at h
    cases h
  · obtain rfl := Except.ok.inj (h.symm.trans hok)
    obtain ⟨hlayout, hwidth, hheight, hpixels⟩ := Or.resolve_left hfits hchannels
    obtain ⟨chunks, tail, hchunks, hparts⟩ := chunks_of_readChunks _ 8 hread
    obtain ⟨choice, lines, hlines, hlengths, hdrop, -⟩ := exists_rows_of_readRows
      (Nat.pos_of_ne_zero hchannels) (by rw [hsize, Nat.zero_add, Nat.mul_comm]) hrows
    obtain ⟨image, himage⟩ : ∃ image : Image, image.width = st.width ∧ image.height = st.height ∧
        image.channels = st.channels ∧ image.rows = lines := by
      have halpha : (if decide (st.channels = 4) = true then 4 else 3) = st.channels := by
        rcases hlayout with h | h <;> rw [h] <;> rfl
      exact ⟨⟨st.width, st.height, decide (st.channels = 4), lines, ⟨hwidth, hheight⟩, hpixels,
        hlines, halpha.symm ▸ hlengths⟩, rfl, rfl, halpha, rfl⟩
    have hraw : raw = image.filtered choice := by
      rw [Nat.zero_mul, List.drop_zero] at hdrop
      rw [hdrop, Image.filtered, Image.stride, himage.1, himage.2.2.1, himage.2.2.2]
    refine ⟨chunks, tail, image, choice, ?_, ?_, ?_⟩
    · rw [List.append_assoc, ← hchunks, ← hsignature, List.take_append_drop]
    · rw [← hraw, ← hinflate, hparts]
      rfl
    · have hbitmap := image.readRows_filtered choice
      rw [← hraw, Image.stride, himage.1, himage.2.1, himage.2.2.1, hrows] at hbitmap
      rw [Except.ok.inj hbitmap, ← himage.1, ← himage.2.1]
      rfl

/-! ## The promise -/

/-- What the codec promises for images of one pixel to two million. -/
structure Lossless (zlib : Zlib) : Prop where
  /-- What is encoded is decoded. -/
  roundTrip : ∀ bitmap : Bitmap, bitmap.Full → bitmap.Fits → bitmap.Opaque →
    decodePng zlib (encodePng zlib bitmap) = .ok bitmap
  /-- Any filter for each row, any chunks, and anything behind the end. -/
  decodes : ∀ (image : Image) (choice : Nat → Filter) (pieces : List Piece) (trailing : Bytes),
    zlib.inflate (imageData pieces).flatten = some (image.filtered choice) →
      decodePng zlib (file image.width image.height image.color pieces trailing) = .ok image.bitmap
  /-- The loop over the chunks ends on every text of bytes. -/
  ends : ∀ bytes, decodePng zlib bytes ≠ .error .unfinished
  /-- No read leaves the bytes but that of the height of a header that ends them, which throws. -/
  inside : ∀ bytes, decodePng zlib bytes = .error .outOfRange → ShortHeader bytes
  /-- What does not throw is a file: whole chunks whose image data are the rows of an image. -/
  accepted : ∀ bytes bitmap, decodePng zlib bytes = .ok bitmap →
    ∃ (chunks : List (Bytes × Bytes)) (tail : Bytes) (image : Image) (choice : Nat → Filter),
      bytes = SIGNATURE ++ chunks.flatMap (fun c => chunk c.1 c.2) ++ tail ∧
      zlib.inflate (partsOf chunks).flatten = some (image.filtered choice) ∧ bitmap = image.bitmap

/-- **The PNG codec is lossless.** -/
theorem png_lossless (zlib : Zlib) : Lossless zlib where
  roundTrip _ hfull hfits halphas := decodePng_encodePng hfull hfits halphas
  decodes image choice pieces trailing := decodePng_file image choice pieces trailing
  ends _ h := (decodePng_error h).1 rfl
  inside _ h := (decodePng_error h).2 rfl
  accepted _ _ h := decodePng_ok h

/-! ## Two texts and what becomes of them -/

/-- A zlib that writes nothing and one opaque pixel as the real one does. -/
def sampleDeflate (raw : Bytes) : Bytes :=
  if raw = [] then [120, 156, 3, 0, 0, 0, 0, 1]
  else if raw = [1, 14, 12, 10] then [120, 156, 99, 228, 227, 225, 2, 0, 0, 84, 0, 38]
  else 0 :: raw

def sampleInflate (bytes : Bytes) : Option Bytes :=
  if bytes = [120, 156, 3, 0, 0, 0, 0, 1] then some []
  else if bytes = [120, 156, 99, 228, 227, 225, 2, 0, 0, 84, 0, 38] then some [1, 14, 12, 10]
  else match bytes with
    | 0 :: raw => some raw
    | _ => none

def sampleZlib : Zlib where
  deflate := sampleDeflate
  inflate := sampleInflate
  inflate_deflate raw := by
    unfold sampleDeflate
    split
    · next h =>
      subst h
      rfl
    · split
      · next h =>
        subst h
        rfl
      · simp [sampleInflate]
  inflate_nil := rfl
  length_deflate raw h := by
    have hmax : 4 * MAX_PIXELS < 2 ^ 32 - 1 := by decide
    unfold sampleDeflate
    split
    · decide
    · split
      · decide
      · rw [List.length_cons]
        omega

/-- A bitmap of one opaque pixel. -/
def pixel : Bitmap := ⟨1, 1, [14, 12, 10, 255]⟩

theorem png_lossless_pixel : decodePng sampleZlib (encodePng sampleZlib pixel) = .ok pixel := by
  refine (png_lossless sampleZlib).roundTrip pixel rfl ⟨by decide, by decide, by decide⟩ ?_
  intro i hi
  obtain rfl : i = 0 := Nat.lt_one_iff.mp hi
  rfl

/-- A chunk of text and a header without data. -/
def shortHeader : Bytes := SIGNATURE ++ chunk [116, 69, 88, 116] [46] ++ chunk IHDR []

/-- A bitmap without a pixel is encoded and not decoded, and the height of a header that ends the
bytes is read behind them. -/
theorem no_pixels :
    (⟨0, 0, []⟩ : Bitmap).Full ∧ (⟨0, 0, []⟩ : Bitmap).Opaque ∧
      decodePng sampleZlib (encodePng sampleZlib ⟨0, 0, []⟩) = .error .unsupported ∧
      decodePng sampleZlib shortHeader = .error .outOfRange := by
  refine ⟨rfl, ?_, by decide +kernel, by decide +kernel⟩
  intro i hi
  simp at hi

end Mapae.Arcade
