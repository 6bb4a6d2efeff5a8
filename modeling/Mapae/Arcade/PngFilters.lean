import Mapae.Arcade.Png

/-!
# Images and their filters

An image is rows of bytes. A filter subtracts from each byte what it predicts from the byte on the
left, the one above and the one in the corner; the decoder adds it again.

* `unfilterRow_filterRow`: a row is read back, whatever its filter
* `readRows_filteredRows`: so are all rows, each with a filter of its own
* `filterRow_unfilterRow`: every row of bytes is what some row becomes
-/

namespace Mapae.Arcade

/-! ## The five filters -/

inductive Filter where
  | none
  | sub
  | up
  | average
  | paeth

namespace Filter

def code : Filter → UInt8
  | none => 0
  | sub => 1
  | up => 2
  | average => 3
  | paeth => 4

/-- What is predicted of a byte. -/
def predict (filter : Filter) (left above corner : UInt8) : UInt8 :=
  match filter with
  | none => 0
  | sub => left
  | up => above
  | average => UInt8.ofNat ((left.toNat + above.toNat) / 2)
  | paeth => Arcade.paeth left above corner

theorem code_le (filter : Filter) : ¬ filter.code > 4 := by
  cases filter <;> decide

/-- The known codes are those up to four. -/
theorem exists_code {code : UInt8} (h : ¬ code > 4) : ∃ filter : Filter, filter.code = code := by
  have hall : ∀ n : Fin 5, ∃ filter ∈ [none, sub, up, average, paeth],
      filter.code = UInt8.ofNat n := by decide
  have hle : code.toNat ≤ (4 : UInt8).toNat := UInt8.le_iff_toNat_le.mp (UInt8.not_lt.mp h)
  have hfour : (4 : UInt8).toNat = 4 := rfl
  obtain ⟨filter, -, hfilter⟩ := hall ⟨code.toNat, by omega⟩
  exact ⟨filter, hfilter.trans UInt8.ofNat_toNat⟩

theorem unfilterByte_sub (filter : Filter) (x a b c : UInt8) :
    unfilterByte filter.code (x - filter.predict a b c) a b c = x := by
  cases filter <;> simp [unfilterByte, code, predict]

theorem unfilterByte_code (filter : Filter) (x a b c : UInt8) :
    unfilterByte filter.code x a b c = x + filter.predict a b c := by
  cases filter <;> simp [unfilterByte, code, predict]

end Filter

/-! ## A row -/

section Rows

/-- A row as it is written. -/
def filterRow (channels : Nat) (filter : Filter) (previous line : Bytes) : Bytes :=
  line.mapIdx fun i x =>
    x - filter.predict (before channels line i) (previous.getD i 0) (before channels previous i)

variable {channels : Nat} {filter : Filter} {previous line : Bytes}

@[simp] theorem length_filterRow : (filterRow channels filter previous line).length = line.length :=
  List.length_mapIdx

/-- The byte on the left is set before it is needed. -/
theorem before_take (hchannels : 0 < channels) (i : Nat) :
    before channels (line.take i) i = before channels line i := by
  unfold before
  split
  · next h =>
    rw [List.getD_eq_getElem?_getD, List.getD_eq_getElem?_getD, List.getElem?_take,
      if_pos (by omega)]
  · rfl

/-- **A row is read back**, whatever its filter. -/
theorem unfilterRow_filterRow (hchannels : 0 < channels) :
    unfilterRow channels filter.code previous [] (filterRow channels filter previous line) =
      line := by
  -- what is left is undone, where what was set so far is the row up to there
  have hrun : ∀ left i, i + left = line.length →
      unfilterRow channels filter.code previous (line.take i)
        ((filterRow channels filter previous line).drop i) = line := by
    intro left
    induction left with
    | zero =>
      intro i hi
      rw [List.drop_of_length_le (by simp; omega), unfilterRow, List.take_of_length_le (by omega)]
    | succ left ih =>
      intro i hi
      have hlt : i < line.length := by omega
      have hlt' : i < (filterRow channels filter previous line).length := by simpa using hlt
      have hbyte : (filterRow channels filter previous line)[i] =
          (line)[i] - filter.predict (before channels line i) (previous.getD i 0)
            (before channels previous i) := by
        simp [filterRow]
      rw [List.drop_eq_getElem_cons hlt', unfilterRow, hbyte]
      simp only [List.length_take, min_eq_left hlt.le, before_take hchannels,
        Filter.unfilterByte_sub]
      rw [List.take_append_getElem]
      exact ih (i + 1) (by omega)
  have := hrun line.length 0 (by omega)
  simpa using this

theorem length_unfilterRow (code : UInt8) (row : Bytes) :
    (unfilterRow channels code previous line row).length = line.length + row.length := by
  induction row generalizing line with
  | nil => rfl
  | cons x row ih =>
    rw [unfilterRow, ih]
    simp
    omega

/-- A row is set from the left. -/
theorem take_unfilterRow (code : UInt8) (row : Bytes) :
    (unfilterRow channels code previous line row).take line.length = line := by
  induction row generalizing line with
  | nil => exact List.take_length
  | cons x row ih =>
    rw [unfilterRow]
    generalize unfilterByte code x (before channels line line.length)
      (previous.getD line.length 0) (before channels previous line.length) = byte
    have hnext : (unfilterRow channels code previous (line ++ [byte]) row).take
        (line ++ [byte]).length = line ++ [byte] := ih
    have := congrArg (List.take line.length) hnext
    simpa [List.take_take] using this

/-- **Every row of bytes is what some row becomes.** -/
theorem filterRow_unfilterRow (hchannels : 0 < channels) (row : Bytes) :
    filterRow channels filter previous (unfilterRow channels filter.code previous [] row) = row := by
  -- the byte set at `line.length` is what is left of `row` with its prediction added
  have hrun : ∀ row line : Bytes,
      (filterRow channels filter previous (unfilterRow channels filter.code previous line row)).drop
        line.length = row := by
    intro row
    induction row with
    | nil =>
      intro line
      exact List.drop_of_length_le (by simp [unfilterRow])
    | cons x row ih =>
      intro line
      have hlast : unfilterByte filter.code x (before channels line line.length)
          (previous.getD line.length 0) (before channels previous line.length) = x + filter.predict
            (before channels line line.length) (previous.getD line.length 0)
            (before channels previous line.length) := filter.unfilterByte_code _ _ _ _
      rw [unfilterRow, hlast]
      generalize hbyte : x + filter.predict (before channels line line.length)
        (previous.getD line.length 0) (before channels previous line.length) = byte
      generalize hfull : unfilterRow channels filter.code previous (line ++ [byte]) row = full
      have hrow := ih (line ++ [byte])
      have htake : (unfilterRow channels filter.code previous (line ++ [byte]) row).take
          (line ++ [byte]).length = line ++ [byte] := take_unfilterRow filter.code row
      rw [hfull] at hrow htake
      have hlength : full.length = line.length + 1 + row.length := by
        rw [← hfull, length_unfilterRow]
        simp
      have hlt : line.length < (filterRow channels filter previous full).length := by
        rw [length_filterRow]
        omega
      have hget : full[line.length]? = some byte := by
        have := congrArg (·[line.length]?) htake
        simpa [List.getElem?_take] using this
      have hline : full.take line.length = line := by
        have := congrArg (List.take line.length) htake
        simpa [List.take_take] using this
      have hfirst : (filterRow channels filter previous full)[line.length] = x := by
        have hleft : before channels full line.length = before channels line line.length := by
          rw [← before_take hchannels, hline]
        have hgetElem : full[line.length] = byte := by
          rw [List.getElem?_eq_getElem (by omega)] at hget
          exact Option.some.inj hget
        simp only [filterRow, List.getElem_mapIdx, hleft, hgetElem, ← hbyte]
        simp
      rw [List.drop_eq_getElem_cons hlt, hfirst]
      rw [List.length_append, List.length_singleton] at hrow
      rw [hrow]
  simpa using hrun row []

end Rows

/-! ## An image -/

/-- The rows of an image in bytes of three or four channels. -/
structure Image where
  width : Nat
  height : Nat
  /-- With an alpha channel, or opaque. -/
  alpha : Bool
  rows : List Bytes
  positive : 1 ≤ width ∧ 1 ≤ height
  pixels : width * height ≤ MAX_PIXELS
  length_rows : rows.length = height
  length_row : ∀ row ∈ rows, row.length = width * (if alpha then 4 else 3)

namespace Image

def channels (image : Image) : Nat := if image.alpha then 4 else 3

/-- The colour type of the header. -/
def color (image : Image) : UInt8 := if image.alpha then 6 else 2

def stride (image : Image) : Nat := image.width * image.channels

end Image

/-- A row of opaque pixels with its alpha. -/
def opaqueRow : Bytes → Bytes
  | r :: g :: b :: rest => r :: g :: b :: 255 :: opaqueRow rest
  | _ => []

/-- The bitmap of an image. -/
def Image.bitmap (image : Image) : Bitmap where
  width := image.width
  height := image.height
  data := image.rows.flatMap fun row => if image.alpha then row else opaqueRow row

/-- Rows as they are written, the `y`-th with the filter that is chosen for it. -/
def filteredRows (channels : Nat) (choice : Nat → Filter) : Nat → Bytes → List Bytes → Bytes
  | _, _, [] => []
  | y, previous, line :: rows =>
    (choice y).code :: filterRow channels (choice y) previous line ++
      filteredRows channels choice (y + 1) line rows

/-- What is deflated of an image. -/
def Image.filtered (image : Image) (choice : Nat → Filter) : Bytes :=
  filteredRows image.channels choice 0 (List.replicate image.stride 0) image.rows

/-! ## All rows -/

theorem length_filteredRows {channels stride : Nat} {choice : Nat → Filter} {rows : List Bytes}
    (h : ∀ row ∈ rows, row.length = stride) (y : Nat) (previous : Bytes) :
    (filteredRows channels choice y previous rows).length = (stride + 1) * rows.length := by
  induction rows generalizing y previous with
  | nil => rfl
  | cons line rows ih =>
    rw [filteredRows, List.length_append, ih fun row hrow => h row (List.mem_cons_of_mem _ hrow)]
    simp only [List.length_cons, length_filterRow, h line List.mem_cons_self]
    ring

/-- Only the choices for the rows that are left count. -/
theorem filteredRows_congr {channels : Nat} {choice choice' : Nat → Filter} {y : Nat}
    (h : ∀ n, y ≤ n → choice n = choice' n) (previous : Bytes) (rows : List Bytes) :
    filteredRows channels choice y previous rows = filteredRows channels choice' y previous rows := by
  induction rows generalizing y previous with
  | nil => rfl
  | cons line rows ih =>
    rw [filteredRows, filteredRows, h y le_rfl, ih fun n hn => h n (by omega)]

/-- A piece of a text is read where it stands. -/
theorem subarray_append {front piece rest : Bytes} {stop : Nat}
    (h : stop = front.length + piece.length) :
    subarray (front ++ (piece ++ rest)) front.length stop = piece := by
  subst h
  simp [subarray]

/-- **All rows are read back**, each with a filter of its own. -/
theorem readRows_filteredRows {width channels : Nat} (hchannels : 0 < channels)
    {choice : Nat → Filter} {raw front : Bytes} {y : Nat} {previous data : Bytes} {rows : List Bytes}
    (hrows : ∀ row ∈ rows, row.length = width * channels)
    (hraw : raw = front ++ filteredRows channels choice y previous rows)
    (hfront : front.length = y * (width * channels + 1)) :
    readRows width channels raw rows.length y previous data =
      .ok (data ++ rows.flatMap (rgba width channels)) := by
  induction rows generalizing front y previous data with
  | nil => simp [readRows]
  | cons line rows ih =>
    have hline := hrows line List.mem_cons_self
    have hrow : subarray raw (y * (width * channels + 1) + 1) ((y + 1) * (width * channels + 1)) =
        filterRow channels (choice y) previous line := by
      have hsplit : raw = (front ++ [(choice y).code]) ++ (filterRow channels (choice y) previous line ++
          filteredRows channels choice (y + 1) line rows) := by
        rw [hraw, filteredRows]
        simp
      have hstart : y * (width * channels + 1) + 1 = (front ++ [(choice y).code]).length := by
        simp [hfront]
      rw [hsplit, hstart]
      refine subarray_append ?_
      rw [length_filterRow, hline, ← hstart]
      ring
    have hcode : raw.getD (y * (width * channels + 1)) 0 = (choice y).code := by
      rw [hraw, filteredRows, ← hfront]
      simp [List.getD_eq_getElem?_getD]
    have hrest : raw = (front ++ (choice y).code :: filterRow channels (choice y) previous line) ++
        filteredRows channels choice (y + 1) line rows := by
      rw [hraw, filteredRows]
      simp
    have hnext : readRows width channels raw rows.length (y + 1) line
        (data ++ rgba width channels line) =
          .ok (data ++ rgba width channels line ++ rows.flatMap (rgba width channels)) :=
      ih (fun row hmem => hrows row (List.mem_cons_of_mem _ hmem)) hrest
        (by simp [hfront, hline]; ring)
    simp only [List.length_cons, readRows, hrow, hcode, unfilterRow_filterRow hchannels,
      if_neg (choice y).code_le, hnext]
    simp

/-- A text is cut where it is read. -/
theorem drop_eq_subarray {bytes : Bytes} {start stop : Nat} (h : start ≤ stop) :
    bytes.drop start = subarray bytes start stop ++ bytes.drop stop := by
  have hstop : bytes.drop stop = (bytes.drop start).drop (stop - start) := by
    rw [List.drop_drop, Nat.add_sub_cancel' h]
  rw [hstop, subarray, List.take_append_drop]

/-- **Rows that are read are those of some image.** -/
theorem exists_rows_of_readRows {width channels : Nat} (hchannels : 0 < channels) {raw : Bytes}
    {rows y : Nat} {previous data out : Bytes}
    (hraw : raw.length = (y + rows) * (width * channels + 1))
    (h : readRows width channels raw rows y previous data = .ok out) :
    ∃ (choice : Nat → Filter) (lines : List Bytes), lines.length = rows ∧
      (∀ line ∈ lines, line.length = width * channels) ∧
      raw.drop (y * (width * channels + 1)) = filteredRows channels choice y previous lines ∧
      out = data ++ lines.flatMap (rgba width channels) := by
  induction rows generalizing y previous data with
  | zero =>
    obtain rfl := Except.ok.inj h
    exact ⟨fun _ => .none, [], rfl, by simp, List.drop_of_length_le (by rw [hraw]; simp), by simp⟩
  | succ rows ih =>
    simp only [readRows] at h
    split at h
    · cases h
    · next hknown =>
      obtain ⟨filter, hfilter⟩ := Filter.exists_code hknown
      have hend : (y + 1) * (width * channels + 1) =
          y * (width * channels + 1) + 1 + width * channels := by ring
      have hle : (y + 1) * (width * channels + 1) ≤ raw.length :=
        hraw ▸ Nat.mul_le_mul_right _ (by omega)
      generalize hrow : subarray raw (y * (width * channels + 1) + 1)
        ((y + 1) * (width * channels + 1)) = row at h
      have hlength : row.length = width * channels := by
        rw [← hrow, subarray, List.length_take, List.length_drop]
        omega
      rw [← hfilter] at h
      generalize hline : unfilterRow channels filter.code previous [] row = line at h
      obtain ⟨choice, lines, hlines, hlengths, hdrop, hout⟩ :=
        ih (by rw [hraw]; congr 1; omega) h
      have hfirst : raw.drop (y * (width * channels + 1)) =
          filter.code :: (row ++ raw.drop ((y + 1) * (width * channels + 1))) := by
        have hlt : y * (width * channels + 1) < raw.length := by omega
        have hcode : raw[y * (width * channels + 1)] = filter.code := by
          rw [hfilter, List.getD_eq_getElem?_getD, List.getElem?_eq_getElem hlt, Option.getD_some]
        have hcut : raw.drop (y * (width * channels + 1) + 1) =
            subarray raw (y * (width * channels + 1) + 1) ((y + 1) * (width * channels + 1)) ++
              raw.drop ((y + 1) * (width * channels + 1)) := drop_eq_subarray (by omega)
        rw [List.drop_eq_getElem_cons hlt, hcode, hcut, hrow]
      refine ⟨fun n => if n = y then filter else choice n, line :: lines, by simp [hlines], ?_, ?_, ?_⟩
      · intro other hother
        rcases List.mem_cons.mp hother with rfl | hother
        · rw [← hline, length_unfilterRow, hlength]
          simp
        · exact hlengths other hother
      · have hrest : filteredRows channels choice (y + 1) line lines =
            filteredRows channels (fun n => if n = y then filter else choice n) (y + 1) line lines :=
          filteredRows_congr (fun n hn => (if_neg (by omega)).symm) line lines
        have hfiltered : filterRow channels filter previous line = row := by
          rw [← hline]
          exact filterRow_unfilterRow hchannels row
        rw [hfirst, hdrop, filteredRows, if_pos rfl, hfiltered, hrest]
        rfl
      · rw [hout, List.flatMap_cons, List.append_assoc]

/-- A pixel and the rest of its row. -/
theorem exists_pixel {width : Nat} {row : Bytes} (h : row.length = (width + 1) * 3) :
    ∃ r g b rest, row = r :: g :: b :: rest ∧ rest.length = width * 3 := by
  rcases row with _ | ⟨r, _ | ⟨g, _ | ⟨b, rest⟩⟩⟩
  · simp at h
  · simp at h
    omega
  · simp at h
    omega
  · refine ⟨r, g, b, rest, rfl, ?_⟩
    simp only [List.length_cons] at h
    omega

/-- The decoder adds the alpha of opaque pixels. -/
theorem rgba_three {width : Nat} {row : Bytes} (h : row.length = width * 3) :
    rgba width 3 row = opaqueRow row := by
  show (List.range width).flatMap _ = opaqueRow row
  induction width generalizing row with
  | zero =>
    obtain rfl : row = [] := List.length_eq_zero_iff.mp (by omega)
    rfl
  | succ width ih =>
    obtain ⟨r, g, b, rest, rfl, hrest⟩ := exists_pixel h
    rw [List.range_succ_eq_map, List.flatMap_cons, List.flatMap_map, opaqueRow, ← ih hrest]
    simp only [Nat.succ_eq_add_one, Nat.add_mul, Nat.one_mul]
    rfl

namespace Image

variable (image : Image)

theorem channels_pos : 0 < image.channels := by
  unfold channels
  split <;> decide

theorem length_row' : ∀ row ∈ image.rows, row.length = image.stride := image.length_row

/-- **An image is read back from its filtered rows.** -/
theorem readRows_filtered (choice : Nat → Filter) :
    readRows image.width image.channels (image.filtered choice) image.height 0
      (List.replicate image.stride 0) [] = .ok image.bitmap.data := by
  have hread : readRows image.width image.channels (image.filtered choice) image.rows.length 0
      (List.replicate image.stride 0) [] =
        .ok ([] ++ image.rows.flatMap (rgba image.width image.channels)) :=
    readRows_filteredRows image.channels_pos image.length_row (List.nil_append _).symm (by simp)
  rw [image.length_rows] at hread
  refine hread.trans (congrArg Except.ok ?_)
  rw [List.nil_append]
  refine List.flatMap_congr fun row hrow => ?_
  have hlength := image.length_row row hrow
  cases halpha : image.alpha with
  | true => simp [channels, halpha, rgba]
  | false =>
    rw [halpha] at hlength
    simpa [channels, halpha] using rgba_three hlength

theorem length_filtered (choice : Nat → Filter) :
    (image.filtered choice).length = (image.width * image.channels + 1) * image.height := by
  rw [filtered, length_filteredRows image.length_row', image.length_rows]
  rfl

end Image

end Mapae.Arcade
