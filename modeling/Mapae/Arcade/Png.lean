import Mathlib.Data.List.Basic
import Mathlib.Tactic.Ring

/-!
# The PNG codec of the share card

8-bit RGB and RGBA, no interlace. The runtime's own zlib streams are a parameter. A read of the
`DataView` outside the bytes throws; a read of an array outside it gives nothing.

* `decodePng` reads the chunks, inflates the image data and undoes the filter of each row
* `encodePng` writes an opaque bitmap with the Sub filter
-/

namespace Mapae.Arcade

abbrev Bytes := List UInt8

/-- A width, a height and four bytes for each pixel, row by row. -/
structure Bitmap where
  width : Nat
  height : Nat
  data : Bytes
  deriving DecidableEq

def SIGNATURE : Bytes := [137, 80, 78, 71, 13, 10, 26, 10]

def MAX_PIXELS : Nat := 2000000

/-- Why a text of bytes is not decoded. -/
inductive PngError where
  | notPng
  | truncated
  | crcMismatch
  | unsupported
  | noImageData
  | sizeMismatch
  | unknownFilter
  /-- `getUint32` outside the bytes: a `RangeError`. -/
  | outOfRange
  /-- What the zlib stream refuses. -/
  | inflate
  /-- The loop over the chunks did not end. -/
  | unfinished
  deriving DecidableEq

/-- The runtime's zlib: what is written is read back, an empty stream is an incomplete one, and a
text of a size that a card can have does not grow beyond what a chunk can hold. -/
structure Zlib where
  deflate : Bytes → Bytes
  inflate : Bytes → Option Bytes
  inflate_deflate : ∀ raw, inflate (deflate raw) = some raw
  inflate_nil : inflate [] = none
  length_deflate : ∀ raw, raw.length ≤ 4 * MAX_PIXELS → (deflate raw).length < 2 ^ 32

/-! ## Bytes -/

/-- `bytes.subarray(start, stop)`. -/
def subarray (bytes : Bytes) (start stop : Nat) : Bytes := (bytes.drop start).take (stop - start)

/-- `view.getUint32(offset)`, the high byte first. -/
def getUint32 (bytes : Bytes) (offset : Nat) : Except PngError Nat :=
  match subarray bytes offset (offset + 4) with
  | [a, b, c, d] => .ok (a.toNat * 2 ^ 24 + b.toNat * 2 ^ 16 + c.toNat * 2 ^ 8 + d.toNat)
  | _ => .error .outOfRange

/-- `view.setUint32`. -/
def uint32Bytes (n : Nat) : Bytes :=
  [UInt8.ofNat (n / 2 ^ 24), UInt8.ofNat (n / 2 ^ 16), UInt8.ofNat (n / 2 ^ 8), UInt8.ofNat n]

/-- `String.fromCharCode(...)` of the type `IHDR`, of `IDAT` and of `IEND`, as bytes. -/
def IHDR : Bytes := [73, 72, 68, 82]

def IDAT : Bytes := [73, 68, 65, 84]

def IEND : Bytes := [73, 69, 78, 68]

/-- An entry of `CRC_TABLE`. -/
def crcEntry (n : UInt32) : UInt32 :=
  (List.range 8).foldl (fun c _ => if c &&& 1 = 1 then (0xedb88320 : UInt32) ^^^ (c >>> 1) else c >>> 1) n

def crc32 (bytes : Bytes) : Nat :=
  let c := bytes.foldl (fun c byte => crcEntry ((c ^^^ byte.toUInt32) &&& 0xff) ^^^ (c >>> 8))
    (0xffffffff : UInt32)
  (c ^^^ 0xffffffff).toNat

/-! ## Reading the chunks -/

/-- What the loop over the chunks keeps; the size of the parts is their lengths' sum. -/
structure PngState where
  width : Nat
  height : Nat
  channels : Nat
  parts : List Bytes

def PngState.initial : PngState := ⟨0, 0, 0, []⟩

/-- The branch of a chunk `IHDR`. -/
def readHeader (bytes : Bytes) (offset : Nat) (data : Bytes) (st : PngState) :
    Except PngError PngState := do
  let width ← getUint32 bytes (offset + 8)
  let height ← getUint32 bytes (offset + 12)
  let depth : Option UInt8 := data[8]?
  let color : Option UInt8 := data[9]?
  let interlace : Option UInt8 := data[12]?
  if depth ≠ some 8 ∨ (color ≠ some 2 ∧ color ≠ some 6) ∨ interlace ≠ some 0 ∨ width < 1 ∨
      height < 1 ∨ width * height > MAX_PIXELS then
    throw .unsupported
  pure { st with width, height, channels := if color = some 6 then 4 else 3 }

/-- `while (offset + 12 <= bytes.length)`, at most `fuel` times. -/
def readChunks (bytes : Bytes) : Nat → Nat → PngState → Except PngError PngState
  | 0, _, _ => .error .unfinished
  | fuel + 1, offset, st =>
    if offset + 12 ≤ bytes.length then do
      let length ← getUint32 bytes offset
      let type := subarray bytes (offset + 4) (offset + 8)
      if offset + 12 + length > bytes.length then throw .truncated
      let data := subarray bytes (offset + 8) (offset + 8 + length)
      let crc ← getUint32 bytes (offset + 8 + length)
      if crc32 (subarray bytes (offset + 4) (offset + 8 + length)) ≠ crc then throw .crcMismatch
      if type = IHDR then
        let st ← readHeader bytes offset data st
        readChunks bytes fuel (offset + 12 + length) st
      else if type = IDAT then
        readChunks bytes fuel (offset + 12 + length) { st with parts := st.parts ++ [data] }
      else if type = IEND then pure st
      else readChunks bytes fuel (offset + 12 + length) st
    else pure st

/-! ## Undoing the filters -/

def paeth (a b c : UInt8) : UInt8 :=
  let p : Int := a.toNat + b.toNat - c.toNat
  let pa := (p - a.toNat).natAbs
  let pb := (p - b.toNat).natAbs
  let pc := (p - c.toNat).natAbs
  if pa ≤ pb ∧ pa ≤ pc then a else if pb ≤ pc then b else c

/-- The byte `channels` places before the `i`-th, where there is one. -/
def before (channels : Nat) (line : Bytes) (i : Nat) : UInt8 :=
  if channels ≤ i then line.getD (i - channels) 0 else 0

/-- What `line[i]` is set to; an unknown filter gives `NaN`, which is stored as zero. -/
def unfilterByte (filter x a b c : UInt8) : UInt8 :=
  if filter = 0 then x
  else if filter = 1 then x + a
  else if filter = 2 then x + b
  else if filter = 3 then x + UInt8.ofNat ((a.toNat + b.toNat) / 2)
  else if filter = 4 then x + paeth a b c
  else 0

/-- The loop over a row: `line` is what it has set so far. -/
def unfilterRow (channels : Nat) (filter : UInt8) (previous : Bytes) : Bytes → Bytes → Bytes
  | line, [] => line
  | line, x :: row =>
    let i := line.length
    let byte := unfilterByte filter x (before channels line i) (previous.getD i 0)
      (before channels previous i)
    unfilterRow channels filter previous (line ++ [byte]) row

/-- The four bytes of each pixel of a row. -/
def rgba (width channels : Nat) (line : Bytes) : Bytes :=
  if channels = 4 then line
  else (List.range width).flatMap fun x =>
    [line.getD (x * 3) 0, line.getD (x * 3 + 1) 0, line.getD (x * 3 + 2) 0, 255]

/-- The loop over the rows, of which `rows` are left from the `y`-th on. -/
def readRows (width channels : Nat) (raw : Bytes) :
    Nat → Nat → Bytes → Bytes → Except PngError Bytes
  | 0, _, _, data => .ok data
  | rows + 1, y, previous, data =>
    let stride := width * channels
    let filter := raw.getD (y * (stride + 1)) 0
    let row := subarray raw (y * (stride + 1) + 1) ((y + 1) * (stride + 1))
    let line := unfilterRow channels filter previous [] row
    if filter > 4 then .error .unknownFilter
    else readRows width channels raw rows (y + 1) line (data ++ rgba width channels line)

/-! ## The codec -/

def decodePng (zlib : Zlib) (bytes : Bytes) : Except PngError Bitmap := do
  if bytes.length < 33 ∨ bytes.take 8 ≠ SIGNATURE then throw .notPng
  let st ← readChunks bytes (bytes.length + 1) 8 .initial
  if st.channels = 0 ∨ st.parts = [] then throw .noImageData
  let raw ← (zlib.inflate st.parts.flatten).elim (throw .inflate) pure
  let stride := st.width * st.channels
  if raw.length ≠ (stride + 1) * st.height then throw .sizeMismatch
  let data ← readRows st.width st.channels raw st.height 0 (List.replicate stride 0) []
  pure ⟨st.width, st.height, data⟩

def chunk (type data : Bytes) : Bytes :=
  uint32Bytes data.length ++ type ++ data ++ uint32Bytes (crc32 (type ++ data))

/-- `a! - b!`, stored in a byte: what is missing makes it `NaN`. -/
def difference (a b : Option UInt8) : UInt8 :=
  match a, b with
  | some a, some b => a - b
  | _, _ => 0

/-- The Sub filter over the three colours of each pixel. -/
def filtered (bitmap : Bitmap) : Bytes :=
  (List.range bitmap.height).flatMap fun y =>
    1 :: (List.range bitmap.width).flatMap fun x =>
      let i := y * bitmap.width * 4 + x * 4
      (List.range 3).map fun k =>
        difference bitmap.data[i + k]? (if x = 0 then some 0 else bitmap.data[i + k - 4]?)

def headerBytes (width height : Nat) (color : UInt8) : Bytes :=
  uint32Bytes width ++ uint32Bytes height ++ [8, color, 0, 0, 0]

def encodePng (zlib : Zlib) (bitmap : Bitmap) : Bytes :=
  SIGNATURE ++ chunk IHDR (headerBytes bitmap.width bitmap.height 2) ++
    chunk IDAT (zlib.deflate (filtered bitmap)) ++ chunk IEND []

example : crc32 IEND = 0xae426082 := by decide +kernel

end Mapae.Arcade
