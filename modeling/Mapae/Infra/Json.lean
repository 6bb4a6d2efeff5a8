import Mathlib.Algebra.Group.Int.Defs

/-!
# Parsed JSON

A value as `JSON.parse` returns it, and the reads a program makes of one without knowing its
shape. A missing property reads as `none`, which stands for `undefined`.

A header carries such a value as text. `HeaderCodec` is that transport: what was encoded is
what decoding gives back, and a text that is no encoding decodes to nothing.
-/

namespace Mapae.Infra

/-- A JSON value. The number is `mantissa · 10 ^ exponent`. -/
inductive Json where
  | null
  | bool (value : Bool)
  | number (mantissa : Int) (exponent : Int)
  | string (value : String)
  | array (items : List Json)
  | object (members : List (String × Json))

namespace Json

/-- `typeof value === "object"` of a value that is not falsy. -/
def isObject : Json → Bool
  | array _ => true
  | object _ => true
  | _ => false

/-- `value[name]`. Of two members with one name, `JSON.parse` keeps the later. -/
def field (value : Json) (name : String) : Option Json :=
  match value with
  | object members => (members.reverse.find? fun member => member.1 = name).map Prod.snd
  | _ => none

/-- The text of a string. -/
def text : Json → Option String
  | string value => some value
  | _ => none

/-- `value === true`. -/
def isTrue : Json → Bool
  | bool value => value
  | _ => false

/-- `value?.name` where the read may have nothing to read from. -/
def fieldOf (value : Option Json) (name : String) : Option Json := value.bind (field · name)

/-- The text under `name`, when there is a string there. -/
def textField (value : Json) (name : String) : Option String := (value.field name).bind text

/-- The members of an object that is no array. -/
def record : Json → Option (List (String × Json))
  | object members => some members
  | _ => none

/-- Whether an object has only members with the given names. -/
def onlyKeys (value : Json) (names : List String) : Bool :=
  match value with
  | object members => members.all fun member => member.1 ∈ names
  | _ => false

/-- The integer that a number is. -/
def int : Json → Option Int
  | number mantissa exponent =>
    if 0 ≤ exponent then some (mantissa * 10 ^ exponent.toNat)
    else if mantissa % 10 ^ (-exponent).toNat = 0 then some (mantissa / 10 ^ (-exponent).toNat)
    else none
  | _ => none

/-- The integer that a number between two bounds is. -/
def integer (value : Json) (min max : Int) : Option Int :=
  value.int.filter fun n => min ≤ n ∧ n ≤ max

def isNull : Json → Bool
  | null => true
  | _ => false

@[simp] theorem isNull_eq_true {value : Json} : value.isNull = true ↔ value = null := by
  cases value <;> simp [isNull]

/-- Whether `String(value)` is the word, for a word that no number, no literal and no list is printed
as. An array of one value is printed as this value. -/
def prints (word : String) : Json → Bool
  | string value => value = word
  | array [value] => value.prints word
  | _ => false

mutual

/-- Whether `String(value)` throws: its own `toString` is in the way. -/
def unprintable : Json → Bool
  | array items => anyUnprintable items
  | object members => members.any fun member => member.1 = "toString"
  | _ => false

def anyUnprintable : List Json → Bool
  | [] => false
  | value :: items => value.unprintable || anyUnprintable items

end

/-- Whether two numbers are one. -/
def sameNumber (mantissa exponent mantissa' exponent' : Int) : Bool :=
  if exponent ≤ exponent' then mantissa = mantissa' * 10 ^ (exponent' - exponent).toNat
  else mantissa * 10 ^ (exponent - exponent').toNat = mantissa'

/-- An integer is the number that `int` reads. -/
theorem int_eq_some {mantissa exponent n : Int} :
    (number mantissa exponent).int = some n ↔
      mantissa * 10 ^ exponent.toNat = n * 10 ^ (-exponent).toNat := by
  have hpos : (0 : Int) < 10 ^ (-exponent).toNat := Int.pow_pos (by decide)
  unfold int
  by_cases hexponent : 0 ≤ exponent
  · have hzero : (-exponent).toNat = 0 := by omega
    simp [hexponent, hzero]
  · have hzero : exponent.toNat = 0 := by omega
    simp only [hexponent, if_false, hzero, Int.pow_zero, Int.mul_one]
    constructor
    · intro h
      split at h
      · next hmod =>
        obtain rfl := Option.some.inj h
        exact (Int.ediv_mul_cancel (Int.dvd_of_emod_eq_zero hmod)).symm
      · cases h
    · rintro rfl
      rw [if_pos (Int.mul_emod_left _ _), Int.mul_ediv_cancel _ (Int.ne_of_gt hpos)]

theorem sameNumber_eq_true {mantissa exponent mantissa' exponent' : Int} :
    sameNumber mantissa exponent mantissa' exponent' = true ↔
      mantissa * 10 ^ (exponent - exponent').toNat
        = mantissa' * 10 ^ (exponent' - exponent).toNat := by
  unfold sameNumber
  by_cases hle : exponent ≤ exponent'
  · have hzero : (exponent - exponent').toNat = 0 := by omega
    simp [hle, hzero]
  · have hzero : (exponent' - exponent).toNat = 0 := by omega
    simp [hle, hzero]

/-- One number is one integer. -/
theorem int_of_sameNumber {mantissa exponent mantissa' exponent' n : Int}
    (hsame : sameNumber mantissa exponent mantissa' exponent' = true)
    (hint : (number mantissa' exponent').int = some n) :
    (number mantissa exponent).int = some n := by
  rw [sameNumber_eq_true] at hsame
  rw [int_eq_some] at hint ⊢
  obtain ⟨k, hk⟩ : ∃ k, (exponent - exponent').toNat + exponent'.toNat = exponent.toNat + k :=
    ⟨(exponent - exponent').toNat + exponent'.toNat - exponent.toNat, by omega⟩
  have hk' : (-exponent').toNat + (exponent' - exponent).toNat = (-exponent).toNat + k := by omega
  have hpos : (0 : Int) < 10 ^ k := Int.pow_pos (by decide)
  refine Int.eq_of_mul_eq_mul_right (Int.ne_of_gt hpos) ?_
  calc mantissa * 10 ^ exponent.toNat * 10 ^ k
      = mantissa * 10 ^ (exponent - exponent').toNat * 10 ^ exponent'.toNat := by
        rw [Int.mul_assoc, ← Int.pow_add, ← hk, Int.pow_add, ← Int.mul_assoc]
    _ = mantissa' * 10 ^ exponent'.toNat * 10 ^ (exponent' - exponent).toNat := by
        rw [hsame, Int.mul_right_comm]
    _ = n * 10 ^ (-exponent).toNat * 10 ^ k := by
        rw [hint, Int.mul_assoc, Int.mul_assoc, ← Int.pow_add, ← Int.pow_add, hk']

/-- `a === b`. Two objects of two documents are never one. -/
def strictEqual : Option Json → Option Json → Bool
  | none, none => true
  | some null, some null => true
  | some (bool a), some (bool b) => a == b
  | some (number mantissa exponent), some (number mantissa' exponent') =>
    sameNumber mantissa exponent mantissa' exponent'
  | some (string a), some (string b) => a == b
  | _, _ => false

/-- What equals a text is this text. -/
theorem text_of_strictEqual {a b : Option Json} {t : String} (h : strictEqual a b = true)
    (hb : b.bind text = some t) : a.bind text = some t := by
  cases b with
  | none => cases hb
  | some b =>
    cases b with
    | string value =>
      cases a with
      | none => cases h
      | some a =>
        cases a with
        | string value' =>
          obtain rfl : value' = value := by simpa [strictEqual] using h
          exact hb
        | _ => cases h
    | _ => cases hb

/-- What equals an integer is this integer. -/
theorem int_of_strictEqual {a b : Option Json} {n : Int} (h : strictEqual a b = true)
    (hb : b.bind int = some n) : a.bind int = some n := by
  cases b with
  | none => cases hb
  | some b =>
    cases b with
    | number mantissa exponent =>
      cases a with
      | none => cases h
      | some a =>
        cases a with
        | number mantissa' exponent' => exact int_of_sameNumber h hb
        | _ => cases h
    | _ => cases hb

/-- `!value` is false. -/
def truthy : Json → Bool
  | null => false
  | bool value => value
  | number mantissa _ => decide (mantissa ≠ 0)
  | string value => decide (value ≠ "")
  | _ => true

/-- `value ?? []`, when it is a list. -/
def listOrEmpty : Option Json → Option (List Json)
  | none => some []
  | some null => some []
  | some (array items) => some items
  | _ => none

/-- `value[name] === true`. -/
def trueField (value : Json) (name : String) : Bool := (value.field name).any isTrue

end Json

/-- A transport of JSON values as header texts. -/
structure HeaderCodec (Wire : Type) where
  encode : Json → Wire
  /-- Nothing when decoding throws. -/
  decode : Wire → Option Json
  decode_encode (value : Json) : decode (encode value) = some value

/-- The transport that hands over the value itself. -/
def HeaderCodec.plain : HeaderCodec Json where
  encode := id
  decode := some
  decode_encode _ := rfl

end Mapae.Infra
