import Mathlib.Data.Nat.Digits.Lemmas

/-!
# Numbers in digits

In hex digits a number is written without leading zeros, or padded to a given width; a text of digits is read
in either letter case. The digits of a fixed width are for any base.

* `hexValue_hexDigits` and `hexValue_hexPadded`: what was written is read back
* `length_hexPadded`: a padded number is as wide as it should be
* `ofBigEndian` is the number of the digits, `bigEndian` are the digits of a number, the highest first. The
  two are inverse: `bigEndian_ofBigEndian`, `ofBigEndian_bigEndian`
-/

namespace Mapae.Infra

/-- `n.toString(16)`. -/
def hexDigits (n : Nat) : List Char := Nat.toDigits 16 n

/-- The value of a digit in either letter case. -/
def hexDigitValue (c : Char) : Nat :=
  if c.toNat ≤ 57 then c.toNat - 48 else if c.toNat ≤ 70 then c.toNat - 55 else c.toNat - 87

/-- The number that the digits write. -/
def hexValue (digits : List Char) : Nat :=
  digits.foldl (fun value c => 16 * value + hexDigitValue c) 0

/-- The digits with zeros in front, to the given width; nothing where they are too many. -/
def hexPadded (width n : Nat) : Option (List Char) :=
  if (hexDigits n).length ≤ width then some ((hexDigits n).leftpad width '0') else none

theorem hexDigitValue_digitChar {d : Nat} (h : d < 16) : hexDigitValue d.digitChar = d := by
  have hall : ∀ d < 16, hexDigitValue (Nat.digitChar d) = d := by decide
  exact hall d h

theorem hexValue_append (xs : List Char) (c : Char) :
    hexValue (xs ++ [c]) = 16 * hexValue xs + hexDigitValue c := by
  rw [hexValue, hexValue, List.foldl_append, List.foldl_cons, List.foldl_nil]

theorem hexValue_hexDigits (n : Nat) : hexValue (hexDigits n) = n := by
  induction n using Nat.strongRecOn with
  | _ n ih =>
    by_cases hsmall : n < 16
    · rw [hexDigits, Nat.toDigits_of_lt_base hsmall, ← List.nil_append [n.digitChar],
        hexValue_append, hexDigitValue_digitChar hsmall]
      exact Nat.zero_add n
    · have hquotient := ih (n / 16) (Nat.div_lt_self (by omega) (by decide))
      rw [hexDigits] at hquotient
      rw [hexDigits, Nat.toDigits_of_base_le (by decide) (by omega), hexValue_append, hquotient,
        hexDigitValue_digitChar (Nat.mod_lt n (by decide)), Nat.div_add_mod]

/-- Zeros in front do not count. -/
theorem hexValue_zeros (k : Nat) (digits : List Char) :
    hexValue (List.replicate k '0' ++ digits) = hexValue digits := by
  have hzeros : (List.replicate k '0').foldl (fun value c => 16 * value + hexDigitValue c) 0 = 0 := by
    induction k with
    | zero => rfl
    | succ k ih => exact ih
  rw [hexValue, List.foldl_append, hzeros]
  rfl

variable {width n : Nat} {digits : List Char}

/-- **A number that fits is padded.** -/
theorem exists_hexPadded (hwidth : 0 < width) (h : n < 16 ^ width) :
    ∃ digits, hexPadded width n = some digits :=
  ⟨_, if_pos ((Nat.length_toDigits_le_iff (by decide) hwidth).mpr h)⟩

theorem hexPadded_eq_some :
    hexPadded width n = some digits ↔
      (hexDigits n).length ≤ width ∧ digits = (hexDigits n).leftpad width '0' := by
  unfold hexPadded
  split
  · next h => simp [h, eq_comm]
  · next h => simp [h]

theorem length_hexPadded (h : hexPadded width n = some digits) : digits.length = width := by
  obtain ⟨hle, rfl⟩ := hexPadded_eq_some.mp h
  rw [List.length_leftpad, max_eq_left hle]

/-- **A padded number is read back.** -/
theorem hexValue_hexPadded (h : hexPadded width n = some digits) : hexValue digits = n := by
  obtain ⟨-, rfl⟩ := hexPadded_eq_some.mp h
  rw [List.leftpad, hexValue_zeros, hexValue_hexDigits]

/-- A number is written in digits alone. -/
theorem mem_hexDigits {c : Char} (hc : c ∈ hexDigits n) : ∃ d < 16, c = Nat.digitChar d := by
  induction n using Nat.strongRecOn with
  | _ n ih =>
    by_cases hsmall : n < 16
    · rw [hexDigits, Nat.toDigits_of_lt_base hsmall, List.mem_singleton] at hc
      exact ⟨n, hsmall, hc⟩
    · rw [hexDigits, Nat.toDigits_of_base_le (by decide) (by omega), List.mem_append,
        List.mem_singleton] at hc
      rcases hc with hc | hc
      · exact ih (n / 16) (Nat.div_lt_self (by omega) (by decide)) hc
      · exact ⟨n % 16, Nat.mod_lt n (by decide), hc⟩

theorem mem_hexPadded (h : hexPadded width n = some digits) {c : Char} (hc : c ∈ digits) :
    ∃ d < 16, c = Nat.digitChar d := by
  obtain ⟨-, rfl⟩ := hexPadded_eq_some.mp h
  rw [List.leftpad, List.mem_append, List.mem_replicate] at hc
  rcases hc with ⟨-, rfl⟩ | hc
  · exact ⟨0, by decide, rfl⟩
  · exact mem_hexDigits hc

/-! ## Digits of a fixed width, the highest first -/

section BigEndian

variable {base : Nat}

/-- The number of the digits. -/
def ofBigEndian (base : Nat) (digits : List Nat) : Nat := Nat.ofDigits base digits.reverse

/-- The digits of a number, of the width. -/
def bigEndian (base width value : Nat) : List Nat := (Nat.digitsAppend base width value).reverse

/-- A digit more. -/
@[simp] theorem ofBigEndian_concat (digits : List Nat) (digit : Nat) :
    ofBigEndian base (digits ++ [digit]) = base * ofBigEndian base digits + digit := by
  rw [ofBigEndian, List.reverse_append, List.reverse_singleton, List.singleton_append, Nat.ofDigits_cons,
    Nat.add_comm, ofBigEndian]

theorem ofBigEndian_lt (hbase : 1 < base) {digits : List Nat} (h : ∀ d ∈ digits, d < base) :
    ofBigEndian base digits < base ^ digits.length := by
  rw [← List.length_reverse]
  exact Nat.ofDigits_lt_base_pow_length hbase fun d hd => h d (List.mem_reverse.mp hd)

/-- **The digits of the number of some digits** are these. -/
theorem bigEndian_ofBigEndian (hbase : 1 < base) {digits : List Nat} (h : ∀ d ∈ digits, d < base) :
    bigEndian base digits.length (ofBigEndian base digits) = digits := by
  have hmem : digits.reverse ∈ {l : List Nat | l.length = digits.length ∧ ∀ d ∈ l, d < base} :=
    ⟨List.length_reverse, fun d hd => h d (List.mem_reverse.mp hd)⟩
  have hleft := (Nat.setInvOn_digitsAppend_ofDigits hbase digits.length).1 hmem
  rw [bigEndian, ofBigEndian, hleft, List.reverse_reverse]

/-- **The number of the digits of a number** is the number. -/
theorem ofBigEndian_bigEndian (hbase : 1 < base) {width value : Nat} (h : value < base ^ width) :
    ofBigEndian base (bigEndian base width value) = value := by
  rw [ofBigEndian, bigEndian, List.reverse_reverse]
  exact (Nat.setInvOn_digitsAppend_ofDigits hbase width).2 h

theorem length_bigEndian (hbase : 1 < base) {width value : Nat} (h : value < base ^ width) :
    (bigEndian base width value).length = width :=
  List.length_reverse.trans (Nat.length_digitsAppend hbase width h)

theorem lt_of_mem_bigEndian (hbase : 1 < base) {width value digit : Nat} (h : digit ∈ bigEndian base width value) :
    digit < base :=
  Nat.lt_of_mem_digitsAppend hbase width digit (List.mem_reverse.mp h)

/-- Digits of one length are told apart by their numbers. -/
theorem ofBigEndian_inj (hbase : 1 < base) {left right : List Nat} (hlength : left.length = right.length)
    (hleft : ∀ d ∈ left, d < base) (hright : ∀ d ∈ right, d < base)
    (h : ofBigEndian base left = ofBigEndian base right) : left = right := by
  rw [← bigEndian_ofBigEndian hbase hleft, h, hlength, bigEndian_ofBigEndian hbase hright]

end BigEndian

end Mapae.Infra
