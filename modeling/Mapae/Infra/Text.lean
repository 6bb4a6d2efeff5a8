import Mathlib.Algebra.GroupWithZero.Nat
import Mathlib.Data.List.DropRight

/-!
# Text

The parts of JavaScript's string library that the parsers use: `trim`, the length, and the decimal
digits of a natural number.
-/

namespace Mapae.Infra

/-- The characters `String.prototype.trim` removes. -/
def isSpace (c : Char) : Bool :=
  c.toNat ∈ [9, 10, 11, 12, 13, 32, 160, 5760, 8232, 8233, 8239, 8287, 12288, 65279] ∨
    (8192 ≤ c.toNat ∧ c.toNat ≤ 8202)

def trim (value : String) : List Char :=
  ((value.toList.dropWhile isSpace).reverse.dropWhile isSpace).reverse

/-- What is left is in the text. -/
theorem trim_sublist (value : String) : (trim value).Sublist value.toList := by
  unfold trim
  refine (List.reverse_sublist.mpr (List.dropWhile_sublist _)).trans ?_
  rw [List.reverse_reverse]
  exact List.dropWhile_sublist _

/-- There is nothing to trim where there is no space. -/
theorem trim_ofList {text : List Char} (h : ∀ c ∈ text, isSpace c = false) :
    trim (String.ofList text) = text := by
  have hdrop : ∀ l : List Char, (∀ c ∈ l, isSpace c = false) → l.dropWhile isSpace = l := by
    intro l hl
    cases l with
    | nil => rfl
    | cons c l => exact List.dropWhile_cons_of_neg (by simp [hl c List.mem_cons_self])
  unfold trim
  rw [String.toList_ofList, hdrop text h,
    hdrop text.reverse fun c hc => h c (List.mem_reverse.mp hc), List.reverse_reverse]

/-- A text with something to see is not blank. -/
theorem trim_ne_nil {value : String} {c : Char} (hmem : c ∈ value.toList) (hc : isSpace c = false) :
    trim value ≠ [] := by
  have hkeep : ∀ text : List Char, c ∈ text → c ∈ text.dropWhile isSpace := by
    intro text hmem
    rw [← List.takeWhile_append_dropWhile (p := isSpace) (l := text)] at hmem
    rcases List.mem_append.mp hmem with hmem | hmem
    · rw [List.mem_takeWhile_imp hmem] at hc
      cases hc
    · exact hmem
  have hkept : c ∈ trim value :=
    List.mem_reverse.mpr (hkeep _ (List.mem_reverse.mpr (hkeep _ hmem)))
  exact List.ne_nil_of_mem hkept

/-- A text that was trimmed stays as it is. -/
theorem trim_trim (value : String) : trim (String.ofList (trim value)) = trim value := by
  have htrim : ∀ text : String, trim text = (text.toList.dropWhile isSpace).rdropWhile isSpace := fun _ => rfl
  simp only [htrim, String.toList_ofList]
  -- what is left begins as before, or is nothing
  have hfirst : ((value.toList.dropWhile isSpace).rdropWhile isSpace).dropWhile isSpace =
      (value.toList.dropWhile isSpace).rdropWhile isSpace := by
    rw [List.dropWhile_eq_self_iff]
    intro hne
    have hpre := List.rdropWhile_prefix isSpace (value.toList.dropWhile isSpace)
    rw [hpre.getElem]
    exact List.dropWhile_eq_self_iff.mp (List.dropWhile_idempotent _ _) _
  rw [hfirst, List.rdropWhile_idempotent]

/-! ## Length -/

/-- The UTF-16 units of a character: two outside the basic plane. -/
def units (c : Char) : Nat := if c.toNat < 0x10000 then 1 else 2

/-- `value.length`, which counts UTF-16 units. -/
def unitLength (value : String) : Nat := (value.toList.map units).sum

@[simp] theorem unitLength_append (a b : String) :
    unitLength (a ++ b) = unitLength a + unitLength b := by
  simp [unitLength]

theorem units_bounds (c : Char) : 1 ≤ units c ∧ units c ≤ 2 := by
  unfold units
  split <;> omega

theorem unitLength_bounds (value : String) :
    value.toList.length ≤ unitLength value ∧ unitLength value ≤ 2 * value.toList.length := by
  unfold unitLength
  induction value.toList with
  | nil => exact ⟨Nat.le_refl _, Nat.le_refl _⟩
  | cons c text ih =>
    have hc := units_bounds c
    simp only [List.length_cons, List.map_cons, List.sum_cons]
    omega

/-! ## Decimal digits -/

/-- `n.toString()`. -/
def decimalDigits (n : Nat) : List Char := Nat.toDigits 10 n

/-- `BigInt` of a text of digits. -/
def decimalValue (digits : List Char) : Nat := Nat.ofDigitChars 10 digits 0

theorem decimalValue_decimalDigits (n : Nat) : decimalValue (decimalDigits n) = n :=
  Nat.ofDigitChars_ten_toDigits

theorem decimalValue_cons (c : Char) (digits : List Char) :
    decimalValue (c :: digits) = (c.toNat - 48) * 10 ^ digits.length + decimalValue digits := by
  rw [decimalValue, Nat.ofDigitChars_cons, Nat.ofDigitChars_eq_ofDigitChars_zero, Nat.mul_zero,
    Nat.zero_add, Nat.mul_comm]
  rfl

theorem toNat_of_isDigit {c : Char} (h : c.isDigit = true) : 48 ≤ c.toNat ∧ c.toNat ≤ 57 := by
  simp only [Char.isDigit, Bool.and_eq_true, decide_eq_true_eq] at h
  exact h

theorem decimalValue_lt {digits : List Char} (h : digits.all Char.isDigit = true) :
    decimalValue digits < 10 ^ digits.length := by
  induction digits with
  | nil => decide
  | cons c digits ih =>
    rw [List.all_cons, Bool.and_eq_true] at h
    have hrest := ih h.2
    have hbounds := toNat_of_isDigit h.1
    have hc : c.toNat - 48 ≤ 9 := by omega
    have hmul := Nat.mul_le_mul_right (10 ^ digits.length) hc
    rw [decimalValue_cons, List.length_cons, Nat.pow_succ]
    omega

theorem decimalValue_append (left right : List Char) :
    decimalValue (left ++ right) = decimalValue left * 10 ^ right.length + decimalValue right := by
  unfold decimalValue
  rw [Nat.ofDigitChars_append, Nat.ofDigitChars_eq_ofDigitChars_zero, Nat.mul_comm]

/-- Digits of one width are told apart by their values. -/
theorem decimalValue_inj {left right : List Char} (hlength : left.length = right.length)
    (hleft : left.all Char.isDigit = true) (hright : right.all Char.isDigit = true)
    (h : decimalValue left = decimalValue right) : left = right := by
  induction left generalizing right with
  | nil => exact (List.length_eq_zero_iff.mp hlength.symm).symm
  | cons c left ih =>
    obtain ⟨d, right, rfl⟩ := List.exists_cons_of_length_eq_add_one hlength.symm
    have hrest : left.length = right.length := Nat.succ.inj hlength
    rw [List.all_cons, Bool.and_eq_true] at hleft hright
    have hc := toNat_of_isDigit hleft.1
    have hd := toNat_of_isDigit hright.1
    have hlow := decimalValue_lt hleft.2
    have hlow' := decimalValue_lt hright.2
    rw [decimalValue_cons, decimalValue_cons, hrest] at h
    rw [hrest] at hlow
    have hpos : 0 < 10 ^ right.length := Nat.pow_pos (by decide)
    -- the first digit is the quotient, and the others are the remainder
    have hquotient : ∀ first low, low < 10 ^ right.length →
        (first * 10 ^ right.length + low) / 10 ^ right.length = first := by
      intro first low hlt
      rw [Nat.mul_comm, Nat.mul_add_div hpos, Nat.div_eq_of_lt hlt, Nat.add_zero]
    have hfirst : c.toNat - 48 = d.toNat - 48 := by
      rw [← hquotient (c.toNat - 48) _ hlow, h, hquotient _ _ hlow']
    have hchar : c = d := Char.toNat_inj.mp (by omega)
    rw [hfirst] at h
    rw [ih hrest hleft.2 hright.2 (Nat.add_left_cancel h), hchar]

theorem isDigit_of_mem_decimalDigits {n : Nat} {c : Char} (h : c ∈ decimalDigits n) :
    c.isDigit = true :=
  Nat.isDigit_of_mem_toDigits (by decide) (by decide) h

/-- A number has no leading zero. -/
theorem head?_decimalDigits {n : Nat} (h : n ≠ 0) : (decimalDigits n).head? ≠ some '0' := by
  induction n using Nat.strongRecOn with
  | _ n ih =>
    unfold decimalDigits at *
    by_cases hsmall : n < 10
    · rw [Nat.toDigits_of_lt_base hsmall]
      have hdigit : ∀ d < 10, d ≠ 0 → [d.digitChar].head? ≠ some '0' := by decide
      exact hdigit n hsmall h
    · have hquotient : n / 10 ≠ 0 := by omega
      have hne : Nat.toDigits 10 (n / 10) ≠ [] := Nat.toDigits_ne_nil
      rw [Nat.toDigits_of_base_le (by decide) (by omega), List.head?_append_of_ne_nil _ hne]
      exact ih (n / 10) (by omega) hquotient

/-- **Digits without a leading zero** are those of their value. -/
theorem decimalDigits_decimalValue {digits : List Char} (hne : digits ≠ []) (h : digits.all Char.isDigit = true)
    (hzero : digits.head? ≠ some '0') : decimalDigits (decimalValue digits) = digits := by
  have hall : (decimalDigits (decimalValue digits)).all Char.isDigit = true :=
    List.all_eq_true.mpr fun c hc => isDigit_of_mem_decimalDigits hc
  refine decimalValue_inj ?_ hall h (decimalValue_decimalDigits _)
  have hpos : 0 < (decimalDigits (decimalValue digits)).length := Nat.length_toDigits_pos
  cases digits with
  | nil => exact absurd rfl hne
  | cons c rest =>
    have hfits : (decimalDigits (decimalValue (c :: rest))).length ≤ rest.length + 1 :=
      (Nat.length_toDigits_le_iff (by decide) (Nat.succ_pos _)).mpr (decimalValue_lt h)
    -- the first digit is at least one
    have hfirst : 10 ^ rest.length ≤ decimalValue (c :: rest) := by
      rw [List.all_cons, Bool.and_eq_true] at h
      have hbounds := toNat_of_isDigit h.1
      have hc : c.toNat ≠ 48 := fun heq => hzero (congrArg some (Char.toNat_inj.mp heq))
      rw [decimalValue_cons]
      exact (Nat.le_mul_of_pos_left _ (by omega)).trans (Nat.le_add_right _ _)
    by_cases hrest : rest.length = 0
    · rw [List.length_cons]
      omega
    · have hlong : ¬ (decimalDigits (decimalValue (c :: rest))).length ≤ rest.length := by
        rw [decimalDigits, Nat.length_toDigits_le_iff (by decide) (Nat.pos_of_ne_zero hrest)]
        exact Nat.not_lt.mpr hfirst
      rw [List.length_cons]
      omega

/-- `n.toString()` as a text. -/
def decimalText (n : Nat) : String := String.ofList (decimalDigits n)

/-- `/^(0|[1-9]\d*)$/`. -/
def isUintText (text : String) : Bool :=
  text.toList.all Char.isDigit && decide (text.toList ≠ []) &&
    (decide (text.toList.length = 1) || decide (text.toList.head? ≠ some '0'))

/-- A number prints as a text of the kind it is read from. -/
theorem isUintText_decimalText (n : Nat) : isUintText (decimalText n) = true := by
  have hne : decimalDigits n ≠ [] := Nat.toDigits_ne_nil
  have hdigits : (decimalDigits n).all Char.isDigit = true :=
    List.all_eq_true.mpr fun c hc => isDigit_of_mem_decimalDigits hc
  have hhead : (decimalDigits n).length = 1 ∨ (decimalDigits n).head? ≠ some '0' := by
    by_cases hn : n = 0
    · subst hn
      exact .inl rfl
    · exact .inr (head?_decimalDigits hn)
  rw [isUintText, decimalText, String.toList_ofList, hdigits]
  simpa [hne] using hhead

theorem decimalValue_decimalText (n : Nat) : decimalValue (decimalText n).toList = n := by
  rw [decimalText, String.toList_ofList, decimalValue_decimalDigits]

/-- `/^[1-9]\d*$/`. -/
def isPositiveText (text : String) : Bool :=
  text.toList.all Char.isDigit && decide (text.toList ≠ []) && decide (text.toList.head? ≠ some '0')

theorem isPositiveText_decimalText {n : Nat} (h : n ≠ 0) : isPositiveText (decimalText n) = true := by
  have hdigits : (decimalDigits n).all Char.isDigit = true :=
    List.all_eq_true.mpr fun c hc => isDigit_of_mem_decimalDigits hc
  have hne : decimalDigits n ≠ [] := Nat.toDigits_ne_nil
  rw [isPositiveText, decimalText, String.toList_ofList, hdigits]
  simpa [hne] using head?_decimalDigits h

/-- Digits are no spaces. -/
theorem isSpace_of_isDigit {c : Char} (h : c.isDigit = true) : isSpace c = false := by
  have hbounds := toNat_of_isDigit h
  unfold isSpace
  simp only [List.mem_cons, List.not_mem_nil, or_false, decide_eq_false_iff_not]
  omega

end Mapae.Infra
