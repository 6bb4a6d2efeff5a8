import Mapae.Infra.Text

/-!
# Amounts of the token

The shop's prices travel as decimal texts. What `fromTokenAmount` writes, `toTokenAmount` reads
back.

* `PlainDecimal` is a decimal that is accepted, with its text and its amount
* `toTokenAmount_iff` is what is read, `toList_fromTokenAmount` what is written
-/

namespace Mapae.Shared

open Mapae.Infra

/-- `MOCK_USDC.address`. -/
def MOCK_USDC_ADDRESS : String := "0xcfeb694719A09caeb80798e2011298F29CDa4e92"

/-- `MOCK_USDC.decimals`. -/
def decimals : Nat := 6

/-- `/^(0|[1-9]\d*)(?:\.(\d{1,6}))?$/`: the whole and the fractional digits. -/
def matchAmount (text : List Char) : Option (List Char × List Char) :=
  let whole := text.takeWhile Char.isDigit
  if whole = [] ∨ (whole.head? = some '0' ∧ whole ≠ ['0']) then none
  else
    match text.dropWhile Char.isDigit with
    | [] => some (whole, [])
    | '.' :: frac =>
      if frac ≠ [] ∧ frac.length ≤ decimals ∧ frac.all Char.isDigit then some (whole, frac)
      else none
    | _ => none

/-- `1.5` is `1500000`; `none` where it throws. -/
def toTokenAmount (human : String) : Option Nat :=
  (matchAmount (trim human)).map fun amount =>
    decimalValue (amount.1 ++ (amount.2.rightpad decimals '0').take decimals)

/-- The fractional digits of an amount, without the zeros at the end. -/
def fraction (raw : Nat) : List Char :=
  match ((decimalDigits (raw % 10 ^ decimals)).leftpad decimals '0').rdropWhile (· = '0') with
  | [] => ['0']
  | digits => digits

/-- `1500000` is `1.5`. -/
def fromTokenAmount (raw : Nat) : String :=
  String.ofList (decimalDigits (raw / 10 ^ decimals) ++ '.' :: fraction raw)

example : fromTokenAmount 1500000 = "1.5" := by decide

/-! ## Decimals -/

/-- Whole digits without a leading zero, and up to six fractional ones. -/
structure PlainDecimal where
  whole : List Char
  frac : List Char
  whole_ne : whole ≠ []
  whole_digits : whole.all Char.isDigit = true
  whole_plain : whole = ['0'] ∨ whole.head? ≠ some '0'
  frac_digits : frac.all Char.isDigit = true
  frac_short : frac.length ≤ decimals

namespace PlainDecimal

/-- The text: the dot is there when a digit follows it. -/
def text (d : PlainDecimal) : List Char :=
  if d.frac = [] then d.whole else d.whole ++ '.' :: d.frac

/-- The fractional digits, filled up with zeros. -/
def padded (d : PlainDecimal) : List Char := d.frac.rightpad decimals '0'

/-- The base units. -/
def amount (d : PlainDecimal) : Nat := decimalValue (d.whole ++ d.padded)

@[simp] theorem length_padded (d : PlainDecimal) : d.padded.length = decimals := by
  have hshort := d.frac_short
  unfold padded List.rightpad
  rw [List.length_append, List.length_replicate]
  omega

theorem padded_digits (d : PlainDecimal) : d.padded.all Char.isDigit = true := by
  unfold padded List.rightpad
  rw [List.all_append, d.frac_digits, Bool.true_and]
  refine List.all_eq_true.mpr fun c hc => ?_
  rw [(List.mem_replicate.mp hc).2]
  decide

theorem amount_split (d : PlainDecimal) :
    d.amount = decimalValue d.whole * 10 ^ decimals + decimalValue d.padded := by
  rw [amount, decimalValue_append, length_padded]

/-- A text of digits and a dot has nothing to trim. -/
theorem isSpace_of_mem_text {d : PlainDecimal} {c : Char} (h : c ∈ d.text) : isSpace c = false := by
  unfold text at h
  split at h
  · exact isSpace_of_isDigit (List.all_eq_true.mp d.whole_digits c h)
  · rcases List.mem_append.mp h with h | h
    · exact isSpace_of_isDigit (List.all_eq_true.mp d.whole_digits c h)
    · rcases List.mem_cons.mp h with rfl | h
      · decide
      · exact isSpace_of_isDigit (List.all_eq_true.mp d.frac_digits c h)

end PlainDecimal

/-! ## What is read -/

/-- The pattern matches the text of a decimal. -/
theorem matchAmount_text (d : PlainDecimal) : matchAmount d.text = some (d.whole, d.frac) := by
  have hall : ∀ c ∈ d.whole, c.isDigit = true := List.all_eq_true.mp d.whole_digits
  have hwhole : ¬ (d.whole = [] ∨ (d.whole.head? = some '0' ∧ d.whole ≠ ['0'])) := by
    rintro (hnil | ⟨hhead, hzero⟩)
    · exact d.whole_ne hnil
    · exact d.whole_plain.elim hzero fun hne => hne hhead
  by_cases hfrac : d.frac = []
  · have htake : d.text.takeWhile Char.isDigit = d.whole := by
      rw [PlainDecimal.text, if_pos hfrac, List.takeWhile_eq_self_iff.mpr hall]
    have hdrop : d.text.dropWhile Char.isDigit = [] := by
      rw [PlainDecimal.text, if_pos hfrac, List.dropWhile_eq_nil_iff.mpr hall]
    unfold matchAmount
    simp only [htake, hdrop, if_neg hwhole, hfrac]
  · have htake : d.text.takeWhile Char.isDigit = d.whole := by
      rw [PlainDecimal.text, if_neg hfrac, List.takeWhile_append_of_pos hall,
        List.takeWhile_cons_of_neg (by decide), List.append_nil]
    have hdrop : d.text.dropWhile Char.isDigit = '.' :: d.frac := by
      rw [PlainDecimal.text, if_neg hfrac, List.dropWhile_append_of_pos hall,
        List.dropWhile_cons_of_neg (by decide)]
    have hsix : d.frac ≠ [] ∧ d.frac.length ≤ decimals ∧ d.frac.all Char.isDigit = true :=
      ⟨hfrac, d.frac_short, d.frac_digits⟩
    unfold matchAmount
    simp only [htake, hdrop, if_neg hwhole, if_pos hsix]

/-- **The pattern matches the decimals.** -/
theorem matchAmount_iff {text whole frac : List Char} : matchAmount text = some (whole, frac) ↔
    ∃ d : PlainDecimal, d.text = text ∧ d.whole = whole ∧ d.frac = frac := by
  constructor
  · intro h
    have hsplit : text.takeWhile Char.isDigit ++ text.dropWhile Char.isDigit = text :=
      List.takeWhile_append_dropWhile
    have hdigits : (text.takeWhile Char.isDigit).all Char.isDigit = true := List.all_takeWhile
    unfold matchAmount at h
    simp only at h
    split at h
    · cases h
    · next hplain =>
      rw [not_or] at hplain
      have hzero : text.takeWhile Char.isDigit = ['0'] ∨
          (text.takeWhile Char.isDigit).head? ≠ some '0' := by
        by_cases heq : text.takeWhile Char.isDigit = ['0']
        · exact .inl heq
        · exact .inr fun hhead => hplain.2 ⟨hhead, heq⟩
      split at h
      · next hnone =>
        cases h
        refine ⟨⟨_, [], hplain.1, hdigits, hzero, rfl, by decide⟩, ?_, rfl, rfl⟩
        rw [PlainDecimal.text, if_pos rfl]
        rwa [hnone, List.append_nil] at hsplit
      · next frac hdot =>
        split at h
        · next hfrac =>
          cases h
          refine ⟨⟨_, frac, hplain.1, hdigits, hzero, hfrac.2.2, hfrac.2.1⟩, ?_, rfl, rfl⟩
          rw [PlainDecimal.text, if_neg hfrac.1]
          rwa [hdot] at hsplit
        · cases h
      · cases h
  · rintro ⟨d, rfl, rfl, rfl⟩
    exact matchAmount_text d

/-- **What is read** is a decimal, as its amount. -/
theorem toTokenAmount_iff {human : String} {n : Nat} :
    toTokenAmount human = some n ↔ ∃ d : PlainDecimal, d.text = trim human ∧ d.amount = n := by
  have hpadded : ∀ d : PlainDecimal, (d.frac.rightpad decimals '0').take decimals = d.padded :=
    fun d => List.take_of_length_le d.length_padded.le
  unfold toTokenAmount
  rw [Option.map_eq_some_iff]
  constructor
  · rintro ⟨⟨whole, frac⟩, hmatch, rfl⟩
    obtain ⟨d, htext, rfl, rfl⟩ := matchAmount_iff.mp hmatch
    exact ⟨d, htext, by rw [hpadded, PlainDecimal.amount]⟩
  · rintro ⟨d, htext, rfl⟩
    exact ⟨(d.whole, d.frac), matchAmount_iff.mpr ⟨d, htext, rfl, rfl⟩,
      by rw [hpadded, PlainDecimal.amount]⟩

/-! ## What is written -/

/-- The six digits of the fraction. -/
theorem fractionDigits_spec (raw : Nat) :
    ((decimalDigits (raw % 10 ^ decimals)).leftpad decimals '0').length = decimals ∧
      ((decimalDigits (raw % 10 ^ decimals)).leftpad decimals '0').all Char.isDigit = true ∧
      decimalValue ((decimalDigits (raw % 10 ^ decimals)).leftpad decimals '0') =
        raw % 10 ^ decimals := by
  have hlength : (decimalDigits (raw % 10 ^ decimals)).length ≤ decimals :=
    (Nat.length_toDigits_le_iff (by decide) (by decide)).mpr (Nat.mod_lt _ (by decide))
  unfold List.leftpad
  refine ⟨?_, List.all_eq_true.mpr fun c hc => ?_, ?_⟩
  · rw [List.length_append, List.length_replicate]
    omega
  · rcases List.mem_append.mp hc with hc | hc
    · rw [(List.mem_replicate.mp hc).2]
      decide
    · exact isDigit_of_mem_decimalDigits hc
  · unfold decimalValue
    rw [Nat.ofDigitChars_append, Nat.ofDigitChars_replicate_zero, Nat.mul_zero]
    exact decimalValue_decimalDigits _

/-- The zeros that were cut off come back. -/
theorem rightpad_rdropWhile (digits : List Char) :
    (digits.rdropWhile (· = '0')).rightpad digits.length '0' = digits := by
  have hzeros : digits.rtakeWhile (· = '0') =
      List.replicate (digits.length - (digits.rdropWhile (· = '0')).length) '0' := by
    have hlength := congrArg List.length
      (List.rdropWhile_append_rtakeWhile : digits.rdropWhile (· = '0') ++ _ = digits)
    rw [List.length_append] at hlength
    refine List.eq_replicate_iff.mpr ⟨by omega, fun c hc => ?_⟩
    simpa using List.mem_rtakeWhile_imp hc
  unfold List.rightpad
  rw [← hzeros]
  exact List.rdropWhile_append_rtakeWhile

/-- The fraction without its zeros, and with them. -/
theorem rightpad_fraction (raw : Nat) :
    (fraction raw).rightpad decimals '0' =
      (decimalDigits (raw % 10 ^ decimals)).leftpad decimals '0' := by
  obtain ⟨hlength, -, -⟩ := fractionDigits_spec raw
  have hpad := rightpad_rdropWhile ((decimalDigits (raw % 10 ^ decimals)).leftpad decimals '0')
  unfold fraction
  generalize (decimalDigits (raw % 10 ^ decimals)).leftpad decimals '0' = digits at hlength hpad
  rw [hlength] at hpad
  split
  · next hnil =>
    -- An amount without a fraction has six zeros there.
    rw [hnil] at hpad
    exact hpad
  · exact hpad

/-- A fraction has one to six digits. -/
theorem fraction_spec (raw : Nat) :
    fraction raw ≠ [] ∧ (fraction raw).length ≤ decimals ∧
      (fraction raw).all Char.isDigit = true := by
  obtain ⟨hlength, hdigits, -⟩ := fractionDigits_spec raw
  unfold fraction
  generalize (decimalDigits (raw % 10 ^ decimals)).leftpad decimals '0' = digits at hlength hdigits
  have hpre := List.rdropWhile_prefix (· = '0') (l := digits)
  split
  · exact ⟨List.cons_ne_nil _ _, by decide, by decide⟩
  · next hne =>
    refine ⟨hne, hpre.length_le.trans hlength.le, ?_⟩
    exact List.all_eq_true.mpr fun c hc => List.all_eq_true.mp hdigits c (hpre.subset hc)

/-- The decimal of an amount. -/
def ofAmount (raw : Nat) : PlainDecimal where
  whole := decimalDigits (raw / 10 ^ decimals)
  frac := fraction raw
  whole_ne := Nat.toDigits_ne_nil
  whole_digits := List.all_eq_true.mpr fun _ hc => isDigit_of_mem_decimalDigits hc
  whole_plain := by
    by_cases h : raw / 10 ^ decimals = 0
    · exact .inl (by rw [h]; decide)
    · exact .inr (head?_decimalDigits h)
  frac_digits := (fraction_spec raw).2.2
  frac_short := (fraction_spec raw).2.1

theorem toList_fromTokenAmount (raw : Nat) : (fromTokenAmount raw).toList = (ofAmount raw).text := by
  have hne : (ofAmount raw).frac ≠ [] := (fraction_spec raw).1
  rw [fromTokenAmount, String.toList_ofList, PlainDecimal.text, if_neg hne]
  rfl

@[simp] theorem amount_ofAmount (raw : Nat) : (ofAmount raw).amount = raw := by
  have hpadded : (ofAmount raw).padded = (decimalDigits (raw % 10 ^ decimals)).leftpad decimals '0' :=
    rightpad_fraction raw
  have hwhole : decimalValue (ofAmount raw).whole = raw / 10 ^ decimals := decimalValue_decimalDigits _
  rw [PlainDecimal.amount_split, hpadded, hwhole, (fractionDigits_spec raw).2.2, Nat.mul_comm]
  exact Nat.div_add_mod raw (10 ^ decimals)

/-- **Reading back what was written gives the amount.** -/
theorem toTokenAmount_fromTokenAmount (raw : Nat) :
    toTokenAmount (fromTokenAmount raw) = some raw := by
  have htrim : trim (fromTokenAmount raw) = (ofAmount raw).text := by
    rw [← String.ofList_toList (s := fromTokenAmount raw), toList_fromTokenAmount]
    exact trim_ofList fun _ hc => PlainDecimal.isSpace_of_mem_text hc
  exact toTokenAmount_iff.mpr ⟨ofAmount raw, htrim.symm, amount_ofAmount raw⟩

end Mapae.Shared
