import Mathlib.Algebra.Order.Field.Rat
import Mathlib.Tactic.FieldSimp
import Mathlib.Tactic.Ring
import Mapae.Shared.Token

/-!
# Amounts and decimals

A plain decimal has a rational value, and its amount is this value in base units. `toTokenAmount` reads the
plain decimals and nothing else, and `fromTokenAmount` writes one of them for each amount.

* `PlainDecimal.amount_eq` is the exactness
* `PlainDecimal.Canonical` is the form of what is written
* `token_amounts` is the main result
-/

namespace Mapae.Shared

open Mapae.Infra

/-! ## The number that is spelled -/

/-- The digits after the dot: each place is worth a tenth of the one before. -/
def fractionValue : List Char → ℚ
  | [] => 0
  | c :: rest => ((c.toNat - '0'.toNat : Nat) + fractionValue rest) / 10

theorem fractionValue_eq (digits : List Char) :
    fractionValue digits = decimalValue digits / 10 ^ digits.length := by
  induction digits with
  | nil => simp [fractionValue, decimalValue]
  | cons c rest ih =>
    rw [fractionValue, ih, decimalValue_cons, List.length_cons]
    push_cast
    field_simp
    ring

theorem decimalValue_rightpad {digits : List Char} {width : Nat} :
    decimalValue (digits.rightpad width '0') = decimalValue digits * 10 ^ (width - digits.length) := by
  have hzeros : decimalValue (List.replicate (width - digits.length) '0') = 0 := by
    rw [decimalValue, Nat.ofDigitChars_replicate_zero, Nat.mul_zero]
  rw [List.rightpad, decimalValue_append, hzeros, List.length_replicate, Nat.add_zero]

namespace PlainDecimal

variable {d e : PlainDecimal}

def value (d : PlainDecimal) : ℚ := decimalValue d.whole + fractionValue d.frac

/-- **An amount is exact.** -/
theorem amount_eq (d : PlainDecimal) : (d.amount : ℚ) = d.value * 10 ^ decimals := by
  have hten : (10 : ℚ) ^ decimals = 10 ^ (decimals - d.frac.length) * 10 ^ d.frac.length := by
    rw [← pow_add, Nat.sub_add_cancel d.frac_short]
  have hpos : (10 : ℚ) ^ d.frac.length ≠ 0 := pow_ne_zero _ (by decide)
  rw [d.amount_split, padded, decimalValue_rightpad, value, fractionValue_eq]
  push_cast
  rw [add_mul, hten]
  field_simp

theorem amount_inj : d.amount = e.amount ↔ d.value = e.value := by
  have hten : (10 : ℚ) ^ decimals ≠ 0 := pow_ne_zero _ (by decide)
  rw [← Nat.cast_inj (R := ℚ), d.amount_eq, e.amount_eq, mul_left_inj' hten]

theorem amount_eq_iff {n : Nat} : d.amount = n ↔ (n : ℚ) = d.value * 10 ^ decimals := by
  rw [← d.amount_eq, Nat.cast_inj]
  exact eq_comm

/-! ## The form that is written -/

/-- A fraction is there, and ends in no zero that could be left out. -/
def Canonical (d : PlainDecimal) : Prop := d.frac = ['0'] ∨ ∃ last, d.frac.getLast? = some last ∧ last ≠ '0'

theorem canonical_ofAmount (raw : Nat) : (ofAmount raw).Canonical := by
  have hfrac : (ofAmount raw).frac = fraction raw := rfl
  unfold Canonical
  rw [hfrac]
  unfold fraction
  split
  · exact .inl rfl
  · next hne =>
    have hlast := List.rdropWhile_last_not (· = '0')
      ((decimalDigits (raw % 10 ^ decimals)).leftpad decimals '0') hne
    exact .inr ⟨_, List.getLast?_eq_some_getLast hne, of_decide_eq_false (by simpa using hlast)⟩

/-- The zeros behind a canonical fraction are cut off. -/
theorem Canonical.rdropWhile_padded (h : d.Canonical) :
    (match d.padded.rdropWhile (· = '0') with
      | [] => ['0']
      | digits => digits) = d.frac := by
  have hzeros : ∀ n, (d.frac ++ List.replicate n '0').rdropWhile (· = '0') = d.frac.rdropWhile (· = '0') := by
    intro n
    induction n with
    | zero => rw [List.replicate_zero, List.append_nil]
    | succ n ih => rw [List.replicate_succ', ← List.append_assoc, List.rdropWhile_concat_pos _ _ _ (by decide), ih]
  unfold padded List.rightpad
  rw [hzeros]
  rcases h with h | ⟨last, hlast, hne⟩
  · rw [h]
    rfl
  · have hself : d.frac.rdropWhile (· = '0') = d.frac := by
      rw [List.rdropWhile_eq_self_iff]
      intro hnil
      rw [List.getLast?_eq_some_getLast hnil] at hlast
      rw [Option.some.inj hlast]
      simpa using hne
    rw [hself]
    split
    · next hnil =>
      rw [hnil] at hlast
      cases hlast
    · rfl

/-- **A canonical decimal** is the one that is written for its amount. -/
theorem Canonical.text_eq (h : d.Canonical) : d.text = (ofAmount d.amount).text := by
  have hpadded := decimalValue_lt d.padded_digits
  rw [d.length_padded] at hpadded
  have hpos : 0 < 10 ^ decimals := by decide
  have hquotient : d.amount / 10 ^ decimals = decimalValue d.whole := by
    rw [d.amount_split, Nat.mul_comm, Nat.mul_add_div hpos, Nat.div_eq_of_lt hpadded, Nat.add_zero]
  have hremainder : d.amount % 10 ^ decimals = decimalValue d.padded := by
    rw [d.amount_split, Nat.mul_add_mod_self_right, Nat.mod_eq_of_lt hpadded]
  have hwhole : (ofAmount d.amount).whole = d.whole := by
    show decimalDigits (d.amount / 10 ^ decimals) = d.whole
    rw [hquotient]
    rcases d.whole_plain with hzero | hhead
    · rw [hzero]
      decide
    · exact decimalDigits_decimalValue d.whole_ne d.whole_digits hhead
  have hdigits : (decimalDigits (d.amount % 10 ^ decimals)).leftpad decimals '0' = d.padded := by
    obtain ⟨hlength, hall, hvalue⟩ := fractionDigits_spec d.amount
    exact decimalValue_inj (hlength.trans d.length_padded.symm) hall d.padded_digits (hvalue.trans hremainder)
  have hfrac : (ofAmount d.amount).frac = d.frac := by
    show fraction d.amount = d.frac
    unfold fraction
    rw [hdigits]
    exact h.rdropWhile_padded
  rw [text, text, hwhole, hfrac]

end PlainDecimal

/-! ## Texts and amounts -/

/-- **Amounts convert exactly.** What is written is read back. What is read are the plain decimals, trimmed, as
their values in base units, and all else is refused. Two texts give one amount if and only if they spell one
number, and of the texts that spell it one is canonical: that which is written. -/
theorem token_amounts :
    (∀ n, toTokenAmount (fromTokenAmount n) = some n) ∧
    (∀ human n, toTokenAmount human = some n ↔
      ∃ d : PlainDecimal, d.text = trim human ∧ (n : ℚ) = d.value * 10 ^ decimals) ∧
    (∀ human, toTokenAmount human = none ↔ ¬ ∃ d : PlainDecimal, d.text = trim human) ∧
    (∀ (d e : PlainDecimal) left right, d.text = trim left → e.text = trim right →
      (toTokenAmount left = toTokenAmount right ↔ d.value = e.value)) ∧
    ∀ n text, text = (fromTokenAmount n).toList ↔
      ∃ d : PlainDecimal, d.text = text ∧ d.Canonical ∧ (n : ℚ) = d.value * 10 ^ decimals := by
  have hread : ∀ {d : PlainDecimal} {human}, d.text = trim human → toTokenAmount human = some d.amount :=
    fun htext => toTokenAmount_iff.mpr ⟨_, htext, rfl⟩
  refine ⟨toTokenAmount_fromTokenAmount, fun human n => ?_, fun human => ?_, fun d e left right hd he => ?_,
    fun n text => ?_⟩
  · simp only [toTokenAmount_iff, PlainDecimal.amount_eq_iff]
  · constructor
    · rintro hnone ⟨d, htext⟩
      rw [hread htext] at hnone
      cases hnone
    · intro h
      rw [Option.eq_none_iff_forall_ne_some]
      intro n hsome
      obtain ⟨d, htext, -⟩ := toTokenAmount_iff.mp hsome
      exact h ⟨d, htext⟩
  · rw [hread hd, hread he, Option.some_inj, PlainDecimal.amount_inj]
  · rw [toList_fromTokenAmount]
    constructor
    · rintro rfl
      exact ⟨ofAmount n, rfl, PlainDecimal.canonical_ofAmount n,
        PlainDecimal.amount_eq_iff.mp (amount_ofAmount n)⟩
    · rintro ⟨d, rfl, hcanonical, hvalue⟩
      rw [hcanonical.text_eq, PlainDecimal.amount_eq_iff.mpr hvalue]

/-- A zero more, and a space. -/
theorem token_amounts_padded : toTokenAmount " 1.50" = toTokenAmount "1.5" :=
  (token_amounts.2.2.2.1 ⟨['1'], ['5', '0'], by decide, by decide, by decide, by decide, by decide⟩
    ⟨['1'], ['5'], by decide, by decide, by decide, by decide, by decide⟩ " 1.50" "1.5"
    (by decide) (by decide)).mpr (PlainDecimal.amount_inj.mp (by decide))

end Mapae.Shared
