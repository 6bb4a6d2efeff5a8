import Mathlib.Data.Int.Log
import Mathlib.Data.Rat.Floor
import Mathlib.Tactic.Positivity

/-!
# Integers in double precision

Every result of an operation on doubles is the exact result rounded to 53 significant bits,
ties to even. `round` is that rounding, without the bounds of the exponent: it is right for
magnitudes that neither overflow nor come near the smallest double.

Rounding never crosses an integer of magnitude at most `2 ^ 53` (`le_round`, `round_le`), so

* integers up to there are exact (`round_intCast`)
* a quotient of such integers keeps its floor and its ceiling (`floorDiv_eq`, `ceilDiv_eq`)
* a sum or a product is exact if it is that small, and stays large if it is not
-/

namespace Mapae.Infra.Binary64

/-- The integer nearest to `y`, the even one of two. -/
def roundHalfEven (y : ℚ) : ℤ :=
  if y - ⌊y⌋ < 1 / 2 ∨ (y - ⌊y⌋ = 1 / 2 ∧ ⌊y⌋ % 2 = 0) then ⌊y⌋ else ⌊y⌋ + 1

/-- The exponent of the last of 53 significant bits. -/
def lastBit (x : ℚ) : ℤ := Int.log 2 |x| - 52

/-- `x` with 53 significant bits. -/
def round (x : ℚ) : ℚ := roundHalfEven (x / 2 ^ lastBit x) * 2 ^ lastBit x

/-- The double nearest to an integer. It is an integer too. -/
def ofInt (n : ℤ) : ℤ := ⌊round n⌋

/-- `a + b` of two integers. -/
def add (a b : ℤ) : ℤ := ofInt (a + b)

/-- `a - b` of two integers. -/
def sub (a b : ℤ) : ℤ := ofInt (a - b)

/-- `a * b` of two integers. -/
def mul (a b : ℤ) : ℤ := ofInt (a * b)

/-- `Math.floor(a / b)` of two integers. -/
def floorDiv (a b : ℤ) : ℤ := ⌊round (a / b : ℚ)⌋

/-- `Math.ceil(a / b)` of two integers. -/
def ceilDiv (a b : ℤ) : ℤ := ⌈round (a / b : ℚ)⌉

/-- `Math.round`. -/
def mathRound (x : ℚ) : ℤ := ⌊x + 1 / 2⌋

/-! ## Rounding to an integer -/

theorem le_roundHalfEven {m : ℤ} {y : ℚ} (h : (m : ℚ) ≤ y) : m ≤ roundHalfEven y := by
  have hfloor : m ≤ ⌊y⌋ := Int.le_floor.mpr h
  unfold roundHalfEven
  split <;> omega

theorem roundHalfEven_le {m : ℤ} {y : ℚ} (h : y ≤ m) : roundHalfEven y ≤ m := by
  have hfloor : ⌊y⌋ ≤ m := Int.floor_le_iff.mpr (lt_of_le_of_lt h (lt_add_one _))
  unfold roundHalfEven
  split
  · exact hfloor
  · next hup =>
    -- Rounding up goes to the ceiling: `y` is no integer.
    have hne : (⌊y⌋ : ℚ) ≠ y := by
      intro heq
      exact hup (Or.inl (by rw [heq]; norm_num))
    have hlt : ⌊y⌋ < m := by
      refine lt_of_le_of_ne hfloor fun heq => hne ?_
      exact le_antisymm (Int.floor_le y) (heq ▸ h)
    omega

theorem abs_roundHalfEven_sub_le (y : ℚ) : |(roundHalfEven y : ℚ) - y| ≤ 1 / 2 := by
  have hle := Int.floor_le y
  have hlt := Int.lt_floor_add_one y
  unfold roundHalfEven
  split
  · next hdown =>
    rw [abs_le]
    rcases hdown with hdown | ⟨hdown, -⟩ <;> constructor <;> linarith
  · next hup =>
    have hhalf : (1 : ℚ) / 2 ≤ y - ⌊y⌋ := not_lt.mp fun h => hup (Or.inl h)
    push_cast
    rw [abs_le]
    constructor <;> linarith

/-! ## Rounding to a double -/

variable {x : ℚ} {n : ℤ}

theorem pow_lastBit_pos (x : ℚ) : (0 : ℚ) < 2 ^ lastBit x :=
  zpow_pos (by norm_num) _

/-- The leading bit is worth no more than `x`. -/
theorem pow_lastBit_mul_le (h : x ≠ 0) : (2 : ℚ) ^ lastBit x * 2 ^ 52 ≤ |x| := by
  have hlog := Int.zpow_log_le_self (b := 2) (by norm_num) (abs_pos.mpr h)
  have hsplit : (2 : ℚ) ^ lastBit x * 2 ^ 52 = 2 ^ Int.log 2 |x| := by
    rw [lastBit, ← zpow_natCast (2 : ℚ) 52, ← zpow_add₀ (by norm_num)]
    norm_num
  rw [hsplit]
  exact_mod_cast hlog

/-- A rounding that starts from a multiple of the last bit does not move past it. -/
theorem le_round_of_mul {m : ℤ} (h : (m : ℚ) * 2 ^ lastBit x ≤ x) :
    (m : ℚ) * 2 ^ lastBit x ≤ round x := by
  have hpos := pow_lastBit_pos x
  have hm : (m : ℚ) ≤ x / 2 ^ lastBit x := (le_div_iff₀ hpos).mpr h
  unfold round
  exact mul_le_mul_of_nonneg_right (by exact_mod_cast le_roundHalfEven hm) hpos.le

theorem round_le_of_mul {m : ℤ} (h : x ≤ (m : ℚ) * 2 ^ lastBit x) :
    round x ≤ (m : ℚ) * 2 ^ lastBit x := by
  have hpos := pow_lastBit_pos x
  have hm : x / 2 ^ lastBit x ≤ (m : ℚ) := (div_le_iff₀ hpos).mpr h
  unfold round
  exact mul_le_mul_of_nonneg_right (by exact_mod_cast roundHalfEven_le hm) hpos.le

/-- Past the 53 bits, `x` is at least `2 ^ 53` in magnitude. -/
theorem le_abs_of_lastBit_pos (h : 0 < lastBit x) : (2 : ℚ) ^ 53 ≤ |x| := by
  have hx : x ≠ 0 := by
    rintro rfl
    simp [lastBit] at h
  have hone : (2 : ℚ) ^ (1 : ℤ) ≤ 2 ^ lastBit x := zpow_le_zpow_right₀ (by norm_num) (by omega)
  have hle := pow_lastBit_mul_le hx
  norm_num at hone
  linarith

/-- An integer that is no larger than 53 bits, or no closer to zero than `x`, is a multiple of
the last bit of `x`. -/
theorem exists_mul_lastBit (hn : |n| ≤ 2 ^ 53) (h : lastBit x ≤ 0 ∨ |x| ≤ |(n : ℚ)|) :
    ∃ m : ℤ, (n : ℚ) = m * 2 ^ lastBit x := by
  by_cases hgrid : lastBit x ≤ 0
  · obtain ⟨k, hk⟩ := Int.eq_ofNat_of_zero_le (Int.neg_nonneg_of_nonpos hgrid)
    refine ⟨n * 2 ^ k, ?_⟩
    have hexp : lastBit x = -(k : ℤ) := by omega
    rw [hexp, zpow_neg, zpow_natCast]
    push_cast
    rw [mul_assoc, mul_inv_cancel₀ (by positivity), mul_one]
  -- Both are exactly `2 ^ 53` in magnitude, and the last bit is worth two.
  have hn' : |(n : ℚ)| ≤ 2 ^ 53 := by exact_mod_cast hn
  have hlarge := le_abs_of_lastBit_pos (not_le.mp hgrid)
  have hfar := h.resolve_left hgrid
  have hx : x ≠ 0 := by
    rintro rfl
    norm_num at hlarge
  have hleading := pow_lastBit_mul_le hx
  have hexp : lastBit x = 1 := by
    have hlt : (2 : ℚ) ^ lastBit x < 2 ^ (2 : ℤ) := by
      norm_num
      linarith
    have := (zpow_lt_zpow_iff_right₀ (by norm_num : (1 : ℚ) < 2)).mp hlt
    omega
  have habs : |n| = 2 ^ 53 := by
    have : |(n : ℚ)| = 2 ^ 53 := le_antisymm hn' (hlarge.trans hfar)
    exact_mod_cast this
  rw [hexp]
  rcases (abs_eq (by norm_num)).mp habs with rfl | rfl
  · exact ⟨2 ^ 52, by norm_num⟩
  · exact ⟨-2 ^ 52, by norm_num⟩

/-- **Rounding does not cross an integer up to `2 ^ 53` from above.** -/
theorem le_round (hn : |n| ≤ 2 ^ 53) (h : (n : ℚ) ≤ x) : (n : ℚ) ≤ round x := by
  by_cases hgrid : lastBit x ≤ 0 ∨ |x| ≤ |(n : ℚ)|
  · obtain ⟨m, hm⟩ := exists_mul_lastBit hn hgrid
    rw [hm] at h ⊢
    exact le_round_of_mul h
  -- The leading bit of `x` is on its grid, and above `n`.
  obtain ⟨hbit, hnear⟩ := not_or.mp hgrid
  have hpos : 0 < x := by
    by_contra hneg
    exact hnear (abs_le_abs_of_nonpos (not_lt.mp hneg) h)
  have hleading := pow_lastBit_mul_le hpos.ne'
  rw [abs_of_pos hpos] at hleading
  have hround : ((2 ^ 52 : ℤ) : ℚ) * 2 ^ lastBit x ≤ round x :=
    le_round_of_mul (by push_cast; linarith)
  have hone : (2 : ℚ) ^ (1 : ℤ) ≤ 2 ^ lastBit x := zpow_le_zpow_right₀ (by norm_num) (by omega)
  have hle : (n : ℚ) ≤ 2 ^ 53 := by exact_mod_cast (abs_le.mp hn).2
  push_cast at hround
  norm_num at hone
  linarith

/-- **Rounding does not cross an integer up to `2 ^ 53` from below.** -/
theorem round_le (hn : |n| ≤ 2 ^ 53) (h : x ≤ (n : ℚ)) : round x ≤ n := by
  by_cases hgrid : lastBit x ≤ 0 ∨ |x| ≤ |(n : ℚ)|
  · obtain ⟨m, hm⟩ := exists_mul_lastBit hn hgrid
    rw [hm] at h ⊢
    exact round_le_of_mul h
  obtain ⟨hbit, hnear⟩ := not_or.mp hgrid
  have hneg : x < 0 := by
    by_contra hpos
    exact hnear (abs_le_abs_of_nonneg (not_lt.mp hpos) h)
  have hleading := pow_lastBit_mul_le hneg.ne
  rw [abs_of_neg hneg] at hleading
  have hround : round x ≤ ((-2 ^ 52 : ℤ) : ℚ) * 2 ^ lastBit x :=
    round_le_of_mul (by push_cast; linarith)
  have hone : (2 : ℚ) ^ (1 : ℤ) ≤ 2 ^ lastBit x := zpow_le_zpow_right₀ (by norm_num) (by omega)
  have hle : -(2 : ℚ) ^ 53 ≤ n := by exact_mod_cast (abs_le.mp hn).1
  push_cast at hround
  norm_num at hone
  linarith

/-- **Integers up to `2 ^ 53` are exact.** -/
theorem round_intCast (hn : |n| ≤ 2 ^ 53) : round (n : ℚ) = n :=
  le_antisymm (round_le hn le_rfl) (le_round hn le_rfl)

/-- The relative error of a rounding. -/
theorem abs_round_sub_le (x : ℚ) : |round x - x| ≤ |x| / 2 ^ 53 := by
  by_cases hx : x = 0
  · subst hx
    norm_num [round, roundHalfEven]
  have hpos := pow_lastBit_pos x
  have hscaled : round x - x =
      ((roundHalfEven (x / 2 ^ lastBit x) : ℚ) - x / 2 ^ lastBit x) * 2 ^ lastBit x := by
    rw [sub_mul, div_mul_cancel₀ _ hpos.ne']
    rfl
  rw [hscaled, abs_mul, abs_of_pos hpos]
  have hhalf := mul_le_mul_of_nonneg_right (abs_roundHalfEven_sub_le (x / 2 ^ lastBit x)) hpos.le
  have hleading := pow_lastBit_mul_le hx
  rw [le_div_iff₀ (by norm_num)]
  linarith

/-! ## Integer operations -/

variable {a b : ℤ}

theorem ofInt_eq (hn : |n| ≤ 2 ^ 53) : ofInt n = n := by
  rw [ofInt, round_intCast hn, Int.floor_intCast]

/-- What is too large to be exact stays too large. -/
theorem le_ofInt (hn : 2 ^ 53 ≤ n) : 2 ^ 53 ≤ ofInt n := by
  have hround : ((2 ^ 53 : ℤ) : ℚ) ≤ round n :=
    le_round (by norm_num) (by exact_mod_cast hn)
  exact Int.le_floor.mpr hround

/-- A quotient is rounded by less than it is away from the next integer. -/
theorem abs_round_div_sub_lt (ha : |a| < 2 ^ 53) (hb : 0 < b) :
    |round ((a : ℚ) / b) - a / b| < 1 / b := by
  have hb' : (0 : ℚ) < b := by exact_mod_cast hb
  refine lt_of_le_of_lt (abs_round_sub_le ((a : ℚ) / b)) ?_
  rw [abs_div, abs_of_pos hb', div_div, div_lt_div_iff₀ (by positivity) hb']
  have : |(a : ℚ)| < 2 ^ 53 := by exact_mod_cast ha
  nlinarith

/-- **A quotient of integers keeps its floor.** -/
theorem floorDiv_eq (ha : |a| < 2 ^ 53) (hb : 0 < b) : floorDiv a b = a / b := by
  have hb' : (0 : ℚ) < b := by exact_mod_cast hb
  have hq : |a / b| ≤ 2 ^ 53 := by
    have hle : |a / b| ≤ |a| := Int.abs_ediv_le_abs a b
    omega
  have hmod : a % b < b := Int.emod_lt_of_pos a hb
  have hmod0 : 0 ≤ a % b := Int.emod_nonneg a hb.ne'
  have hsplit : (a : ℚ) / b = (a / b : ℤ) + (a % b : ℤ) / b := by
    have hdivision : (a : ℚ) = (a % b : ℤ) + b * (a / b : ℤ) := by
      exact_mod_cast (Int.emod_add_mul_ediv a b).symm
    rw [div_eq_iff hb'.ne', add_mul, div_mul_cancel₀ _ hb'.ne']
    linarith
  rw [floorDiv, Int.floor_eq_iff]
  constructor
  · refine le_round hq ?_
    rw [hsplit]
    have : (0 : ℚ) ≤ (a % b : ℤ) / b := by
      have : (0 : ℚ) ≤ (a % b : ℤ) := by exact_mod_cast hmod0
      positivity
    linarith
  · have herr := (abs_lt.mp (abs_round_div_sub_lt ha hb)).2
    have hrest : ((a % b : ℤ) : ℚ) / b ≤ 1 - 1 / b := by
      rw [div_le_iff₀ hb', sub_mul, one_div_mul_cancel hb'.ne', one_mul]
      have : a % b ≤ b - 1 := by omega
      exact_mod_cast this
    linarith

/-- **A quotient of integers keeps its ceiling.** -/
theorem ceilDiv_eq (ha : |a| < 2 ^ 53) (hb : 0 < b) : ceilDiv a b = (a + b - 1) / b := by
  have hb' : (0 : ℚ) < b := by exact_mod_cast hb
  have hdivision := Int.emod_add_mul_ediv (a + b - 1) b
  have hmod : (a + b - 1) % b < b := Int.emod_lt_of_pos _ hb
  have hmod0 : 0 ≤ (a + b - 1) % b := Int.emod_nonneg _ hb.ne'
  generalize (a + b - 1) / b = c at hdivision ⊢
  have hupper : a ≤ b * c := by omega
  have hlower : b * (c - 1) + 1 ≤ a := by
    rw [mul_sub, mul_one]
    omega
  have hc : |c| ≤ 2 ^ 53 := by
    rw [abs_lt] at ha
    rw [abs_le]
    constructor <;> nlinarith
  rw [ceilDiv, Int.ceil_eq_iff]
  constructor
  · have herr := (abs_lt.mp (abs_round_div_sub_lt ha hb)).1
    have hrest : (c : ℚ) - 1 + 1 / b ≤ a / b := by
      rw [le_div_iff₀ hb', add_mul, one_div_mul_cancel hb'.ne', mul_comm]
      exact_mod_cast hlower
    linarith
  · refine round_le hc ?_
    rw [div_le_iff₀ hb', mul_comm]
    exact_mod_cast hupper

end Mapae.Infra.Binary64
