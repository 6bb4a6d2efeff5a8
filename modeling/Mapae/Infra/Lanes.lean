import Mathlib.Data.Nat.Bitwise
import Mathlib.Tactic.Ring

/-!
# Lanes of a word

A word that is cut into lanes of `k` bits holds one number in each lane. `lane k i w` reads
lane `i`, and each operation that packed code uses has one theorem that says what every lane
holds afterwards:

* `lane_or_shift` — a number is or-ed into a lane
* `lane_clear` — the bits of a lane are masked out
* `lane_add_shift` — a number is added to a lane that has room for it

A word that fits its lanes is known by them (`eq_of_lanes`).
-/

namespace Mapae.Infra

/-- Lane `i` of a word with lanes of `k` bits. -/
def lane (k i w : Nat) : Nat := w >>> (k * i) % 2 ^ k

variable {k i j w v : Nat}

theorem lane_eq (k i w : Nat) : lane k i w = w / 2 ^ (k * i) % 2 ^ k := by
  rw [lane, Nat.shiftRight_eq_div_pow]

theorem lane_lt (k i w : Nat) : lane k i w < 2 ^ k := Nat.mod_lt _ (Nat.two_pow_pos k)

@[simp] theorem lane_zero (k i : Nat) : lane k i 0 = 0 := by simp [lane]

/-! ## Bits -/

theorem testBit_lane (k i w b : Nat) :
    (lane k i w).testBit b = (decide (b < k) && w.testBit (k * i + b)) := by
  rw [lane, Nat.testBit_mod_two_pow, Nat.testBit_shiftRight]

/-- A bit of one lane is no bit of another. -/
theorem lane_disjoint {b : Nat} (hb : b < k) (hij : i ≠ j) :
    k * j + b < k * i ∨ k * i + k ≤ k * j + b := by
  rcases Nat.lt_or_gt_of_ne hij with h | h
  · have hle := Nat.mul_le_mul_left k (show i + 1 ≤ j from h)
    rw [Nat.mul_add, Nat.mul_one] at hle
    exact Or.inr (by omega)
  · have hle := Nat.mul_le_mul_left k (show j + 1 ≤ i from h)
    rw [Nat.mul_add, Nat.mul_one] at hle
    exact Or.inl (by omega)

theorem lane_congr (h : ∀ b < k, w.testBit (k * i + b) = v.testBit (k * i + b)) :
    lane k i w = lane k i v := by
  refine Nat.eq_of_testBit_eq fun b => ?_
  rw [testBit_lane, testBit_lane]
  by_cases hb : b < k
  · rw [h b hb]
  · rw [decide_eq_false hb, Bool.false_and, Bool.false_and]

/-- Cutting a word above a lane leaves the lane. -/
theorem lane_mod {n : Nat} (hfits : k * i + k ≤ n) (w : Nat) :
    lane k i (w % 2 ^ n) = lane k i w := by
  refine lane_congr fun b hb => ?_
  rw [Nat.testBit_mod_two_pow, decide_eq_true (show k * i + b < n by omega), Bool.true_and]

/-- **A word is known by its lanes.** -/
theorem eq_of_lanes {m : Nat} (hw : w < 2 ^ (k * m)) (hv : v < 2 ^ (k * m))
    (h : ∀ i < m, lane k i w = lane k i v) : w = v := by
  refine Nat.eq_of_testBit_eq fun p => ?_
  by_cases hp : p < k * m
  · have hk : 0 < k := Nat.pos_of_ne_zero fun h0 => by
      rw [h0, Nat.zero_mul] at hp
      exact Nat.not_lt_zero p hp
    have hlane := congrArg (fun l => l.testBit (p % k)) (h (p / k) (Nat.div_lt_of_lt_mul hp))
    simpa only [testBit_lane, Nat.mod_lt p hk, decide_true, Bool.true_and, Nat.div_add_mod]
      using hlane
  · have hle : 2 ^ (k * m) ≤ 2 ^ p := Nat.pow_le_pow_right (by decide) (Nat.not_lt.mp hp)
    rw [Nat.testBit_lt_two_pow (by omega), Nat.testBit_lt_two_pow (by omega)]

/-! ## Writing a lane -/

theorem lane_or (k i w v : Nat) : lane k i (w ||| v) = lane k i w ||| lane k i v := by
  refine Nat.eq_of_testBit_eq fun b => ?_
  rw [testBit_lane, Nat.testBit_or, Nat.testBit_or, testBit_lane, testBit_lane]
  cases decide (b < k) <;> rfl

theorem lane_shift_self (hv : v < 2 ^ k) : lane k i (v <<< (k * i)) = v := by
  rw [lane, Nat.shiftLeft_shiftRight, Nat.mod_eq_of_lt hv]

theorem lane_shift_ne (hv : v < 2 ^ k) (hij : i ≠ j) : lane k j (v <<< (k * i)) = 0 := by
  refine Nat.eq_of_testBit_eq fun b => ?_
  rw [testBit_lane, Nat.testBit_shiftLeft, Nat.zero_testBit]
  by_cases hb : b < k
  · rcases lane_disjoint hb hij with h | h
    · rw [decide_eq_false (show ¬ k * j + b ≥ k * i by omega), Bool.false_and, Bool.and_false]
    · have hhigh : v.testBit (k * j + b - k * i) = false :=
        Nat.testBit_lt_two_pow (Nat.lt_of_lt_of_le hv
          (Nat.pow_le_pow_right (by decide) (by omega)))
      rw [hhigh, Bool.and_false, Bool.and_false]
  · rw [decide_eq_false hb, Bool.false_and]

/-- A whole word that is shifted by lanes keeps them. -/
theorem lane_shiftLeft (k i j w : Nat) : lane k (i + j) (w <<< (k * j)) = lane k i w := by
  rw [lane, lane, Nat.mul_add, Nat.add_comm, Nat.shiftRight_add, Nat.shiftLeft_shiftRight]

theorem lane_shiftLeft_below (hij : i < j) (w : Nat) : lane k i (w <<< (k * j)) = 0 := by
  obtain ⟨d, rfl⟩ := Nat.exists_eq_add_of_lt hij
  have hexp : 2 ^ (k * (i + d + 1)) = 2 ^ (k * i) * (2 ^ (k * d) * 2 ^ k) := by
    rw [← Nat.pow_add, ← Nat.pow_add]
    ring_nf
  rw [lane_eq, Nat.shiftLeft_eq, hexp, Nat.mul_left_comm,
    Nat.mul_div_cancel_left _ (Nat.two_pow_pos _), ← Nat.mul_assoc, Nat.mul_mod_left]

/-- **Or-ing a number into one lane leaves the others.** -/
theorem lane_or_shift (hv : v < 2 ^ k) (w i j : Nat) :
    lane k j (w ||| v <<< (k * i)) = if j = i then lane k i w ||| v else lane k j w := by
  rw [lane_or]
  split
  · next h => rw [h, lane_shift_self hv]
  · next h => rw [lane_shift_ne hv (Ne.symm h), Nat.or_zero]

/-- **Or-ing a list of numbers into consecutive lanes of an empty word puts each into its own.** -/
theorem lane_foldl_or (l : Nat) : ∀ (values : List Nat), (∀ v ∈ values, v < 2 ^ k) →
    ∀ start w, lane k l ((values.zipIdx start).foldl (fun w p => w ||| p.1 <<< (k * p.2)) w) =
      lane k l w ||| if start ≤ l then values.getD (l - start) 0 else 0
  | [], _, start, w => by simp
  | v :: values, hv, start, w => by
    rw [List.zipIdx_cons, List.foldl_cons,
      lane_foldl_or l values (fun x hx => hv x (List.mem_cons_of_mem _ hx)),
      lane_or_shift (hv v List.mem_cons_self)]
    by_cases hl : l = start
    · rw [if_pos hl, if_neg (by omega), if_pos (by omega), hl, Nat.sub_self, Nat.or_zero]
      rfl
    · rw [if_neg hl]
      by_cases hlt : start < l
      · obtain ⟨d, rfl⟩ := Nat.exists_eq_add_of_lt hlt
        rw [if_pos (by omega), if_pos (by omega), show start + d + 1 - (start + 1) = d by omega,
          show start + d + 1 - start = d + 1 by omega]
        rfl
      · rw [if_neg (by omega), if_neg (by omega)]

/-- Such a word is no longer than its lanes. -/
theorem foldl_or_lt {m : Nat} : ∀ (values : List Nat), (∀ v ∈ values, v < 2 ^ k) →
    ∀ start w, start + values.length ≤ m → w < 2 ^ (k * m) →
      (values.zipIdx start).foldl (fun w p => w ||| p.1 <<< (k * p.2)) w < 2 ^ (k * m)
  | [], _, _, _, _, hw => hw
  | v :: values, hv, start, w, hlength, hw => by
    rw [List.length_cons] at hlength
    rw [List.zipIdx_cons, List.foldl_cons]
    refine foldl_or_lt values (fun x hx => hv x (List.mem_cons_of_mem _ hx)) _ _ (by omega) ?_
    refine Nat.or_lt_two_pow hw ?_
    rw [Nat.shiftLeft_eq]
    calc v * 2 ^ (k * start) < 2 ^ k * 2 ^ (k * start) :=
          Nat.mul_lt_mul_of_pos_right (hv v List.mem_cons_self) (Nat.two_pow_pos _)
      _ = 2 ^ (k * (start + 1)) := by rw [← Nat.pow_add, Nat.mul_succ, Nat.add_comm]
      _ ≤ 2 ^ (k * m) := Nat.pow_le_pow_right (by decide) (Nat.mul_le_mul_left k (by omega))

/-- **Masking one lane out leaves the others.** -/
theorem lane_clear {n : Nat} (word : BitVec n) (hfits : k * i + k ≤ n) (j : Nat) :
    lane k j (word &&& ~~~(BitVec.ofNat n (2 ^ k - 1) <<< (k * i))).toNat =
      if j = i then 0 else lane k j word.toNat := by
  have hmask (p : Nat) : (BitVec.ofNat n (2 ^ k - 1) <<< (k * i)).getLsbD p =
      (decide (k * i ≤ p) && decide (p < k * i + k)) := by
    rw [BitVec.getLsbD_shiftLeft, BitVec.getLsbD_ofNat, Nat.testBit_two_pow_sub_one]
    by_cases h₁ : k * i ≤ p <;> by_cases h₂ : p < k * i + k <;> simp [h₁, h₂] <;> omega
  have hbit (p : Nat) : (word &&& ~~~(BitVec.ofNat n (2 ^ k - 1) <<< (k * i))).toNat.testBit p =
      (word.toNat.testBit p && !(decide (k * i ≤ p) && decide (p < k * i + k))) := by
    rw [BitVec.testBit_toNat, BitVec.testBit_toNat, BitVec.getLsbD_and, BitVec.getLsbD_not, hmask]
    by_cases hp : p < n
    · rw [decide_eq_true hp, Bool.true_and]
    · rw [BitVec.getLsbD_of_ge _ _ (Nat.not_lt.mp hp), Bool.false_and, Bool.false_and]
  split
  · next h =>
    refine Nat.eq_of_testBit_eq fun b => ?_
    rw [testBit_lane, hbit, h, Nat.zero_testBit]
    by_cases hb : b < k
    · simp [hb]
    · rw [decide_eq_false hb, Bool.false_and]
  · next h =>
    refine lane_congr fun b hb => ?_
    rw [hbit]
    rcases lane_disjoint hb (Ne.symm h) with hd | hd
    · rw [decide_eq_false (show ¬ k * i ≤ k * j + b by omega), Bool.false_and, Bool.not_false,
        Bool.and_true]
    · rw [decide_eq_false (show ¬ k * j + b < k * i + k by omega), Bool.and_false, Bool.not_false,
        Bool.and_true]

/-- **Adding to one lane carries into no other, as long as the lane has room.** -/
theorem lane_add_shift (hroom : lane k i w + v < 2 ^ k) (j : Nat) :
    lane k j (w + v <<< (k * i)) = if j = i then lane k i w + v else lane k j w := by
  have hpos (m : Nat) : 0 < 2 ^ m := Nat.two_pow_pos m
  rw [Nat.shiftLeft_eq]
  rcases Nat.lt_trichotomy j i with h | rfl | h
  · -- a lane below sees a multiple of its own size
    rw [if_neg (Nat.ne_of_lt h), lane_eq, lane_eq]
    obtain ⟨d, rfl⟩ := Nat.exists_eq_add_of_lt h
    have hexp : 2 ^ (k * (j + d + 1)) = 2 ^ (k * j) * (2 ^ (k * d) * 2 ^ k) := by
      rw [← Nat.pow_add, ← Nat.pow_add]
      ring_nf
    rw [hexp, show v * (2 ^ (k * j) * (2 ^ (k * d) * 2 ^ k)) =
      2 ^ (k * j) * (v * 2 ^ (k * d) * 2 ^ k) by ring, Nat.add_mul_div_left _ _ (hpos _),
      Nat.add_mul_mod_self_right]
  · rw [if_pos rfl, lane_eq, Nat.add_mul_div_right _ _ (hpos _), ← Nat.mod_add_mod, ← lane_eq,
      Nat.mod_eq_of_lt hroom]
  · -- a lane above sees no carry
    rw [if_neg (Nat.ne_of_gt h), lane_eq, lane_eq]
    obtain ⟨d, rfl⟩ := Nat.exists_eq_add_of_lt h
    have hsplit : w / 2 ^ (k * i) = 2 ^ k * (w / 2 ^ (k * i) / 2 ^ k) + lane k i w := by
      rw [lane_eq]
      exact (Nat.div_add_mod _ _).symm
    have hcarry : (w + v * 2 ^ (k * i)) / 2 ^ (k * i) / 2 ^ k = w / 2 ^ (k * i) / 2 ^ k := by
      rw [Nat.add_mul_div_right _ _ (hpos _), hsplit, Nat.add_assoc, Nat.mul_add_div (hpos _),
        Nat.div_eq_of_lt hroom, Nat.add_zero, Nat.mul_add_div (hpos _),
        Nat.div_eq_of_lt (lane_lt k i w), Nat.add_zero]
    have hexp : 2 ^ (k * (i + d + 1)) = 2 ^ (k * i) * 2 ^ k * 2 ^ (k * d) := by
      rw [← Nat.pow_add, ← Nat.pow_add]
      ring_nf
    rw [hexp, ← Nat.div_div_eq_div_mul, ← Nat.div_div_eq_div_mul, hcarry,
      ← Nat.div_div_eq_div_mul, ← Nat.div_div_eq_div_mul]

/-! ## Fixed-width words -/

/-- `(word >> (k * i)) & (2 ** k - 1)`. -/
theorem toNat_shift_and {n : Nat} (word : BitVec n) (hk : k ≤ n) (i : Nat) :
    ((word >>> (k * i)) &&& BitVec.ofNat n (2 ^ k - 1)).toNat = lane k i word.toNat := by
  have hmask : (2 ^ k - 1) % 2 ^ n = 2 ^ k - 1 :=
    Nat.mod_eq_of_lt (Nat.lt_of_lt_of_le (Nat.sub_lt (Nat.two_pow_pos k) Nat.one_pos)
      (Nat.pow_le_pow_right (by decide) hk))
  rw [BitVec.toNat_and, BitVec.toNat_ushiftRight, BitVec.toNat_ofNat, hmask,
    Nat.and_two_pow_sub_one_eq_mod, lane]

/-- `word & (2 ** k - 1)`. -/
theorem toNat_and_mask {n : Nat} (word : BitVec n) (hk : k ≤ n) :
    (word &&& BitVec.ofNat n (2 ^ k - 1)).toNat = lane k 0 word.toNat := by
  have h := toNat_shift_and word hk 0
  rwa [Nat.mul_zero, BitVec.ushiftRight_zero] at h

/-- A cast of `word >> (k * i)` to `k` bits. -/
theorem toNat_shift_setWidth {n : Nat} (word : BitVec n) (i : Nat) :
    ((word >>> (k * i)).setWidth k).toNat = lane k i word.toNat := by
  rw [BitVec.toNat_setWidth, BitVec.toNat_ushiftRight, lane]

/-- A number that is shifted into a lane of the word stays in the word. -/
theorem toNat_ofNat_shift {n : Nat} (hv : v < 2 ^ k) (hfits : k * i + k ≤ n) :
    (BitVec.ofNat n v <<< (k * i)).toNat = v <<< (k * i) := by
  have hlt : v <<< (k * i) < 2 ^ n := by
    rw [Nat.shiftLeft_eq]
    calc v * 2 ^ (k * i) < 2 ^ k * 2 ^ (k * i) :=
          Nat.mul_lt_mul_of_pos_right hv (Nat.two_pow_pos _)
      _ = 2 ^ (k * i + k) := by rw [← Nat.pow_add, Nat.add_comm]
      _ ≤ 2 ^ n := Nat.pow_le_pow_right (by decide) hfits
  have hsmall : v < 2 ^ n :=
    Nat.lt_of_lt_of_le hv (Nat.pow_le_pow_right (by decide) (by omega))
  rw [BitVec.toNat_shiftLeft, BitVec.toNat_ofNat, Nat.mod_eq_of_lt hsmall, Nat.mod_eq_of_lt hlt]

/-- **Replacing a lane of a word: the lane holds the number, the others are untouched.** -/
theorem lane_put {n : Nat} (word : BitVec n) (hv : v < 2 ^ k) (hfits : k * i + k ≤ n) (j : Nat) :
    lane k j ((word &&& ~~~(BitVec.ofNat n (2 ^ k - 1) <<< (k * i))) |||
      (BitVec.ofNat n v <<< (k * i))).toNat = if j = i then v else lane k j word.toNat := by
  rw [BitVec.toNat_or, toNat_ofNat_shift hv hfits, lane_or_shift hv, lane_clear word hfits,
    lane_clear word hfits, if_pos rfl, Nat.zero_or]
  split <;> rfl

end Mapae.Infra
