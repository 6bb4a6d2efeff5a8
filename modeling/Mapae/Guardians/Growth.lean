import Mathlib.Data.List.Perm.Basic
import Mapae.Guardians.Calls

/-!
# Growth

The results that were applied determine the growth of every token: lane `g` of its counters is
how often game `g` was played, lane `3 + g` how often it was won, and lane `g` of its best
scores is the greatest score. The counts need lanes that hold them, which is assumed of the
number of results and not checked by the contract.
-/

namespace Mapae.Guardians

open Mapae.Infra GuardiansStorage

variable {erc : Erc721} {hashes : Hashes}

/-! ## What results amount to -/

/-- How often a token played a game. -/
def plays (results : List Result) (id game : Nat) : Nat :=
  results.countP fun r => r.tokenId = id ∧ r.game = game

/-- How often it won. -/
def victories (results : List Result) (id game : Nat) : Nat :=
  results.countP fun r => r.tokenId = id ∧ r.game = game ∧ r.victory = true

/-- Its greatest score; zero before the first result. -/
def best (results : List Result) (id game : Nat) : Nat :=
  ((results.filter fun r => r.tokenId = id ∧ r.game = game).map Result.score).foldr max 0

/-- The lane of every count: plays below three, victories below six. -/
def counterLane (results : List Result) (id l : Nat) : Nat :=
  if l < 3 then plays results id l else if l < 6 then victories results id (l - 3) else 0

def scoreLane (results : List Result) (id l : Nat) : Nat :=
  if l < 3 then best results id l else 0

/-- No game was played more often than a lane can count. -/
def FitsLanes (results : List Result) (id : Nat) : Prop := ∀ game < 3, plays results id game < 2 ^ 40

/-- What the results of a token add to its counters. -/
def total (results : List Result) (id : Nat) : Nat :=
  ((results.filter fun r => r.tokenId = id).map fun r => (countersOf r).toNat).sum

theorem victories_le_plays (results : List Result) (id game : Nat) :
    victories results id game ≤ plays results id game :=
  List.countP_mono_left fun r _ h => by
    simp only [decide_eq_true_eq] at h ⊢
    exact ⟨h.1, h.2.1⟩

section Cons

variable (r : Result) (results : List Result) (id game : Nat)

theorem plays_cons : plays (r :: results) id game =
    plays results id game + if r.tokenId = id ∧ r.game = game then 1 else 0 := by
  simp only [plays, List.countP_cons, decide_eq_true_eq]

theorem victories_cons : victories (r :: results) id game = victories results id game +
    if r.tokenId = id ∧ r.game = game ∧ r.victory = true then 1 else 0 := by
  simp only [victories, List.countP_cons, decide_eq_true_eq]

theorem best_cons : best (r :: results) id game =
    if r.tokenId = id ∧ r.game = game then max r.score (best results id game)
    else best results id game := by
  unfold best
  rw [List.filter_cons]
  simp only [decide_eq_true_eq]
  split <;> rfl

theorem total_cons : total (r :: results) id =
    if r.tokenId = id then (countersOf r).toNat + total results id else total results id := by
  unfold total
  rw [List.filter_cons]
  simp only [decide_eq_true_eq]
  split <;> rfl

end Cons

section Perm

variable {xs ys : List Result} (h : xs.Perm ys) (id : Nat)
include h

theorem scoreLane_perm (l : Nat) : scoreLane xs id l = scoreLane ys id l := by
  have hbest : best xs id l = best ys id l :=
    List.Perm.foldr_op_eq ((h.filter _).map Result.score)
  rw [scoreLane, hbest, scoreLane]

theorem total_perm : total xs id = total ys id :=
  ((h.filter _).map fun r => (countersOf r).toNat).sum_nat

end Perm

/-! ## The packed words -/

theorem counters_shift (game : Nat) : game * 40 = 40 * game := Nat.mul_comm ..

theorem scores_shift (game : Nat) : game <<< 5 = 32 * game := by
  rw [Nat.shiftLeft_eq, Nat.mul_comm]

/-- The two bits that a result adds. -/
theorem toNat_countersOf {r : Result} (hgame : r.game ≤ 2) : (countersOf r).toNat =
    1 <<< (40 * r.game) + (if r.victory then 1 else 0) <<< (40 * (r.game + 3)) := by
  unfold countersOf
  obtain h | h | h : r.game = 0 ∨ r.game = 1 ∨ r.game = 2 := by omega
  all_goals
    rw [h]
    cases r.victory <;> decide

/-- **A result adds one to its play and, when it was won, to its victory.** -/
theorem lane_counters {c : Word} {r : Result} (hgame : r.game ≤ 2)
    (hfits : c.toNat + (countersOf r).toNat < 2 ^ 256)
    (hplays : lane 40 r.game c.toNat + 1 < 2 ^ 40)
    (hvictories : lane 40 (r.game + 3) c.toNat + 1 < 2 ^ 40) (l : Nat) :
    lane 40 l (c + countersOf r).toNat = lane 40 l c.toNat +
      (if l = r.game then 1 else 0) + (if l = r.game + 3 ∧ r.victory = true then 1 else 0) := by
  have hsum : (c + countersOf r).toNat = c.toNat + 1 <<< (40 * r.game) +
      (if r.victory then 1 else 0) <<< (40 * (r.game + 3)) := by
    rw [BitVec.toNat_add, Nat.mod_eq_of_lt hfits, toNat_countersOf hgame, Nat.add_assoc]
  have hfirst (j : Nat) : lane 40 j (c.toNat + 1 <<< (40 * r.game)) =
      if j = r.game then lane 40 r.game c.toNat + 1 else lane 40 j c.toNat :=
    lane_add_shift hplays j
  have hbit : (if r.victory then 1 else 0) ≤ 1 := by split <;> omega
  have hroom : lane 40 (r.game + 3) (c.toNat + 1 <<< (40 * r.game)) +
      (if r.victory then 1 else 0) < 2 ^ 40 := by
    rw [hfirst, if_neg (by omega)]
    omega
  rw [hsum, lane_add_shift hroom, hfirst, hfirst, if_neg (show ¬ r.game + 3 = r.game by omega)]
  by_cases h₁ : l = r.game + 3
  · rw [if_pos h₁, if_neg (show ¬ l = r.game by omega), h₁]
    cases r.victory <;> simp
  · rw [if_neg h₁, if_neg (show ¬ (l = r.game + 3 ∧ r.victory = true) from fun h => h₁ h.1)]
    split
    · next h => rw [h]
    · rfl

/-- **A result raises its score lane to its score.** -/
theorem lane_scores {scores : Word} {r : Result} (hgame : r.game ≤ 2) (hscore : r.score ≤ MAX_SCORE)
    (l : Nat) : lane 32 l (bestScoresWith scores r).toNat =
      if l = r.game then max r.score (lane 32 l scores.toNat) else lane 32 l scores.toNat := by
  have hbound : r.score < 2 ^ 32 := Nat.lt_of_le_of_lt hscore (by decide)
  have hread : ((scores >>> (32 * r.game)).setWidth 32).toNat = lane 32 r.game scores.toNat :=
    toNat_shift_setWidth scores r.game
  unfold bestScoresWith
  simp only [scores_shift, hread]
  split
  · next hgt =>
    have hput := lane_put scores (i := r.game) hbound (by omega) l
    refine hput.trans ?_
    split
    · next h => rw [h, Nat.max_eq_left (by omega)]
    · rfl
  · next hle =>
    split
    · next h => rw [h, Nat.max_eq_right (by omega)]
    · rfl

/-! ## The invariant -/

structure GrowthInvariant (s : GuardiansStorage erc) : Prop where
  claimed : ∀ tx, s.claimedPayments tx = true ↔ ∃ r ∈ s.applied, r.paymentTx = tx
  /-- No payment grew twice. -/
  nodup : (s.applied.map Result.paymentTx).Nodup
  game_le : ∀ r ∈ s.applied, r.game ≤ 2
  total : ∀ id, (s.growth id).counters.toNat = total s.applied id
  counters : ∀ id, FitsLanes s.applied id → ∀ l < 7,
    lane 40 l (s.growth id).counters.toNat = counterLane s.applied id l
  scores : ∀ id, ∀ l < 8,
    lane 32 l (s.growth id).bestScores.toNat = scoreLane s.applied id l

namespace GrowthInvariant

variable {s s' : GuardiansStorage erc}

theorem of_deployed (h : Deployed s) : GrowthInvariant s where
  claimed tx := by
    rw [h.claimedPayments, h.applied]
    simp
  nodup := by rw [h.applied]; exact List.nodup_nil
  game_le r hr := by
    rw [h.applied] at hr
    exact nomatch hr
  total id := by
    rw [h.growth, h.applied]
    rfl
  counters id _ l _ := by
    rw [h.growth, h.applied]
    refine (lane_zero 40 l).trans ?_
    simp [counterLane, plays, victories]
  scores id l _ := by
    rw [h.growth, h.applied]
    refine (lane_zero 32 l).trans ?_
    simp [scoreLane, best]

/-- The invariant reads the growth, the claimed payments and the applied results. -/
theorem congr (hinv : GrowthInvariant s) (hgrowth : s'.growth = s.growth)
    (hclaimed : s'.claimedPayments = s.claimedPayments) (happlied : s'.applied = s.applied) :
    GrowthInvariant s' where
  claimed tx := by rw [hclaimed, happlied]; exact hinv.claimed tx
  nodup := by rw [happlied]; exact hinv.nodup
  game_le := by rw [happlied]; exact hinv.game_le
  total id := by rw [hgrowth, happlied]; exact hinv.total id
  counters id := by rw [hgrowth, happlied]; exact hinv.counters id
  scores id := by rw [hgrowth, happlied]; exact hinv.scores id

/-- **A fresh result is counted, in its own lanes.** -/
theorem grown (hinv : GrowthInvariant s) {r : Result} (hgame : r.game ≤ 2)
    (hscore : r.score ≤ MAX_SCORE) (hfresh : s.claimedPayments r.paymentTx = false)
    (hfits : (s.growth r.tokenId).counters.toNat + (countersOf r).toNat < 2 ^ 256) :
    GrowthInvariant (s.grown r) where
  claimed tx := by
    show Function.update s.claimedPayments r.paymentTx true tx = true ↔
      ∃ x ∈ r :: s.applied, x.paymentTx = tx
    rw [Function.update_apply]
    by_cases h : tx = r.paymentTx
    · rw [if_pos h]
      exact ⟨fun _ => ⟨r, List.mem_cons_self, h.symm⟩, fun _ => rfl⟩
    · rw [if_neg h, hinv.claimed]
      simp [Ne.symm h]
  nodup := by
    refine List.nodup_cons.mpr ⟨fun hmem => ?_, hinv.nodup⟩
    obtain ⟨x, hx, he⟩ := List.mem_map.mp hmem
    have hclaimed := (hinv.claimed r.paymentTx).mpr ⟨x, hx, he⟩
    rw [hfresh] at hclaimed
    exact nomatch hclaimed
  game_le x hx := by
    rcases List.mem_cons.mp hx with rfl | hx
    · exact hgame
    · exact hinv.game_le x hx
  total id := by
    show (Function.update s.growth r.tokenId _ id).counters.toNat = Guardians.total (r :: s.applied) id
    rw [Function.update_apply, total_cons]
    by_cases hid : id = r.tokenId
    · rw [if_pos hid, if_pos hid.symm, ← hinv.total id, hid]
      show ((s.growth r.tokenId).counters + countersOf r).toNat = _
      rw [BitVec.toNat_add, Nat.mod_eq_of_lt hfits, Nat.add_comm]
    · rw [if_neg hid, if_neg (Ne.symm hid)]
      exact hinv.total id
  counters id hlanes l hl := by
    show lane 40 l (Function.update s.growth r.tokenId _ id).counters.toNat =
      counterLane (r :: s.applied) id l
    have hbefore : FitsLanes s.applied id := fun game hg => by
      have := hlanes game hg
      rw [show (s.grown r).applied = r :: s.applied from rfl, plays_cons] at this
      omega
    have hold := hinv.counters id hbefore
    rw [Function.update_apply]
    by_cases hid : id = r.tokenId
    · rw [if_pos hid, ← hid]
      have hcount := hlanes r.game (by omega)
      rw [show (s.grown r).applied = r :: s.applied from rfl, plays_cons,
        if_pos ⟨hid.symm, rfl⟩] at hcount
      have hplays := hold r.game (by omega)
      have hvictories := hold (r.game + 3) (by omega)
      have hle := victories_le_plays s.applied id r.game
      rw [counterLane, if_pos (by omega)] at hplays
      rw [counterLane, if_neg (by omega), if_pos (by omega), Nat.add_sub_cancel] at hvictories
      rw [lane_counters hgame (hid ▸ hfits) (by omega) (by omega), hold l hl]
      unfold counterLane
      split
      · next h₃ =>
        rw [plays_cons, if_neg (show ¬ (l = r.game + 3 ∧ r.victory = true) by omega), Nat.add_zero]
        by_cases hg : l = r.game
        · rw [if_pos hg, if_pos ⟨hid.symm, hg.symm⟩]
        · rw [if_neg hg, if_neg fun h => hg h.2.symm]
      · next h₃ =>
        rw [if_neg (show ¬ l = r.game by omega), Nat.add_zero]
        split
        · rw [victories_cons]
          by_cases hg : l = r.game + 3 ∧ r.victory = true
          · rw [if_pos hg, if_pos ⟨hid.symm, by omega, hg.2⟩]
          · rw [if_neg hg, if_neg fun h => hg ⟨by omega, h.2.2⟩]
        · rw [if_neg (show ¬ (l = r.game + 3 ∧ r.victory = true) by omega)]
    · have hno {P : Prop} : ¬ (r.tokenId = id ∧ P) := fun h => hid h.1.symm
      rw [if_neg hid, hold l hl]
      simp only [counterLane, plays_cons, victories_cons, if_neg hno, Nat.add_zero]
  scores id l hl := by
    show lane 32 l (Function.update s.growth r.tokenId _ id).bestScores.toNat =
      scoreLane (r :: s.applied) id l
    have hold := hinv.scores id l hl
    rw [Function.update_apply]
    by_cases hid : id = r.tokenId
    · rw [if_pos hid, ← hid]
      rw [lane_scores hgame hscore, hold]
      unfold scoreLane
      by_cases hg : l = r.game
      · rw [if_pos hg, if_pos (by omega), if_pos (by omega), best_cons,
          if_pos ⟨hid.symm, hg.symm⟩]
      · have hother : ¬ (r.tokenId = id ∧ r.game = l) := fun h => hg h.2.symm
        rw [if_neg hg, best_cons, if_neg hother]
    · have hno {P : Prop} : ¬ (r.tokenId = id ∧ P) := fun h => hid h.1.symm
      rw [if_neg hid, hold]
      simp only [scoreLane, best_cons, if_neg hno]

/-- **A claim keeps the invariant: it grows by checked results that are fresh.** -/
theorem claim (hinv : GrowthInvariant s) {c : ClaimCall hashes} {n : Nat}
    (h : s.claim hashes c = .ok (n, s')) : GrowthInvariant s' := by
  refine claim_invariant (P := GrowthInvariant) (fun s r signature done s' hinv hr => ?_)
    (fun s e signature done s' hinv he => ?_) hinv h
  · obtain ⟨hcheck, hr⟩ := result_eq_ok hr
    obtain ⟨hgame, hscore⟩ := bounds_of_checkResult hcheck
    split at hr
    · exact hr.2 ▸ hinv
    · next hfresh =>
      obtain ⟨-, rfl, hfits⟩ := hr
      exact hinv.grown hgame hscore (Bool.eq_false_iff.mpr hfresh) hfits
  · obtain ⟨-, he⟩ := honor_eq_ok he
    split at he
    · exact he.2 ▸ hinv
    · exact he.2 ▸ hinv.congr rfl rfl rfl

/-- **The growth does not depend on the order of the results.** -/
theorem growth_of_perm (hinv : GrowthInvariant s) (hinv' : GrowthInvariant s')
    (h : s.applied.Perm s'.applied) : s.growth = s'.growth := by
  funext id
  have hcounters : (s.growth id).counters = (s'.growth id).counters := by
    apply BitVec.eq_of_toNat_eq
    rw [hinv.total, hinv'.total, total_perm h]
  have hscores : (s.growth id).bestScores = (s'.growth id).bestScores := by
    apply BitVec.eq_of_toNat_eq
    refine eq_of_lanes (k := 32) (m := 8) (BitVec.isLt _) (BitVec.isLt _) fun l hl => ?_
    rw [hinv.scores id l hl, hinv'.scores id l hl, scoreLane_perm h]
  exact congrArg₂ Growth.mk hcounters hscores

end GrowthInvariant

end Mapae.Guardians
