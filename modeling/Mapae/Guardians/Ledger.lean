import Mapae.Guardians.Growth
import Mathlib.Algebra.BigOperators.Group.List.Basic
import Mathlib.Data.List.Dedup

/-!
# The ledger of results

`GuardianLedger` is the seller's own table of the results it attests. `progress` sums the rows
of a token game by game. Once the token's results on chain are those of its rows, the contract
reports the same (`progress_agrees`).
-/

namespace Mapae.Guardians

open Mapae.Infra GuardiansStorage

/-- A row of the ledger: the collection in lower case, and the result of a paid admission. -/
structure StoredResult where
  collection : String
  result : Result

/-- The table. No payment has two rows. -/
structure GuardianLedger where
  rows : List StoredResult
  payment_unique : (rows.map fun row => row.result.paymentTx).Nodup

/-- The progress of one game. -/
structure GameProgress where
  plays : Nat
  victories : Nat
  bestScore : Nat

structure LedgerProgress where
  plays : Nat
  victories : Nat
  experience : Nat
  level : Nat
  games : List GameProgress

def emptyProgress : LedgerProgress := ⟨0, 0, 0, 1, List.replicate 3 ⟨0, 0, 0⟩⟩

/-- One row of `GROUP BY game`: `COUNT(*)`, `SUM(victory)` and `MAX(score)`. -/
def gameProgress (rows : List Result) (game : Nat) : GameProgress :=
  let own := rows.filter fun r => r.game = game
  { plays := own.length
    victories := (own.map fun r => if r.victory then 1 else 0).sum
    bestScore := (own.map Result.score).foldr max 0 }

/-- The groups, each with its game. -/
def groups (rows : List Result) : List (Nat × GameProgress) :=
  (rows.map Result.game).dedup.map fun game => (game, gameProgress rows game)

/-- The loop over the groups. -/
def addGroup (result : LedgerProgress) (row : Nat × GameProgress) : LedgerProgress :=
  { result with
    games := result.games.set row.1 row.2
    plays := result.plays + row.2.plays
    victories := result.victories + row.2.victories }

namespace GuardianLedger

/-- The results of the rows of a token. -/
def resultsOf (l : GuardianLedger) (collection : String) (tokenId : Nat) : List Result :=
  (l.rows.filter fun row =>
    row.collection = collection.toLower ∧ row.result.tokenId = tokenId).map StoredResult.result

def progress (l : GuardianLedger) (collection : String) (tokenId : Nat) : LedgerProgress :=
  let result := (groups (l.resultsOf collection tokenId)).foldl addGroup emptyProgress
  let experience := result.plays * 10 + result.victories * 5
  { result with experience := experience, level := 1 + experience / 100 }

end GuardianLedger

/-! ## Sums by key -/

theorem sum_ite_of_mem {keys : List Nat} (hnodup : keys.Nodup) {key : Nat} (hmem : key ∈ keys)
    (x : Nat) : (keys.map fun k => if key = k then x else 0).sum = x := by
  induction keys with
  | nil => exact nomatch hmem
  | cons k keys ih =>
    obtain ⟨hk, hkeys⟩ := List.nodup_cons.mp hnodup
    rw [List.map_cons, List.sum_cons]
    by_cases he : key = k
    · have hzero : (keys.map fun k => if key = k then x else 0) = keys.map fun _ => 0 :=
        List.map_congr_left fun k' hk' => if_neg fun h => hk (he.symm.trans h ▸ hk')
      rw [if_pos he, hzero]
      simp
    · rw [if_neg he, Nat.zero_add]
      exact ih hkeys ((List.mem_cons.mp hmem).resolve_left he)

/-- **A sum over rows is the sum over the groups of the sums in each of them.** -/
theorem sum_groups {keys : List Nat} (hnodup : keys.Nodup) (f : Result → Nat) :
    ∀ {rows : List Result}, (∀ r ∈ rows, r.game ∈ keys) →
      (keys.map fun k => ((rows.filter fun r => r.game = k).map f).sum).sum = (rows.map f).sum
  | [], _ => by simp
  | r :: rows, hmem => by
    have hsplit (k : Nat) : (((r :: rows).filter fun r => r.game = k).map f).sum =
        (if r.game = k then f r else 0) + ((rows.filter fun r => r.game = k).map f).sum := by
      rw [List.filter_cons]
      simp only [decide_eq_true_eq]
      split
      · rw [List.map_cons, List.sum_cons]
      · rw [Nat.zero_add]
    simp only [hsplit]
    rw [List.sum_map_add, sum_ite_of_mem hnodup (hmem r List.mem_cons_self),
      sum_groups hnodup f fun x hx => hmem x (List.mem_cons_of_mem _ hx), List.map_cons,
      List.sum_cons]

/-! ## What the loop computes -/

theorem set_games (w : Nat → GameProgress) (k : Nat) (x : GameProgress) :
    ([0, 1, 2].map w).set k x = [0, 1, 2].map fun i => if i = k then x else w i := by
  match k with
  | 0 | 1 | 2 => rfl
  | k + 3 => rfl

theorem foldl_addGroup (v : Nat → GameProgress) : ∀ (keys : List Nat) (w : Nat → GameProgress)
    (plays victories experience level : Nat),
    (keys.map fun k => (k, v k)).foldl addGroup
        ⟨plays, victories, experience, level, [0, 1, 2].map w⟩ =
      ⟨plays + (keys.map fun k => (v k).plays).sum,
        victories + (keys.map fun k => (v k).victories).sum, experience, level,
        [0, 1, 2].map fun i => if i ∈ keys then v i else w i⟩
  | [], _, _, _, _, _ => rfl
  | k :: keys, w, plays, victories, experience, level => by
    have hstep : addGroup ⟨plays, victories, experience, level, [0, 1, 2].map w⟩ (k, v k) =
        ⟨plays + (v k).plays, victories + (v k).victories, experience, level,
          [0, 1, 2].map fun i => if i = k then v k else w i⟩ := by
      unfold addGroup
      rw [set_games]
    have hgames (i : Nat) : (if i ∈ keys then v i else if i = k then v k else w i) =
        if i ∈ k :: keys then v i else w i := by
      by_cases hk : i = k
      · rw [hk, if_pos rfl, if_pos List.mem_cons_self, ite_self]
      · simp only [List.mem_cons, hk, false_or, if_false]
    show (keys.map fun k => (k, v k)).foldl addGroup (addGroup _ (k, v k)) = _
    rw [hstep, foldl_addGroup v keys]
    simp only [hgames]
    exact congrArg₂ (fun plays victories => LedgerProgress.mk plays victories _ _ _)
      (Nat.add_assoc ..) (Nat.add_assoc ..)

theorem foldl_groups (rows : List Result) :
    (groups rows).foldl addGroup emptyProgress =
      ⟨rows.length, (rows.map fun r => if r.victory then 1 else 0).sum, 0, 1,
        [0, 1, 2].map (gameProgress rows)⟩ := by
  have hnodup := List.nodup_dedup (rows.map Result.game)
  have hmem : ∀ r ∈ rows, r.game ∈ (rows.map Result.game).dedup := fun r hr =>
    List.mem_dedup.mpr (List.mem_map_of_mem hr)
  have hplays : ((rows.map Result.game).dedup.map fun k => (gameProgress rows k).plays).sum =
      rows.length := by
    have hsum := sum_groups hnodup (fun _ => 1) hmem
    simpa [gameProgress] using hsum
  have hvictories := sum_groups hnodup (fun r => if r.victory then 1 else 0) hmem
  have hempty (i : Nat) (hi : i ∉ (rows.map Result.game).dedup) :
      gameProgress rows i = ⟨0, 0, 0⟩ := by
    have hfilter : (rows.filter fun r => r.game = i) = [] :=
      List.filter_eq_nil_iff.mpr fun r hr he => hi (of_decide_eq_true he ▸ hmem r hr)
    unfold gameProgress
    rw [hfilter]
    rfl
  have hloop := foldl_addGroup (gameProgress rows) (rows.map Result.game).dedup
    (fun _ => ⟨0, 0, 0⟩) 0 0 0 1
  refine hloop.trans ?_
  rw [Nat.zero_add, Nat.zero_add, hplays]
  refine congrArg₂ (fun victories games => LedgerProgress.mk _ victories 0 1 games) hvictories ?_
  refine List.map_congr_left fun i _ => ?_
  split
  · rfl
  · next hi => exact (hempty i hi).symm

theorem GuardianLedger.progress_eq (l : GuardianLedger) (collection : String) (id : Nat) :
    (l.progress collection id).plays = (l.resultsOf collection id).length ∧
    (l.progress collection id).victories =
      ((l.resultsOf collection id).map fun r => if r.victory then 1 else 0).sum ∧
    (l.progress collection id).experience =
      (l.progress collection id).plays * 10 + (l.progress collection id).victories * 5 ∧
    (l.progress collection id).games =
      [0, 1, 2].map (gameProgress (l.resultsOf collection id)) := by
  unfold GuardianLedger.progress
  rw [foldl_groups]
  exact ⟨rfl, rfl, rfl, rfl⟩

/-! ## The ledger and the chain -/

section Agreement

variable {erc : Erc721} {s : GuardiansStorage erc}

/-- What the contract and the ledger both report is the same. -/
structure Agrees (p : Progress) (q : LedgerProgress) : Prop where
  plays : p.plays = q.plays
  victories : p.victories = q.victories
  experience : p.experience = q.experience
  gamePlays : p.gamePlays = q.games.map GameProgress.plays
  gameVictories : p.gameVictories = q.games.map GameProgress.victories
  bestScores : p.bestScores = q.games.map GameProgress.bestScore

/-- What was applied of a token's results, game by game. -/
theorem gameProgress_eq {rows results : List Result} {id : Nat}
    (hperm : rows.Perm (results.filter fun r => r.tokenId = id)) (game : Nat) :
    gameProgress rows game =
      ⟨plays results id game, victories results id game, best results id game⟩ := by
  have hown : (rows.filter fun r => r.game = game).Perm
      (results.filter fun r => r.tokenId = id ∧ r.game = game) := by
    refine (hperm.filter _).trans (List.Perm.of_eq ?_)
    rw [List.filter_filter]
    refine List.filter_congr fun r _ => ?_
    rw [Bool.decide_and, Bool.and_comm]
  have hvictories : ((results.filter fun r => r.tokenId = id ∧ r.game = game).map
      fun r => if r.victory then 1 else 0).sum = victories results id game := by
    have hcount (xs : List Result) :
        (xs.map fun r => if r.victory then 1 else 0).sum = xs.countP Result.victory := by
      induction xs with
      | nil => rfl
      | cons x xs ih => rw [List.map_cons, List.sum_cons, List.countP_cons, ih, Nat.add_comm]
    rw [hcount, List.countP_filter, victories]
    refine List.countP_congr fun r _ => ?_
    simp only [Bool.and_eq_true, decide_eq_true_eq]
    exact ⟨fun h => ⟨h.2.1, h.2.2, h.1⟩, fun h => ⟨h.2.2, h.1, h.2.1⟩⟩
  unfold gameProgress
  dsimp only
  rw [hown.length_eq, (hown.map _).sum_nat, hvictories,
    List.Perm.foldr_op_eq (hown.map Result.score), plays, List.countP_eq_length_filter]
  rfl

/-- The lanes that the contract decodes. -/
theorem progressOf_games (hinv : GrowthInvariant s) {id : Nat} (hfits : FitsLanes s.applied id) :
    (progressOf (s.growth id) (s.honors id)).gamePlays = [0, 1, 2].map (plays s.applied id) ∧
    (progressOf (s.growth id) (s.honors id)).gameVictories =
      [0, 1, 2].map (victories s.applied id) ∧
    (progressOf (s.growth id) (s.honors id)).bestScores = [0, 1, 2].map (best s.applied id) := by
  have hcounter (l : Nat) (hl : l < 7) :
      (((s.growth id).counters >>> (40 * l)) &&& 0xffffffffff#256).toNat =
        counterLane s.applied id l :=
    (toNat_shift_and (k := 40) _ (by decide) l).trans (hinv.counters id hfits l hl)
  have hscore (l : Nat) (hl : l < 8) :
      (((s.growth id).bestScores >>> (32 * l)).setWidth 32).toNat = scoreLane s.applied id l :=
    (toNat_shift_setWidth (k := 32) _ l).trans (hinv.scores id l hl)
  refine ⟨?_, ?_, ?_⟩
  · refine List.map_congr_left fun g hg => ?_
    have hlt : g < 3 := by simp at hg; omega
    rw [counters_shift, hcounter g (by omega), counterLane, if_pos hlt]
  · refine List.map_congr_left fun g hg => ?_
    have hlt : g < 3 := by simp at hg; omega
    rw [counters_shift, hcounter (g + 3) (by omega), counterLane, if_neg (by omega),
      if_pos (by omega), Nat.add_sub_cancel]
  · refine List.map_congr_left fun g hg => ?_
    have hlt : g < 3 := by simp at hg; omega
    rw [scores_shift, hscore g (by omega), scoreLane, if_pos hlt]

/-- **When the results of a token on chain are those of its rows, the contract reports what the
ledger does.** -/
theorem progress_agrees (hinv : GrowthInvariant s) {l : GuardianLedger} {collection : String}
    {id : Nat} (hfits : FitsLanes s.applied id)
    (hclaimed : ∀ r, r ∈ l.resultsOf collection id ↔ r ∈ s.applied ∧ r.tokenId = id) :
    Agrees (progressOf (s.growth id) (s.honors id)) (l.progress collection id) := by
  have hrows : (l.resultsOf collection id).Nodup := by
    refine List.Nodup.of_map Result.paymentTx (List.Nodup.sublist ?_ l.payment_unique)
    rw [GuardianLedger.resultsOf, List.map_map]
    exact List.Sublist.map _ List.filter_sublist
  have hperm : (l.resultsOf collection id).Perm (s.applied.filter fun r => r.tokenId = id) := by
    refine (List.perm_ext_iff_of_nodup hrows (hinv.nodup.of_map.filter _)).mpr fun r => ?_
    rw [hclaimed, List.mem_filter, decide_eq_true_eq]
  have hgames : ∀ r ∈ l.resultsOf collection id, r.game ∈ [0, 1, 2] := fun r hr => by
    have := hinv.game_le r ((hclaimed r).mp hr).1
    simp only [List.mem_cons, List.not_mem_nil, or_false]
    omega
  have hgroup := gameProgress_eq hperm
  have hkeys : [0, 1, 2].Nodup := by decide
  have hplays : ([0, 1, 2].map (plays s.applied id)).sum = (l.resultsOf collection id).length := by
    have hgame (k : Nat) : plays s.applied id k =
        (((l.resultsOf collection id).filter fun r => r.game = k).map fun _ => 1).sum := by
      refine (congrArg GameProgress.plays (hgroup k)).symm.trans ?_
      simp [gameProgress]
    rw [funext hgame, sum_groups hkeys (fun _ => 1) hgames]
    simp
  have hvictories : ([0, 1, 2].map (victories s.applied id)).sum =
      ((l.resultsOf collection id).map fun r => if r.victory then 1 else 0).sum := by
    have hgame (k : Nat) : victories s.applied id k = (((l.resultsOf collection id).filter
        fun r => r.game = k).map fun r => if r.victory then 1 else 0).sum :=
      (congrArg GameProgress.victories (hgroup k)).symm
    rw [funext hgame, sum_groups hkeys (fun r => if r.victory then 1 else 0) hgames]
  obtain ⟨hgamePlays, hgameVictories, hbestScores⟩ := progressOf_games hinv hfits
  have hp : (progressOf (s.growth id) (s.honors id)).plays =
      (l.resultsOf collection id).length := by
    rw [← hplays, ← hgamePlays]
    rfl
  have hv : (progressOf (s.growth id) (s.honors id)).victories =
      ((l.resultsOf collection id).map fun r => if r.victory then 1 else 0).sum := by
    rw [← hvictories, ← hgameVictories]
    rfl
  obtain ⟨hlplays, hlvictories, hlexperience, hlgames⟩ := l.progress_eq collection id
  have hexperience : (progressOf (s.growth id) (s.honors id)).experience =
      10 * (progressOf (s.growth id) (s.honors id)).plays +
        5 * (progressOf (s.growth id) (s.honors id)).victories := rfl
  exact
    { plays := hp.trans hlplays.symm
      victories := hv.trans hlvictories.symm
      experience := by
        rw [hexperience, hlexperience, hlplays, hlvictories, hp, hv, Nat.mul_comm 10, Nat.mul_comm 5]
      gamePlays := by
        rw [hgamePlays, hlgames, funext hgroup]
        rfl
      gameVictories := by
        rw [hgameVictories, hlgames, funext hgroup]
        rfl
      bestScores := by
        rw [hbestScores, hlgames, funext hgroup]
        rfl }

end Agreement

end Mapae.Guardians
