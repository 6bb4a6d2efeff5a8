import Mapae.Ranking.Leaderboard
import Mapae.Ranking.Season
import Mathlib.Data.Int.Interval

/-!
# What season points are

The query adds up places; the plain definition adds up what the rank of a guardian on each day's
board is worth.

* `shareRanks_spec` says that a shared rank counts the rows strictly above
* `seasonBoard` is the day's board under the highest ruleset settled for the game and the day
* `points_eq` connects the query with the boards
-/

namespace Mapae.Ranking

open Mapae.Infra

/-! ## Shared ranks -/

section Shared

variable {α : Type} {score tie : α → Nat} {rows : List α}

/-- The loop, after the rows `done` above. -/
theorem shareRanks_spec : ∀ (rows done : List α) (above : Option (Nat × Nat)),
    (done ++ rows).Pairwise (fun a b => score b ≤ score a) →
    above = done.getLast?.map (fun x => (score x, 1 + done.countP fun y => score x < score y)) →
    ∀ p ∈ shareRanks score done.length above rows,
      p.2 = 1 + (done ++ rows).countP fun y => score p.1 < score y
  | [], _, _, _, _, _, hp => nomatch hp
  | row :: rows, done, above, hsorted, habove, p, hp => by
    obtain ⟨-, hrest, hdone⟩ := List.pairwise_append.mp hsorted
    have hbelow : (row :: rows).countP (fun y => score row < score y) = 0 := by
      refine List.countP_eq_zero.mpr fun y hy => ?_
      rcases List.mem_cons.mp hy with rfl | hy
      · simp
      · simpa using (List.pairwise_cons.mp hrest).1 y hy
    -- The row shares the place of the last row above it, or comes after all of them.
    have hrank : sharedPlace done.length above (score row) =
        1 + done.countP fun y => score row < score y := by
      rw [habove]
      cases hlast : done.getLast? with
      | none =>
        rw [List.getLast?_eq_none_iff.mp hlast]
        rfl
      | some last =>
        have hmem : last ∈ done := List.mem_of_getLast? hlast
        by_cases he : score last = score row
        · simp only [sharedPlace, Option.map_some, he, if_true]
        · have hall : done.countP (fun y => score row < score y) = done.length := by
            refine List.countP_eq_length.mpr fun y hy => decide_eq_true ?_
            have hrow := hdone last hmem row List.mem_cons_self
            obtain ⟨init, rfl⟩ : ∃ init, done = init ++ [last] :=
              ⟨done.dropLast, (List.dropLast_append_getLast? _ hlast).symm⟩
            rcases List.mem_append.mp hy with hy' | hy'
            · have := (List.pairwise_append.mp (List.pairwise_append.mp hsorted).1).2.2 y hy' last
                (List.mem_singleton_self last)
              omega
            · rw [List.mem_singleton.mp hy']
              omega
          simp only [sharedPlace, Option.map_some, if_neg he, hall]
          omega
    rw [shareRanks, List.mem_cons] at hp
    rcases hp with rfl | hp
    · rw [List.countP_append, hbelow, Nat.add_zero]
      exact hrank
    · have hstep := shareRanks_spec rows (done ++ [row])
        (some (score row, 1 + done.countP fun y => score row < score y)) (by simpa using hsorted)
        (by simp) p (by rw [List.length_append]; exact hrank ▸ hp)
      simpa using hstep

theorem map_fst_shareRanks (score : α → Nat) : ∀ (rows : List α) (i : Nat) (above : Option (Nat × Nat)),
    (shareRanks score i above rows).map Prod.fst = rows
  | [], _, _ => rfl
  | row :: rows, i, above => by
    rw [shareRanks, List.map_cons, map_fst_shareRanks]

theorem shareKey_le {a b : α} : shareKey score tie a ≤ shareKey score tie b ↔
    score b < score a ∨ (score a = score b ∧ tie a ≤ tie b) := by
  simp [shareKey, Prod.Lex.toLex_le_toLex]

theorem perm_sharedRanks (score tie : α → Nat) (rows : List α) :
    ((sharedRanks score tie rows).map Prod.fst).Perm rows := by
  rw [sharedRanks, map_fst_shareRanks]
  exact perm_orderBy _ _

/-- **A shared rank is one more than the number of rows strictly above.** -/
theorem sharedRanks_spec {p : α × Nat} (hp : p ∈ sharedRanks score tie rows) :
    p.2 = 1 + rows.countP fun y => score p.1 < score y := by
  have hsorted : (orderBy (shareKey score tie) rows).Pairwise fun a b => score b ≤ score a := by
    refine (pairwise_orderBy (shareKey score tie) rows).imp fun {a b} h => ?_
    rcases shareKey_le.mp h with h | h
    · exact h.le
    · exact h.1.ge
  have hspec := shareRanks_spec (orderBy (shareKey score tie) rows) [] none hsorted rfl p hp
  rw [hspec, List.nil_append, (perm_orderBy _ rows).countP_eq]

/-- The rows are in the order of their scores, and equal scores in the order of `tie`. -/
theorem pairwise_sharedRanks (score tie : α → Nat) (rows : List α) :
    (sharedRanks score tie rows).Pairwise fun p q =>
      score q.1 < score p.1 ∨ (score p.1 = score q.1 ∧ tie p.1 ≤ tie q.1) := by
  have hsorted := (pairwise_orderBy (shareKey score tie) rows).imp fun {a b} h => shareKey_le.mp h
  rw [← map_fst_shareRanks score (orderBy (shareKey score tie) rows) 0 none] at hsorted
  exact List.pairwise_map.mp hsorted

end Shared

/-! ## The points of a place -/

theorem casePoints_eq (rank : Nat) : casePoints rank = seasonDayPoints rank := by
  match rank with
  | 0 | 1 | 2 | 3 => rfl
  | n + 4 => simp [casePoints, seasonDayPoints, SEASON_RANK_POINTS]

/-- What the rank of a guardian on a board is worth: nothing where it is not on it. -/
def pointsOn (board : List RankingRow) (tokenId : Nat) : Nat :=
  ((board.find? fun row => row.tokenId = tokenId).map fun row => seasonDayPoints row.rank).getD 0

/-- A day's board under the highest ruleset of the rows. -/
def seasonBoard (rows : List RankedRow) (collection : String) (game : GameId) (day : Int) :
    List RankingRow :=
  dayBoard rows collection (dayRuleset rows game day) game day

/-- The games and the days of a window. -/
def gameDays (fromDay toDay : Int) : Finset (GameId × Int) :=
  RANKED_GAMES.toFinset ×ˢ
    @Finset.Icc Int Int.instLinearOrder.toPreorder Int.instLocallyFiniteOrder fromDay toDay

/-! ## The places of the query -/

section Placed

variable {rows : List RankedRow} {collection : String} {game : GameId} {day fromDay toDay : Int}
  {tokenId : Nat}

theorem seasonBest_separatesIn (h : SlotUnique rows) (hc : ∀ r ∈ rows, r.collection = collection) :
    SeparatesIn (fun r => (r.tokenId, r.game, r.day)) RankedRow.bestKey
      (rows.filter fun r => r.ruleset = dayRuleset rows r.game r.day) := by
  refine (h.filter _).separatesIn fun a ha b hb hk => ?_
  simp only [Prod.mk.injEq] at hk
  exact ⟨(hc a (List.mem_of_mem_filter ha)).trans (hc b (List.mem_of_mem_filter hb)).symm,
    hk.1, hk.2.1, hk.2.2⟩

theorem mem_dayRows {ruleset : Nat} {r : RankedRow} :
    r ∈ dayRows rows collection ruleset game day ↔
      r ∈ rows ∧ r.collection = collection ∧ r.ruleset = ruleset ∧ r.game = game ∧ r.day = day := by
  simp [dayRows]

/-- The best attempts of a game and a day are those that the day's board ranks. -/
theorem mem_seasonBest (h : SlotUnique rows) (hc : ∀ r ∈ rows, r.collection = collection)
    {r : RankedRow} :
    (r ∈ seasonBest rows ∧ r.game = game ∧ r.day = day) ↔
      r ∈ firsts RankedRow.tokenId RankedRow.bestKey
        (dayRows rows collection (dayRuleset rows game day) game day) := by
  rw [seasonBest, mem_firsts (seasonBest_separatesIn h hc), mem_firsts (dayRows_separatesIn h),
    mem_dayRows, List.mem_filter, decide_eq_true_eq]
  constructor
  · rintro ⟨⟨⟨hr, hruleset⟩, hfirst⟩, rfl, rfl⟩
    refine ⟨⟨hr, hc r hr, hruleset, rfl, rfl⟩, fun r' hr' ht => ?_⟩
    obtain ⟨hr', -, hruleset', hg, hd⟩ := mem_dayRows.mp hr'
    refine hfirst r' (List.mem_filter.mpr ⟨hr', decide_eq_true ?_⟩) (by rw [ht, hg, hd])
    rw [hruleset', hg, hd]
  · rintro ⟨⟨hr, -, hruleset, rfl, rfl⟩, hfirst⟩
    refine ⟨⟨⟨hr, hruleset⟩, fun r' hr' hk => ?_⟩, rfl, rfl⟩
    obtain ⟨hr', hruleset'⟩ := List.mem_filter.mp hr'
    have hruleset' := of_decide_eq_true hruleset'
    simp only [Prod.mk.injEq] at hk
    obtain ⟨ht, hg, hd⟩ := hk
    rw [hg, hd] at hruleset'
    exact hfirst r' (mem_dayRows.mpr ⟨hr', hc r' hr', hruleset', hg, hd⟩) ht

theorem dayRuleset_placeKey_separates (rows : List RankedRow) :
    Separates RankedRow.placeKey (firsts RankedRow.tokenId RankedRow.bestKey rows) :=
  fun _ ha _ hb he => firsts_inj ha hb (placeKey_inj he)

/-- **The places of a game and a day are those of the day's board.** -/
theorem partition_placed (h : SlotUnique rows) (hc : ∀ r ∈ rows, r.collection = collection)
    (game : GameId) (day : Int) :
    partition (fun p => (p.1.game, p.1.day)) (placed rows) (game, day) =
      numbered RankedRow.placeKey (firsts RankedRow.tokenId RankedRow.bestKey
        (dayRows rows collection (dayRuleset rows game day) game day)) := by
  rw [placed, partition_rowNumber (fun r : RankedRow => (r.game, r.day))]
  refine ((dayRuleset_placeKey_separates _).numbered_eq ?_).symm
  refine (List.perm_ext_iff_of_nodup (nodup_firsts _ _ _) ((nodup_firsts _ _ _).filter _)).mpr
    fun r => ?_
  rw [← mem_seasonBest h hc, ← partition, mem_partition, Prod.mk.injEq]
  exact Iff.rfl

/-- The points of a guardian's place on a day's board. -/
theorem sum_place (h : SlotUnique rows) (hc : ∀ r ∈ rows, r.collection = collection)
    (key : GameId × Int) (tokenId : Nat) :
    ((partition (fun p => (p.1.game, p.1.day))
        (partition (fun p => p.1.tokenId) (placed rows) tokenId) key).map
      fun p => casePoints p.2).sum = pointsOn (seasonBoard rows collection key.1 key.2) tokenId := by
  have hnodup : ((numbered RankedRow.placeKey (firsts RankedRow.tokenId RankedRow.bestKey
      (dayRows rows collection (dayRuleset rows key.1 key.2) key.1 key.2))).map
        fun p => p.1.tokenId).Nodup := by
    rw [show (fun p : RankedRow × Nat => p.1.tokenId) = RankedRow.tokenId ∘ Prod.fst from rfl,
      ← List.map_map, map_fst_numbered, ((perm_orderBy _ _).map _).nodup_iff, map_key_firsts]
    exact nodup_partitionKeys _ _
  rw [partition_comm, partition_placed h hc, sum_partition_of_nodup hnodup, pointsOn, seasonBoard,
    dayBoard, List.find?_map, Option.map_map]
  simp only [casePoints_eq]
  rfl

/-- **The sum over the places of a guardian is the sum over the boards of the window.** -/
theorem sum_places (h : SlotUnique rows) (hc : ∀ r ∈ rows, r.collection = collection)
    (hdays : ∀ r ∈ rows, fromDay ≤ r.day ∧ r.day ≤ toDay) (tokenId : Nat) :
    ((partition (fun p => p.1.tokenId) (placed rows) tokenId).map fun p => casePoints p.2).sum =
      ∑ key ∈ gameDays fromDay toDay, pointsOn (seasonBoard rows collection key.1 key.2) tokenId := by
  have hkeys : ∀ p ∈ partition (fun p => p.1.tokenId) (placed rows) tokenId,
      (p.1.game, p.1.day) ∈ (gameDays fromDay toDay).toList := by
    intro p hp
    have hrow : p.1 ∈ rows := mem_of_mem_rowNumber (mem_partition.mp hp).1 |> mem_of_mem_upTo |>
      List.mem_of_mem_filter
    have hgame : p.1.game ∈ RANKED_GAMES := by cases p.1.game <;> decide
    rw [Finset.mem_toList, gameDays, Finset.mem_product]
    exact ⟨List.mem_toFinset.mpr hgame, Finset.mem_Icc.mpr (hdays _ hrow)⟩
  rw [← sum_partition (Finset.nodup_toList _) _ hkeys, ← Finset.sum_map_toList]
  exact congrArg List.sum (List.map_congr_left fun key _ => sum_place h hc key tokenId)

/-- **The days of a guardian add up its places.** -/
theorem sum_daily (rows : List RankedRow) (tokenId : Nat) :
    ((partition SeasonDay.tokenId (seasonDaily rows) tokenId).map SeasonDay.points).sum =
      ((partition (fun p => p.1.tokenId) (placed rows) tokenId).map fun p => casePoints p.2).sum := by
  have hnodup := (nodup_partitionKeys (fun p : RankedRow × Nat => (p.1.tokenId, p.1.day))
    (placed rows)).filter fun key => key.1 = tokenId
  have hkeys : ∀ p ∈ partition (fun p => p.1.tokenId) (placed rows) tokenId,
      (p.1.tokenId, p.1.day) ∈ (partitionKeys (fun p : RankedRow × Nat => (p.1.tokenId, p.1.day))
        (placed rows)).filter fun key => key.1 = tokenId := by
    intro p hp
    obtain ⟨hp, ht⟩ := mem_partition.mp hp
    exact List.mem_filter.mpr ⟨mem_partitionKeys.mpr ⟨p, hp, rfl⟩, decide_eq_true ht⟩
  rw [← sum_partition hnodup _ hkeys, seasonDaily]
  conv_lhs => rw [partition, List.filter_map, List.map_map]
  refine congrArg List.sum (List.map_congr_left fun key hkey => ?_)
  have ht : key.1 = tokenId := of_decide_eq_true (List.mem_filter.mp hkey).2
  rw [partition_partition fun p _ hk => (congrArg Prod.fst hk).trans ht]
  rfl

/-- A guardian is placed where it is on a board. -/
theorem exists_placed_iff (h : SlotUnique rows) (hc : ∀ r ∈ rows, r.collection = collection) :
    (∃ p ∈ placed rows, p.1.tokenId = tokenId ∧ p.1.day = day) ↔
      ∃ game, ∃ row ∈ seasonBoard rows collection game day, row.tokenId = tokenId := by
  have hboard (game : GameId) : (∃ row ∈ seasonBoard rows collection game day,
      row.tokenId = tokenId) ↔ ∃ p ∈ partition (fun p => (p.1.game, p.1.day)) (placed rows) (game, day),
        p.1.tokenId = tokenId := by
    rw [partition_placed h hc]
    simp only [seasonBoard, dayBoard, List.mem_map]
    constructor
    · rintro ⟨_, ⟨p, hp, rfl⟩, ht⟩
      exact ⟨p, hp, ht⟩
    · rintro ⟨p, hp, ht⟩
      exact ⟨_, ⟨p, hp, rfl⟩, ht⟩
  simp only [hboard, mem_partition, Prod.mk.injEq]
  constructor
  · rintro ⟨p, hp, ht, hd⟩
    exact ⟨p.1.game, p, ⟨hp, rfl, hd⟩, ht⟩
  · rintro ⟨_, p, ⟨hp, -, hd⟩, ht⟩
    exact ⟨p, hp, ht, hd⟩

/-- The days of a guardian's totals. -/
def totalDays (rows : List RankedRow) (tokenId : Nat) : List Int :=
  (partition SeasonDay.tokenId (seasonDaily rows) tokenId).map SeasonDay.day

theorem mem_totalDays : day ∈ totalDays rows tokenId ↔
    ∃ p ∈ placed rows, p.1.tokenId = tokenId ∧ p.1.day = day := by
  have hkeys : (∃ d ∈ seasonDaily rows, d.tokenId = tokenId ∧ d.day = day) ↔
      (tokenId, day) ∈ partitionKeys (fun p => (p.1.tokenId, p.1.day)) (placed rows) := by
    simp only [seasonDaily, List.mem_map]
    constructor
    · rintro ⟨_, ⟨⟨_, _⟩, hkey, rfl⟩, rfl, rfl⟩
      exact hkey
    · intro hkey
      exact ⟨_, ⟨_, hkey, rfl⟩, rfl, rfl⟩
  rw [totalDays, List.mem_map]
  simp only [mem_partition, and_assoc]
  rw [hkeys, mem_partitionKeys]
  simp only [Prod.mk.injEq]

end Placed

/-! ## The totals -/

section Totals

variable {rows : List RankedRow} {collection : String} {fromDay toDay yesterday today : Int}
  {tokenId : Nat}

/-- The days of the window on which a guardian is on a board. -/
def seasonDays (rows : List RankedRow) (collection : String) (fromDay toDay : Int) (tokenId : Nat) :
    List Int :=
  (daysFrom fromDay (toDay - fromDay + 1).toNat).filter fun day =>
    RANKED_GAMES.any fun game =>
      (seasonBoard rows collection game day).any fun row => row.tokenId = tokenId

/-- The points of a guardian's places on the boards of the window. -/
def boardPoints (rows : List RankedRow) (collection : String) (fromDay toDay : Int) (tokenId : Nat) :
    Nat :=
  ∑ key ∈ gameDays fromDay toDay, pointsOn (seasonBoard rows collection key.1 key.2) tokenId

theorem SlotUnique.seasonRows (h : SlotUnique rows) (collection : String) (fromDay toDay : Int) :
    SlotUnique (seasonRows rows collection fromDay toDay) := h.filter _

theorem seasonRows_collection :
    ∀ r ∈ seasonRows rows collection fromDay toDay, r.collection = collection :=
  fun _ hr => (of_decide_eq_true (List.mem_filter.mp hr).2).1

theorem seasonRows_days :
    ∀ r ∈ seasonRows rows collection fromDay toDay, fromDay ≤ r.day ∧ r.day ≤ toDay := by
  intro r hr
  obtain ⟨-, hfrom, hto, -⟩ := of_decide_eq_true (List.mem_filter.mp hr).2
  exact ⟨hfrom, hto⟩

theorem mem_totalDays_iff (h : SlotUnique rows) {day : Int} :
    day ∈ totalDays (seasonRows rows collection fromDay toDay) tokenId ↔
      day ∈ seasonDays (seasonRows rows collection fromDay toDay) collection fromDay toDay tokenId := by
  have hall (game : GameId) : game ∈ RANKED_GAMES := by cases game <;> decide
  rw [seasonDays, List.mem_filter, mem_daysFrom, List.any_eq_true]
  simp only [List.any_eq_true, decide_eq_true_eq]
  constructor
  · intro hday
    obtain ⟨p, hp, ht, hd⟩ := mem_totalDays.mp hday
    obtain ⟨game, hboard⟩ := (exists_placed_iff (h.seasonRows _ _ _) seasonRows_collection).mp ⟨p, hp, ht, hd⟩
    have hrow : p.1 ∈ seasonRows rows collection fromDay toDay :=
      List.mem_of_mem_filter (mem_of_mem_upTo (mem_of_mem_rowNumber hp))
    have hwindow := seasonRows_days p.1 hrow
    exact ⟨by omega, game, hall game, hboard⟩
  · rintro ⟨-, game, -, hboard⟩
    exact mem_totalDays.mpr ((exists_placed_iff (h.seasonRows _ _ _) seasonRows_collection).mpr ⟨game, hboard⟩)

/-- **A row of the totals adds up the boards of the window.** -/
theorem points_eq (h : SlotUnique rows) {total : PointTotals}
    (htotal : total ∈ seasonTotals rows collection fromDay toDay yesterday today) :
    total.points = boardPoints (seasonRows rows collection fromDay toDay) collection fromDay toDay
        total.tokenId ∧
      total.days = totalDays (seasonRows rows collection fromDay toDay) total.tokenId := by
  obtain ⟨tokenId, -, rfl⟩ := List.mem_map.mp htotal
  refine ⟨?_, rfl⟩
  show (List.map SeasonDay.points _).sum = _
  rw [sum_daily, sum_places (h.seasonRows _ _ _) seasonRows_collection seasonRows_days]
  rfl

theorem map_tokenId_seasonTotals :
    (seasonTotals rows collection fromDay toDay yesterday today).map PointTotals.tokenId =
      partitionKeys SeasonDay.tokenId (seasonDaily (seasonRows rows collection fromDay toDay)) := by
  rw [seasonTotals, List.map_map]
  exact List.map_id _

variable (yesterday today) in
/-- The totals are of the guardians with a day. -/
theorem exists_total_iff (h : SlotUnique rows) :
    (∃ total ∈ seasonTotals rows collection fromDay toDay yesterday today,
        total.tokenId = tokenId) ↔
      ∃ game day, ∃ row ∈ seasonBoard (seasonRows rows collection fromDay toDay) collection game day,
        row.tokenId = tokenId := by
  have hdays (day : Int) : (∃ game, ∃ row ∈ seasonBoard (seasonRows rows collection fromDay toDay)
      collection game day, row.tokenId = tokenId) ↔
        day ∈ totalDays (seasonRows rows collection fromDay toDay) tokenId := by
    rw [mem_totalDays, exists_placed_iff (h.seasonRows _ _ _) seasonRows_collection]
  rw [← List.mem_map, map_tokenId_seasonTotals, mem_partitionKeys, exists_comm]
  simp only [hdays, totalDays, List.mem_map, mem_partition]
  constructor
  · rintro ⟨d, hd, ht⟩
    exact ⟨d.day, d, ⟨hd, ht⟩, rfl⟩
  · rintro ⟨_, d, ⟨hd, ht⟩, -⟩
    exact ⟨d, hd, ht⟩

/-- **A season row: the points of the boards and the bonus of the days on them.** -/
theorem currentRow_score (h : SlotUnique rows) {total : PointTotals}
    (htotal : total ∈ seasonTotals rows collection fromDay toDay yesterday today) :
    (currentRow toDay total).score =
      boardPoints (seasonRows rows collection fromDay toDay) collection fromDay toDay total.tokenId +
        (streakProgress (seasonDays (seasonRows rows collection fromDay toDay) collection fromDay toDay
          total.tokenId) toDay).completed * SEASON_STREAK_BONUS := by
  obtain ⟨hpoints, hdays⟩ := points_eq h htotal
  have hstreak : streakProgress total.days toDay = streakProgress (seasonDays
      (seasonRows rows collection fromDay toDay) collection fromDay toDay total.tokenId) toDay := by
    rw [hdays]
    exact streakProgress_congr fun d _ => mem_totalDays_iff h
  show total.points + (streakProgress total.days toDay).completed * SEASON_STREAK_BONUS = _
  rw [hpoints, hstreak]

end Totals

end Mapae.Ranking
