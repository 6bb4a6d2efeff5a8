import Mapae.Infra.Keyed
import Mapae.Ranking.Reader

/-!
# What the boards that are read are

* `devotionBoard_spec`: devotion counts the days of its guardians
* `earlier_seasonWindows`: the season moves against its board of the day before
* `whole_windows`: a board has a guardian once and places all of them
* `validRankingBoard_iff`, `parseRankingPageOffset_iff` and `parseRankingIds_iff`: which paths there are
* `prev_eq_some`: the rank that a row had a window earlier
* `length_windows_le`: a board is no longer than the collection
-/

namespace Mapae.Ranking

open Mapae.Infra Mapae.Store Mapae.Outings Mapae.Web

/-! ## Devotion -/

section Devotion

variable {rows : List RankedRow} {collection : String} {fromDay toDay : Int}

/-- The rows of the last days. -/
def devotionRows (rows : List RankedRow) (collection : String) (fromDay toDay : Int) : List RankedRow :=
  rows.filter fun r => r.collection = collection ∧ fromDay ≤ r.day ∧ r.day ≤ toDay

/-- Devotion counts the days of its guardians, and equal counts share a place. -/
structure DevotionBoard (rows : List RankedRow) (board : List RankingRow) : Prop where
  entrants : ∀ tokenId, (∃ row ∈ board, row.tokenId = tokenId) ↔ ∃ r ∈ rows, r.tokenId = tokenId
  scores : ∀ row ∈ board,
    row.score = ((rows.filter fun r => r.tokenId = row.tokenId).map RankedRow.day).toFinset.card
  shared : SharedBoard board

theorem map_tokenId_devotionDays : (devotionDays rows collection fromDay toDay).map RankingRow.tokenId =
    partitionKeys RankedRow.tokenId (devotionRows rows collection fromDay toDay) := by
  rw [devotionDays, List.map_map]
  exact List.map_id _

theorem scoreRank_lt {board : List RankingRow} {a b : RankingRow} (ha : a ∈ board) (h : b.score < a.score) :
    scoreRank board a < scoreRank board b := by
  obtain ⟨above, below, rfl⟩ := List.append_of_mem ha
  have hle (own : List RankingRow) : (own.countP fun other => a.score < other.score) ≤
      own.countP fun other => b.score < other.score := by
    refine List.countP_mono_left fun other _ hother => ?_
    have := of_decide_eq_true hother
    exact decide_eq_true (by omega)
  have habove := hle above
  have hbelow := hle below
  simp only [scoreRank, List.countP_append, List.countP_cons, lt_irrefl, decide_false, h, decide_true, if_true,
    Bool.false_eq_true, if_false]
  omega

variable (rows collection fromDay toDay) in
theorem perm_devotionBoard : ((devotionBoard rows collection fromDay toDay).map fun row => (row.tokenId, row.score)).Perm
    ((devotionDays rows collection fromDay toDay).map fun row => (row.tokenId, row.score)) := by
  have hperm := (perm_orderBy (fun row : RankingRow => toLex (row.rank, row.tokenId))
    ((devotionDays rows collection fromDay toDay).map fun row =>
      { row with rank := scoreRank (devotionDays rows collection fromDay toDay) row })).map
    fun row => (row.tokenId, row.score)
  rw [List.map_map] at hperm
  exact hperm

/-- **Equal counts share a place on devotion, and sort by token inside it.** -/
theorem sharedBoard_devotionBoard : SharedBoard (devotionBoard rows collection fromDay toDay) := by
  have hcount (score : Nat) : ((devotionBoard rows collection fromDay toDay).countP fun other => score < other.score) =
      (devotionDays rows collection fromDay toDay).countP fun other => score < other.score := by
    have hperm := perm_devotionBoard rows collection fromDay toDay
    have heq := hperm.countP_eq fun entry => decide (score < entry.2)
    rwa [List.countP_map, List.countP_map] at heq
  have hmem : ∀ row ∈ devotionBoard rows collection fromDay toDay,
      ∃ own ∈ devotionDays rows collection fromDay toDay, row =
        { own with rank := scoreRank (devotionDays rows collection fromDay toDay) own } := by
    intro row hrow
    obtain ⟨own, hown, rfl⟩ := List.mem_map.mp (mem_orderBy.mp hrow)
    exact ⟨own, hown, rfl⟩
  refine ⟨fun row hrow => ?_, ?_⟩
  · obtain ⟨own, -, rfl⟩ := hmem row hrow
    rw [hcount]
    rfl
  · refine (pairwise_orderBy _ _).imp_of_mem fun {a b} ha hb hle => ?_
    obtain ⟨a, hown, rfl⟩ := hmem a ha
    obtain ⟨b, hown', rfl⟩ := hmem b hb
    rw [Prod.Lex.toLex_le_toLex] at hle
    -- a lower score has a later place, and equal scores have one
    rcases lt_trichotomy a.score b.score with hlt | heq | hgt
    · have hrank := scoreRank_lt hown' hlt
      rcases hle with hle | ⟨hle, -⟩
      · exact absurd hle (Nat.not_lt_of_gt hrank)
      · exact absurd hle (Nat.ne_of_gt hrank)
    · refine .inr ⟨heq, ?_⟩
      have hrank : scoreRank (devotionDays rows collection fromDay toDay) a =
          scoreRank (devotionDays rows collection fromDay toDay) b := by simp only [scoreRank, heq]
      rcases hle with hle | ⟨-, hle⟩
      · exact absurd hrank (Nat.ne_of_lt hle)
      · exact hle
    · exact .inl hgt

theorem nodup_devotionBoard : ((devotionBoard rows collection fromDay toDay).map RankingRow.tokenId).Nodup := by
  have hperm := (perm_devotionBoard rows collection fromDay toDay).map Prod.fst
  rw [List.map_map, List.map_map] at hperm
  refine hperm.nodup_iff.mpr ?_
  show ((devotionDays rows collection fromDay toDay).map RankingRow.tokenId).Nodup
  rw [map_tokenId_devotionDays]
  exact nodup_partitionKeys _ _

/-- **Devotion counts the days that a guardian was ranked on.** -/
theorem devotionBoard_spec : DevotionBoard (devotionRows rows collection fromDay toDay)
    (devotionBoard rows collection fromDay toDay) := by
  have hperm := perm_devotionBoard rows collection fromDay toDay
  refine ⟨fun tokenId => ?_, fun row hrow => ?_, sharedBoard_devotionBoard⟩
  · have hmem := (hperm.map Prod.fst).mem_iff (a := tokenId)
    rw [List.map_map, List.map_map] at hmem
    calc (∃ row ∈ devotionBoard rows collection fromDay toDay, row.tokenId = tokenId)
        ↔ tokenId ∈ (devotionBoard rows collection fromDay toDay).map RankingRow.tokenId := List.mem_map.symm
      _ ↔ tokenId ∈ (devotionDays rows collection fromDay toDay).map RankingRow.tokenId := hmem
      _ ↔ ∃ r ∈ devotionRows rows collection fromDay toDay, r.tokenId = tokenId := by
          rw [map_tokenId_devotionDays, mem_partitionKeys]
  · have hentry : (row.tokenId, row.score) ∈
        (devotionDays rows collection fromDay toDay).map fun row => (row.tokenId, row.score) :=
      hperm.subset (List.mem_map_of_mem hrow)
    obtain ⟨own, hown, hentry⟩ := List.mem_map.mp hentry
    obtain ⟨tokenId, -, rfl⟩ := List.mem_map.mp hown
    obtain ⟨htoken, hscore⟩ := Prod.mk.inj hentry
    rw [← htoken, ← hscore]
    exact (List.card_toFinset _).symm

end Devotion

/-! ## The season as of an earlier day -/

section Earlier

variable {rows : List RankedRow} {collection : String} {fromDay toDay yesterday : Int}

theorem seasonRows_until (h : yesterday ≤ toDay) : seasonRows rows collection fromDay yesterday =
    (seasonRows rows collection fromDay toDay).filter fun r => decide (r.day ≤ yesterday) := by
  rw [seasonRows, seasonRows, List.filter_filter]
  refine List.filter_congr fun r _ => ?_
  rw [← Bool.decide_and]
  refine decide_eq_decide.mpr ⟨fun ⟨hc, hfrom, hto, hcut⟩ => ⟨hto, hc, hfrom, hto.trans h, hcut⟩,
    fun ⟨hto, hc, hfrom, _, hcut⟩ => ⟨hc, hfrom, hto, hcut⟩⟩

theorem dayRuleset_until {game : GameId} {day : Int} (h : day ≤ yesterday) :
    dayRuleset (rows.filter fun r => decide (r.day ≤ yesterday)) game day = dayRuleset rows game day := by
  rw [dayRuleset, dayRuleset, List.filter_filter]
  have hrows : (rows.filter fun r => decide (r.game = game ∧ r.day = day) && decide (r.day ≤ yesterday)) =
      rows.filter fun r => decide (r.game = game ∧ r.day = day) := by
    refine List.filter_congr fun r _ => ?_
    by_cases hday : r.game = game ∧ r.day = day
    · simp [hday.1, hday.2, h]
    · simp [hday]
  rw [hrows]

theorem placed_until (rows : List RankedRow) (yesterday : Int) :
    placed (rows.filter fun r => decide (r.day ≤ yesterday)) =
      (placed rows).filter fun place => decide (place.1.day ≤ yesterday) := by
  have hruleset : ((rows.filter fun r => decide (r.day ≤ yesterday)).filter fun r => r.ruleset =
      dayRuleset (rows.filter fun r => decide (r.day ≤ yesterday)) r.game r.day) =
        (rows.filter fun r => r.ruleset = dayRuleset rows r.game r.day).filter fun r => decide (r.day ≤ yesterday) := by
    rw [List.filter_filter, List.filter_filter]
    refine List.filter_congr fun r _ => ?_
    by_cases hday : r.day ≤ yesterday
    · rw [dayRuleset_until hday, Bool.and_comm]
    · simp [hday]
  have hbest : seasonBest (rows.filter fun r => decide (r.day ≤ yesterday)) =
      (seasonBest rows).filter fun r => decide (r.day ≤ yesterday) := by
    rw [seasonBest, seasonBest, hruleset]
    exact firsts_filter (fun k : Nat × GameId × Int => decide (k.2.2 ≤ yesterday)) _
  rw [placed, placed, hbest]
  exact rowNumber_filter (fun k : GameId × Int => decide (k.2 ≤ yesterday)) _

/-- **The days until an earlier day are those of the season as of this day.** -/
theorem seasonDaily_until (rows : List RankedRow) (yesterday : Int) :
    seasonDaily (rows.filter fun r => decide (r.day ≤ yesterday)) =
      (seasonDaily rows).filter fun d => decide (d.day ≤ yesterday) := by
  have hkeys := @partitionKeys_filter _ _ _ (fun place : RankedRow × Nat => (place.1.tokenId, place.1.day))
    (fun k => decide (k.2 ≤ yesterday)) (placed rows)
  rw [seasonDaily, seasonDaily, placed_until, hkeys, List.filter_map]
  refine List.map_congr_left fun key hkey => ?_
  have hday : decide (key.2 ≤ yesterday) = true := (List.mem_filter.mp hkey).2
  have hown := @partition_filter _ _ _ (fun place : RankedRow × Nat => (place.1.tokenId, place.1.day)) key
    (fun k => decide (k.2 ≤ yesterday)) hday (placed rows)
  rw [hown]

/-- A guardian with its score. -/
def RankingRow.entry (row : RankingRow) : Nat × Nat := (row.tokenId, row.score)

/-- A guardian with its place and its score. -/
def RankingRow.place (row : RankingRow) : Nat × Nat × Nat := (row.rank, row.tokenId, row.score)

theorem SharedBoard.map_place {board : List RankingRow} (h : SharedBoard board) : board.map RankingRow.place =
    (board.map RankingRow.entry).map fun entry =>
      (1 + (board.map RankingRow.entry).countP fun other => entry.2 < other.2, entry.1, entry.2) := by
  rw [List.map_map]
  refine List.map_congr_left fun row hrow => ?_
  show (row.rank, row.tokenId, row.score) = _
  rw [h.ranks row hrow, Function.comp_apply, List.countP_map]
  rfl

theorem SharedBoard.pairwise_entry {board : List RankingRow} (h : SharedBoard board)
    (hnodup : (board.map RankingRow.tokenId).Nodup) :
    (board.map RankingRow.entry).Pairwise fun a b => shareKey Prod.snd Prod.fst a < shareKey Prod.snd Prod.fst b := by
  refine List.pairwise_map.mpr (h.order.imp₂ (fun a b hle hne => ?_) (List.pairwise_map.mp hnodup))
  refine lt_of_le_of_ne (shareKey_le.mpr hle) fun heq => hne ?_
  simp only [shareKey, EmbeddingLike.apply_eq_iff_eq, Prod.mk.injEq] at heq
  exact heq.2

/-- **Two boards of the same scores are placed alike.** -/
theorem SharedBoard.place_eq {board board' : List RankingRow} (h : SharedBoard board) (h' : SharedBoard board')
    (hnodup : (board.map RankingRow.tokenId).Nodup) (hperm : (board.map RankingRow.entry).Perm (board'.map RankingRow.entry)) :
    board.map RankingRow.place = board'.map RankingRow.place := by
  have htokens := hperm.map Prod.fst
  rw [List.map_map, List.map_map] at htokens
  have hnodup' : (board'.map RankingRow.tokenId).Nodup := htokens.nodup_iff.mp hnodup
  have hentries : board.map RankingRow.entry = board'.map RankingRow.entry := by
    rw [← orderBy_of_perm (h.pairwise_entry hnodup) (List.Perm.refl _), ← orderBy_of_perm (h'.pairwise_entry hnodup') hperm]
  rw [h.map_place, h'.map_place, hentries]

theorem filterMap_ite {α β : Type*} {g : α → Option β} {keep : α → Bool} {entry : α → β}
    (hg : ∀ a, g a = if keep a then some (entry a) else none) (keys : List α) :
    keys.filterMap g = (keys.filter keep).map entry := by
  induction keys with
  | nil => rfl
  | cons a keys ih =>
    by_cases hkeep : keep a = true
    · rw [List.filterMap_cons_some (by rw [hg, if_pos hkeep]), List.filter_cons_of_pos hkeep, List.map_cons, ih]
    · rw [List.filterMap_cons_none (by rw [hg, if_neg hkeep]), List.filter_cons_of_neg hkeep, ih]

/-- **What the points were by yesterday is what they are as of yesterday.** -/
theorem perm_earlier (daily : List SeasonDay) (yesterday yesterday' today today' : Int) :
    ((((partitionKeys SeasonDay.tokenId daily).map fun tokenId =>
        pointTotal yesterday today tokenId (partition SeasonDay.tokenId daily tokenId)).filterMap
          (earlierRow false yesterday)).map RankingRow.entry).Perm
      (((partitionKeys SeasonDay.tokenId (daily.filter fun d => decide (d.day ≤ yesterday))).map fun tokenId =>
        pointTotal yesterday' today' tokenId (partition SeasonDay.tokenId
          (daily.filter fun d => decide (d.day ≤ yesterday)) tokenId)).map fun total =>
            (currentRow yesterday total).entry) := by
  have hown (tokenId : Nat) : partition SeasonDay.tokenId (daily.filter fun d => decide (d.day ≤ yesterday)) tokenId =
      (partition SeasonDay.tokenId daily tokenId).filter fun d => decide (d.day ≤ yesterday) := by
    rw [partition, partition, List.filter_filter, List.filter_filter]
    exact List.filter_congr fun d _ => Bool.and_comm _ _
  have hrow (tokenId : Nat) : (earlierRow false yesterday
      (pointTotal yesterday today tokenId (partition SeasonDay.tokenId daily tokenId))).map RankingRow.entry =
        if decide (partition SeasonDay.tokenId (daily.filter fun d => decide (d.day ≤ yesterday)) tokenId ≠ []) then
          some (currentRow yesterday (pointTotal yesterday' today' tokenId (partition SeasonDay.tokenId
            (daily.filter fun d => decide (d.day ≤ yesterday)) tokenId))).entry else none := by
    rw [hown]
    have hdays : ((partition SeasonDay.tokenId daily tokenId).map SeasonDay.day).filter (fun day => decide (day ≤ yesterday)) =
        ((partition SeasonDay.tokenId daily tokenId).filter fun d => decide (d.day ≤ yesterday)).map SeasonDay.day := by
      rw [List.filter_map]
      rfl
    unfold earlierRow pointTotal
    simp only [Bool.false_eq_true, if_false]
    rw [hdays]
    cases hpart : (partition SeasonDay.tokenId daily tokenId).filter fun d => decide (d.day ≤ yesterday) with
    | nil => rfl
    | cons d own => rfl
  rw [List.filterMap_map, List.map_filterMap]
  simp only [Function.comp_apply]
  rw [filterMap_ite hrow, List.map_map]
  refine List.Perm.map _ ((List.perm_ext_iff_of_nodup ((nodup_partitionKeys _ _).filter _) (nodup_partitionKeys _ _)).mpr
    fun tokenId => ?_)
  rw [List.mem_filter, decide_eq_true_eq]
  constructor
  · rintro ⟨-, hne⟩
    by_contra hmem
    exact hne (partition_eq_nil hmem)
  · intro hmem
    refine ⟨?_, partition_ne_nil hmem⟩
    obtain ⟨d, hd, htoken⟩ := mem_partitionKeys.mp hmem
    exact mem_partitionKeys.mpr ⟨d, List.mem_of_mem_filter hd, htoken⟩

theorem perm_entry_rankRows (rows : List RankingRow) :
    ((rankRows rows).map RankingRow.entry).Perm (rows.map RankingRow.entry) := by
  have hperm := (perm_sharedRanks RankingRow.score RankingRow.tokenId rows).map RankingRow.entry
  rw [List.map_map] at hperm
  rw [rankRows, List.map_map]
  exact hperm

theorem tokenId_of_earlierRow {closed : Bool} {yesterday : Int} {total : PointTotals} {row : RankingRow}
    (h : earlierRow closed yesterday total = some row) : row.tokenId = total.tokenId := by
  unfold earlierRow at h
  generalize (if closed = true then [] else total.days.filter fun day => decide (day ≤ yesterday)) = before at h
  cases before with
  | nil => cases h
  | cons day before =>
    cases h
    rfl

theorem perm_tokenId_rankRows (rows : List RankingRow) :
    ((rankRows rows).map RankingRow.tokenId).Perm (rows.map RankingRow.tokenId) := by
  have hperm := (perm_sharedRanks RankingRow.score RankingRow.tokenId rows).map RankingRow.tokenId
  rw [List.map_map] at hperm
  rw [rankRows, List.map_map]
  exact hperm

theorem nodup_pointTotals (t : RankedTable) (collection : String) (fromDay toDay : Int) :
    ((pointTotals t collection fromDay toDay).map PointTotals.tokenId).Nodup := by
  rw [pointTotals, map_tokenId_seasonTotals]
  exact nodup_partitionKeys _ _

theorem nodup_earlier (t : RankedTable) (collection : String) (fromDay toDay : Int) (closed : Bool) :
    ((rankRows ((pointTotals t collection fromDay toDay).filterMap (earlierRow closed (addDays toDay (-1))))).map
      RankingRow.tokenId).Nodup := by
  rw [(perm_tokenId_rankRows _).nodup_iff]
  exact nodup_map_filterMap (fun _ _ => tokenId_of_earlierRow) (nodup_pointTotals t collection fromDay toDay)

section Totals

variable (t : RankedTable) (collection : String) (start toDay : Int)

/-- The totals by yesterday are those as of yesterday. -/
theorem perm_earlier_totals : (((pointTotals t collection start toDay).filterMap
      (earlierRow false (addDays toDay (-1)))).map RankingRow.entry).Perm
    ((pointTotals t collection start (addDays toDay (-1))).map fun total =>
      (currentRow (addDays toDay (-1)) total).entry) := by
  have hle : addDays toDay (-1) ≤ toDay := by
    unfold addDays
    omega
  unfold pointTotals seasonTotals
  dsimp only
  rw [seasonRows_until hle, seasonDaily_until]
  exact perm_earlier _ _ _ _ _

theorem place_earlier :
    (rankRows ((pointTotals t collection start toDay).filterMap (earlierRow false (addDays toDay (-1))))).map
      RankingRow.place =
    (rankSeasonRows ((pointTotals t collection start (addDays toDay (-1))).map (currentRow (addDays toDay (-1))))).map
      fun row => row.toRankingRow.place := by
  have hcurrent := perm_map_rankSeasonRows
    ((pointTotals t collection start (addDays toDay (-1))).map (currentRow (addDays toDay (-1))))
    (fun row => row.toRankingRow.entry) fun _ _ => rfl
  rw [List.map_map] at hcurrent
  have hperm : ((rankRows ((pointTotals t collection start toDay).filterMap
      (earlierRow false (addDays toDay (-1))))).map RankingRow.entry).Perm
      (((rankSeasonRows ((pointTotals t collection start (addDays toDay (-1))).map
        (currentRow (addDays toDay (-1))))).map SeasonRow.toRankingRow).map RankingRow.entry) := by
    rw [List.map_map]
    exact (perm_entry_rankRows _).trans ((perm_earlier_totals t collection start toDay).trans hcurrent.symm)
  rw [(sharedBoard_rankRows _).place_eq (sharedBoard_rankSeasonRows _) (nodup_earlier t collection start toDay false)
    hperm, List.map_map]
  rfl

/-- Before the first day there is nothing. -/
theorem earlier_eq_nil (h : addDays toDay (-1) < start) :
    (pointTotals t collection start toDay).filterMap (earlierRow false (addDays toDay (-1))) = [] := by
  have hempty : seasonRows t.rows (toLowerCase collection) start (addDays toDay (-1)) = [] := by
    refine List.filter_eq_nil_iff.mpr fun r _ hr => ?_
    have hdays := of_decide_eq_true hr
    omega
  have htotals : pointTotals t collection start (addDays toDay (-1)) = [] := by
    rw [pointTotals, seasonTotals, hempty]
    rfl
  have hperm := perm_earlier_totals t collection start toDay
  rw [htotals] at hperm
  exact List.map_eq_nil_iff.mp hperm.eq_nil

end Totals

/-- **The season is compared with its board of the day before**, which is empty on the first day. -/
theorem earlier_seasonWindows {season : Season} {t : RankedTable} {today : Int} {windows : SeasonWindows}
    (h : seasonWindows season t collection today = some windows) (hopen : seasonPhase season today = .open) :
    match seasonWindows season t collection (addDays today (-1)) with
    | none => windows.earlier = []
    | some before => windows.earlier.map RankingRow.place =
        before.current.map fun row => row.toRankingRow.place := by
  obtain ⟨⟨start, toDay⟩, hwindow, rfl⟩ := Option.map_eq_some_iff.mp h
  obtain ⟨id, first, last⟩ := season
  cases first with
  | none => cases hopen
  | some first =>
    cases last with
    | none => cases hopen
    | some last =>
      have hphase : first ≤ today ∧ today ≤ last := by
        unfold seasonPhase at hopen
        dsimp only at hopen
        split at hopen
        · cases hopen
        · split at hopen
          · omega
          · cases hopen
      have hdates : start = first ∧ toDay = today := by
        unfold seasonWindow at hwindow
        dsimp only at hwindow
        rw [hopen] at hwindow
        obtain ⟨rfl, rfl⟩ := Prod.mk.inj (Option.some.inj hwindow)
        refine ⟨rfl, ?_⟩
        split <;> omega
      obtain ⟨rfl, rfl⟩ := hdates
      have hclosed : decide (toDay < toDay) = false := decide_eq_false (lt_irrefl _)
      dsimp only
      rw [hclosed]
      by_cases hfirst : start ≤ addDays toDay (-1)
      · have hbefore : seasonWindow ⟨id, some start, some last⟩ (addDays toDay (-1)) =
            some (start, addDays toDay (-1)) := by
          have hlt : addDays toDay (-1) < last := by unfold addDays; omega
          simp only [seasonWindow, seasonPhase, if_neg (Int.not_lt.mpr hfirst), if_pos hlt.le, if_pos hlt]
        rw [Ranking.seasonWindows, hbefore, Option.map_some]
        dsimp only
        exact place_earlier t collection start toDay
      · have hnone : seasonWindow ⟨id, some start, some last⟩ (addDays toDay (-1)) = none := by
          simp only [seasonWindow, seasonPhase, if_pos (Int.not_le.mp hfirst)]
        rw [Ranking.seasonWindows, hnone, Option.map_none]
        dsimp only
        rw [earlier_eq_nil t collection start toDay (Int.not_le.mp hfirst)]
        rfl

end Earlier
/-! ## Whole boards -/

/-- A whole board has a guardian once. A game numbers its rows, and the other boards share places. -/
structure WholeBoard (board : RankingBoardId) (rows : List WindowRow) : Prop where
  nodup : (rows.map fun row => row.tokenId).Nodup
  places : match board with
    | .game _ => rows.map (fun row => row.rank) = List.range' 1 rows.length
    | _ => SharedBoard (rows.map WindowRow.toRankingRow)

theorem ranking_plain (rows : List RankingRow) : (rows.map RankingRow.plain).map WindowRow.toRankingRow = rows := by
  rw [List.map_map]
  exact List.map_id _

theorem ranking_season (rows : List SeasonRow) :
    (rows.map SeasonRow.window).map WindowRow.toRankingRow = rows.map SeasonRow.toRankingRow := by
  rw [List.map_map]
  rfl

/-- A leaderboard is a whole board of a game. -/
theorem Leaderboard.whole {rows : List RankingRow} {entrant : Nat → Prop} {score : Nat → Nat} {reached : Nat → Int}
    (h : Leaderboard rows entrant score reached) (game : GameId) :
    WholeBoard (.game game) (rows.map RankingRow.plain) := by
  refine ⟨?_, ?_⟩
  · rw [List.map_map]
    exact h.nodup
  · show (rows.map RankingRow.plain).map _ = _
    rw [List.map_map, List.length_map]
    exact h.ranks

theorem SharedBoard.whole {rows : List RankingRow} (h : SharedBoard rows)
    (hnodup : (rows.map RankingRow.tokenId).Nodup) {board : RankingBoardId} (hboard : ∀ game, board ≠ .game game) :
    WholeBoard board (rows.map RankingRow.plain) := by
  refine ⟨?_, ?_⟩
  · rw [List.map_map]
    exact hnodup
  · cases board with
    | game game => exact absurd rfl (hboard game)
    | devotion => exact (ranking_plain rows).symm ▸ h
    | season => exact (ranking_plain rows).symm ▸ h

section Windows

variable {r : RankingReader} {board : RankingBoardId} {period : RankingPeriod} {current earlier w : Window}
  {back : Nat} {game : GameId}

/-- The days of a window of devotion, and the day or the Monday of one of a game. -/
def RankingReader.devotionTo (r : RankingReader) (back : Nat) : Int := addDays (kstDay r.now) (-back)

def RankingReader.gameDay (r : RankingReader) (period : RankingPeriod) (back : Nat) : Int :=
  addDays (kstDay r.now) ((if period = .today then 0 else -1) - back)

def RankingReader.gameWeek (r : RankingReader) (period : RankingPeriod) (back : Nat) : Int :=
  addDays (kstWeek (kstDay r.now)) ((if period = .week then 0 else -7) - 7 * back)

theorem window_devotion : r.window .devotion period back = .ok {
    fromDay := addDays (r.devotionTo back) (1 - DEVOTION_DAYS)
    toDay := r.devotionTo back
    closesAt := if back = 0 then some (nextReset r.now .day) else none
    ruleset := none
    rows := (devotionBoard r.ranked.rows (toLowerCase r.collection) (addDays (r.devotionTo back) (1 - DEVOTION_DAYS))
      (r.devotionTo back)).map RankingRow.plain } := rfl

theorem window_day (h : period = .today ∨ period = .yesterday) : r.window (.game game) period back = .ok {
    fromDay := r.gameDay period back
    toDay := r.gameDay period back
    closesAt := if period = .today ∧ back = 0 then some (nextReset r.now .day) else none
    ruleset := some r.version
    rows := (dayBoard r.ranked.rows (toLowerCase r.collection) r.version game (r.gameDay period back)).map
      RankingRow.plain } := if_pos h

theorem window_week_eq_ok (h : ¬ (period = .today ∨ period = .yesterday)) :
    r.window (.game game) period back = .ok w ↔
      ∃ entrants, weekBoard r.version r.ranked r.collection game (r.gameWeek period back) r.now = .ok entrants ∧
        w = {
          fromDay := r.gameWeek period back
          toDay := addDays (r.gameWeek period back) 6
          closesAt := if period = .week ∧ back = 0 then some (nextReset r.now .week) else none
          ruleset := some entrants.ruleset
          rows := entrants.rows.map RankingRow.plain } := by
  unfold RankingReader.window
  dsimp only
  rw [if_neg h]
  have hstart : addDays (kstWeek (kstDay r.now)) ((if period = .week then 0 else -7) - 7 * back) =
      r.gameWeek period back := rfl
  rw [hstart]
  cases weekBoard r.version r.ranked r.collection game (r.gameWeek period back) r.now with
  | error e => simp
  | ok entrants =>
    simp only [Except.ok.injEq, exists_eq_left']
    exact eq_comm

/-- **Every window is a whole board** of ranked guardians. -/
theorem window_rows (h : r.window board period back = .ok w) : ∃ rows : List RankingRow,
    w.rows = rows.map RankingRow.plain ∧ WholeBoard board (rows.map RankingRow.plain) ∧
      ∀ row ∈ rows, ∃ ranked ∈ r.ranked.rows, ranked.tokenId = row.tokenId := by
  cases board with
  | season => cases h
  | devotion =>
    rw [window_devotion] at h
    obtain rfl := Except.ok.inj h
    refine ⟨_, rfl, SharedBoard.whole sharedBoard_devotionBoard nodup_devotionBoard fun _ => by simp, fun row hrow => ?_⟩
    obtain ⟨ranked, hranked, htoken⟩ := (devotionBoard_spec.entrants row.tokenId).mp ⟨row, hrow, rfl⟩
    exact ⟨ranked, List.mem_of_mem_filter hranked, htoken⟩
  | game game =>
    by_cases hday : period = .today ∨ period = .yesterday
    · rw [window_day hday] at h
      obtain rfl := Except.ok.inj h
      have hboard := @dayBoard_leaderboard _ (toLowerCase r.collection) r.version game (r.gameDay period back)
        r.ranked.slotUnique
      refine ⟨_, rfl, hboard.whole game, fun row hrow => ?_⟩
      obtain ⟨ranked, hranked, htoken⟩ := (hboard.entrants row.tokenId).mp ⟨row, hrow, rfl⟩
      exact ⟨ranked, List.mem_of_mem_filter hranked, htoken⟩
    · obtain ⟨entrants, hweek, rfl⟩ := (window_week_eq_ok hday).mp h
      obtain ⟨cutoff, -, -, hrows⟩ := weekBoard_eq_ok.mp hweek
      have hboard := @weekBoardRows_leaderboard _ (toLowerCase r.collection) entrants.ruleset game
        (r.gameWeek period back) cutoff r.ranked.slotUnique
      rw [← hrows] at hboard
      refine ⟨_, rfl, hboard.whole game, fun row hrow => ?_⟩
      obtain ⟨ranked, hranked, htoken⟩ := (hboard.entrants row.tokenId).mp ⟨row, hrow, rfl⟩
      exact ⟨ranked, List.mem_of_mem_filter hranked, htoken⟩

theorem whole_window (h : r.window board period back = .ok w) : WholeBoard board w.rows := by
  obtain ⟨rows, hrows, hwhole, -⟩ := window_rows h
  rwa [hrows]

theorem whole_season {season : SeasonWindows} (h : r.seasonWindows (kstDay r.now) = some season) :
    WholeBoard .season season.currentWindow.rows ∧ WholeBoard .season season.earlierWindow.rows := by
  obtain ⟨hcurrent, hearlier⟩ := seasonWindows_board h
  constructor
  · refine ⟨?_, ?_⟩
    · show ((season.current.map SeasonRow.window).map _).Nodup
      rw [List.map_map]
      exact hcurrent.nodup
    · exact (ranking_season season.current).symm ▸ hcurrent.shared
  · refine hearlier.whole ?_ fun _ => by simp
    obtain ⟨⟨fromDay, toDay⟩, -, rfl⟩ := Option.map_eq_some_iff.mp h
    dsimp only
    exact nodup_earlier _ _ _ _ _

theorem windows_eq_ok : r.windows board period = .ok (current, earlier) ↔
    (board ≠ .season ∧ r.window board period 0 = .ok current ∧ r.window board period 1 = .ok earlier) ∨
      (board = .season ∧ ∃ season, r.seasonWindows (kstDay r.now) = some season ∧
        current = season.currentWindow ∧ earlier = season.earlierWindow) := by
  have hpair : (do
      let current ← r.window board period 0
      let earlier ← r.window board period 1
      return (current, earlier) : Except ReaderError (Window × Window)) = .ok (current, earlier) ↔
        r.window board period 0 = .ok current ∧ r.window board period 1 = .ok earlier := by
    simp only [bind_eq_ok, pure_eq_ok, Prod.mk.injEq]
    constructor
    · rintro ⟨_, hcurrent, _, hearlier, rfl, rfl⟩
      exact ⟨hcurrent, hearlier⟩
    · rintro ⟨hcurrent, hearlier⟩
      exact ⟨_, hcurrent, _, hearlier, rfl, rfl⟩
  cases board with
  | season =>
    unfold RankingReader.windows
    dsimp only
    cases r.seasonWindows (kstDay r.now) with
    | none => simp
    | some season =>
      simp only [Except.ok.injEq, Prod.mk.injEq, ne_eq, not_true_eq_false, false_and, true_and, false_or,
        Option.some.injEq, exists_eq_left']
      constructor
      · rintro ⟨rfl, rfl⟩
        exact ⟨rfl, rfl⟩
      · rintro ⟨rfl, rfl⟩
        exact ⟨rfl, rfl⟩
  | devotion => exact hpair.trans (by simp)
  | game game => exact hpair.trans (by simp)

/-- **Both windows of a board are whole boards.** -/
theorem whole_windows (h : r.windows board period = .ok (current, earlier)) :
    WholeBoard board current.rows ∧ WholeBoard board earlier.rows := by
  rcases windows_eq_ok.mp h with ⟨-, hcurrent, hearlier⟩ | ⟨rfl, season, hseason, rfl, rfl⟩
  · exact ⟨whole_window hcurrent, whole_window hearlier⟩
  · exact whole_season hseason

end Windows

/-- The periods of a board. -/
def RankingBoardId.Answers (season : Season) : RankingBoardId → RankingPeriod → Prop
  | .game _, period => period ∈ GAME_PERIODS
  | .devotion, period => period = .last28
  | .season, period => period = .season season.id

/-! ## The board of a window earlier -/

/-- The reader `days` days earlier, over the same rows. -/
def RankingReader.ago (r : RankingReader) (days : Int) : RankingReader := { r with now := r.now - days * DAY_MS }

/-- `earlier` is what the board shows a window earlier: another period of now, or the same one then. A season that
is over is compared with nothing. -/
def RankingReader.IsEarlier (r : RankingReader) : RankingBoardId → RankingPeriod → Window → Prop
  | .game game, .today, earlier => r.window (.game game) .yesterday 0 = .ok earlier
  | .game game, .week, earlier => r.window (.game game) .lastweek 0 = .ok earlier
  | .game game, .yesterday, earlier =>
    ∃ shown, (r.ago 1).window (.game game) .yesterday 0 = .ok shown ∧ shown.rows = earlier.rows
  | .game game, .lastweek, earlier =>
    ∃ shown, (r.ago 7).window (.game game) .lastweek 0 = .ok shown ∧ shown.rows = earlier.rows
  | .game _, _, _ => False
  | .devotion, _, earlier => ∃ shown, (r.ago 1).window .devotion .last28 0 = .ok shown ∧ shown.rows = earlier.rows
  | .season, _, earlier =>
    if seasonPhase r.season (kstDay r.now) = .open then
      match (r.ago 1).seasonWindows (kstDay (r.ago 1).now) with
      | none => earlier.rows = []
      | some before => earlier.ranking.map RankingRow.place = before.current.map fun row => row.toRankingRow.place
    else earlier.rows = []

section IsEarlier

variable {r : RankingReader} {board : RankingBoardId} {period : RankingPeriod} {current earlier : Window}
  {game : GameId}

@[simp] theorem kstDay_ago (r : RankingReader) (days : Int) : kstDay (r.ago days).now = kstDay r.now - days := by
  unfold RankingReader.ago kstDay DAY_MS
  dsimp only
  omega

theorem kstWeek_sub_seven (day : Int) : kstWeek (day - 7) = kstWeek day - 7 := by
  simp only [kstWeek_eq]
  omega

/-- A closed season leaves no earlier row. -/
theorem earlierRow_closed (yesterday : Int) (total : PointTotals) : earlierRow true yesterday total = none := rfl

theorem earlier_closed {season : Season} {t : RankedTable} {collection : String} {today : Int} {windows : SeasonWindows}
    (h : seasonWindows season t collection today = some windows) (hclosed : seasonPhase season today ≠ .open) :
    windows.earlier = [] := by
  obtain ⟨⟨start, toDay⟩, hwindow, rfl⟩ := Option.map_eq_some_iff.mp h
  have hlt : toDay < today := by
    obtain ⟨id, first, last⟩ := season
    cases first with
    | none => cases hwindow
    | some first =>
      cases last with
      | none => cases hwindow
      | some last =>
        unfold seasonPhase at hclosed
        unfold seasonWindow seasonPhase at hwindow
        dsimp only at hclosed hwindow
        split at hclosed
        · next hbefore =>
          rw [if_pos hbefore] at hwindow
          cases hwindow
        · next hbefore =>
          rw [if_neg hbefore] at hwindow
          split at hclosed
          · exact absurd rfl hclosed
          · next hlast =>
            rw [if_neg hlast] at hwindow
            obtain ⟨-, rfl⟩ := Prod.mk.inj (Option.some.inj hwindow)
            rw [if_neg (by omega)]
            omega
  dsimp only
  rw [decide_eq_true hlt, List.filterMap_congr fun total _ => earlierRow_closed _ total, List.filterMap_none]
  rfl

/-- The day before today is yesterday, and the week before this one is the last. -/
theorem window_today_one : r.window (.game game) .today 1 = .ok current ↔
    r.window (.game game) .yesterday 0 = .ok current := by
  have hday : r.gameDay .today 1 = r.gameDay .yesterday 0 := by simp [RankingReader.gameDay]
  rw [window_day (.inl rfl), window_day (.inr rfl), hday]
  rfl

theorem window_week_one : r.window (.game game) .week 1 = .ok current ↔
    r.window (.game game) .lastweek 0 = .ok current := by
  have hstart : r.gameWeek .week 1 = r.gameWeek .lastweek 0 := by simp [RankingReader.gameWeek]
  rw [window_week_eq_ok (by decide), window_week_eq_ok (by decide), hstart]
  rfl

/-- **Ranks are compared with the board of a window earlier.** -/
theorem isEarlier (hanswers : board.Answers r.season period) (h : r.windows board period = .ok (current, earlier)) :
    r.IsEarlier board period earlier := by
  rcases windows_eq_ok.mp h with ⟨hne, -, hearlier⟩ | ⟨rfl, season, hseason, -, rfl⟩
  · cases board with
    | season => exact absurd rfl hne
    | devotion =>
      rw [window_devotion] at hearlier
      obtain rfl := Except.ok.inj hearlier
      refine ⟨_, window_devotion, ?_⟩
      have hday : (r.ago 1).devotionTo 0 = r.devotionTo 1 := by
        simp [RankingReader.devotionTo, addDays]
        omega
      rw [hday]
      rfl
    | game game =>
      have hmem : period ∈ GAME_PERIODS := hanswers
      simp only [GAME_PERIODS, List.mem_cons, List.not_mem_nil, or_false] at hmem
      rcases hmem with rfl | rfl | rfl | rfl
      · exact window_today_one.mp hearlier
      · exact window_week_one.mp hearlier
      · rw [window_day (.inr rfl)] at hearlier
        obtain rfl := Except.ok.inj hearlier
        refine ⟨_, window_day (.inr rfl), ?_⟩
        have hday : (r.ago 1).gameDay .yesterday 0 = r.gameDay .yesterday 1 := by
          simp [RankingReader.gameDay, addDays]
          omega
        rw [hday]
        rfl
      · obtain ⟨entrants, hweek, rfl⟩ := (window_week_eq_ok (by decide)).mp hearlier
        have hstart : (r.ago 7).gameWeek .lastweek 0 = r.gameWeek .lastweek 1 := by
          simp [RankingReader.gameWeek, addDays, kstWeek_sub_seven]
          omega
        obtain ⟨cutoff, hcutoff, hruleset, hrows⟩ := weekBoard_eq_ok.mp hweek
        have hclosed : r.gameWeek .lastweek 1 < kstWeek (kstDay r.now) - 7 := by
          simp only [RankingReader.gameWeek, addDays, reduceCtorEq, if_false]
          omega
        have hclosed' : r.gameWeek .lastweek 1 < kstWeek (kstDay (r.ago 7).now) := by
          rwa [kstDay_ago, kstWeek_sub_seven]
        have hclosed := hclosed.trans (Int.sub_lt_self _ (by decide))
        rw [if_pos hclosed] at hruleset
        refine ⟨_, (window_week_eq_ok (by decide)).mpr ⟨entrants, ?_, rfl⟩, rfl⟩
        rw [hstart]
        exact weekBoard_eq_ok.mpr ⟨cutoff, hcutoff, by rw [if_pos hclosed']; exact hruleset, hrows⟩
  · by_cases hopen : seasonPhase r.season (kstDay r.now) = .open
    · have hbefore := earlier_seasonWindows hseason hopen
      rw [RankingReader.IsEarlier, if_pos hopen, kstDay_ago]
      have hsame : (r.ago 1).seasonWindows (kstDay r.now - 1) =
          seasonWindows r.season r.ranked r.collection (addDays (kstDay r.now) (-1)) := rfl
      rw [hsame]
      cases hshown : seasonWindows r.season r.ranked r.collection (addDays (kstDay r.now) (-1)) with
      | none =>
        rw [hshown] at hbefore
        exact List.map_eq_nil_iff.mpr hbefore
      | some before =>
        rw [hshown] at hbefore
        dsimp only at hbefore ⊢
        rw [← hbefore]
        exact congrArg (List.map RankingRow.place) (ranking_plain season.earlier)
    · rw [RankingReader.IsEarlier, if_neg hopen]
      exact List.map_eq_nil_iff.mpr (earlier_closed hseason hopen)

/-- The clock at which the week before last is a ranking week. -/
theorem exists_windows (hanswers : board.Answers r.season period) (hboard : board ≠ .season)
    (hclock : WEEK_ZERO + 14 ≤ kstWeek (kstDay r.now)) :
    ∃ current earlier, r.windows board period = .ok (current, earlier) := by
  have hwindow : ∀ back : Nat, back ≤ 1 → ∃ w, r.window board period back = .ok w := by
    intro back hback
    cases board with
    | season => exact absurd rfl hboard
    | devotion => exact ⟨_, rfl⟩
    | game game =>
      by_cases hday : period = .today ∨ period = .yesterday
      · exact ⟨_, window_day hday⟩
      · have hmonday : kstWeek (r.gameWeek period back) = r.gameWeek period back ∧
            WEEK_ZERO ≤ r.gameWeek period back := by
          simp only [RankingReader.gameWeek, addDays, kstWeek_eq] at *
          split <;> omega
        obtain ⟨board, hweek⟩ : ∃ board, weekBoard r.version r.ranked r.collection game (r.gameWeek period back)
            r.now = .ok board := by
          unfold weekBoard
          rw [weekCutoff_eq_ok.mpr ⟨hmonday.1, hmonday.2, rfl⟩]
          exact ⟨_, rfl⟩
        exact ⟨_, (window_week_eq_ok hday).mpr ⟨board, hweek, rfl⟩⟩
  obtain ⟨current, hcurrent⟩ := hwindow 0 (Nat.zero_le 1)
  obtain ⟨earlier, hearlier⟩ := hwindow 1 le_rfl
  exact ⟨current, earlier, windows_eq_ok.mpr (.inl ⟨hboard, hcurrent, hearlier⟩)⟩

end IsEarlier

/-! ## Paths -/

section Paths

variable {value : String} {offset : Nat} {ids : List Nat}

/-- `/^[1-9]\d*$/` are the texts of the positive numbers. -/
theorem isPositiveText_iff : isPositiveText value = true ↔
    ∃ n : Nat, n ≠ 0 ∧ value = decimalText n := by
  constructor
  · intro h
    simp only [isPositiveText, Bool.and_eq_true, decide_eq_true_eq] at h
    obtain ⟨⟨hdigits, hne⟩, hzero⟩ := h
    have htext := decimalDigits_decimalValue hne hdigits hzero
    refine ⟨decimalValue value.toList, fun hn => ?_, ?_⟩
    · rw [hn] at htext
      rw [← htext] at hzero
      exact hzero rfl
    · rw [decimalText, htext, String.ofList_toList]
  · rintro ⟨n, hn, rfl⟩
    exact isPositiveText_decimalText hn

theorem length_decimalText_le {n width : Nat} (hwidth : 0 < width) :
    (decimalText n).toList.length ≤ width ↔ n < 10 ^ width := by
  rw [decimalText, String.toList_ofList, decimalDigits, Nat.length_toDigits_le_iff (by decide) hwidth]

/-- **A guardian's path text is its number.** -/
theorem validRankingTokenId_iff : validRankingTokenId value = true ↔
    ∃ n, 1 ≤ n ∧ n ≤ Guardians.GUARDIAN_MAX_SUPPLY ∧ value = decimalText n := by
  simp only [validRankingTokenId, Bool.and_eq_true, isPositiveText_iff, decide_eq_true_eq]
  constructor
  · rintro ⟨⟨⟨n, hn, rfl⟩, -⟩, hsupply⟩
    rw [decimalValue_decimalText] at hsupply
    exact ⟨n, Nat.pos_of_ne_zero hn, hsupply, rfl⟩
  · rintro ⟨n, hn, hsupply, rfl⟩
    have hwidth : n < 10 ^ 5 := by
      have : Guardians.GUARDIAN_MAX_SUPPLY = 10000 := rfl
      omega
    exact ⟨⟨⟨n, Nat.ne_of_gt hn, rfl⟩, (length_decimalText_le (by decide)).mpr hwidth⟩,
      (decimalValue_decimalText n).symm ▸ hsupply⟩

/-- The offsets of the page grid. -/
def OnGrid (offset : Nat) : Prop := ∃ k, offset = BOARD_ROWS + k * RANKING_PAGE_ROWS

theorem rankingPageOffset_onGrid (index : Int) : OnGrid (rankingPageOffset index) := ⟨_, rfl⟩

theorem rankingPageOffset_eq_iff : rankingPageOffset offset = offset ↔ OnGrid offset := by
  constructor
  · intro h
    exact h ▸ rankingPageOffset_onGrid offset
  · rintro ⟨k, rfl⟩
    simp only [rankingPageOffset, BOARD_ROWS, RANKING_PAGE_ROWS]
    omega

/-- A place below the top rows is on the page of its offset. -/
theorem rankingPageOffset_bounds {index : Nat} (h : BOARD_ROWS ≤ index) :
    rankingPageOffset index ≤ index ∧ index < rankingPageOffset index + RANKING_PAGE_ROWS := by
  simp only [rankingPageOffset, BOARD_ROWS, RANKING_PAGE_ROWS] at *
  omega

/-- **An offset path is the text of an offset of the grid, inside the largest board.** -/
theorem parseRankingPageOffset_iff : parseRankingPageOffset value = some offset ↔
    value = decimalText offset ∧ OnGrid offset ∧ offset < Guardians.GUARDIAN_MAX_SUPPLY := by
  have hsupply : Guardians.GUARDIAN_MAX_SUPPLY = 10000 := rfl
  unfold parseRankingPageOffset
  simp only [Bool.and_eq_true, decide_eq_true_eq, Option.ite_none_right_eq_some, Option.some.injEq,
    rankingPageOffset_eq_iff, isPositiveText_iff]
  constructor
  · rintro ⟨⟨⟨n, -, rfl⟩, -⟩, ⟨hlt, hgrid⟩, rfl⟩
    rw [decimalValue_decimalText] at hlt hgrid ⊢
    exact ⟨rfl, hgrid, hlt⟩
  · rintro ⟨rfl, hgrid, hlt⟩
    have hlow : BOARD_ROWS ≤ offset := by
      obtain ⟨k, rfl⟩ := hgrid
      exact Nat.le_add_right _ _
    have hten : BOARD_ROWS = 10 := rfl
    rw [decimalValue_decimalText]
    refine ⟨⟨⟨offset, by omega, rfl⟩, ?_, (length_decimalText_le (by decide)).mpr (by omega)⟩, ⟨hlt, hgrid⟩, rfl⟩
    by_contra hshort
    have hone : offset < 10 ^ 1 := (length_decimalText_le (by decide)).mp (by omega)
    omega

/-- The path that names guardians. -/
def idsText (ids : List Nat) : String := String.ofList ([','].intercalate (ids.map decimalDigits))

/-- The names that a path may have. -/
structure RosterIds (ids : List Nat) : Prop where
  size : 1 ≤ ids.length ∧ ids.length ≤ 3
  ascending : ids.IsChain (· < ·)
  tokens : ∀ id ∈ ids, 1 ≤ id ∧ id ≤ Guardians.GUARDIAN_MAX_SUPPLY

theorem comma_not_mem_decimalDigits (n : Nat) : ',' ∉ decimalDigits n := fun h =>
  absurd (isDigit_of_mem_decimalDigits h) (by decide)

/-- **A path of guardians is one to three of them, ascending and joined by commas.** -/
theorem parseRankingIds_iff : parseRankingIds value = some ids ↔ value = idsText ids ∧ RosterIds ids := by
  unfold parseRankingIds
  simp only [Option.ite_none_right_eq_some, Option.some.injEq, List.all_eq_true]
  constructor
  · rintro ⟨⟨hsize, htokens, hchain⟩, rfl⟩
    have hdigits : ∀ part ∈ value.toList.splitOn ',', decimalDigits (decimalValue part) = part ∧
        1 ≤ decimalValue part ∧ decimalValue part ≤ Guardians.GUARDIAN_MAX_SUPPLY := by
      intro part hpart
      obtain ⟨n, hn, hsupply, htext⟩ := validRankingTokenId_iff.mp (htokens part hpart)
      obtain rfl : part = decimalDigits n := String.ofList_inj.mp htext
      rw [decimalValue_decimalDigits]
      exact ⟨rfl, hn, hsupply⟩
    have htexts : ((value.toList.splitOn ',').map decimalValue).map decimalDigits = value.toList.splitOn ',' := by
      rw [List.map_map]
      exact (List.map_congr_left fun part hpart => (hdigits part hpart).1).trans (List.map_id _)
    refine ⟨?_, ⟨⟨?_, ?_⟩, hchain, ?_⟩⟩
    · rw [idsText, htexts, List.intercalate_splitOn, String.ofList_toList]
    · rw [List.length_map]
      exact List.length_pos_iff.mpr (List.splitOn_ne_nil _ _)
    · rwa [List.length_map]
    · rintro _ hid
      obtain ⟨part, hpart, rfl⟩ := List.mem_map.mp hid
      exact (hdigits part hpart).2
  · rintro ⟨rfl, hroster⟩
    have hne : ids.map decimalDigits ≠ [] := by
      have hpos := hroster.size.1
      rw [← List.length_map decimalDigits] at hpos
      exact List.length_pos_iff.mp hpos
    have hsplit : (idsText ids).toList.splitOn ',' = ids.map decimalDigits := by
      rw [idsText, String.toList_ofList, List.splitOn_intercalate ',' (fun part hpart => ?_) hne]
      obtain ⟨n, -, rfl⟩ := List.mem_map.mp hpart
      exact comma_not_mem_decimalDigits n
    have hvalues : (ids.map decimalDigits).map decimalValue = ids := by
      rw [List.map_map]
      exact (List.map_congr_left fun n _ => decimalValue_decimalDigits n).trans (List.map_id ids)
    rw [hsplit, hvalues, List.length_map]
    refine ⟨⟨hroster.size.2, fun part hpart => ?_, hroster.ascending⟩, rfl⟩
    obtain ⟨n, hn, rfl⟩ := List.mem_map.mp hpart
    obtain ⟨hpos, hsupply⟩ := hroster.tokens n hn
    exact validRankingTokenId_iff.mpr ⟨n, hpos, hsupply, rfl⟩

end Paths

/-! ## Movement -/

section Movement

variable {current earlier : Window} {tokenId rank : Nat}

theorem isSome_previousRanks : (previousRanks current earlier).isSome = true ↔
    earlier.rows ≠ [] ∧ earlier.ruleset = current.ruleset := by
  unfold previousRanks
  split
  · next h => simpa using h
  · next h => simpa using h

/-- An entry of a map is found by its key, where each key has one entry. -/
theorem find?_entries {α β : Type} {f : α → Nat × β} {rows : List α} {k : Nat} {entry : Nat × β}
    (hnodup : (rows.map fun a => (f a).1).Nodup) :
    (rows.map f).reverse.find? (fun entry => entry.1 = k) = some entry ↔ (∃ a ∈ rows, f a = entry) ∧ entry.1 = k := by
  have hkeys : ((rows.map f).reverse.map Prod.fst).Nodup := by
    rw [List.map_reverse, List.nodup_reverse, List.map_map]
    exact hnodup
  rw [find?_key_eq_some hkeys, List.mem_reverse, List.mem_map]

/-- **The earlier rank is that on the whole earlier board**, where the boards compare. -/
theorem prev_eq_some (hnodup : (earlier.rows.map fun row => row.tokenId).Nodup) :
    Moves.prev (previousRanks current earlier) tokenId = some rank ↔
      (previousRanks current earlier).isSome = true ∧
        ∃ row ∈ earlier.rows, row.tokenId = tokenId ∧ row.rank = rank := by
  by_cases hmoves : earlier.rows ≠ [] ∧ earlier.ruleset = current.ruleset
  · have hentries : previousRanks current earlier =
        some (earlier.rows.map fun row => (row.tokenId, row.rank)) := if_pos hmoves
    rw [hentries]
    simp only [Moves.prev, Option.bind_some, Option.isSome_some, true_and, Option.map_eq_some_iff]
    constructor
    · rintro ⟨entry, hfind, rfl⟩
      obtain ⟨⟨row, hrow, rfl⟩, htoken⟩ := (find?_entries hnodup).mp hfind
      exact ⟨row, hrow, htoken, rfl⟩
    · rintro ⟨row, hrow, htoken, rfl⟩
      exact ⟨_, (find?_entries hnodup).mpr ⟨⟨row, hrow, rfl⟩, htoken⟩, rfl⟩
  · have hnone : previousRanks current earlier = none := if_neg hmoves
    simp [hnone, Moves.prev]

end Movement

/-! ## The best placed below the top -/

section BestBelow

variable {rows : List WindowRow} {tokenIds : List Nat} {index : Nat}

theorem bestBelow_eq_none : bestBelow rows tokenIds = none ↔
    ∀ (index : Nat) (row : WindowRow), rows[index]? = some row → BOARD_ROWS ≤ index → row.tokenId ∉ tokenIds := by
  simp only [bestBelow, List.findIdx?_eq_none_iff, Bool.and_eq_false_iff, decide_eq_false_iff_not,
    List.contains_eq_mem, Prod.forall, List.mem_zipIdx_iff_getElem?]
  constructor
  · intro h index row hrow hlow
    exact (h row index hrow).resolve_left (fun hn => hn hlow)
  · intro h row index hrow
    by_cases hlow : BOARD_ROWS ≤ index
    · exact .inr (h index row hrow hlow)
    · exact .inl hlow

theorem bestBelow_eq_some : bestBelow rows tokenIds = some index ↔
    ∃ row, rows[index]? = some row ∧ BOARD_ROWS ≤ index ∧ row.tokenId ∈ tokenIds ∧
      ∀ (j : Nat) (other : WindowRow), rows[j]? = some other → BOARD_ROWS ≤ j → other.tokenId ∈ tokenIds → index ≤ j := by
  unfold bestBelow
  rw [List.findIdx?_eq_some_iff_getElem]
  simp only [List.length_zipIdx, List.getElem_zipIdx, Nat.zero_add, Bool.and_eq_true, decide_eq_true_eq,
    List.contains_eq_mem, not_and]
  constructor
  · rintro ⟨hlt, ⟨hlow, hmem⟩, hfirst⟩
    refine ⟨_, List.getElem?_eq_getElem hlt, hlow, hmem, fun j other hother hj hnamed => ?_⟩
    obtain ⟨hj', rfl⟩ := List.getElem?_eq_some_iff.mp hother
    by_contra hgt
    exact hfirst j (Nat.lt_of_not_le hgt) hj hnamed
  · rintro ⟨row, hrow, hlow, hmem, hfirst⟩
    obtain ⟨hlt, rfl⟩ := List.getElem?_eq_some_iff.mp hrow
    refine ⟨hlt, ⟨hlow, hmem⟩, fun j hj hlow' hnamed => ?_⟩
    exact absurd (hfirst j _ (List.getElem?_eq_getElem (hj.trans hlt)) hlow' hnamed) (Nat.not_le_of_lt hj)

end BestBelow

/-! ## The guardians on a board -/

/-- Every ranked guardian is one of the collection's. -/
def RankedTable.Numbered (t : RankedTable) : Prop :=
  ∀ row ∈ t.rows, 1 ≤ row.tokenId ∧ row.tokenId ≤ Guardians.GUARDIAN_MAX_SUPPLY

section Guardians

variable {r : RankingReader} {board : RankingBoardId} {period : RankingPeriod} {current earlier : Window}
  {game : GameId} {tokenId : Nat}

theorem exists_ranked_of_season {season : SeasonWindows} (h : r.seasonWindows (kstDay r.now) = some season)
    {row : SeasonRow} (hrow : row ∈ season.current) : ∃ ranked ∈ r.ranked.rows, ranked.tokenId = row.tokenId := by
  obtain ⟨hcurrent, -⟩ := seasonWindows_board h
  obtain ⟨game, day, placed, hplaced, htoken⟩ := (hcurrent.entrants row.tokenId).mp ⟨row, hrow, rfl⟩
  have hboard := @dayBoard_leaderboard _ (toLowerCase r.collection)
    (dayRuleset (seasonRows r.ranked.rows (toLowerCase r.collection) season.fromDay season.toDay) game day) game day
    (r.ranked.slotUnique.seasonRows (toLowerCase r.collection) season.fromDay season.toDay)
  obtain ⟨ranked, hranked, htoken'⟩ := (hboard.entrants placed.tokenId).mp ⟨placed, hplaced, rfl⟩
  exact ⟨ranked, List.mem_of_mem_filter (List.mem_of_mem_filter hranked), htoken'.trans htoken⟩

/-- Whoever is on a board has a ranked row. -/
theorem exists_ranked_of_windows (h : r.windows board period = .ok (current, earlier)) {row : WindowRow}
    (hrow : row ∈ current.rows) : ∃ ranked ∈ r.ranked.rows, ranked.tokenId = row.tokenId := by
  rcases windows_eq_ok.mp h with ⟨-, hcurrent, -⟩ | ⟨rfl, season, hseason, rfl, -⟩
  · obtain ⟨rows, hrows, -, hranked⟩ := window_rows hcurrent
    obtain ⟨plain, hplain, rfl⟩ := List.mem_map.mp (hrows ▸ hrow)
    exact hranked plain hplain
  · obtain ⟨plain, hplain, rfl⟩ := List.mem_map.mp hrow
    exact exists_ranked_of_season hseason hplain

/-- **A board is no longer than the collection.** -/
theorem length_windows_le (h : r.windows board period = .ok (current, earlier)) (hnumbered : r.ranked.Numbered) :
    current.rows.length ≤ Guardians.GUARDIAN_MAX_SUPPLY := by
  have hsub : (current.rows.map fun row => row.tokenId) ⊆ List.range' 1 Guardians.GUARDIAN_MAX_SUPPLY := by
    intro tokenId htoken
    obtain ⟨row, hrow, rfl⟩ := List.mem_map.mp htoken
    obtain ⟨ranked, hranked, htoken⟩ := exists_ranked_of_windows h hrow
    have hbounds := hnumbered ranked hranked
    rw [htoken] at hbounds
    rw [List.mem_range'_1]
    omega
  have hlength := ((whole_windows h).1.nodup.subperm hsub).length_le
  rwa [List.length_map, List.length_range'] at hlength

end Guardians

/-! ## The boards that a path names -/

section Names

variable {season : Season} {board : RankingBoardId} {period : RankingPeriod} {boardText periodText : String}

theorem text_ne_season (hperiod : ∀ id, period ≠ .season id) (id : Nat) :
    period.text ≠ RankingPeriod.text (.season id) := by
  intro heq
  have hhead : (RankingPeriod.text (.season id)).toList.head? = some 's' := by
    simp [RankingPeriod.text]
  rw [← heq] at hhead
  cases period with
  | season other => exact hperiod other rfl
  | _ => exact absurd hhead (by decide)

theorem ofText_board (board : RankingBoardId) : RankingBoardId.ofText board.text = some board := by
  rcases board with (_ | _ | _) | _ | _ <;> decide

theorem ofText_period (h : board.Answers season period) :
    RankingPeriod.ofText season period.text = some period := by
  have hfind : ∀ period ∈ [RankingPeriod.today, .week, .yesterday, .lastweek, .last28],
      period.text ≠ RankingPeriod.text (.season season.id) := by
    intro period hperiod
    refine text_ne_season (fun id heq => ?_) season.id
    subst heq
    simp at hperiod
  cases board with
  | game game =>
    have hmem : period ∈ GAME_PERIODS := h
    simp only [GAME_PERIODS, List.mem_cons, List.not_mem_nil, or_false] at hmem
    rcases hmem with rfl | rfl | rfl | rfl <;> simp [RankingPeriod.ofText, RankingPeriod.text]
  | devotion =>
    obtain rfl : period = .last28 := h
    simp [RankingPeriod.ofText, RankingPeriod.text]
  | season =>
    obtain rfl : period = .season season.id := h
    simp only [List.mem_cons, List.not_mem_nil, or_false, forall_eq_or_imp, forall_eq] at hfind
    simp [RankingPeriod.ofText, hfind]

/-- **The paths that are answered are those of the boards.** -/
theorem validRankingBoard_iff : validRankingBoard boardText periodText season = true ↔
    ∃ board period, RankingBoardId.Answers season board period ∧ boardText = board.text ∧
      periodText = period.text := by
  unfold validRankingBoard
  constructor
  · intro h
    split at h
    · next hboard => exact ⟨.season, .season season.id, rfl, hboard, of_decide_eq_true h⟩
    · split at h
      · next hboard => exact ⟨.devotion, .last28, rfl, hboard, of_decide_eq_true h⟩
      · rw [Bool.and_eq_true, decide_eq_true_eq, decide_eq_true_eq, List.mem_map, List.mem_map] at h
        obtain ⟨⟨game, -, hgame⟩, period, hperiod, htext⟩ := h
        exact ⟨.game game, period, hperiod, hgame.symm, htext.symm⟩
  · rintro ⟨board, period, hanswers, rfl, rfl⟩
    cases board with
    | game game =>
      have hmem : period ∈ GAME_PERIODS := hanswers
      have hgame : gameText game ∈ RANKED_GAMES.map gameText ∧ gameText game ≠ "season" ∧
          gameText game ≠ "devotion" := by cases game <;> decide
      obtain ⟨hgame, hseason, hdevotion⟩ := hgame
      rw [RankingBoardId.text, if_neg hseason, if_neg hdevotion, Bool.and_eq_true, decide_eq_true_eq,
        decide_eq_true_eq]
      exact ⟨hgame, List.mem_map_of_mem hmem⟩
    | devotion =>
      obtain rfl : period = .last28 := hanswers
      rfl
    | season =>
      obtain rfl : period = .season season.id := hanswers
      exact decide_eq_true rfl

/-- A route reads the board and the period of its path. -/
theorem withBoard_text {α : Type} {shipped : Season} {r : RankingReader} (h : board.Answers r.season period)
    (read : RankingReader → RankingBoardId → RankingPeriod → Except ReaderError α) :
    (RankingApp.mk shipped (some r)).withBoard board.text period.text read = read r board period := by
  have hvalid : validRankingBoard board.text period.text r.season = true :=
    validRankingBoard_iff.mpr ⟨board, period, h, rfl, rfl⟩
  have hseason : (RankingApp.mk shipped (some r)).season = r.season := rfl
  unfold RankingApp.withBoard
  rw [hseason, if_pos hvalid]
  dsimp only
  rw [ofText_board, ofText_period h]

end Names

end Mapae.Ranking
