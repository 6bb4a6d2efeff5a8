import Mapae.Ranking.Board
import Mapae.Ranking.Streak

/-!
# The season race

In a season the daily boards earn points, and full attendance runs a bonus.

* `seasonTotals` is `SEASON_TOTALS`, one definition for each of its tables
* `seasonWindows` adds the bonus and the shared ranks, as of a day and of the day before
* `sharedRanks` places equal scores alike
-/

namespace Mapae.Ranking

open Mapae.Infra Mapae.Store

/-! ## Shared ranks -/

/-- A row shares the place of the row above it, if their scores are equal, and else is placed
after all `i` rows above it. -/
def sharedPlace (i : Nat) (above : Option (Nat × Nat)) (score : Nat) : Nat :=
  match above with
  | some (scoreAbove, rankAbove) => if scoreAbove = score then rankAbove else i + 1
  | none => i + 1

/-- The loop over the rows in order, with the score and the place of the row above. -/
def shareRanks {α : Type} (score : α → Nat) : Nat → Option (Nat × Nat) → List α → List (α × Nat)
  | _, _, [] => []
  | i, above, row :: rows =>
    (row, sharedPlace i above (score row)) ::
      shareRanks score (i + 1) (some (score row, sharedPlace i above (score row))) rows

/-- `b.score - a.score || ...`. -/
def shareKey {α : Type} (score tie : α → Nat) (row : α) : ℕᵒᵈ ×ₗ ℕ :=
  toLex (OrderDual.toDual (score row), tie row)

/-- `sort`, by score and then in the order of `tie`, and the shared ranks. -/
def sharedRanks {α : Type} (score tie : α → Nat) (rows : List α) : List (α × Nat) :=
  shareRanks score 0 none (orderBy (shareKey score tie) rows)

/-! ## Points of a day -/

def SEASON_RANK_POINTS : List Nat := [10, 7, 5]
def SEASON_TOP10_POINTS : Nat := 3
def SEASON_ENTRY_POINTS : Nat := 1
def SEASON_STREAK_BONUS : Nat := 10

/-- What one place on a daily board is worth. -/
def seasonDayPoints (rank : Nat) : Nat :=
  (if rank = 0 then none else SEASON_RANK_POINTS[rank - 1]?).getD
    (if rank ≤ BOARD_ROWS then SEASON_TOP10_POINTS else SEASON_ENTRY_POINTS)

/-- The `CASE` of the query: a `WHEN rank=i+1` for each of the rank points. -/
def casePoints (rank : Nat) : Nat :=
  match SEASON_RANK_POINTS.zipIdx.find? fun p => rank = p.2 + 1 with
  | some p => p.1
  | none => if rank ≤ BOARD_ROWS then SEASON_TOP10_POINTS else SEASON_ENTRY_POINTS

/-! ## The query -/

/-- `(strftime('%s', week, '+8 days') - 32400) * 1000`. -/
def seasonCutoff (week : Int) : Int := ((week + 8) * 86400 - 32400) * 1000

/-- `rows`. -/
def seasonRows (rows : List RankedRow) (collection : String) (fromDay toDay : Int) :
    List RankedRow :=
  rows.filter fun r => r.collection = collection ∧ fromDay ≤ r.day ∧ r.day ≤ toDay ∧
    r.createdAt < seasonCutoff r.week

/-- `day_ruleset`: the highest ruleset of a game and a day. -/
def dayRuleset (rows : List RankedRow) (game : GameId) (day : Int) : Nat :=
  ((rows.filter fun r => r.game = game ∧ r.day = day).map RankedRow.ruleset).max?.getD 0

/-- `best`, where `n=1`. -/
def seasonBest (rows : List RankedRow) : List RankedRow :=
  firsts (fun r => (r.tokenId, r.game, r.day)) RankedRow.bestKey
    (rows.filter fun r => r.ruleset = dayRuleset rows r.game r.day)

/-- `placed`: each best attempt with its rank. -/
def placed (rows : List RankedRow) : List (RankedRow × Nat) :=
  rowNumber (fun r => (r.game, r.day)) RankedRow.placeKey (seasonBest rows)

/-- A row of `daily`. -/
structure SeasonDay where
  tokenId : Nat
  seed : Nat
  day : Int
  points : Nat

/-- `daily`. -/
def seasonDaily (rows : List RankedRow) : List SeasonDay :=
  (partitionKeys (fun p => (p.1.tokenId, p.1.day)) (placed rows)).map fun key =>
    let own := partition (fun p => (p.1.tokenId, p.1.day)) (placed rows) key
    { tokenId := key.1
      seed := (own.map fun p => p.1.seed).max?.getD 0
      day := key.2
      points := (own.map fun p => casePoints p.2).sum }

/-- One guardian's daily-board points over a window. -/
structure PointTotals where
  tokenId : Nat
  seed : Nat
  points : Nat
  before : Nat
  today : Nat
  days : List Int

/-- The groups of the last table. -/
def pointTotal (yesterday today : Int) (tokenId : Nat) (own : List SeasonDay) : PointTotals where
  tokenId := tokenId
  seed := (own.map SeasonDay.seed).max?.getD 0
  points := (own.map SeasonDay.points).sum
  before := ((own.filter fun d => d.day ≤ yesterday).map SeasonDay.points).sum
  today := ((own.filter fun d => d.day = today).map SeasonDay.points).sum
  days := own.map SeasonDay.day

/-- `SEASON_TOTALS`. -/
def seasonTotals (rows : List RankedRow) (collection : String)
    (fromDay toDay yesterday today : Int) : List PointTotals :=
  let daily := seasonDaily (seasonRows rows collection fromDay toDay)
  (partitionKeys SeasonDay.tokenId daily).map fun tokenId =>
    pointTotal yesterday today tokenId (partition SeasonDay.tokenId daily tokenId)

/-- `pointTotals`. -/
def pointTotals (t : RankedTable) (collection : String) (fromDay toDay : Int) : List PointTotals :=
  seasonTotals t.rows (toLowerCase collection) fromDay toDay (addDays toDay (-1)) toDay

/-! ## The season board -/

/-- A season: its dates are both set or both open. -/
structure Season where
  id : Nat
  start : Option Int
  «end» : Option Int
  deriving DecidableEq

inductive SeasonPhase where
  | pending
  | announced
  | «open»
  | closed
  deriving DecidableEq

def seasonPhase (season : Season) (today : Int) : SeasonPhase :=
  match season.start, season.end with
  | some start, some last =>
    if today < start then .announced else if today ≤ last then .open else .closed
  | _, _ => .pending

/-- The days that count so far; nothing before the season opens. -/
def seasonWindow (season : Season) (today : Int) : Option (Int × Int) :=
  match season.start, season.end with
  | some start, some last =>
    match seasonPhase season today with
    | .open | .closed => some (start, if today < last then today else last)
    | .pending | .announced => none
  | _, _ => none

/-- When an open season closes. -/
def seasonClosesAt (season : Season) (today : Int) : Option Int :=
  if seasonPhase season today = .open then
    season.end.map fun last => dayStart (addDays last 1) - KST_OFFSET
  else none

structure SeasonStreak where
  current : Nat
  completed : Nat
  bonus : Nat

/-- The attendance run over the season's own days only. -/
def seasonStreak (days : List Int) (today : Int) : SeasonStreak :=
  let progress := streakProgress days today
  ⟨progress.current, progress.completed, progress.completed * SEASON_STREAK_BONUS⟩

/-- A season row: `days` are those played inside the season, `streak` the current run there. -/
structure SeasonRow extends RankingRow where
  days : Nat
  streak : Nat

/-- The season board at `toDay` and at the day before, and what the bonus and today added. -/
structure SeasonWindows where
  fromDay : Int
  toDay : Int
  closesAt : Option Int
  current : List SeasonRow
  earlier : List RankingRow
  totals : List (Nat × Nat × Nat)

/-- The current row of a guardian, before it is placed. -/
def currentRow (toDay : Int) (row : PointTotals) : SeasonRow :=
  let run := seasonStreak row.days toDay
  ⟨⟨0, row.tokenId, row.seed, row.points + run.bonus⟩, row.days.length, run.current⟩

/-- The row as of the day before, if there was a day by then. A closed season has none. -/
def earlierRow (closed : Bool) (yesterday : Int) (row : PointTotals) : Option RankingRow :=
  let before := if closed then [] else row.days.filter fun day => day ≤ yesterday
  if before.isEmpty then none
  else some ⟨0, row.tokenId, row.seed, row.before + (seasonStreak before yesterday).bonus⟩

/-- `sharedRanks` of rows of a board. -/
def rankRows (rows : List RankingRow) : List RankingRow :=
  (sharedRanks RankingRow.score RankingRow.tokenId rows).map fun r => { r.1 with rank := r.2 }

def rankSeasonRows (rows : List SeasonRow) : List SeasonRow :=
  (sharedRanks (fun r => r.score) (fun r => r.tokenId) rows).map fun r => { r.1 with rank := r.2 }

/-- `seasonWindows`: nothing before the season opens. -/
def seasonWindows (season : Season) (t : RankedTable) (collection : String) (today : Int) :
    Option SeasonWindows :=
  (seasonWindow season today).map fun (fromDay, toDay) =>
    let yesterday := addDays toDay (-1)
    let closed := toDay < today
    let rows := pointTotals t collection fromDay toDay
    { fromDay := fromDay
      toDay := toDay
      closesAt := seasonClosesAt season today
      current := rankSeasonRows (rows.map (currentRow toDay))
      earlier := rankRows (rows.filterMap (earlierRow closed yesterday))
      totals := rows.map fun row => (row.tokenId, (seasonStreak row.days toDay).bonus, row.today) }

end Mapae.Ranking
