import Mapae.Infra.Table
import Mapae.Infra.Window
import Mapae.Ranking.Days
import Mapae.Store.Values

/-!
# The day and week boards

`arcade_guardian_ranked` holds the settled ranked rounds. Every board is computed from it on read:

* `dayBoard` is `DAY_BOARD`: the best attempt of each guardian on a day
* `weekBoardRows` is `WEEK_BOARD`: the sum of the best daily bests of a week
* `weekBoard` chooses the ruleset that a week ranks under

The ruleset of the arcade is raised from time to time, so it is an argument of what reads it.
-/

namespace Mapae.Ranking

open Mapae.Infra Mapae.Store

inductive GameId where
  | stamp
  | race
  | shop
  deriving DecidableEq

/-- `RANKED_GAMES`. -/
def RANKED_GAMES : List GameId := [.stamp, .race, .shop]

def RANKED_ATTEMPTS : Nat := 3
def WEEKLY_COUNTED_DAYS : Nat := 5
def BOARD_ROWS : Nat := 10

/-- A row of `arcade_guardian_ranked`. The token is a decimal number, the seed 32 bytes in hex. -/
structure RankedRow where
  resultId : String
  collection : String
  tokenId : Nat
  seed : Nat
  ruleset : Nat
  game : GameId
  day : Int
  attempt : Nat
  score : Nat
  createdAt : Int
  deriving DecidableEq

/-- The column `week`. Every row is inserted with the week of its day. -/
def RankedRow.week (r : RankedRow) : Int := kstWeek r.day

/-- `UNIQUE(collection, token_id, game, day, attempt)`. -/
def RankedRow.slot (r : RankedRow) : String × Nat × GameId × Int × Nat :=
  (r.collection, r.tokenId, r.game, r.day, r.attempt)

/-- The table with its two constraints. -/
structure RankedTable where
  table : Table RankedRow.resultId
  slot_unique : table.Unique RankedRow.slot

namespace RankedTable

def rows (t : RankedTable) : List RankedRow := t.table.rows

def empty : RankedTable := ⟨.empty, Table.unique_empty⟩

/-- `INSERT INTO arcade_guardian_ranked`; `none` where a constraint refuses the row. -/
def insert? (t : RankedTable) (r : RankedRow) : Option RankedTable :=
  if hfree : t.table.free RankedRow.slot r.slot = true then
    match hinsert : t.table.insert? r with
    | none => none
    | some table => some ⟨table, t.slot_unique.insert? hinsert hfree⟩
  else none

theorem insert?_rows {t t' : RankedTable} {r : RankedRow} (h : t.insert? r = some t') :
    t'.rows = t.rows ++ [r] := by
  unfold insert? at h
  split at h
  · split at h
    · exact nomatch h
    · next table hinsert =>
      cases h
      exact (Table.insert?_eq_some.mp hinsert).2
  · exact nomatch h

theorem nodup_rows (t : RankedTable) : t.rows.Nodup := List.Nodup.of_map _ t.table.nodup_keys

/-- A slot has one row. -/
theorem eq_of_slot {t : RankedTable} {r r' : RankedRow} (h : r ∈ t.rows) (h' : r' ∈ t.rows)
    (hslot : r.slot = r'.slot) : r = r' := t.slot_unique r h r' h' hslot

end RankedTable

/-- A row of a board. -/
structure RankingRow where
  rank : Nat
  tokenId : Nat
  seed : Nat
  score : Nat

/-! ## The day board -/

/-- `ORDER BY score DESC, created_at, attempt`. -/
def RankedRow.bestKey (r : RankedRow) : ℕᵒᵈ ×ₗ ℤ ×ₗ ℕ :=
  toLex (OrderDual.toDual r.score, toLex (r.createdAt, r.attempt))

/-- `ORDER BY score DESC, <time>, CAST(token_id AS INTEGER)`. -/
def placeKey (score : Nat) (reached : Int) (tokenId : Nat) : ℕᵒᵈ ×ₗ ℤ ×ₗ ℕ :=
  toLex (OrderDual.toDual score, toLex (reached, tokenId))

def RankedRow.placeKey (r : RankedRow) : ℕᵒᵈ ×ₗ ℤ ×ₗ ℕ :=
  Ranking.placeKey r.score r.createdAt r.tokenId

/-- `WHERE collection=? AND ruleset=? AND game=? AND day=?`. -/
def dayRows (rows : List RankedRow) (collection : String) (ruleset : Nat) (game : GameId)
    (day : Int) : List RankedRow :=
  rows.filter fun r => r.collection = collection ∧ r.ruleset = ruleset ∧ r.game = game ∧ r.day = day

/-- `DAY_BOARD`. -/
def dayBoard (rows : List RankedRow) (collection : String) (ruleset : Nat) (game : GameId)
    (day : Int) : List RankingRow :=
  let best := firsts RankedRow.tokenId RankedRow.bestKey (dayRows rows collection ruleset game day)
  (numbered RankedRow.placeKey best).map fun r => ⟨r.2, r.1.tokenId, r.1.seed, r.1.score⟩

/-! ## The week board -/

/-- `WHERE collection=? AND ruleset=? AND game=? AND week=? AND created_at<?`. -/
def weekRows (rows : List RankedRow) (collection : String) (ruleset : Nat) (game : GameId)
    (week cutoff : Int) : List RankedRow :=
  rows.filter fun r => r.collection = collection ∧ r.ruleset = ruleset ∧ r.game = game ∧
    r.week = week ∧ r.createdAt < cutoff

/-- The best attempt of each guardian on each day. -/
def daily (rows : List RankedRow) : List RankedRow :=
  firsts (fun r => (r.tokenId, r.day)) RankedRow.bestKey rows

/-- `ORDER BY score DESC, day`. -/
def RankedRow.countKey (r : RankedRow) : ℕᵒᵈ ×ₗ ℤ := toLex (OrderDual.toDual r.score, r.day)

/-- The daily bests that count: at most `count` of each guardian. -/
def counted (count : Nat) (rows : List RankedRow) : List RankedRow :=
  upTo count (rowNumber RankedRow.tokenId RankedRow.countKey (daily rows))

/-- A row of the totals. -/
structure WeekTotal where
  tokenId : Nat
  seed : Nat
  score : Nat
  reached : Int

/-- `MAX(guardian_seed)`, `SUM(score)` and `MAX(created_at)` of a group. -/
def weekTotal (tokenId : Nat) (rows : List RankedRow) : WeekTotal where
  tokenId := tokenId
  seed := (rows.map RankedRow.seed).max?.getD 0
  score := (rows.map RankedRow.score).sum
  reached := (rows.map RankedRow.createdAt).max?.getD 0

/-- `GROUP BY token_id`. -/
def weekTotals (rows : List RankedRow) : List WeekTotal :=
  (partitionKeys RankedRow.tokenId rows).map fun tokenId =>
    weekTotal tokenId (partition RankedRow.tokenId rows tokenId)

def WeekTotal.placeKey (t : WeekTotal) : ℕᵒᵈ ×ₗ ℤ ×ₗ ℕ :=
  Ranking.placeKey t.score t.reached t.tokenId

/-- `WEEK_BOARD`. -/
def weekBoardRows (rows : List RankedRow) (collection : String) (ruleset : Nat) (game : GameId)
    (week cutoff : Int) (count : Nat) : List RankingRow :=
  let totals := weekTotals (counted count (weekRows rows collection ruleset game week cutoff))
  (numbered WeekTotal.placeKey totals).map fun t => ⟨t.2, t.1.tokenId, t.1.seed, t.1.score⟩

/-- `WEEK_RULESET`. -/
def weekRuleset (rows : List RankedRow) (collection : String) (week cutoff : Int) : Option Nat :=
  ((rows.filter fun r => r.collection = collection ∧ r.week = week ∧ r.createdAt < cutoff).map
    RankedRow.ruleset).max?

structure WeekBoard where
  ruleset : Nat
  rows : List RankingRow

/-- `weekBoard`: the open week under the current ruleset, a closed one under its own. -/
def weekBoard (version : Nat) (t : RankedTable) (collection : String) (game : GameId) (week : Int)
    (time : Int) : Except RankingError WeekBoard := do
  let c := toLowerCase collection
  let cutoff ← weekCutoff week
  let ruleset :=
    if week < kstWeek (kstDay time) then (weekRuleset t.rows c week cutoff).getD version
    else version
  return ⟨ruleset, weekBoardRows t.rows c ruleset game week cutoff WEEKLY_COUNTED_DAYS⟩

theorem weekBoard_eq_ok {version : Nat} {t : RankedTable} {collection : String} {game : GameId}
    {week time : Int} {board : WeekBoard} :
    weekBoard version t collection game week time = .ok board ↔
      ∃ cutoff, weekCutoff week = .ok cutoff ∧
        board.ruleset = (if week < kstWeek (kstDay time) then
          (weekRuleset t.rows (toLowerCase collection) week cutoff).getD version else version) ∧
        board.rows = weekBoardRows t.rows (toLowerCase collection) board.ruleset game week cutoff
          WEEKLY_COUNTED_DAYS := by
  simp only [weekBoard, bind_eq_ok, pure_eq_ok]
  refine exists_congr fun cutoff => and_congr_right fun _ => ?_
  obtain ⟨ruleset, rows⟩ := board
  rw [WeekBoard.mk.injEq]
  constructor
  · rintro ⟨hruleset, hrows⟩
    subst hruleset
    exact ⟨rfl, hrows.symm⟩
  · rintro ⟨hruleset, hrows⟩
    dsimp only at hruleset hrows
    subst hruleset
    exact ⟨rfl, hrows.symm⟩

end Mapae.Ranking
