import Mapae.Outings.Store
import Mapae.Properties.Leaderboards
import Mapae.Web.Records

/-!
# The leaderboards that are read

`RankingReader` answers the public routes from the ranked rows; nothing of a board is stored. A game has a
board of each day and each week, devotion one over the last 28 days, and the season its own.

* `window` and `windows` are a whole board, and the one a window earlier that ranks are compared with
* `board` shows the top rows, `page` the rows below them, a page at a time
* `standings` tells where guardians are placed, `card` is one place on the board of one day
* `parseRankingPageOffset` and `parseRankingIds` read the paths

An answer reads the clock once, and `now` is this reading.
-/

namespace Mapae.Ranking

open Mapae.Infra Mapae.Store Mapae.Outings Mapae.Web

def DEVOTION_DAYS : Nat := 28
def RANKING_PAGE_ROWS : Nat := 50
def NEARBY_SPAN : Nat := 2
def CARD_DAYS_BACK : Int := 365

/-! ## Boards and periods -/

inductive RankingBoardId where
  | game (game : GameId)
  | devotion
  | season
  deriving DecidableEq

/-- A season's period is its id. -/
inductive RankingPeriod where
  | today
  | week
  | yesterday
  | lastweek
  | last28
  | season (id : Nat)
  deriving DecidableEq

def GAME_PERIODS : List RankingPeriod := [.today, .week, .yesterday, .lastweek]

def RankingBoardId.text : RankingBoardId → String
  | .game id => gameText id
  | .devotion => "devotion"
  | .season => "season"

def RankingPeriod.text : RankingPeriod → String
  | .today => "today"
  | .week => "week"
  | .yesterday => "yesterday"
  | .lastweek => "lastweek"
  | .last28 => "28d"
  | .season id => "s" ++ decimalText id

/-- The board and period pairs that exist. -/
def validRankingBoard (board period : String) (season : Season) : Bool :=
  if board = "season" then decide (period = "s" ++ decimalText season.id)
  else if board = "devotion" then decide (period = "28d")
  else decide (board ∈ RANKED_GAMES.map gameText) &&
    decide (period ∈ GAME_PERIODS.map RankingPeriod.text)

/-! ## What a path names -/

/-- `/^[1-9]\d{0,4}$/`, and the number is one of the collection's. -/
def validRankingTokenId (text : String) : Bool :=
  isPositiveText text && decide (text.toList.length ≤ 5) &&
    decide (decimalValue text.toList ≤ Guardians.GUARDIAN_MAX_SUPPLY)

/-- The page offset holding a 0-based place. -/
def rankingPageOffset (index : Int) : Nat :=
  BOARD_ROWS + (index - BOARD_ROWS).toNat / RANKING_PAGE_ROWS * RANKING_PAGE_ROWS

/-- `/^[1-9]\d{1,4}$/`, and the offset is on the page grid inside the largest board there can be. -/
def parseRankingPageOffset (value : String) : Option Nat :=
  if isPositiveText value && decide (2 ≤ value.toList.length ∧ value.toList.length ≤ 5) then
    let offset := decimalValue value.toList
    if offset < Guardians.GUARDIAN_MAX_SUPPLY ∧ rankingPageOffset offset = offset then some offset else none
  else none

/-- One to three guardians, ascending and unique. -/
def parseRankingIds (value : String) : Option (List Nat) :=
  let ids := value.toList.splitOn ','
  if ids.length ≤ 3 ∧ ids.all (fun id => validRankingTokenId (String.ofList id)) ∧
      (ids.map decimalValue).IsChain (· < ·) then some (ids.map decimalValue)
  else none

/-! ## Windows -/

/-- What a season row carries besides its points. -/
structure SeasonRowExtras where
  days : Nat
  streak : Nat

structure WindowRow extends RankingRow where
  extras : Option SeasonRowExtras

/-- A row of a board without the season's columns. -/
def RankingRow.plain (row : RankingRow) : WindowRow := { row with extras := none }

def SeasonRow.window (row : SeasonRow) : WindowRow :=
  { row.toRankingRow with extras := some ⟨row.days, row.streak⟩ }

/-- A board window; `ruleset` is the one its rows ranked under. -/
structure Window where
  fromDay : Int
  toDay : Int
  closesAt : Option Int
  ruleset : Option Nat
  rows : List WindowRow

/-- `days` of `DEVOTION_BOARD`: the distinct days of each guardian. -/
def devotionDays (rows : List RankedRow) (collection : String) (fromDay toDay : Int) : List RankingRow :=
  let own := rows.filter fun r => r.collection = collection ∧ fromDay ≤ r.day ∧ r.day ≤ toDay
  (partitionKeys RankedRow.tokenId own).map fun tokenId =>
    let days := partition RankedRow.tokenId own tokenId
    ⟨0, tokenId, (days.map RankedRow.seed).max?.getD 0, (partitionKeys RankedRow.day days).length⟩

/-- `RANK() OVER (ORDER BY score DESC)`: one more than the number of rows above. -/
def scoreRank (rows : List RankingRow) (row : RankingRow) : Nat :=
  1 + rows.countP fun other => row.score < other.score

/-- `DEVOTION_BOARD`. -/
def devotionBoard (rows : List RankedRow) (collection : String) (fromDay toDay : Int) : List RankingRow :=
  let days := devotionDays rows collection fromDay toDay
  orderBy (fun row => toLex (row.rank, row.tokenId))
    (days.map fun row => { row with rank := scoreRank days row })

/-- What a read throws: an `OutingError`, or any other error. -/
inductive ReaderError where
  | invalidRequest
  | disabled
  | notFound
  | thrown (error : RankingError)

/-- The reader with its store, its season and the instant of the answer. `version` is the ruleset of the arcade. -/
structure RankingReader where
  version : Nat
  store : OutingStore
  collection : String
  season : Season
  now : Int

namespace RankingReader

variable (r : RankingReader)

def ranked : RankedTable := r.store.ledger.ranked

/-- The board's window, or `back` windows earlier. -/
def window (board : RankingBoardId) (period : RankingPeriod) (back : Nat) : Except ReaderError Window :=
  let today := kstDay r.now
  let collection := toLowerCase r.collection
  match board with
  | .season => .error (.thrown (.error "season windows read in pairs"))
  | .devotion =>
    let toDay := addDays today (-back)
    let fromDay := addDays toDay (1 - DEVOTION_DAYS)
    .ok ⟨fromDay, toDay, if back = 0 then some (nextReset r.now .day) else none, none,
      (devotionBoard r.ranked.rows collection fromDay toDay).map RankingRow.plain⟩
  | .game game =>
    if period = .today ∨ period = .yesterday then
      let day := addDays today ((if period = .today then 0 else -1) - back)
      .ok ⟨day, day, if period = .today ∧ back = 0 then some (nextReset r.now .day) else none, some r.version,
        (dayBoard r.ranked.rows collection r.version game day).map RankingRow.plain⟩
    else
      let start := addDays (kstWeek today) ((if period = .week then 0 else -7) - 7 * back)
      match weekBoard r.version r.ranked r.collection game start r.now with
      | .error e => .error (.thrown e)
      | .ok entrants =>
        .ok ⟨start, addDays start 6, if period = .week ∧ back = 0 then some (nextReset r.now .week) else none,
          some entrants.ruleset, entrants.rows.map RankingRow.plain⟩

/-- The season board at `today` and at the day before. -/
def seasonWindows (today : Int) : Option SeasonWindows :=
  Ranking.seasonWindows r.season r.ranked r.collection today

end RankingReader

/-- `SeasonWindows.current` and `SeasonWindows.earlier` as windows. -/
def SeasonWindows.currentWindow (season : SeasonWindows) : Window :=
  ⟨season.fromDay, season.toDay, season.closesAt, none, season.current.map SeasonRow.window⟩

def SeasonWindows.earlierWindow (season : SeasonWindows) : Window :=
  ⟨season.fromDay, addDays season.toDay (-1), none, none, season.earlier.map RankingRow.plain⟩

/-- A board's window and the one before it. -/
def RankingReader.windows (r : RankingReader) (board : RankingBoardId) (period : RankingPeriod) :
    Except ReaderError (Window × Window) :=
  match board with
  | .season =>
    match r.seasonWindows (kstDay r.now) with
    | none => .error .invalidRequest
    | some season => .ok (season.currentWindow, season.earlierWindow)
  | _ => do
    let current ← r.window board period 0
    let earlier ← r.window board period 1
    return (current, earlier)

/-! ## Movement -/

/-- The earlier ranks, as the entries of a map. -/
abbrev Moves := Option (List (Nat × Nat))

/-- Each guardian's rank on the whole earlier board. There is no comparison with an empty board, or with one
that ranked under another ruleset. -/
def previousRanks (current earlier : Window) : Moves :=
  if earlier.rows ≠ [] ∧ earlier.ruleset = current.ruleset then
    some (earlier.rows.map fun row => (row.tokenId, row.rank))
  else none

/-- `moves?.get(tokenId) ?? null`. Of two entries with one key a map keeps the later. -/
def Moves.prev (moves : Moves) (tokenId : Nat) : Option Nat :=
  moves.bind fun entries => (entries.reverse.find? fun entry => entry.1 = tokenId).map Prod.snd

structure PlacedRow extends WindowRow where
  prev : Option Nat

/-- A row with its earlier rank. -/
def WindowRow.withMove (moves : Moves) (row : WindowRow) : PlacedRow :=
  { row with prev := Moves.prev moves row.tokenId }

/-- `placed`: `count` rows of a whole board from the 0-based place `offset`. -/
def placedRows (rows : List WindowRow) (offset count : Nat) (moves : Moves) : List PlacedRow :=
  ((rows.drop offset).take count).map (WindowRow.withMove moves)

/-! ## Boards and pages -/

structure RankingBoard where
  board : RankingBoardId
  period : RankingPeriod
  fromDay : Int
  toDay : Int
  closesAt : Option Int
  entrants : Nat
  moves : Bool
  rows : List PlacedRow

structure RankingPage where
  board : RankingBoardId
  period : RankingPeriod
  fromDay : Int
  toDay : Int
  entrants : Nat
  moves : Bool
  rows : List PlacedRow
  offset : Nat
  focus : Option Nat

/-- A page is asked by its offset, or around one of the named guardians. -/
inductive PageAt where
  | offset (offset : Nat)
  | around (tokenIds : List Nat)

/-- The best placed of the named guardians below the top rows. -/
def bestBelow (rows : List WindowRow) (tokenIds : List Nat) : Option Nat :=
  rows.zipIdx.findIdx? fun entry => decide (BOARD_ROWS ≤ entry.2) && tokenIds.contains entry.1.tokenId

namespace RankingReader

variable (r : RankingReader)

/-- A board's top rows. -/
def board (board : RankingBoardId) (period : RankingPeriod) : Except ReaderError RankingBoard := do
  let (window, earlier) ← r.windows board period
  let moves := previousRanks window earlier
  return {
    board, period
    fromDay := window.fromDay
    toDay := window.toDay
    closesAt := window.closesAt
    entrants := window.rows.length
    moves := moves.isSome
    rows := placedRows window.rows 0 BOARD_ROWS moves }

/-- One page of the whole board below the top rows. -/
def page (board : RankingBoardId) (period : RankingPeriod) (place : PageAt) : Except ReaderError RankingPage := do
  let (window, earlier) ← r.windows board period
  let moves := previousRanks window earlier
  let found := match place with
    | .around tokenIds => bestBelow window.rows tokenIds
    | .offset _ => none
  let offset := match place with
    | .offset offset => offset
    | .around _ => rankingPageOffset ((found.map Int.ofNat).getD (-1))
  return {
    board, period
    fromDay := window.fromDay
    toDay := window.toDay
    entrants := window.rows.length
    moves := moves.isSome
    rows := placedRows window.rows offset RANKING_PAGE_ROWS moves
    offset
    focus := found.bind fun index => (window.rows[index]?).map fun row => row.tokenId }

end RankingReader

/-! ## Standings -/

structure RankingStanding where
  rank : Nat
  score : Nat
  moves : Bool
  prev : Option Nat
  entrants : Nat
  leader : Nat
  above : Option RankingRow
  nearby : List RankingRow

/-- `standing`: nothing for a guardian that is not on the board. -/
def standing (rows : List RankingRow) (tokenId : Nat) (moves : Moves) : Option RankingStanding := do
  let index ← rows.findIdx? fun row => row.tokenId = tokenId
  let row ← rows[index]?
  let first ← rows[0]?
  return {
    rank := row.rank
    score := row.score
    moves := moves.isSome
    prev := Moves.prev moves tokenId
    entrants := rows.length
    leader := first.score
    above := if index = 0 then none else rows[index - 1]?
    nearby := (rows.drop (index - NEARBY_SPAN)).take (index + NEARBY_SPAN + 1 - (index - NEARBY_SPAN)) }

structure SeasonStanding where
  moves : Bool
  prev : Option Nat
  points : Nat
  rank : Nat
  entrants : Nat
  days : Nat
  streak : Nat
  bonus : Nat
  today : Nat

/-- `seasonStanding`; nothing when `totals` has no entry of the row. -/
def seasonStanding (row : SeasonRow) (season : SeasonWindows) (moves : Moves) : Option SeasonStanding :=
  (season.totals.reverse.find? fun total => total.1 = row.tokenId).map fun total => {
    moves := moves.isSome
    prev := Moves.prev moves row.tokenId
    points := row.score
    rank := row.rank
    entrants := season.current.length
    days := row.days
    streak := row.streak
    bonus := total.2.1
    today := total.2.2 }

/-- `season && raced ? seasonStanding(...) : null`. -/
def racedStanding (season : Option SeasonWindows) (tokenId : Nat) : Except ReaderError (Option SeasonStanding) :=
  match season with
  | none => .ok none
  | some season =>
    match season.current.find? fun row => row.tokenId = tokenId with
    | none => .ok none
    | some row =>
      match seasonStanding row season (previousRanks season.currentWindow season.earlierWindow) with
      | none => .error (.thrown (.error "totals.get(tokenId) is undefined"))
      | some standing => .ok (some standing)

structure GameStanding where
  attemptsUsed : Nat
  today : Option RankingStanding
  week : Option RankingStanding

structure GuardianStanding where
  tokenId : Nat
  streak : GuardianStreak
  devotionRank : Option Nat
  devotionDays : Nat
  season : Option SeasonStanding
  weekPoints : Nat
  titles : List (GameId × Nat)
  games : GameId → GameStanding

structure RankingStandings where
  day : Int
  week : Int
  closesDay : Int
  closesWeek : Int
  leaders : GameId → Option Nat
  guardians : List GuardianStanding

/-- What `standings` keeps of the four windows of a game. -/
structure GameBoards where
  today : List RankingRow
  week : List RankingRow
  lastweek : List RankingRow
  todayMoves : Moves
  weekMoves : Moves

def Window.ranking (window : Window) : List RankingRow := window.rows.map WindowRow.toRankingRow

namespace RankingReader

variable (r : RankingReader)

/-- The token's ranked days over the last year. -/
def playedDays (tokenId : Nat) (today : Int) : List Int :=
  partitionKeys RankedRow.day (r.ranked.rows.filter fun row =>
    row.collection = toLowerCase r.collection ∧ row.tokenId = tokenId ∧ addDays today (-364) ≤ row.day ∧ row.day ≤ today)

def gameBoards (game : GameId) : Except ReaderError GameBoards := do
  let today ← r.window (.game game) .today 0
  let yesterday ← r.window (.game game) .yesterday 0
  let week ← r.window (.game game) .week 0
  let lastweek ← r.window (.game game) .lastweek 0
  return ⟨today.ranking, week.ranking, lastweek.ranking, previousRanks today yesterday, previousRanks week lastweek⟩

/-- The standing of one guardian. -/
def guardianStanding (boards : GameId → GameBoards) (devotion : List RankingRow) (season : Option SeasonWindows)
    (tokenId : Nat) : Except ReaderError GuardianStanding := do
  let today := kstDay r.now
  let week := kstWeek today
  let devoted := devotion.find? fun row => row.tokenId = tokenId
  let raced ← racedStanding season tokenId
  return {
    tokenId
    streak := guardianStreak (r.playedDays tokenId today) today
    devotionRank := devoted.map fun row => row.rank
    devotionDays := (devoted.map fun row => row.score).getD 0
    season := raced
    weekPoints := (((pointTotals r.ranked r.collection week (addDays week 6)).reverse.find? fun total =>
      total.tokenId = tokenId).map fun total => total.points).getD 0
    titles := RANKED_GAMES.filterMap fun game =>
      ((boards game).lastweek.find? fun row => row.tokenId = tokenId).bind fun row =>
        if row.rank ≤ BOARD_ROWS then some (game, row.rank) else none
    games := fun game => {
      attemptsUsed := (r.store.rankedAttemptsTaken (toLowerCase r.collection) tokenId today "" game).length
      today := standing (boards game).today tokenId (boards game).todayMoves
      week := standing (boards game).week tokenId (boards game).weekMoves } }

/-- The boards by their games. -/
def boardsOf (stamp race shop : GameBoards) : GameId → GameBoards
  | .stamp => stamp
  | .race => race
  | .shop => shop

/-- Where each named guardian stands on every current board. -/
def standings (tokenIds : List Nat) : Except ReaderError RankingStandings := do
  let today := kstDay r.now
  let stamp ← r.gameBoards .stamp
  let race ← r.gameBoards .race
  let shop ← r.gameBoards .shop
  let boards := boardsOf stamp race shop
  let devotion ← r.window .devotion .last28 0
  let guardians ← tokenIds.mapM (r.guardianStanding boards devotion.ranking (r.seasonWindows today))
  return {
    day := today
    week := kstWeek today
    closesDay := nextReset r.now .day
    closesWeek := nextReset r.now .week
    leaders := fun game => ((boards game).today[0]?).map fun row => row.score
    guardians }

end RankingReader

/-! ## Cards -/

structure RankedCard where
  game : GameId
  day : Int
  tokenId : Nat
  seed : Nat
  score : Nat
  rank : Nat
  entrants : Nat
  leader : Nat
  final : Bool
  season : Option SeasonStanding

/-- One guardian's place on a day's board: today's, or any day back to a year ago. -/
def RankingReader.card (r : RankingReader) (game : GameId) (day : Int) (tokenId : Nat) : Except ReaderError RankedCard :=
  let today := kstDay r.now
  let back := today - day
  if back < 0 ∨ back > CARD_DAYS_BACK then .error .invalidRequest
  else do
    let window ← r.window (.game game) .today back.toNat
    match window.rows.find? fun row => row.tokenId = tokenId, window.rows[0]? with
    | some row, some first =>
      let season ← racedStanding (r.seasonWindows today) tokenId
      return {
        game, day, tokenId
        seed := row.seed
        score := row.score
        rank := row.rank
        entrants := window.rows.length
        leader := first.score
        final := decide (back > 0)
        season }
    | _, _ => .error .notFound

/-! ## Routes -/

/-- The board that a path names. -/
def RankingBoardId.ofText (text : String) : Option RankingBoardId :=
  [.game .stamp, .game .race, .game .shop, .devotion, .season].find? fun board => board.text = text

/-- The period that a path names. -/
def RankingPeriod.ofText (season : Season) (text : String) : Option RankingPeriod :=
  [.today, .week, .yesterday, .lastweek, .last28, .season season.id].find? fun period => period.text = text

/-- The routes behind the bearer; without a reader they are not served. `shipped` is the season of the code. -/
structure RankingApp where
  shipped : Season
  reader : Option RankingReader

namespace RankingApp

variable (app : RankingApp)

def season : Season := (app.reader.map RankingReader.season).getD app.shipped

/-- What a route reads with the board and the period of its path. -/
def withBoard {α : Type} (board period : String)
    (read : RankingReader → RankingBoardId → RankingPeriod → Except ReaderError α) : Except ReaderError α :=
  if validRankingBoard board period app.season then
    match app.reader with
    | none => .error .disabled
    | some reader =>
      match RankingBoardId.ofText board, RankingPeriod.ofText reader.season period with
      | some board, some period => read reader board period
      | _, _ => .error .invalidRequest
  else .error .invalidRequest

/-- `/board/:board/:period`. -/
def board (board period : String) : Except ReaderError RankingBoard :=
  app.withBoard board period fun reader => reader.board

/-- `/board/:board/:period/:by/:at`. -/
def page (board period by_ place : String) : Except ReaderError RankingPage :=
  let offset := if by_ = "from" then parseRankingPageOffset place else none
  let around := if by_ = "around" then parseRankingIds place else none
  match around, offset with
  | some tokenIds, _ => app.withBoard board period fun reader b p => reader.page b p (.around tokenIds)
  | none, some offset => app.withBoard board period fun reader b p => reader.page b p (.offset offset)
  | none, none => .error .invalidRequest

end RankingApp

end Mapae.Ranking
