import Mapae.Ranking.CloseBlock
import Mapae.Ranking.Memo
import Mapae.Ranking.Team

/-!
# The hall of fame

What a season leaves behind: its podium, the winning teams, the first places of its weeks and a raffle among
the guardians with a completed run. It is built from boards that are read at four different instants.

* `buildHall` assembles a hall from the boards, `hallOf` is what it comes to once the last week is past its
  cutoff (`buildHall_eq_ok`)
* `hallOf_congr`: a hall depends on the rows that settled in time, and not on their order
* `raffleDraw_spec` and `raffleDraw_congr` are about the winners
-/

namespace Mapae.Ranking

open Mapae.Infra Mapae.Store

/-! ## The raffle -/

def RAFFLE_WINNERS : Nat := 5
def HALL_PODIUM : Nat := 3

/-- The loop: the guardian at the index that the hash of the draw picks is drawn. -/
def raffleDraws (pick : Nat → Nat) : Nat → Nat → List Nat → List Nat
  | 0, _, _ => []
  | _ + 1, _, [] => []
  | count + 1, i, token :: rest =>
    let k := pick i % (rest.length + 1)
    (token :: rest).getD k token :: raffleDraws pick count (i + 1) ((token :: rest).eraseIdx k)

/-- `raffleDraw`. `keccak256(seed ‖ uint256(i))` as a number is an argument. -/
def raffleDraw (keccak256 : String → Nat → Nat) (seed : String) (pool : List Nat) (count : Nat) : List Nat :=
  raffleDraws (keccak256 seed) count 0 (orderBy id pool.dedup)

/-- **Winners are distinct guardians of the pool**, and as many as there can be. -/
theorem raffleDraws_spec (pick : Nat → Nat) : ∀ (count i : Nat) {remaining : List Nat}, remaining.Nodup →
    (raffleDraws pick count i remaining).Nodup ∧ (raffleDraws pick count i remaining) ⊆ remaining ∧
      (raffleDraws pick count i remaining).length = min count remaining.length
  | 0, _, _, _ => ⟨List.nodup_nil, List.nil_subset _, (Nat.zero_min _).symm⟩
  | _ + 1, _, [], _ => ⟨List.nodup_nil, List.nil_subset _, rfl⟩
  | count + 1, i, token :: rest, hnodup => by
    have hk : pick i % (rest.length + 1) < (token :: rest).length := Nat.mod_lt _ (Nat.succ_pos _)
    unfold raffleDraws
    dsimp only
    generalize pick i % (rest.length + 1) = k at hk ⊢
    rw [List.getD_eq_getElem _ token hk]
    -- The guardian that is drawn and those that are left are all there were.
    have hperm : ((token :: rest)[k] :: (token :: rest).eraseIdx k).Perm (token :: rest) :=
      List.getElem_cons_eraseIdx_perm hk
    obtain ⟨hout, hleft⟩ := List.nodup_cons.mp (hperm.nodup_iff.mpr hnodup)
    obtain ⟨hdistinct, hsub, hlength⟩ := raffleDraws_spec pick count (i + 1) hleft
    refine ⟨List.nodup_cons.mpr ⟨fun hin => hout (hsub hin), hdistinct⟩, fun x hx => ?_, ?_⟩
    · rcases List.mem_cons.mp hx with rfl | hx
      · exact List.getElem_mem hk
      · exact hperm.subset (List.mem_cons_of_mem _ (hsub hx))
    · rw [List.length_cons, hlength, List.length_eraseIdx_of_lt hk]
      simp only [List.length_cons]
      omega

/-- **The winners of a raffle**: distinct guardians of the pool, and as many as there can be. -/
theorem raffleDraw_spec (keccak256 : String → Nat → Nat) (seed : String) {pool : List Nat} (h : pool.Nodup) (count : Nat) :
    (raffleDraw keccak256 seed pool count).Nodup ∧ raffleDraw keccak256 seed pool count ⊆ pool ∧
      (raffleDraw keccak256 seed pool count).length = min count pool.length := by
  have hperm : (orderBy id pool.dedup).Perm pool := by
    rw [h.dedup]
    exact perm_orderBy _ _
  obtain ⟨hdistinct, hsub, hlength⟩ := raffleDraws_spec (keccak256 seed) count 0 (hperm.nodup_iff.mpr h)
  exact ⟨hdistinct, fun x hx => hperm.subset (hsub hx), by rw [raffleDraw, hlength, hperm.length_eq]⟩

/-- The raffle does not depend on the order of the pool. -/
theorem raffleDraw_congr {keccak256 : String → Nat → Nat} {seed : String} {pool pool' : List Nat}
    {count : Nat} (h : pool.Perm pool') :
    raffleDraw keccak256 seed pool count = raffleDraw keccak256 seed pool' count := by
  have hseparates : Separates (id : Nat → Nat) pool.dedup := fun _ _ _ _ heq => heq
  rw [raffleDraw, hseparates.orderBy_eq h.dedup, raffleDraw]

/-! ## A sealed hall -/

structure HallRow where
  rank : Nat
  tokenId : Nat
  seed : Nat
  points : Nat
  days : Nat

/-- The first place of one game in one of the season's weeks. -/
structure HallChampion where
  week : Int
  game : GameId
  tokenId : Nat
  seed : Nat
  score : Nat

/-- A raffle entrant, with its completed runs. -/
structure HallStreak where
  tokenId : Nat
  seed : Nat
  runs : Nat

structure SealedHall where
  season : Nat
  sealedAt : Int
  start : Int
  «end» : Int
  entrants : Nat
  podium : List HallRow
  teams : List TeamRow
  champions : List HallChampion
  streakPool : List HallStreak
  closeBlock : CloseBlock
  raffle : List Nat
  participants : List Nat

inductive SeasonHall where
  | unsealed (season : Nat) (sealsAt : Int)
  | sealed (hall : SealedHall)

/-- When a closed season seals: the cutoff of the week holding its last day. -/
def hallSealsAt (season : Season) : Except RankingError (Option Int) :=
  match season.end with
  | none => .ok none
  | some last => (weekCutoff (kstWeek last)).map some

/-- The instant a dated season ends. -/
def seasonEndsAt (season : Season) : Option Int :=
  season.end.map fun last => dayStart (addDays last 1) - KST_OFFSET

def hallPodium (rows : List HallRow) : List HallRow := rows.filter fun row => row.rank ≤ HALL_PODIUM

/-- A team nobody played for never wins. -/
def hallTeams (rows : List TeamRow) : List TeamRow := rows.filter fun row => row.rank = 1 ∧ row.members > 0

/-! ## Building a hall -/

/-- What is read off hashes. -/
structure HallKit where
  zodiac : Nat → GuardianZodiac
  keccak256 : String → Nat → Nat

inductive HallError where
  | ranking (error : RankingError)
  /-- `invalid_request` of the team board. -/
  | invalidRequest
  /-- Read off `null`. -/
  | typeError
  /-- The primary key is taken. -/
  | constraint

/-- The weeks of the loop: from the one of the first day, up to the last day. -/
def hallWeeks (start last : Int) : List Int :=
  (List.range ((last - kstWeek start) / 7 + 1).toNat).map fun i : Nat => addDays (kstWeek start) (7 * i)

/-- The turns of both loops. -/
def hallSlots (start last : Int) : List (Int × GameId) :=
  (hallWeeks start last).flatMap fun week => RANKED_GAMES.map fun game => (week, game)

def champion (slot : Int × GameId) (rows : List RankingRow) : Option HallChampion :=
  rows.head?.map fun first => ⟨slot.1, slot.2, first.tokenId, first.seed, first.score⟩

/-- The loops over the weeks and the games. -/
def champions (board : Int × GameId → Except RankingError WeekBoard) :
    List (Int × GameId) → Except RankingError (List HallChampion)
  | [] => .ok []
  | slot :: slots => do
    let first ← board slot
    let others ← champions board slots
    return (champion slot first.rows).toList ++ others

/-- A guardian with a completed run is in the pool. -/
def streakEntry (last : Int) (row : PointTotals) : Option HallStreak :=
  let runs := (seasonStreak row.days last).completed
  if runs = 0 then none else some ⟨row.tokenId, row.seed, runs⟩

def streakPool (totals : List PointTotals) (last : Int) : List HallStreak :=
  orderBy HallStreak.tokenId (totals.filterMap (streakEntry last))

/-- The rest of a hall, once the boards are read. -/
def assembleHall (kit : HallKit) (season : Nat) (start last sealedAt : Int) (rows : List SeasonRow)
    (teams : List TeamRow) (champions : List HallChampion) (pool : List HallStreak)
    (closeBlock : CloseBlock) : SealedHall where
  season := season
  sealedAt := sealedAt
  start := start
  «end» := last
  entrants := rows.length
  podium := hallPodium (rows.map fun row => ⟨row.rank, row.tokenId, row.seed, row.score, row.days⟩)
  teams := hallTeams teams
  champions := champions
  streakPool := pool
  closeBlock := closeBlock
  raffle := raffleDraw kit.keccak256 closeBlock.hash (pool.map HallStreak.tokenId) RAFFLE_WINNERS
  participants := orderBy id (rows.map fun row => row.tokenId)

/-- `buildHall`. The team board reads the clock for itself. -/
def buildHall (kit : HallKit) (version : Nat) (season : Season) (t : RankedTable) (collection : String)
    (closeBlock : CloseBlock) (sealedAt teamsAt : Int) : Except HallError SealedHall := do
  let start ← orThrow season.start .typeError
  let last ← orThrow season.end .typeError
  let windows ← orThrow (seasonWindows season t collection last) .typeError
  let first ← (champions (fun slot => weekBoard version t collection slot.2 slot.1 sealedAt)
    (hallSlots start last)).mapError .ranking
  let teams ← orThrow (seasonTeamBoard kit.zodiac season t collection teamsAt) .invalidRequest
  return assembleHall kit season.id start last sealedAt windows.current teams.rows first
    (streakPool (pointTotals t collection start last) last) closeBlock

/-! ## What a hall depends on -/

/-- The rows of the season's weeks that settled before their cutoffs. -/
def hallRows (rows : List RankedRow) (collection : String) (start last : Int) : List RankedRow :=
  rows.filter fun r => r.collection = collection ∧ kstWeek start ≤ r.week ∧ r.week ≤ kstWeek last ∧
    r.createdAt < seasonCutoff r.week

/-- The totals as of the last day. -/
def finalTotals (rows : List RankedRow) (collection : String) (start last : Int) : List PointTotals :=
  seasonTotals rows collection start last (addDays last (-1)) last

/-- The season board as of the last day. -/
def finalBoard (rows : List RankedRow) (collection : String) (start last : Int) : List SeasonRow :=
  rankSeasonRows ((finalTotals rows collection start last).map (currentRow last))

/-- The hall of a season whose last week is past its cutoff. -/
def hallOf (kit : HallKit) (rows : List RankedRow) (collection : String) (season : Nat)
    (start last sealedAt : Int) (closeBlock : CloseBlock) : SealedHall :=
  let board := finalBoard rows collection start last
  assembleHall kit season start last sealedAt board
    (teamBoardRows (board.map fun row => (⟨row.tokenId, row.seed, row.score⟩, kit.zodiac row.seed)))
    ((hallSlots start last).filterMap fun slot =>
      champion slot (sealedBoard rows collection slot.2 slot.1 (seasonCutoff slot.1)))
    (streakPool (finalTotals rows collection start last) last) closeBlock

section HallOf

variable (kit : HallKit) (rows : List RankedRow) (collection : String) (season : Nat) (start last sealedAt : Int)
  (closeBlock : CloseBlock)

theorem streakPool_hallOf : (hallOf kit rows collection season start last sealedAt closeBlock).streakPool =
    streakPool (finalTotals rows collection start last) last := by
  simp only [hallOf, assembleHall]

theorem raffle_hallOf : (hallOf kit rows collection season start last sealedAt closeBlock).raffle =
    raffleDraw kit.keccak256 closeBlock.hash
      ((streakPool (finalTotals rows collection start last) last).map HallStreak.tokenId) RAFFLE_WINNERS := by
  simp only [hallOf, assembleHall]

/-- The instant a hall is sealed at is all that is read off the clock. -/
theorem hallOf_sealedAt (sealedAt' : Int) : hallOf kit rows collection season start last sealedAt' closeBlock =
    { hallOf kit rows collection season start last sealedAt closeBlock with sealedAt := sealedAt' } := by
  simp only [hallOf, assembleHall]

end HallOf

/-! ## What is built -/

section Built

variable {kit : HallKit} {version : Nat} {season : Season} {t : RankedTable} {collection : String}
  {closeBlock : CloseBlock} {start last today cutoff sealedAt teamsAt : Int} {hall : SealedHall}

/-- The weeks of the loop are Mondays, and none is after the last week. -/
theorem mem_hallSlots {slot : Int × GameId} (h : slot ∈ hallSlots start last) :
    kstWeek slot.1 = slot.1 ∧ kstWeek start ≤ slot.1 ∧ slot.1 ≤ kstWeek last := by
  obtain ⟨week, hweek, hslot⟩ := List.mem_flatMap.mp h
  obtain ⟨game, -, rfl⟩ := List.mem_map.mp hslot
  obtain ⟨i, hi, rfl⟩ := List.mem_map.mp hweek
  rw [List.mem_range] at hi
  have hmonday : kstWeek (addDays (kstWeek start) (7 * i)) = addDays (kstWeek start) (7 * i) := by
    simp only [kstWeek_eq, addDays]
    omega
  have hlast : addDays (kstWeek start) (7 * i) ≤ last := by
    unfold addDays
    omega
  refine ⟨hmonday, ?_, le_of_eq_of_le hmonday.symm (kstWeek_mono hlast)⟩
  show kstWeek start ≤ addDays (kstWeek start) (7 * i)
  unfold addDays
  omega

/-- The loops, where the rows of each board are known. -/
theorem champions_eq {board : Int × GameId → Except RankingError WeekBoard}
    {rows : Int × GameId → List RankingRow} : ∀ {slots : List (Int × GameId)} {found : List HallChampion},
    champions board slots = .ok found → (∀ slot ∈ slots, ∀ read, board slot = .ok read → read.rows = rows slot) →
      found = slots.filterMap fun slot => champion slot (rows slot)
  | [], _, h, _ => by
    cases h
    rfl
  | slot :: slots, found, h, hboard => by
    obtain ⟨read, hread, h⟩ := bind_eq_ok.mp h
    obtain ⟨others, hothers, h⟩ := bind_eq_ok.mp h
    have hrest := champions_eq hothers fun s hs => hboard s (List.mem_cons_of_mem _ hs)
    rw [pure_eq_ok, hboard slot List.mem_cons_self read hread, hrest] at h
    rw [← h, List.filterMap_cons]
    cases champion slot (rows slot) <;> rfl

theorem current_seasonWindows (h : seasonWindow season today = some (start, last)) :
    (seasonWindows season t collection today).map SeasonWindows.current =
      some (finalBoard t.rows (toLowerCase collection) start last) := by
  simp only [seasonWindows, h, Option.map_some, finalBoard, finalTotals, pointTotals]

variable (t collection) in
/-- A season board read at its last day or later is the final one. -/
theorem seasonWindows_final (hstart : season.start = some start) (hend : season.end = some last)
    (hdates : start ≤ last) (htoday : last ≤ today) : ∃ windows,
      seasonWindows season t collection today = some windows ∧
        windows.current = finalBoard t.rows (toLowerCase collection) start last := by
  have hwindow : seasonWindow season today = some (start, last) := by
    have hopen : ¬ today < start := by omega
    have hlast : ¬ today < last := by omega
    unfold seasonWindow seasonPhase
    by_cases hle : today ≤ last <;> simp [hstart, hend, hopen, hle, hlast]
  exact Option.map_eq_some_iff.mp (current_seasonWindows hwindow)

/-- Before its first day a season has no board. -/
theorem dates_of_seasonWindows {windows : SeasonWindows} (hstart : season.start = some start)
    (hend : season.end = some last) (h : seasonWindows season t collection last = some windows) : start ≤ last := by
  by_contra hlt
  have hnone : seasonWindow season last = none := by
    unfold seasonWindow seasonPhase
    simp [hstart, hend, not_le.mp hlt]
  rw [seasonWindows, hnone] at h
  cases h

theorem board_of_mapError {found : List HallChampion} {x : Except RankingError (List HallChampion)}
    (h : x.mapError HallError.ranking = .ok found) : x = .ok found := by
  cases x with
  | error e => cases h
  | ok value => exact congrArg _ (Except.ok.inj h)

/-- The cutoff of the last week is past the last day. -/
theorem day_of_cutoff {time : Int} (hcutoff : weekCutoff (kstWeek last) = .ok cutoff) (htime : cutoff ≤ time) :
    last ≤ kstDay time := by
  have hbounds := kstWeek_bounds last
  obtain ⟨-, -, rfl⟩ := weekCutoff_eq_ok.mp hcutoff
  simp only [kstDay, dayStart, addDays, DAY_MS, KST_OFFSET, HONOR_GRACE_MS] at *
  omega

/-- Only a dated season has a hall. -/
theorem start_of_buildHall
    (h : buildHall kit version season t collection closeBlock sealedAt teamsAt = .ok hall) :
    ∃ start, season.start = some start := by
  simp only [buildHall, bind_eq_ok, orThrow_eq_ok] at h
  obtain ⟨start, hstart, -⟩ := h
  exact ⟨start, hstart⟩

/-- **A hall that is built past the cutoff of the last week** is the hall of its rows, whatever the clock
and the ruleset of the arcade. -/
theorem buildHall_eq_ok (hstart : season.start = some start) (hend : season.end = some last)
    (hcutoff : weekCutoff (kstWeek last) = .ok cutoff) (hsealed : cutoff ≤ sealedAt) (hteams : cutoff ≤ teamsAt)
    (h : buildHall kit version season t collection closeBlock sealedAt teamsAt = .ok hall) :
    hall = hallOf kit t.rows (toLowerCase collection) season.id start last sealedAt closeBlock := by
  simp only [buildHall, bind_eq_ok, orThrow_eq_ok, pure_eq_ok] at h
  obtain ⟨_, hstart', _, hend', windows, hwindows, first, hfirst, teams, hteamBoard, rfl⟩ := h
  cases hstart.symm.trans hstart'
  cases hend.symm.trans hend'
  have hdates := dates_of_seasonWindows hstart hend hwindows
  -- The season is over on the day the teams are read.
  have hday := day_of_cutoff hcutoff hteams
  obtain ⟨windows', hwindows', hcurrent⟩ := seasonWindows_final t collection hstart hend
    hdates (le_refl last)
  obtain rfl := Option.some.inj (hwindows.symm.trans hwindows')
  obtain ⟨late, hlate, hlateCurrent⟩ := seasonWindows_final t collection hstart hend hdates hday
  have hteamRows : teams.rows = teamBoardRows ((finalBoard t.rows (toLowerCase collection) start last).map fun row =>
      (⟨row.tokenId, row.seed, row.score⟩, kit.zodiac row.seed)) := by
    rw [seasonTeamBoard, hlate, Option.map_some, Option.some.injEq] at hteamBoard
    rw [← hteamBoard, hlateCurrent]
    simp only [teamBoardOf, List.map_map, Function.comp_def]
  have hchampions : first = (hallSlots start last).filterMap fun slot =>
      champion slot (sealedBoard t.rows (toLowerCase collection) slot.2 slot.1 (seasonCutoff slot.1)) := by
    refine champions_eq (board_of_mapError hfirst) fun slot hslot read hread => ?_
    obtain ⟨hmonday, -, hlast⟩ := mem_hallSlots hslot
    obtain ⟨weekly, hweekly, -⟩ := weekBoard_eq_ok.mp hread
    rw [seasonCutoff_eq hweekly]
    exact ((weekBoard_sealed hweekly ((cutoff_mono hweekly hcutoff hlast).trans hsealed)).mp hread).2
  rw [hallOf, hcurrent, hteamRows, hchampions, pointTotals, finalTotals]

/-- The loops, where each board can be read. -/
theorem exists_champions {board : Int × GameId → Except RankingError WeekBoard} :
    ∀ {slots : List (Int × GameId)}, (∀ slot ∈ slots, ∃ read, board slot = .ok read) →
      ∃ found, champions board slots = .ok found
  | [], _ => ⟨[], rfl⟩
  | slot :: slots, h => by
    obtain ⟨hfirst, hrest⟩ := List.forall_mem_cons.mp h
    obtain ⟨read, hread⟩ := hfirst
    obtain ⟨others, hothers⟩ := exists_champions hrest
    exact ⟨_, bind_eq_ok.mpr ⟨read, hread, bind_eq_ok.mpr ⟨others, hothers, rfl⟩⟩⟩

/-- **Past the cutoff a hall can be built**, as long as its weeks have numbers. -/
theorem exists_buildHall (kit : HallKit) (version : Nat) (t : RankedTable) (collection : String)
    (closeBlock : CloseBlock) (hstart : season.start = some start) (hend : season.end = some last)
    (hdates : start ≤ last) (hzero : WEEK_ZERO ≤ kstWeek start) (hcutoff : weekCutoff (kstWeek last) = .ok cutoff)
    (hsealed : cutoff ≤ sealedAt) (hteams : cutoff ≤ teamsAt) :
    ∃ hall, buildHall kit version season t collection closeBlock sealedAt teamsAt = .ok hall ∧
      hall.season = season.id := by
  obtain ⟨windows, hwindows, -⟩ := seasonWindows_final t collection hstart hend hdates (le_refl last)
  obtain ⟨late, hlate, -⟩ := seasonWindows_final t collection hstart hend hdates
    (day_of_cutoff hcutoff hteams)
  obtain ⟨found, hfound⟩ : ∃ found, champions (fun slot => weekBoard version t collection slot.2 slot.1 sealedAt)
      (hallSlots start last) = .ok found := exists_champions fun slot hslot => by
    obtain ⟨hmonday, hfrom, hlast⟩ := mem_hallSlots hslot
    obtain ⟨weekly, hweekly⟩ : ∃ weekly, weekCutoff slot.1 = .ok weekly :=
      ⟨_, weekCutoff_eq_ok.mpr ⟨hmonday, hzero.trans hfrom, rfl⟩⟩
    obtain ⟨board, hboard, -⟩ := exists_weekBoard version t collection slot.2 hweekly
      ((cutoff_mono hweekly hcutoff hlast).trans hsealed)
    exact ⟨board, hboard⟩
  obtain ⟨teams, hteamBoard⟩ : ∃ teams, seasonTeamBoard kit.zodiac season t collection teamsAt = some teams :=
    ⟨_, Option.map_eq_some_iff.mpr ⟨late, hlate, rfl⟩⟩
  simp only [buildHall, bind_eq_ok, orThrow_eq_ok, pure_eq_ok]
  refine ⟨_, ⟨start, hstart, last, hend, windows, hwindows, found, ?_, teams, hteamBoard, rfl⟩, rfl⟩
  rw [hfound]
  rfl

end Built

/-! ## Rows in another order -/

section Congr

variable {rows rows' : List RankedRow} {collection : String} {start last : Int} {game : GameId} {week cutoff : Int}

theorem seasonRows_hallRows : seasonRows rows collection start last =
    (hallRows rows collection start last).filter fun r => start ≤ r.day ∧ r.day ≤ last := by
  rw [hallRows, List.filter_filter, seasonRows]
  refine List.filter_congr fun r _ => ?_
  rw [Bool.eq_iff_iff]
  simp only [Bool.and_eq_true, decide_eq_true_eq]
  constructor
  · rintro ⟨hc, hfrom, hto, hcreated⟩
    exact ⟨⟨hfrom, hto⟩, hc, kstWeek_mono hfrom, kstWeek_mono hto, hcreated⟩
  · rintro ⟨⟨hfrom, hto⟩, hc, -, -, hcreated⟩
    exact ⟨hc, hfrom, hto, hcreated⟩

/-- The rows of one of the season's weeks. -/
theorem filter_week_hallRows (hfrom : kstWeek start ≤ week) (hto : week ≤ kstWeek last) (p : RankedRow → Bool) :
    (rows.filter fun r => decide (r.collection = collection ∧ r.week = week ∧ r.createdAt < seasonCutoff week) && p r) =
      (hallRows rows collection start last).filter fun r => decide (r.week = week) && p r := by
  rw [hallRows, List.filter_filter]
  refine List.filter_congr fun r _ => ?_
  rw [Bool.eq_iff_iff]
  simp only [Bool.and_eq_true, decide_eq_true_eq]
  constructor
  · rintro ⟨⟨hc, rfl, hcreated⟩, hp⟩
    exact ⟨⟨rfl, hp⟩, hc, hfrom, hto, hcreated⟩
  · rintro ⟨⟨rfl, hp⟩, hc, -, -, hcreated⟩
    exact ⟨⟨hc, rfl, hcreated⟩, hp⟩

theorem perm_weekRows (h : (hallRows rows collection start last).Perm (hallRows rows' collection start last))
    (hfrom : kstWeek start ≤ week) (hto : week ≤ kstWeek last) (ruleset : Nat) (game : GameId) :
    (weekRows rows collection ruleset game week (seasonCutoff week)).Perm
      (weekRows rows' collection ruleset game week (seasonCutoff week)) := by
  have hrows (rows : List RankedRow) : weekRows rows collection ruleset game week (seasonCutoff week) =
      (hallRows rows collection start last).filter fun r => decide (r.week = week) &&
        decide (r.ruleset = ruleset ∧ r.game = game) := by
    rw [← filter_week_hallRows hfrom hto, weekRows]
    refine List.filter_congr fun r _ => ?_
    rw [Bool.eq_iff_iff]
    simp only [Bool.and_eq_true, decide_eq_true_eq]
    tauto
  rw [hrows, hrows]
  exact h.filter _

theorem weekRuleset_congr (h : (hallRows rows collection start last).Perm (hallRows rows' collection start last))
    (hfrom : kstWeek start ≤ week) (hto : week ≤ kstWeek last) :
    weekRuleset rows collection week (seasonCutoff week) = weekRuleset rows' collection week (seasonCutoff week) := by
  have hrows (rows : List RankedRow) : (rows.filter fun r => r.collection = collection ∧ r.week = week ∧
      r.createdAt < seasonCutoff week) =
        (hallRows rows collection start last).filter fun r => decide (r.week = week) && true := by
    rw [← filter_week_hallRows hfrom hto]
    exact List.filter_congr fun r _ => (Bool.and_true _).symm
  rw [weekRuleset, weekRuleset, hrows, hrows]
  exact max?_of_perm ((h.filter _).map _)

/-! ### The week boards -/

theorem countKey_separatesIn (rows : List RankedRow) :
    SeparatesIn RankedRow.tokenId RankedRow.countKey (daily rows) := by
  intro a ha b hb ht he
  simp only [RankedRow.countKey, EmbeddingLike.apply_eq_iff_eq, Prod.mk.injEq] at he
  exact firsts_inj ha hb (by rw [ht, he.2])

theorem perm_counted (hsep : SeparatesIn (fun r => (r.tokenId, r.day)) RankedRow.bestKey rows)
    (h : rows.Perm rows') (count : Nat) : (counted count rows).Perm (counted count rows') :=
  (countKey_separatesIn rows).perm_upTo (hsep.perm_upTo h 1) count

theorem perm_weekTotals (h : rows.Perm rows') : (weekTotals rows).Perm (weekTotals rows') := by
  refine perm_groups (g := weekTotal) h fun tokenId own own' hown => ?_
  rw [weekTotal, weekTotal, max?_of_perm (hown.map RankedRow.seed), (hown.map RankedRow.score).sum_eq,
    max?_of_perm (hown.map RankedRow.createdAt)]

/-- **A sealed board** is one of the rows of the season that settled in time. -/
theorem sealedBoard_congr (hslots : SlotUnique rows)
    (h : (hallRows rows collection start last).Perm (hallRows rows' collection start last))
    (hfrom : kstWeek start ≤ week) (hto : week ≤ kstWeek last) (game : GameId) :
    sealedBoard rows collection game week (seasonCutoff week) =
      sealedBoard rows' collection game week (seasonCutoff week) := by
  rw [sealedBoard, sealedBoard, ← weekRuleset_congr h hfrom hto, weekBoardRows, weekBoardRows]
  generalize (weekRuleset rows collection week (seasonCutoff week)).getD 0 = ruleset
  have hrows := perm_weekRows h hfrom hto ruleset game
  have hsep : SeparatesIn (fun r => (r.tokenId, r.day)) RankedRow.bestKey
      (weekRows rows collection ruleset game week (seasonCutoff week)) := weekRows_separatesIn hslots
  have htotals := perm_weekTotals (perm_counted hsep hrows WEEKLY_COUNTED_DAYS)
  have hplaces : Separates WeekTotal.placeKey
      (weekTotals (counted WEEKLY_COUNTED_DAYS (weekRows rows collection ruleset game week (seasonCutoff week)))) := by
    intro a ha b hb he
    refine List.inj_on_of_nodup_map ?_ ha hb (placeKey_inj he)
    rw [map_tokenId_weekTotals]
    exact nodup_partitionKeys _ _
  rw [hplaces.numbered_eq htotals]

/-! ### The season board -/

theorem perm_seasonBest (hslots : SlotUnique rows) (hc : ∀ r ∈ rows, r.collection = collection)
    (h : rows.Perm rows') : (seasonBest rows).Perm (seasonBest rows') := by
  have hruleset (r : RankedRow) : dayRuleset rows r.game r.day = dayRuleset rows' r.game r.day := by
    rw [dayRuleset, dayRuleset, max?_of_perm ((h.filter _).map RankedRow.ruleset)]
  have hsep := seasonBest_separatesIn hslots hc
  unfold seasonBest
  simp only [← hruleset]
  exact hsep.perm_upTo (h.filter _) 1

theorem placeKey_separatesIn (rows : List RankedRow) :
    SeparatesIn (fun r => (r.game, r.day)) RankedRow.placeKey (seasonBest rows) := by
  intro a ha b hb hk he
  obtain ⟨hg, hd⟩ := Prod.mk.inj hk
  exact firsts_inj ha hb (by rw [placeKey_inj he, hg, hd])

theorem perm_placed (hslots : SlotUnique rows) (hc : ∀ r ∈ rows, r.collection = collection)
    (h : rows.Perm rows') : (placed rows).Perm (placed rows') :=
  (placeKey_separatesIn rows).perm_rowNumber (perm_seasonBest hslots hc h)

/-- A row of `daily`, of the places of a guardian on a day. -/
def dayOfPlaces (key : Nat × Int) (own : List (RankedRow × Nat)) : SeasonDay where
  tokenId := key.1
  seed := (own.map fun p => p.1.seed).max?.getD 0
  day := key.2
  points := (own.map fun p => casePoints p.2).sum

def placedDay (place : RankedRow × Nat) : Nat × Int := (place.1.tokenId, place.1.day)

theorem perm_seasonDaily (hslots : SlotUnique rows) (hc : ∀ r ∈ rows, r.collection = collection)
    (h : rows.Perm rows') : (seasonDaily rows).Perm (seasonDaily rows') := by
  have hdays (rows : List RankedRow) : seasonDaily rows =
      (partitionKeys placedDay (placed rows)).map fun key => dayOfPlaces key (partition placedDay (placed rows) key) := rfl
  rw [hdays, hdays]
  refine perm_groups (perm_placed hslots hc h) fun key own own' hown => ?_
  rw [dayOfPlaces, dayOfPlaces, max?_of_perm (hown.map fun p => p.1.seed), (hown.map fun p => casePoints p.2).sum_eq]

/-- **The totals are alike** for all that does not depend on the order of the days. -/
theorem perm_map_finalTotals {γ : Type} {f : PointTotals → γ} (hslots : SlotUnique rows)
    (h : (hallRows rows collection start last).Perm (hallRows rows' collection start last))
    (hf : ∀ total days, total.days.Perm days → f total = f { total with days := days }) :
    ((finalTotals rows collection start last).map f).Perm ((finalTotals rows' collection start last).map f) := by
  have hrows : (seasonRows rows collection start last).Perm (seasonRows rows' collection start last) := by
    rw [seasonRows_hallRows, seasonRows_hallRows]
    exact h.filter _
  have hdaily := perm_seasonDaily (hslots.seasonRows _ _ _) seasonRows_collection hrows
  simp only [finalTotals, seasonTotals, List.map_map]
  refine perm_groups (g := fun tokenId own => f (pointTotal (addDays last (-1)) last tokenId own)) hdaily
    fun tokenId own own' hown => ?_
  rw [hf _ (own'.map SeasonDay.day) (hown.map _)]
  simp only [pointTotal]
  rw [max?_of_perm (hown.map SeasonDay.seed), (hown.map SeasonDay.points).sum_eq,
    ((hown.filter _).map SeasonDay.points).sum_eq, ((hown.filter _).map SeasonDay.points).sum_eq]

theorem seasonStreak_congr {days days' : List Int} (h : days.Perm days') (today : Int) :
    seasonStreak days today = seasonStreak days' today := by
  rw [seasonStreak, streakProgress_congr fun _ _ => h.mem_iff, seasonStreak]

theorem nodup_finalTotals (rows : List RankedRow) (collection : String) (start last : Int) :
    ((finalTotals rows collection start last).map PointTotals.tokenId).Nodup := by
  rw [finalTotals, map_tokenId_seasonTotals]
  exact nodup_partitionKeys _ _

theorem rankSeasonRows_congr {board board' : List SeasonRow} (hnodup : (board.map fun r => r.tokenId).Nodup)
    (h : board.Perm board') : rankSeasonRows board = rankSeasonRows board' := by
  have hsep : Separates (shareKey (fun r : SeasonRow => r.score) fun r => r.tokenId) board := by
    intro a ha b hb he
    simp only [shareKey, EmbeddingLike.apply_eq_iff_eq, Prod.mk.injEq] at he
    exact List.inj_on_of_nodup_map hnodup ha hb he.2
  rw [rankSeasonRows, sharedRanks, hsep.orderBy_eq h]
  rfl

/-- **The final board** does not depend on the order of the rows. -/
theorem finalBoard_congr (hslots : SlotUnique rows)
    (h : (hallRows rows collection start last).Perm (hallRows rows' collection start last)) :
    finalBoard rows collection start last = finalBoard rows' collection start last := by
  refine rankSeasonRows_congr ?_ (perm_map_finalTotals hslots h fun total days hdays => ?_)
  · rw [List.map_map]
    exact nodup_finalTotals rows collection start last
  · simp only [currentRow]
    rw [seasonStreak_congr hdays, hdays.length_eq]

theorem tokenId_of_streakEntry {row : PointTotals} {entry : HallStreak} (h : streakEntry last row = some entry) :
    entry.tokenId = row.tokenId := by
  unfold streakEntry at h
  dsimp only at h
  split at h
  · cases h
  · cases h
    rfl

/-- The entries name a guardian once. -/
theorem nodup_streakEntries {totals : List PointTotals} (h : (totals.map PointTotals.tokenId).Nodup) (last : Int) :
    ((totals.filterMap (streakEntry last)).map HallStreak.tokenId).Nodup := by
  induction totals with
  | nil => exact List.nodup_nil
  | cons row totals ih =>
    obtain ⟨hrow, htotals⟩ := List.nodup_cons.mp h
    rw [List.filterMap_cons]
    cases hentry : streakEntry last row with
    | none => exact ih htotals
    | some entry =>
      refine List.nodup_cons.mpr ⟨fun hmem => hrow ?_, ih htotals⟩
      obtain ⟨other, hother, htoken⟩ := List.mem_map.mp hmem
      obtain ⟨x, hx, hxe⟩ := List.mem_filterMap.mp hother
      rw [← tokenId_of_streakEntry hentry, ← htoken, tokenId_of_streakEntry hxe]
      exact List.mem_map_of_mem hx

theorem streakPool_congr (hslots : SlotUnique rows)
    (h : (hallRows rows collection start last).Perm (hallRows rows' collection start last)) :
    streakPool (finalTotals rows collection start last) last = streakPool (finalTotals rows' collection start last) last := by
  have hsep : Separates HallStreak.tokenId ((finalTotals rows collection start last).filterMap (streakEntry last)) :=
    fun a ha b hb he => List.inj_on_of_nodup_map (nodup_streakEntries (nodup_finalTotals rows collection start last) last)
      ha hb he
  refine hsep.orderBy_eq ?_
  have hperm := perm_map_finalTotals (f := streakEntry last) hslots h fun total days hdays => by
    simp only [streakEntry]
    rw [seasonStreak_congr hdays]
  have hid := hperm.filterMap id
  rwa [List.filterMap_map, List.filterMap_map] at hid

/-- The pool names a guardian once. -/
theorem nodup_streakPool (rows : List RankedRow) (collection : String) (start last : Int) :
    ((streakPool (finalTotals rows collection start last) last).map HallStreak.tokenId).Nodup :=
  ((perm_orderBy _ _).map _).nodup_iff.mpr (nodup_streakEntries (nodup_finalTotals rows collection start last) last)

/-- **A hall depends on the rows that settled in time, and not on their order.** -/
theorem hallOf_congr (kit : HallKit) (season : Nat) (sealedAt : Int) (closeBlock : CloseBlock) (hslots : SlotUnique rows)
    (h : (hallRows rows collection start last).Perm (hallRows rows' collection start last)) :
    hallOf kit rows collection season start last sealedAt closeBlock =
      hallOf kit rows' collection season start last sealedAt closeBlock := by
  have hchampions : ((hallSlots start last).filterMap fun slot =>
        champion slot (sealedBoard rows collection slot.2 slot.1 (seasonCutoff slot.1))) =
      (hallSlots start last).filterMap fun slot =>
        champion slot (sealedBoard rows' collection slot.2 slot.1 (seasonCutoff slot.1)) := by
    refine List.filterMap_congr fun slot hslot => ?_
    obtain ⟨-, hfrom, hto⟩ := mem_hallSlots hslot
    rw [sealedBoard_congr hslots h hfrom hto]
  rw [hallOf, hallOf, finalBoard_congr hslots h, streakPool_congr hslots h, hchampions]

/-- Rows that settle past the cutoff of the last week are too late for the hall. -/
theorem hallRows_append {later : List RankedRow} (hcutoff : weekCutoff (kstWeek last) = .ok cutoff)
    (hlater : ∀ r ∈ later, cutoff ≤ r.createdAt) :
    hallRows (rows ++ later) collection start last = hallRows rows collection start last := by
  refine filter_append_later hlater fun r h => ?_
  obtain ⟨-, -, hweek, hcreated⟩ := of_decide_eq_true h
  have hcut := seasonCutoff_eq hcutoff
  unfold seasonCutoff at hcreated hcut
  omega

end Congr

end Mapae.Ranking
