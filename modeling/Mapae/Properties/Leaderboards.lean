import Mapae.Ranking.Team

/-!
# Leaderboards equal their plain definitions

For every table of ranked rows and every instant:

* a day board and a week board are the leaderboards of the best scores and of the week totals
* a season score is the points of the daily boards and the attendance bonus, and shared ranks count
  the rows strictly above
* a team board adds up its members, each in one team
-/

namespace Mapae.Ranking

open Mapae.Infra Mapae.Store

variable {t : RankedTable} {collection : String} {fromDay toDay : Int}

/-! ## Shared ranks -/

/-- A board on which equal scores share a place and sort by token inside it. -/
structure SharedBoard (rows : List RankingRow) : Prop where
  ranks : ∀ row ∈ rows, row.rank = 1 + rows.countP fun other => row.score < other.score
  order : rows.Pairwise fun a b =>
    b.score < a.score ∨ (a.score = b.score ∧ a.tokenId ≤ b.tokenId)

theorem sharedBoard_of {α : Type} {score tie : α → Nat} {f : α × Nat → RankingRow} (rows : List α)
    (hrank : ∀ p, (f p).rank = p.2) (hscore : ∀ p, (f p).score = score p.1)
    (htoken : ∀ p, (f p).tokenId = tie p.1) : SharedBoard ((sharedRanks score tie rows).map f) where
  ranks row hrow := by
    obtain ⟨p, hp, rfl⟩ := List.mem_map.mp hrow
    rw [hrank, sharedRanks_spec hp, ← (perm_sharedRanks score tie rows).countP_eq, List.countP_map,
      List.countP_map]
    simp only [hscore, Function.comp_def]
  order := by
    refine List.pairwise_map.mpr ((pairwise_sharedRanks score tie rows).imp fun {p q} h => ?_)
    simpa only [hscore, htoken] using h

theorem sharedBoard_rankRows (rows : List RankingRow) : SharedBoard (rankRows rows) :=
  sharedBoard_of rows (fun _ => rfl) (fun _ => rfl) fun _ => rfl

theorem sharedBoard_rankSeasonRows (rows : List SeasonRow) :
    SharedBoard ((rankSeasonRows rows).map SeasonRow.toRankingRow) := by
  rw [rankSeasonRows, List.map_map]
  exact sharedBoard_of rows (fun _ => rfl) (fun _ => rfl) fun _ => rfl

/-- Ranking the rows keeps everything else of them. -/
theorem perm_map_rankSeasonRows {β : Type} (rows : List SeasonRow) (g : SeasonRow → β)
    (hg : ∀ (row : SeasonRow) (rank : Nat), g { row with rank := rank } = g row) :
    ((rankSeasonRows rows).map g).Perm (rows.map g) := by
  have hperm := (perm_sharedRanks (fun r : SeasonRow => r.score) (fun r => r.tokenId) rows).map g
  rw [List.map_map] at hperm
  rw [rankSeasonRows, List.map_map]
  simpa only [Function.comp_def, hg] using hperm

/-! ## The season -/

/-- The season board is that of the points and the bonus of its guardians. -/
structure SeasonBoard (rows : List RankedRow) (collection : String) (fromDay toDay : Int)
    (board : List SeasonRow) : Prop where
  nodup : (board.map fun row => row.tokenId).Nodup
  entrants : ∀ tokenId, (∃ row ∈ board, row.tokenId = tokenId) ↔
    ∃ game day, ∃ row ∈ seasonBoard rows collection game day, row.tokenId = tokenId
  scores : ∀ row ∈ board, row.score = boardPoints rows collection fromDay toDay row.tokenId +
    (streakProgress (seasonDays rows collection fromDay toDay row.tokenId) toDay).completed *
      SEASON_STREAK_BONUS
  shared : SharedBoard (board.map SeasonRow.toRankingRow)

theorem seasonBoard_rankSeasonRows {rows : List RankedRow} (h : SlotUnique rows)
    (collection : String) (fromDay toDay yesterday today : Int) :
    SeasonBoard (seasonRows rows collection fromDay toDay) collection fromDay toDay
      (rankSeasonRows
        ((seasonTotals rows collection fromDay toDay yesterday today).map (currentRow toDay))) := by
  have htokens := perm_map_rankSeasonRows
    ((seasonTotals rows collection fromDay toDay yesterday today).map (currentRow toDay))
    (fun row => row.tokenId) fun _ _ => rfl
  have hcurrent : ((seasonTotals rows collection fromDay toDay yesterday today).map
      (currentRow toDay)).map (fun row => row.tokenId) =
        (seasonTotals rows collection fromDay toDay yesterday today).map PointTotals.tokenId := by
    rw [List.map_map]
    rfl
  rw [hcurrent] at htokens
  refine ⟨?_, fun tokenId => ?_, fun row hrow => ?_, sharedBoard_rankSeasonRows _⟩
  · rw [htokens.nodup_iff, map_tokenId_seasonTotals]
    exact nodup_partitionKeys _ _
  · rw [← exists_total_iff yesterday today h, ← List.mem_map,
      htokens.mem_iff, List.mem_map]
  · have hpair := (perm_map_rankSeasonRows
      ((seasonTotals rows collection fromDay toDay yesterday today).map (currentRow toDay))
      (fun row => (row.tokenId, row.score)) fun _ _ => rfl).mem_iff.mp (List.mem_map_of_mem hrow)
    obtain ⟨_, hcurrent, hsame⟩ := List.mem_map.mp hpair
    obtain ⟨total, htotal, rfl⟩ := List.mem_map.mp hcurrent
    obtain ⟨htoken, hscore⟩ := Prod.mk.inj hsame
    rw [← hscore, ← htoken]
    exact currentRow_score h htotal

theorem seasonWindows_board {season : Season} {today : Int} {windows : SeasonWindows}
    (h : seasonWindows season t collection today = some windows) :
    SeasonBoard (seasonRows t.rows (toLowerCase collection) windows.fromDay windows.toDay)
        (toLowerCase collection) windows.fromDay windows.toDay windows.current ∧
      SharedBoard windows.earlier := by
  obtain ⟨⟨fromDay, toDay⟩, -, rfl⟩ := Option.map_eq_some_iff.mp h
  have hboard := seasonBoard_rankSeasonRows t.slotUnique (toLowerCase collection) fromDay toDay
    (addDays toDay (-1)) toDay
  dsimp only [pointTotals]
  exact ⟨hboard, sharedBoard_rankRows _⟩

/-! ## The teams -/

/-- The team board of the members: twelve teams, each with its own members. -/
structure TeamsOf (zodiac : Nat → GuardianZodiac) (members : List TeamMember) (board : TeamBoard) :
    Prop where
  entrants : board.entrants = members.length
  zodiacs : (board.rows.map fun row => row.zodiac).Perm GUARDIAN_ZODIACS
  points : ∀ row ∈ board.rows, row.points =
    ((members.filter fun m => zodiac m.seed = row.zodiac).map TeamMember.points).sum
  sizes : ∀ row ∈ board.rows,
    row.members = (members.filter fun m => zodiac m.seed = row.zodiac).length
  top : ∀ row ∈ board.rows, IsTop (members.filter fun m => zodiac m.seed = row.zodiac) row.top
  one_team : (board.rows.map fun row => row.members).sum = members.length
  ranks : ∀ row ∈ board.rows,
    row.rank = 1 + board.rows.countP fun other => row.points < other.points

/-- The rows before they are placed. -/
def teamRows (members : List (TeamMember × GuardianZodiac)) : List TeamRow :=
  GUARDIAN_ZODIACS.map fun zodiac => { collectTeams members zodiac with rank := 0, zodiac }

/-- The placed rows are those of the teams. -/
theorem mem_teamBoardRows {members : List (TeamMember × GuardianZodiac)} {row : TeamRow}
    (h : row ∈ teamBoardRows members) : row.toTeam = collectTeams members row.zodiac := by
  obtain ⟨p, hp, rfl⟩ := List.mem_map.mp h
  have hteam := (perm_sharedRanks _ _ _).mem_iff.mp (List.mem_map_of_mem (f := Prod.fst) hp)
  obtain ⟨zodiac, -, hrow⟩ := List.mem_map.mp hteam
  rw [← hrow]

theorem perm_teamBoardRows (members : List (TeamMember × GuardianZodiac)) :
    ((teamBoardRows members).map fun row => (row.toTeam, row.zodiac)).Perm
      (GUARDIAN_ZODIACS.map fun zodiac => (collectTeams members zodiac, zodiac)) := by
  have hperm := (perm_sharedRanks (fun r : TeamRow => r.points)
    (fun r => GUARDIAN_ZODIACS.idxOf r.zodiac) (teamRows members)).map
      fun row => (row.toTeam, row.zodiac)
  rw [List.map_map] at hperm
  rw [teamBoardRows, List.map_map]
  exact hperm

/-- A team that shares its place counts the teams strictly above. -/
theorem rank_teamBoardRows {members : List (TeamMember × GuardianZodiac)} {row : TeamRow}
    (h : row ∈ teamBoardRows members) :
    row.rank = 1 + (teamBoardRows members).countP fun other => row.points < other.points := by
  have hcount (n : Nat) : (teamBoardRows members).countP (fun other => n < other.points) =
      (teamRows members).countP fun other => n < other.points := by
    rw [← (perm_sharedRanks (fun r : TeamRow => r.points)
      (fun r => GUARDIAN_ZODIACS.idxOf r.zodiac) (teamRows members)).countP_eq, teamBoardRows,
      List.countP_map, List.countP_map]
    rfl
  rw [hcount]
  obtain ⟨p, hp, rfl⟩ := List.mem_map.mp h
  exact sharedRanks_spec hp

theorem teamsOf_teamBoardOf (zodiac : Nat → GuardianZodiac) (fromDay toDay : Int)
    (closesAt : Option Int) (members : List TeamMember) :
    TeamsOf zodiac members (teamBoardOf zodiac fromDay toDay closesAt members) := by
  have hrows : (teamBoardOf zodiac fromDay toDay closesAt members).rows =
      teamBoardRows (members.map fun m => (m, zodiac m.seed)) := rfl
  have hentrants : (teamBoardOf zodiac fromDay toDay closesAt members).entrants =
      members.length := rfl
  generalize teamBoardOf zodiac fromDay toDay closesAt members = board at hrows hentrants ⊢
  have hown (z : GuardianZodiac) :
      partition Prod.snd (members.map fun m => (m, zodiac m.seed)) z =
        (members.filter fun m => zodiac m.seed = z).map fun m => (m, zodiac m.seed) := by
    rw [partition, List.filter_map]
    rfl
  have hspec (z : GuardianZodiac) := collectTeams_spec (members.map fun m => (m, zodiac m.seed)) z
  simp only [hown, List.map_map, List.length_map] at hspec
  have hperm := perm_teamBoardRows (members.map fun m => (m, zodiac m.seed))
  constructor
  case entrants => exact hentrants
  case zodiacs =>
    have hzodiacs := hperm.map Prod.snd
    rw [List.map_map, List.map_map] at hzodiacs
    rw [hrows]
    exact hzodiacs.trans (.of_eq (List.map_id _))
  case points =>
    intro row hrow
    rw [mem_teamBoardRows (hrows ▸ hrow), (hspec _).1]
    rfl
  case sizes =>
    intro row hrow
    rw [mem_teamBoardRows (hrows ▸ hrow), (hspec _).2.1]
  case top =>
    intro row hrow
    have htop := (hspec row.zodiac).2.2
    have hfst : ((members.filter fun m => zodiac m.seed = row.zodiac).map
        (Prod.fst ∘ fun m => (m, zodiac m.seed))) =
          members.filter fun m => zodiac m.seed = row.zodiac := List.map_id _
    rw [hfst] at htop
    rw [mem_teamBoardRows (hrows ▸ hrow)]
    exact htop
  case one_team =>
    have hsum := (hperm.map fun p => p.1.members).sum_eq
    rw [List.map_map, List.map_map] at hsum
    have hparts : (GUARDIAN_ZODIACS.map fun z => ((partition Prod.snd
        (members.map fun m => (m, zodiac m.seed)) z).map fun _ => 1).sum).sum =
          ((members.map fun m => (m, zodiac m.seed)).map fun _ => 1).sum :=
      sum_partition (by decide) (fun _ => 1) fun m _ => by cases m.2 <;> decide
    have hone (l : List (TeamMember × GuardianZodiac)) : (l.map fun _ => 1).sum = l.length := by
      simp
    simp only [hone, hown, List.length_map] at hparts
    rw [hrows]
    refine hsum.trans (Eq.trans ?_ hparts)
    refine congrArg List.sum (List.map_congr_left fun z _ => ?_)
    exact (hspec z).2.1
  case ranks =>
    intro row hrow
    rw [hrows] at hrow ⊢
    exact rank_teamBoardRows hrow

/-- The members that a week's teams collect. -/
def weekMembers (t : RankedTable) (collection : String) (fromDay toDay : Int) : List TeamMember :=
  (pointTotals t collection fromDay toDay).map fun row => ⟨row.tokenId, row.seed, row.points⟩

theorem map_tokenId_weekMembers :
    (weekMembers t collection fromDay toDay).map TeamMember.tokenId =
      (pointTotals t collection fromDay toDay).map PointTotals.tokenId := by
  rw [weekMembers, List.map_map]
  rfl

theorem nodup_weekMembers :
    ((weekMembers t collection fromDay toDay).map TeamMember.tokenId).Nodup := by
  rw [map_tokenId_weekMembers, pointTotals, map_tokenId_seasonTotals]
  exact nodup_partitionKeys _ _

theorem exists_weekMember_iff {tokenId : Nat} :
    (∃ m ∈ weekMembers t collection fromDay toDay, m.tokenId = tokenId) ↔
      ∃ game day, ∃ row ∈ seasonBoard (seasonRows t.rows (toLowerCase collection) fromDay toDay)
        (toLowerCase collection) game day, row.tokenId = tokenId := by
  rw [← List.mem_map, map_tokenId_weekMembers, List.mem_map, pointTotals]
  exact exists_total_iff _ _ t.slotUnique

theorem points_weekMember {m : TeamMember} (h : m ∈ weekMembers t collection fromDay toDay) :
    m.points = boardPoints (seasonRows t.rows (toLowerCase collection) fromDay toDay)
      (toLowerCase collection) fromDay toDay m.tokenId := by
  obtain ⟨total, htotal, rfl⟩ := List.mem_map.mp h
  exact (points_eq t.slotUnique htotal).1

/--
**Leaderboards equal their plain definitions.** In the order of the parts: the day boards, the week
boards, the season boards, the teams of this week and the teams of the season.
-/
theorem leaderboards_held (version : Nat) (zodiac : Nat → GuardianZodiac) (season : Season)
    (t : RankedTable) (collection : String) (time : Int) :
    let c := toLowerCase collection
    (∀ ruleset game day,
      let rows := dayRows t.rows c ruleset game day
      Leaderboard (dayBoard t.rows c ruleset game day) (fun tokenId => ∃ r ∈ rows, r.tokenId = tokenId)
        (fun tokenId => bestScore (tokenRows rows tokenId))
        fun tokenId => reachedAt (tokenRows rows tokenId)) ∧
    (∀ game week board, weekBoard version t collection game week time = .ok board →
      ∃ cutoff, weekCutoff week = .ok cutoff ∧
        let rows := weekRows t.rows c board.ruleset game week cutoff
        (∀ tokenId, IsGreatest (weekSums rows week tokenId) (weekScore rows week tokenId)) ∧
        Leaderboard board.rows (fun tokenId => ∃ r ∈ rows, r.tokenId = tokenId)
          (weekScore rows week) (weekReached rows)) ∧
    (∀ windows, seasonWindows season t collection (kstDay time) = some windows →
      SeasonBoard (seasonRows t.rows c windows.fromDay windows.toDay) c windows.fromDay
          windows.toDay windows.current ∧
        SharedBoard windows.earlier) ∧
    (let monday := kstWeek (kstDay time)
      let rows := seasonRows t.rows c monday (addDays monday 6)
      ∃ members : List TeamMember, TeamsOf zodiac members (weekTeamBoard zodiac t collection time) ∧
        (members.map TeamMember.tokenId).Nodup ∧
        (∀ tokenId, (∃ m ∈ members, m.tokenId = tokenId) ↔
          ∃ game day, ∃ row ∈ seasonBoard rows c game day, row.tokenId = tokenId) ∧
        ∀ m ∈ members, m.points = boardPoints rows c monday (addDays monday 6) m.tokenId) ∧
    (∀ windows, seasonWindows season t collection (kstDay time) = some windows →
      ∃ board, seasonTeamBoard zodiac season t collection time = some board ∧
        TeamsOf zodiac (windows.current.map fun row => ⟨row.tokenId, row.seed, row.score⟩) board) := by
  dsimp only
  refine ⟨fun ruleset game day => dayBoard_leaderboard t.slotUnique, ?_,
    fun windows h => seasonWindows_board h, ?_, ?_⟩
  · intro game week board h
    obtain ⟨cutoff, hcutoff, -, hrows⟩ := weekBoard_eq_ok.mp h
    refine ⟨cutoff, hcutoff, fun tokenId => isGreatest_weekScore (fun r hr => ?_) tokenId, ?_⟩
    · exact (of_decide_eq_true (List.mem_filter.mp hr).2).2.2.2.1
    · rw [hrows]
      exact weekBoardRows_leaderboard t.slotUnique
  · exact ⟨weekMembers t collection (kstWeek (kstDay time)) (addDays (kstWeek (kstDay time)) 6),
      teamsOf_teamBoardOf zodiac _ _ _ _, nodup_weekMembers, fun _ => exists_weekMember_iff,
      fun _ => points_weekMember⟩
  · intro windows h
    refine ⟨teamBoardOf zodiac windows.fromDay windows.toDay windows.closesAt _, ?_,
      teamsOf_teamBoardOf zodiac _ _ _ _⟩
    rw [seasonTeamBoard, h]
    rfl

end Mapae.Ranking
