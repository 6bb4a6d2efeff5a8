import Mapae.Ranking.Points

/-!
# The zodiac teams

Every guardian belongs to the team that its birth zodiac names. A team's score is the sum of its
members' points in the window. The zodiac is read off a hash of the birth seed, so it is an argument
of what reads it.
-/

namespace Mapae.Ranking

open Mapae.Infra Mapae.Store

inductive GuardianZodiac where
  | rat | ox | tiger | rabbit | dragon | snake | horse | goat | monkey | rooster | dog | pig
  deriving DecidableEq

def GUARDIAN_ZODIACS : List GuardianZodiac :=
  [.rat, .ox, .tiger, .rabbit, .dragon, .snake, .horse, .goat, .monkey, .rooster, .dog, .pig]

/-- A guardian's share of its team. -/
structure TeamMember where
  tokenId : Nat
  seed : Nat
  points : Nat

/-- What the loop collects for a team; `top` is the member that brought the most. -/
structure Team where
  points : Nat
  members : Nat
  top : Option TeamMember

structure TeamRow extends Team where
  rank : Nat
  zodiac : GuardianZodiac

/-- `member` comes before `top`: more points, or as many and a lower token. -/
def beatsTop (member : TeamMember) : Option TeamMember → Bool
  | none => true
  | some top =>
    member.points > top.points ∨ (member.points = top.points ∧ member.tokenId < top.tokenId)

def Team.join (team : Team) (member : TeamMember) : Team where
  points := team.points + member.points
  members := team.members + 1
  top := if beatsTop member team.top then some member else team.top

/-- The map from zodiacs to teams, after the loop over the members. -/
def collectTeams (members : List (TeamMember × GuardianZodiac)) : GuardianZodiac → Team :=
  members.foldl (fun teams m => Function.update teams m.2 ((teams m.2).join m.1))
    fun _ => ⟨0, 0, none⟩

/-- The twelve team rows: totals descending, an equal total sharing its place. -/
def teamBoardRows (members : List (TeamMember × GuardianZodiac)) : List TeamRow :=
  let teams := collectTeams members
  let rows : List TeamRow := GUARDIAN_ZODIACS.map fun zodiac => { teams zodiac with rank := 0, zodiac }
  (sharedRanks (fun r => r.points) (fun r => GUARDIAN_ZODIACS.idxOf r.zodiac) rows).map fun r =>
    { r.1 with rank := r.2 }

structure TeamBoard where
  fromDay : Int
  toDay : Int
  closesAt : Option Int
  entrants : Nat
  rows : List TeamRow

/-- `teams`. -/
def teamBoardOf (zodiac : Nat → GuardianZodiac) (fromDay toDay : Int) (closesAt : Option Int)
    (members : List TeamMember) : TeamBoard :=
  ⟨fromDay, toDay, closesAt, members.length, teamBoardRows (members.map fun m => (m, zodiac m.seed))⟩

/-- `teamBoard` of this week. -/
def weekTeamBoard (zodiac : Nat → GuardianZodiac) (t : RankedTable) (collection : String)
    (time : Int) : TeamBoard :=
  let fromDay := kstWeek (kstDay time)
  let toDay := addDays fromDay 6
  teamBoardOf zodiac fromDay toDay (some (nextReset time .week))
    ((pointTotals t collection fromDay toDay).map fun row => ⟨row.tokenId, row.seed, row.points⟩)

/-- `teamBoard` of the season; nothing before it opens. -/
def seasonTeamBoard (zodiac : Nat → GuardianZodiac) (season : Season) (t : RankedTable)
    (collection : String) (time : Int) : Option TeamBoard :=
  (seasonWindows season t collection (kstDay time)).map fun windows =>
    teamBoardOf zodiac windows.fromDay windows.toDay windows.closesAt
      (windows.current.map fun row => ⟨row.tokenId, row.seed, row.score⟩)

/-! ## What the loop collects -/

section Collect

variable {members : List (TeamMember × GuardianZodiac)} {team : Team}

/-- A team collects its own members. -/
theorem foldl_join (members : List (TeamMember × GuardianZodiac)) (teams : GuardianZodiac → Team)
    (zodiac : GuardianZodiac) :
    members.foldl (fun teams m => Function.update teams m.2 ((teams m.2).join m.1)) teams zodiac =
      (partition Prod.snd members zodiac).foldl (fun team m => team.join m.1) (teams zodiac) := by
  induction members generalizing teams with
  | nil => rfl
  | cons m members ih =>
    rw [List.foldl_cons, ih, partition, partition, List.filter_cons]
    by_cases hz : m.2 = zodiac
    · simp [hz]
    · simp [hz, Function.update_of_ne (Ne.symm hz)]

theorem foldl_join_points : ∀ (own : List (TeamMember × GuardianZodiac)) (team : Team),
    (own.foldl (fun team m => team.join m.1) team).points =
        team.points + (own.map fun m => m.1.points).sum ∧
      (own.foldl (fun team m => team.join m.1) team).members = team.members + own.length
  | [], _ => ⟨rfl, rfl⟩
  | m :: own, team => by
    obtain ⟨hpoints, hmembers⟩ := foldl_join_points own (team.join m.1)
    rw [List.foldl_cons, hpoints, hmembers]
    simp only [Team.join, List.map_cons, List.sum_cons, List.length_cons]
    omega

/-- `top` is the member that comes first by points and then by token. -/
def IsTop (own : List TeamMember) (top : Option TeamMember) : Prop :=
  match top with
  | none => own = []
  | some t => t ∈ own ∧ ∀ m ∈ own, m.points < t.points ∨ (m.points = t.points ∧ t.tokenId ≤ m.tokenId)

theorem IsTop.join {own : List TeamMember} (h : IsTop own team.top) (member : TeamMember) :
    IsTop (own ++ [member]) (team.join member).top := by
  unfold Team.join
  cases htop : team.top with
  | none =>
    rw [htop] at h
    simp only [IsTop] at h
    simp [h, beatsTop, IsTop]
  | some top =>
    rw [htop] at h
    obtain ⟨hmem, hfirst⟩ := h
    by_cases hbeats : beatsTop member (some top) = true
    · simp only [hbeats, if_true]
      refine ⟨by simp, fun m hm => ?_⟩
      simp only [beatsTop, decide_eq_true_eq] at hbeats
      rcases List.mem_append.mp hm with hm | hm
      · have := hfirst m hm
        omega
      · rw [List.mem_singleton.mp hm]
        omega
    · simp only [hbeats, Bool.false_eq_true, if_false]
      refine ⟨List.mem_append_left _ hmem, fun m hm => ?_⟩
      simp only [beatsTop, decide_eq_true_eq] at hbeats
      rcases List.mem_append.mp hm with hm | hm
      · exact hfirst m hm
      · rw [List.mem_singleton.mp hm]
        omega

theorem foldl_join_top : ∀ (own : List (TeamMember × GuardianZodiac)) (done : List TeamMember)
    (team : Team), IsTop done team.top →
      IsTop (done ++ own.map Prod.fst) (own.foldl (fun team m => team.join m.1) team).top
  | [], done, _, h => by simpa using h
  | m :: own, done, team, h => by
    have hstep := foldl_join_top own (done ++ [m.1]) (team.join m.1) (h.join m.1)
    simpa using hstep

/-- **A team is its members: their points, their number and the best of them.** -/
theorem collectTeams_spec (members : List (TeamMember × GuardianZodiac)) (zodiac : GuardianZodiac) :
    (collectTeams members zodiac).points =
        ((partition Prod.snd members zodiac).map fun m => m.1.points).sum ∧
      (collectTeams members zodiac).members = (partition Prod.snd members zodiac).length ∧
      IsTop ((partition Prod.snd members zodiac).map Prod.fst) (collectTeams members zodiac).top := by
  rw [collectTeams, foldl_join]
  obtain ⟨hpoints, hmembers⟩ := foldl_join_points (partition Prod.snd members zodiac) ⟨0, 0, none⟩
  refine ⟨by simpa using hpoints, by simpa using hmembers, ?_⟩
  simpa using foldl_join_top (partition Prod.snd members zodiac) [] ⟨0, 0, none⟩ rfl

end Collect

end Mapae.Ranking
