import Mapae.Guardians.Titles
import Mapae.Ranking.Points

/-!
# Ranking honors

A guardian's honors are its week titles and its longest streak as of the latest sealed week. Rows that
settle at or after the cutoff of a week change nothing that is computed from the rows of the week: not
its ruleset, not its boards (`weekBoardRows_append`) and not the season points of its days
(`perm_weekDaily_append`).

* `HonorBook` holds the two memo tables: the weeks that are done and the holders of their titles
* `HonorBook.seal` memoises the title holders of every sealed week that is not yet done
* `honor` counts the titles and recomputes the streak
-/

namespace Mapae.Ranking

open Mapae.Infra Mapae.Store Mapae.Guardians

section Sealed

variable {rows later : List RankedRow} {collection : String} {game : GameId} {ruleset : Nat}
  {day week cutoff fromDay toDay : Int} {tokenId : Nat}

/-! ## The boards -/

/-- A filter for rows settled before the cutoff does not see the later ones. -/
theorem filter_append_later {p : RankedRow → Bool} (hlater : ∀ r ∈ later, cutoff ≤ r.createdAt)
    (hp : ∀ r, p r = true → r.createdAt < cutoff) : (rows ++ later).filter p = rows.filter p := by
  have hnone : later.filter p = [] := by
    refine List.filter_eq_nil_iff.mpr fun r hr h => ?_
    have := hlater r hr
    have := hp r h
    omega
  rw [List.filter_append, hnone, List.append_nil]

theorem weekRows_append (hlater : ∀ r ∈ later, cutoff ≤ r.createdAt) :
    weekRows (rows ++ later) collection ruleset game week cutoff =
      weekRows rows collection ruleset game week cutoff :=
  filter_append_later hlater fun _ h => (of_decide_eq_true h).2.2.2.2

theorem weekRuleset_append (hlater : ∀ r ∈ later, cutoff ≤ r.createdAt) :
    weekRuleset (rows ++ later) collection week cutoff = weekRuleset rows collection week cutoff := by
  rw [weekRuleset, filter_append_later hlater fun _ h => (of_decide_eq_true h).2.2, weekRuleset]

theorem weekBoardRows_append {count : Nat} (hlater : ∀ r ∈ later, cutoff ≤ r.createdAt) :
    weekBoardRows (rows ++ later) collection ruleset game week cutoff count =
      weekBoardRows rows collection ruleset game week cutoff count := by
  rw [weekBoardRows, weekRows_append hlater, weekBoardRows]

/-- A week without a ruleset is a week without rows. -/
theorem weekBoardRows_eq_nil {count : Nat} (h : weekRuleset rows collection week cutoff = none) :
    weekBoardRows rows collection ruleset game week cutoff count = [] := by
  have hrows : weekRows rows collection ruleset game week cutoff = [] := by
    rw [weekRuleset, List.max?_eq_none_iff, List.map_eq_nil_iff, List.filter_eq_nil_iff] at h
    refine List.filter_eq_nil_iff.mpr fun r hr hcond => h r hr ?_
    obtain ⟨hc, -, -, hweek, hcreated⟩ := of_decide_eq_true hcond
    exact decide_eq_true ⟨hc, hweek, hcreated⟩
  rw [weekBoardRows, hrows]
  rfl

/-! ## The season points -/

/-- The cutoff of the query is the cutoff of the boards. -/
theorem seasonCutoff_eq (h : weekCutoff week = .ok cutoff) : seasonCutoff week = cutoff := by
  obtain ⟨-, -, rfl⟩ := weekCutoff_eq_ok.mp h
  simp only [seasonCutoff, dayStart, addDays, DAY_MS, KST_OFFSET, HONOR_GRACE_MS]
  omega

theorem seasonRows_append_day (hcutoff : weekCutoff week = .ok cutoff)
    (hlater : ∀ r ∈ later, cutoff ≤ r.createdAt) (hday : kstWeek day = week) :
    (seasonRows (rows ++ later) collection fromDay toDay).filter (fun r => r.day = day) =
      (seasonRows rows collection fromDay toDay).filter fun r => r.day = day := by
  rw [seasonRows, seasonRows, List.filter_filter, List.filter_filter]
  refine filter_append_later hlater fun r h => ?_
  obtain ⟨hd, hcond⟩ := Bool.and_eq_true_iff.mp h
  have hcreated := (of_decide_eq_true hcond).2.2.2
  rw [RankedRow.week, of_decide_eq_true hd, hday, seasonCutoff_eq hcutoff] at hcreated
  exact hcreated

/-- What a day's boards are computed from. -/
theorem dayRuleset_congr {rows' : List RankedRow}
    (h : (rows.filter fun r => r.day = day) = rows'.filter fun r => r.day = day) :
    dayRuleset rows game day = dayRuleset rows' game day := by
  have hfilter (rows : List RankedRow) : (rows.filter fun r => r.game = game ∧ r.day = day) =
      (rows.filter fun r => r.day = day).filter fun r => r.game = game := by
    rw [List.filter_filter]
    exact List.filter_congr fun r _ => by simp
  rw [dayRuleset, dayRuleset, hfilter, hfilter, h]

theorem dayRows_congr {rows' : List RankedRow}
    (h : (rows.filter fun r => r.day = day) = rows'.filter fun r => r.day = day) :
    dayRows rows collection ruleset game day = dayRows rows' collection ruleset game day := by
  have hfilter (rows : List RankedRow) : dayRows rows collection ruleset game day =
      (rows.filter fun r => r.day = day).filter fun r =>
        r.collection = collection ∧ r.ruleset = ruleset ∧ r.game = game := by
    rw [dayRows, List.filter_filter]
    exact List.filter_congr fun r _ => by simp [Bool.and_assoc]
  rw [hfilter, hfilter, h]

/-- The places of a day are those of its rows. -/
theorem mem_placed_congr {rows' : List RankedRow} (h : SlotUnique rows) (h' : SlotUnique rows')
    (hc : ∀ r ∈ rows, r.collection = collection) (hc' : ∀ r ∈ rows', r.collection = collection)
    {p : RankedRow × Nat}
    (hday : (rows.filter fun r => r.day = p.1.day) = rows'.filter fun r => r.day = p.1.day) :
    p ∈ placed rows ↔ p ∈ placed rows' := by
  have hboard := partition_placed h hc p.1.game p.1.day
  rw [dayRuleset_congr hday, dayRows_congr hday, ← partition_placed h' hc'] at hboard
  have hmem (rows : List RankedRow) : p ∈ placed rows ↔ p ∈ partition
      (fun p : RankedRow × Nat => (p.1.game, p.1.day)) (placed rows) (p.1.game, p.1.day) := by
    simp [mem_partition]
  rw [hmem, hmem, hboard]

/-- The rows of `daily` that are days of a week. -/
def weekDaily (rows : List RankedRow) (week : Int) : List SeasonDay :=
  (seasonDaily rows).filter fun d => kstWeek d.day = week

theorem nodup_weekDaily (rows : List RankedRow) (week : Int) : (weekDaily rows week).Nodup := by
  have hkeys : ((seasonDaily rows).map fun d => (d.tokenId, d.day)).Nodup := by
    rw [seasonDaily, List.map_map]
    exact (List.map_id _).symm ▸ nodup_partitionKeys _ _
  exact (List.Nodup.of_map _ hkeys).filter _

/-- A day's row is computed from its places. -/
theorem mem_seasonDaily {d : SeasonDay} : d ∈ seasonDaily rows ↔
    (∃ p ∈ placed rows, p.1.tokenId = d.tokenId ∧ p.1.day = d.day) ∧
      d.seed = ((partition (fun p => (p.1.tokenId, p.1.day)) (placed rows) (d.tokenId, d.day)).map
        fun p => p.1.seed).max?.getD 0 ∧
      d.points = ((partition (fun p => (p.1.tokenId, p.1.day)) (placed rows) (d.tokenId, d.day)).map
        fun p => casePoints p.2).sum := by
  have hkey : (∃ p ∈ placed rows, p.1.tokenId = d.tokenId ∧ p.1.day = d.day) ↔
      (d.tokenId, d.day) ∈ partitionKeys (fun p => (p.1.tokenId, p.1.day)) (placed rows) := by
    rw [mem_partitionKeys]
    simp only [Prod.mk.injEq]
  rw [hkey, seasonDaily, List.mem_map]
  obtain ⟨tokenId, seed, day, points⟩ := d
  constructor
  · rintro ⟨⟨_, _⟩, hmem, hd⟩
    obtain ⟨rfl, rfl, rfl, rfl⟩ := SeasonDay.mk.inj hd
    exact ⟨hmem, rfl, rfl⟩
  · rintro ⟨hkey, hseed, hpoints⟩
    refine ⟨_, hkey, ?_⟩
    dsimp only at hseed hpoints ⊢
    rw [hseed, hpoints]

theorem mem_seasonDaily_congr {rows' : List RankedRow} {d : SeasonDay}
    (h : ∀ p : RankedRow × Nat, p.1.day = d.day → (p ∈ placed rows ↔ p ∈ placed rows')) :
    d ∈ seasonDaily rows ↔ d ∈ seasonDaily rows' := by
  have hperm : (partition (fun p => (p.1.tokenId, p.1.day)) (placed rows) (d.tokenId, d.day)).Perm
      (partition (fun p => (p.1.tokenId, p.1.day)) (placed rows') (d.tokenId, d.day)) := by
    refine (List.perm_ext_iff_of_nodup ((nodup_rowNumber _ _ _).filter _)
      ((nodup_rowNumber _ _ _).filter _)).mpr fun p => ?_
    rw [← partition, mem_partition, ← partition, mem_partition]
    exact and_congr_left fun hk => h p (Prod.mk.inj hk).2
  have hexists : (∃ p ∈ placed rows, p.1.tokenId = d.tokenId ∧ p.1.day = d.day) ↔
      ∃ p ∈ placed rows', p.1.tokenId = d.tokenId ∧ p.1.day = d.day :=
    exists_congr fun p => and_congr_left fun hk => h p hk.2
  have hmax : ((partition (fun p => (p.1.tokenId, p.1.day)) (placed rows) (d.tokenId, d.day)).map
      fun p => p.1.seed).max? = ((partition (fun p => (p.1.tokenId, p.1.day)) (placed rows')
        (d.tokenId, d.day)).map fun p => p.1.seed).max? := by
    refine Option.ext fun n => ?_
    simp only [List.max?_eq_some_iff, (hperm.map _).mem_iff]
  rw [mem_seasonDaily, mem_seasonDaily, hexists, hmax, (hperm.map _).sum_eq]

/-- **Later rows change nothing on the days of a sealed week.** -/
theorem perm_weekDaily_append (h : SlotUnique (rows ++ later)) (hcutoff : weekCutoff week = .ok cutoff)
    (hlater : ∀ r ∈ later, cutoff ≤ r.createdAt) :
    (weekDaily (seasonRows (rows ++ later) collection fromDay toDay) week).Perm
      (weekDaily (seasonRows rows collection fromDay toDay) week) := by
  have hrows : SlotUnique rows := fun a ha b hb =>
    h a (List.mem_append_left _ ha) b (List.mem_append_left _ hb)
  refine (List.perm_ext_iff_of_nodup (nodup_weekDaily _ _) (nodup_weekDaily _ _)).mpr fun d => ?_
  rw [weekDaily, weekDaily, List.mem_filter, List.mem_filter]
  refine and_congr_left fun hd => mem_seasonDaily_congr fun p hp => ?_
  have hday : kstWeek p.1.day = week := hp ▸ of_decide_eq_true hd
  exact mem_placed_congr (h.seasonRows _ _ _) (hrows.seasonRows _ _ _) seasonRows_collection
    seasonRows_collection (seasonRows_append_day hcutoff hlater hday)

end Sealed

def LANE_MAX : Nat := 0xffff

/-- A row of `arcade_guardian_titles`. -/
structure GuardianTitle where
  collection : String
  week : Int
  game : GameId
  tokenId : Nat
  place : Nat

/-- `PRIMARY KEY(collection, week, game, token_id)`. -/
def GuardianTitle.key (r : GuardianTitle) : String × Int × GameId × Nat :=
  (r.collection, r.week, r.game, r.tokenId)

/-- The tables `arcade_guardian_title_weeks` and `arcade_guardian_titles`. -/
structure HonorBook where
  weeks : Table (id : String × Int → String × Int)
  titles : Table GuardianTitle.key

namespace HonorBook

def empty : HonorBook := ⟨.empty, .empty⟩

def constraintFailed : RankingError := .error "UNIQUE constraint failed"

/-! ## Sealing -/

/-- `INSERT INTO arcade_guardian_titles`. -/
def title (collection : String) (week : Int) (game : GameId) (book : HonorBook) (row : RankingRow) :
    Except RankingError HonorBook :=
  match book.titles.insert? ⟨collection, week, game, row.tokenId, row.rank⟩ with
  | some titles => .ok { book with titles := titles }
  | none => .error constraintFailed

/-- `INSERT INTO arcade_guardian_title_weeks`. -/
def mark (collection : String) (week : Int) (book : HonorBook) : Except RankingError HonorBook :=
  match book.weeks.insert? (collection, week) with
  | some weeks => .ok { book with weeks := weeks }
  | none => .error constraintFailed

/-- The title holders of one game: the top rows of its week board. -/
def sealGame (version : Nat) (t : RankedTable) (collection : String) (week time : Int)
    (book : HonorBook) (game : GameId) : Except RankingError HonorBook := do
  let board ← weekBoard version t collection game week time
  (board.rows.take BOARD_ROWS).foldlM (title (toLowerCase collection) week game) book

/-- The body of the loop over the weeks. -/
def sealWeek (version : Nat) (t : RankedTable) (collection : String) (time : Int) (done : List Int)
    (book : HonorBook) (week : Int) : Except RankingError HonorBook :=
  if week ∈ done then return book
  else do
    let book ← RANKED_GAMES.foldlM (sealGame version t collection week time) book
    mark (toLowerCase collection) week book

/-- The weeks from `first` to `last`. -/
def weeksFrom (first last : Int) : List Int :=
  (List.range ((last - first) / 7 + 1).toNat).map fun i : Nat => first + 7 * (i : Int)

/-- `SELECT MIN(week) FROM arcade_guardian_ranked WHERE collection=?`. -/
def firstWeek (t : RankedTable) (collection : String) : Option Int :=
  ((t.rows.filter fun r => r.collection = collection).map RankedRow.week).min?

/-- `seal`: a transaction, so a throw leaves the book as it was. -/
def «seal» (version : Nat) (t : RankedTable) (collection : String) (time : Int) (book : HonorBook) :
    Except RankingError (Option Int × HonorBook) := do
  match sealedWeek time with
  | none => return (none, book)
  | some week =>
    match firstWeek t (toLowerCase collection) with
    | none => return (some week, book)
    | some first =>
      let done := (book.weeks.rows.filter fun w => w.1 = toLowerCase collection).map Prod.snd
      let book ← (weeksFrom first week).foldlM (sealWeek version t collection time done) book
      return (some week, book)

end HonorBook

/-! ## Honors -/

inductive TitleTier where
  | champion
  | podium
  | top10

def titlePlace (place : Nat) : Option TitleTier :=
  if place < 1 ∨ place > BOARD_ROWS then none
  else some (if place = 1 then .champion else if place ≤ 3 then .podium else .top10)

/-- One more title of a tier: `Math.min(LANE_MAX, game[tier] + 1)`. -/
def addTitle (counts : GuardianTitleCounts) : TitleTier → GuardianTitleCounts
  | .champion => { counts with champion := min (LANE_MAX : Int) (counts.champion + 1) }
  | .podium => { counts with podium := min (LANE_MAX : Int) (counts.podium + 1) }
  | .top10 => { counts with top10 := min (LANE_MAX : Int) (counts.top10 + 1) }

structure GuardianHonors where
  week : Int
  longestStreak : Nat
  titles : List GuardianTitleCounts
  deriving DecidableEq

def emptyHonors : GuardianHonors := ⟨0, 0, List.replicate 3 ⟨0, 0, 0⟩⟩

/-- The body of the loop over a guardian's titles. -/
def countTitle (titles : List GuardianTitleCounts) (row : GuardianTitle) : List GuardianTitleCounts :=
  match titlePlace row.place with
  | some tier => titles.modify (RANKED_GAMES.idxOf row.game) fun counts => addTitle counts tier
  | none => titles

/-- The titles of a guardian up to a week. -/
def guardianTitles (book : HonorBook) (collection : String) (tokenId : Nat) (week : Int) :
    List GuardianTitleCounts :=
  (book.titles.rows.filter fun r => r.collection = collection ∧ r.tokenId = tokenId ∧ r.week ≤ week).foldl
    countTitle emptyHonors.titles

/-- `SELECT DISTINCT day FROM arcade_guardian_ranked ... ORDER BY day`. -/
def honorDays (rows : List RankedRow) (collection : String) (tokenId : Nat) (last cutoff : Int) :
    List Int :=
  orderBy id ((rows.filter fun r => r.collection = collection ∧ r.tokenId = tokenId ∧ r.day ≤ last ∧
    r.createdAt < cutoff).map RankedRow.day).dedup

/-- `honor`; `none` when there is nothing to attest. -/
def honor (version : Nat) (t : RankedTable) (collection : String) (tokenId : Nat) (time : Int)
    (book : HonorBook) : Except RankingError (Option GuardianHonors × HonorBook) := do
  let (sealed, book) ← book.seal version t collection time
  match sealed with
  | none => return (none, book)
  | some week =>
    let titles := guardianTitles book (toLowerCase collection) tokenId week
    let last := addDays week 6
    let cutoff ← weekCutoff week
    let days := honorDays t.rows (toLowerCase collection) tokenId last cutoff
    let longestStreak := min LANE_MAX (guardianStreak days last).best
    if longestStreak = 0 ∧ ∀ counts ∈ titles,
        counts.champion = 0 ∧ counts.podium = 0 ∧ counts.top10 = 0 then
      return (none, book)
    else
      let index ← rankingWeekIndex week
      return (some ⟨index, longestStreak, titles⟩, book)

end Mapae.Ranking
