import Mapae.Ranking.Board
import Mathlib.Order.Lattice.Nat

/-!
# What a leaderboard is

The plain definitions behind the boards: a guardian's best score and when it was reached, its total
of a week, and a board as the strict order of its entrants.

* `weekScore` is the greatest sum of at most five daily bests of the week (`isGreatest_weekScore`)
* `Leaderboard` says that a list is the board of its entrants, by score, time and token
* `dayBoard_leaderboard` and `weekBoard_leaderboard` connect the queries with it
-/

namespace Mapae.Ranking

open Mapae.Infra

/-! ## Plain definitions -/

def bestScore (rows : List RankedRow) : Nat := (rows.map RankedRow.score).foldr max 0

/-- When the best score was first reached. -/
def reachedAt (rows : List RankedRow) : Int :=
  ((rows.filter fun r => r.score = bestScore rows).map RankedRow.createdAt).min?.getD 0

def tokenRows (rows : List RankedRow) (tokenId : Nat) : List RankedRow :=
  rows.filter fun r => r.tokenId = tokenId

/-- The rows of a guardian on a day. -/
def dayOf (rows : List RankedRow) (tokenId : Nat) (day : Int) : List RankedRow :=
  rows.filter fun r => r.tokenId = tokenId ∧ r.day = day

/-- A guardian's daily best: 0 on a day it did not play. -/
def dailyBest (rows : List RankedRow) (tokenId : Nat) (day : Int) : Nat :=
  bestScore (dayOf rows tokenId day)

/-- What at most five days of a week can add up to. -/
def weekSums (rows : List RankedRow) (week : Int) (tokenId : Nat) : Set Nat :=
  {total | ∃ days : Finset Int, days.card ≤ WEEKLY_COUNTED_DAYS ∧ (∀ d ∈ days, kstWeek d = week) ∧
    total = ∑ d ∈ days, dailyBest rows tokenId d}

/-- A guardian's total of a week. -/
noncomputable def weekScore (rows : List RankedRow) (week : Int) (tokenId : Nat) : Nat :=
  sSup (weekSums rows week tokenId)

/-- Days by their best scores, and days of equal scores by their dates. -/
def dayKey (rows : List RankedRow) (tokenId : Nat) (day : Int) : ℕᵒᵈ ×ₗ ℤ :=
  toLex (OrderDual.toDual (dailyBest rows tokenId day), day)

/-- The days that count: the five with the best scores, of equal scores the earlier ones. -/
def countedDays (rows : List RankedRow) (tokenId : Nat) : List Int :=
  (orderBy (dayKey rows tokenId)
    (partitionKeys RankedRow.day (tokenRows rows tokenId))).take WEEKLY_COUNTED_DAYS

/-- When the last of the days that count was reached. -/
def weekReached (rows : List RankedRow) (tokenId : Nat) : Int :=
  ((countedDays rows tokenId).map fun d => reachedAt (dayOf rows tokenId d)).max?.getD 0

/-- `board` ranks the entrants: each once, in the strict order of their scores, the time they
reached them and their numbers, with places from one and without gaps. -/
structure Leaderboard (board : List RankingRow) (entrant : Nat → Prop) (score : Nat → Nat)
    (reached : Nat → Int) : Prop where
  ranks : board.map RankingRow.rank = List.range' 1 board.length
  entrants : ∀ tokenId, (∃ row ∈ board, row.tokenId = tokenId) ↔ entrant tokenId
  scores : ∀ row ∈ board, row.score = score row.tokenId
  order : board.Pairwise fun a b =>
    placeKey (score a.tokenId) (reached a.tokenId) a.tokenId <
      placeKey (score b.tokenId) (reached b.tokenId) b.tokenId

/-- A token is on a board once. -/
theorem Leaderboard.nodup {board : List RankingRow} {entrant : Nat → Prop} {score : Nat → Nat}
    {reached : Nat → Int} (h : Leaderboard board entrant score reached) :
    (board.map RankingRow.tokenId).Nodup := by
  refine List.pairwise_map.mpr (h.order.imp fun {a b} hlt he => ?_)
  rw [he] at hlt
  exact lt_irrefl _ hlt

/-! ## Keys -/

theorem placeKey_le {score score' : Nat} {reached reached' : Int} {tokenId tokenId' : Nat} :
    placeKey score reached tokenId ≤ placeKey score' reached' tokenId' ↔
      score' < score ∨ (score = score' ∧
        (reached < reached' ∨ (reached = reached' ∧ tokenId ≤ tokenId'))) := by
  simp [placeKey, Prod.Lex.toLex_le_toLex]

theorem placeKey_inj {score score' : Nat} {reached reached' : Int} {tokenId tokenId' : Nat}
    (h : placeKey score reached tokenId = placeKey score' reached' tokenId') : tokenId = tokenId' := by
  simp only [placeKey, EmbeddingLike.apply_eq_iff_eq, Prod.mk.injEq] at h
  exact h.2.2

theorem bestKey_le {r r' : RankedRow} : r.bestKey ≤ r'.bestKey ↔ r'.score < r.score ∨
    (r.score = r'.score ∧ (r.createdAt < r'.createdAt ∨
      (r.createdAt = r'.createdAt ∧ r.attempt ≤ r'.attempt))) := placeKey_le

theorem bestKey_inj {r r' : RankedRow} (h : r.bestKey = r'.bestKey) : r.attempt = r'.attempt :=
  placeKey_inj h

theorem countKey_le {r r' : RankedRow} : r.countKey ≤ r'.countKey ↔ r'.score < r.score ∨
    (r.score = r'.score ∧ r.day ≤ r'.day) := by
  simp [RankedRow.countKey, Prod.Lex.toLex_le_toLex]

/-! ## The best row -/

section Best

variable {rows : List RankedRow} {r : RankedRow}

theorem score_le_bestScore (h : r ∈ rows) : r.score ≤ bestScore rows := by
  induction rows with
  | nil => cases h
  | cons a rows ih =>
    rcases List.mem_cons.mp h with rfl | h
    · exact le_max_left _ _
    · exact (ih h).trans (le_max_right _ _)

theorem bestScore_le {n : Nat} (h : ∀ r ∈ rows, r.score ≤ n) : bestScore rows ≤ n := by
  induction rows with
  | nil => exact Nat.zero_le n
  | cons a rows ih =>
    exact max_le (h a List.mem_cons_self) (ih fun r hr => h r (List.mem_cons_of_mem _ hr))

/-- **The row that comes first has the best score, at the time it was first reached.** -/
theorem best_of_first (hr : r ∈ rows) (hfirst : ∀ r' ∈ rows, r.bestKey ≤ r'.bestKey) :
    r.score = bestScore rows ∧ r.createdAt = reachedAt rows := by
  have hscore : r.score = bestScore rows := by
    refine le_antisymm (score_le_bestScore hr) (bestScore_le fun r' hr' => ?_)
    rcases bestKey_le.mp (hfirst r' hr') with h | h
    · exact h.le
    · exact h.1.ge
  refine ⟨hscore, ?_⟩
  have hmin : ((rows.filter fun r => r.score = bestScore rows).map RankedRow.createdAt).min? =
      some r.createdAt := by
    refine List.min?_eq_some_iff.mpr ⟨?_, fun time htime => ?_⟩
    · exact List.mem_map_of_mem (List.mem_filter.mpr ⟨hr, decide_eq_true hscore⟩)
    · obtain ⟨r', hr', rfl⟩ := List.mem_map.mp htime
      obtain ⟨hr', hbest⟩ := List.mem_filter.mp hr'
      have hbest := of_decide_eq_true hbest
      rcases bestKey_le.mp (hfirst r' hr') with h | ⟨-, h | h⟩
      · omega
      · exact h.le
      · exact h.1.le
  rw [reachedAt, hmin]
  rfl

end Best

/-! ## A numbered table is a leaderboard -/

/-- **Entries that are one for each guardian make a leaderboard when they are numbered.** -/
theorem leaderboard_of_numbered {ε : Type} {entries : List ε} (token score seed : ε → Nat)
    (reached : ε → Int) {S : Nat → Nat} {R : Nat → Int} (hnodup : (entries.map token).Nodup)
    (hscore : ∀ e ∈ entries, score e = S (token e))
    (hreached : ∀ e ∈ entries, reached e = R (token e)) :
    Leaderboard
      ((numbered (fun e => placeKey (score e) (reached e) (token e)) entries).map fun p =>
        ⟨p.2, token p.1, seed p.1, score p.1⟩)
      (fun tokenId => ∃ e ∈ entries, token e = tokenId) S R := by
  have hkey : Separates (fun e => placeKey (score e) (reached e) (token e)) entries :=
    fun a ha b hb he => List.inj_on_of_nodup_map hnodup ha hb (placeKey_inj he)
  have hsorted := hkey.pairwise_lt (List.Nodup.of_map token hnodup)
  rw [← map_fst_numbered] at hsorted
  have hmem : ∀ p ∈ numbered (fun e => placeKey (score e) (reached e) (token e)) entries,
      p.1 ∈ entries := by
    intro p hp
    exact mem_orderBy.mp (map_fst_numbered (fun e => placeKey (score e) (reached e) (token e))
      entries ▸ List.mem_map_of_mem hp)
  refine ⟨?_, fun tokenId => ?_, ?_, ?_⟩
  · rw [List.map_map, List.length_map]
    show (numbered _ entries).map Prod.snd = _
    rw [map_snd_numbered]
    simp [numbered]
  · constructor
    · rintro ⟨row, hrow, rfl⟩
      obtain ⟨p, hp, rfl⟩ := List.mem_map.mp hrow
      exact ⟨p.1, hmem p hp, rfl⟩
    · rintro ⟨e, he, rfl⟩
      have he : e ∈ (numbered (fun e => placeKey (score e) (reached e) (token e)) entries).map
          Prod.fst := by
        rw [map_fst_numbered]
        exact mem_orderBy.mpr he
      obtain ⟨p, hp, rfl⟩ := List.mem_map.mp he
      exact ⟨_, List.mem_map_of_mem hp, rfl⟩
  · intro row hrow
    obtain ⟨p, hp, rfl⟩ := List.mem_map.mp hrow
    exact hscore p.1 (hmem p hp)
  · refine List.pairwise_map.mpr ((List.pairwise_map.mp hsorted).imp_of_mem ?_)
    intro p q hp hq hlt
    show placeKey (S (token p.1)) (R (token p.1)) (token p.1) <
      placeKey (S (token q.1)) (R (token q.1)) (token q.1)
    rw [← hscore _ (hmem p hp), ← hscore _ (hmem q hq), ← hreached _ (hmem p hp),
      ← hreached _ (hmem q hq)]
    exact hlt

/-! ## The day board -/

/-- A slot has one row. -/
def SlotUnique (rows : List RankedRow) : Prop := Separates RankedRow.slot rows

theorem RankedTable.slotUnique (t : RankedTable) : SlotUnique t.rows :=
  fun _ ha _ hb => t.eq_of_slot ha hb

theorem SlotUnique.filter {rows : List RankedRow} (h : SlotUnique rows) (p : RankedRow → Bool) :
    SlotUnique (rows.filter p) :=
  fun a ha b hb => h a (List.mem_of_mem_filter ha) b (List.mem_of_mem_filter hb)

/-- Where a partition is of one guardian, game and day, its rows are in strict order. -/
theorem SlotUnique.separatesIn {κ : Type} {key : RankedRow → κ} {rows : List RankedRow}
    (h : SlotUnique rows) (hkey : ∀ a ∈ rows, ∀ b ∈ rows, key a = key b →
      a.collection = b.collection ∧ a.tokenId = b.tokenId ∧ a.game = b.game ∧ a.day = b.day) :
    SeparatesIn key RankedRow.bestKey rows := by
  intro a ha b hb hk he
  obtain ⟨hc, ht, hg, hd⟩ := hkey a ha b hb hk
  refine h a ha b hb ?_
  simp only [RankedRow.slot, hc, ht, hg, hd, bestKey_inj he]

section DayBoard

variable {rows : List RankedRow} {collection : String} {ruleset : Nat} {game : GameId} {day : Int}

theorem dayRows_separatesIn (h : SlotUnique rows) :
    SeparatesIn RankedRow.tokenId RankedRow.bestKey (dayRows rows collection ruleset game day) := by
  refine (h.filter _).separatesIn fun a ha b hb ht => ?_
  obtain ⟨hca, -, hga, hda⟩ := of_decide_eq_true (List.mem_filter.mp ha).2
  obtain ⟨hcb, -, hgb, hdb⟩ := of_decide_eq_true (List.mem_filter.mp hb).2
  exact ⟨hca.trans hcb.symm, ht, hga.trans hgb.symm, hda.trans hdb.symm⟩

theorem mem_tokenRows {tokenId : Nat} {r : RankedRow} :
    r ∈ tokenRows rows tokenId ↔ r ∈ rows ∧ r.tokenId = tokenId := by
  simp [tokenRows]

/-- The guardians of the firsts are those of the rows. -/
theorem exists_firsts_iff {κ : Type} [DecidableEq κ] {key : RankedRow → κ} {k : κ} :
    (∃ r ∈ firsts key RankedRow.bestKey rows, key r = k) ↔ ∃ r ∈ rows, key r = k := by
  rw [← List.mem_map, map_key_firsts, mem_partitionKeys]

/-- **`DAY_BOARD` is the leaderboard of the day's best scores.** -/
theorem dayBoard_leaderboard (h : SlotUnique rows) :
    Leaderboard (dayBoard rows collection ruleset game day)
      (fun tokenId => ∃ r ∈ dayRows rows collection ruleset game day, r.tokenId = tokenId)
      (fun tokenId => bestScore (tokenRows (dayRows rows collection ruleset game day) tokenId))
      (fun tokenId => reachedAt (tokenRows (dayRows rows collection ruleset game day) tokenId)) := by
  unfold dayBoard
  have hsep : SeparatesIn RankedRow.tokenId RankedRow.bestKey
      (dayRows rows collection ruleset game day) := dayRows_separatesIn h
  generalize dayRows rows collection ruleset game day = own at hsep ⊢
  have hbest : ∀ r ∈ firsts RankedRow.tokenId RankedRow.bestKey own,
      r.score = bestScore (tokenRows own r.tokenId) ∧
        r.createdAt = reachedAt (tokenRows own r.tokenId) := by
    intro r hr
    obtain ⟨hr, hfirst⟩ := (mem_firsts hsep).mp hr
    refine best_of_first (mem_tokenRows.mpr ⟨hr, rfl⟩) fun r' hr' => ?_
    obtain ⟨hr', htoken⟩ := mem_tokenRows.mp hr'
    exact hfirst r' hr' htoken
  have hnodup : ((firsts RankedRow.tokenId RankedRow.bestKey own).map RankedRow.tokenId).Nodup := by
    rw [map_key_firsts]
    exact nodup_partitionKeys _ _
  have hboard := leaderboard_of_numbered RankedRow.tokenId RankedRow.score RankedRow.seed
    RankedRow.createdAt (S := fun tokenId => bestScore (tokenRows own tokenId))
    (R := fun tokenId => reachedAt (tokenRows own tokenId)) hnodup (fun r hr => (hbest r hr).1)
    fun r hr => (hbest r hr).2
  exact { hboard with
    entrants := fun tokenId => (hboard.entrants tokenId).trans exists_firsts_iff }

end DayBoard

/-! ## The week board -/

section WeekBoard

variable {rows : List RankedRow} {collection : String} {ruleset tokenId : Nat} {game : GameId}
  {week cutoff day : Int}

theorem weekRows_separatesIn (h : SlotUnique rows) :
    SeparatesIn (fun r => (r.tokenId, r.day)) RankedRow.bestKey
      (weekRows rows collection ruleset game week cutoff) := by
  refine (h.filter _).separatesIn fun a ha b hb hk => ?_
  obtain ⟨hca, -, hga, -⟩ := of_decide_eq_true (List.mem_filter.mp ha).2
  obtain ⟨hcb, -, hgb, -⟩ := of_decide_eq_true (List.mem_filter.mp hb).2
  obtain ⟨ht, hd⟩ := Prod.mk.inj hk
  exact ⟨hca.trans hcb.symm, ht, hga.trans hgb.symm, hd⟩

theorem mem_dayOf {r : RankedRow} :
    r ∈ dayOf rows tokenId day ↔ r ∈ rows ∧ r.tokenId = tokenId ∧ r.day = day := by
  simp [dayOf]

/-- The daily row of a guardian and a day. -/
theorem daily_best (h : SeparatesIn (fun r => (r.tokenId, r.day)) RankedRow.bestKey rows)
    {r : RankedRow} (hr : r ∈ daily rows) :
    r.score = dailyBest rows r.tokenId r.day ∧
      r.createdAt = reachedAt (dayOf rows r.tokenId r.day) := by
  obtain ⟨hr, hfirst⟩ := (mem_firsts h).mp hr
  refine best_of_first (mem_dayOf.mpr ⟨hr, rfl, rfl⟩) fun r' hr' => ?_
  obtain ⟨hr', ht, hd⟩ := mem_dayOf.mp hr'
  exact hfirst r' hr' (by rw [ht, hd])

/-- The daily rows of a guardian, one for each of its days. -/
theorem perm_days_daily (rows : List RankedRow) (tokenId : Nat) :
    ((partition RankedRow.tokenId (daily rows) tokenId).map RankedRow.day).Perm
      (partitionKeys RankedRow.day (tokenRows rows tokenId)) := by
  have hnodup : ((partition RankedRow.tokenId (daily rows) tokenId).map RankedRow.day).Nodup := by
    refine List.Nodup.map_on ?_ ((nodup_firsts _ _ _).filter _)
    intro a ha b hb hd
    obtain ⟨ha, hta⟩ := mem_partition.mp ha
    obtain ⟨hb, htb⟩ := mem_partition.mp hb
    exact firsts_inj ha hb (by rw [hta, htb, hd])
  refine (List.perm_ext_iff_of_nodup hnodup (nodup_partitionKeys _ _)).mpr fun day => ?_
  have hkey : (∃ r ∈ daily rows, (r.tokenId, r.day) = (tokenId, day)) ↔
      ∃ r ∈ rows, (r.tokenId, r.day) = (tokenId, day) := exists_firsts_iff
  simp only [Prod.mk.injEq] at hkey
  rw [mem_partitionKeys, List.mem_map]
  constructor
  · rintro ⟨r, hr, hd⟩
    obtain ⟨hr, ht⟩ := mem_partition.mp hr
    obtain ⟨r', hr', ht', hd'⟩ := hkey.mp ⟨r, hr, ht, hd⟩
    exact ⟨r', mem_tokenRows.mpr ⟨hr', ht'⟩, hd'⟩
  · rintro ⟨r, hr, hd⟩
    obtain ⟨hr, ht⟩ := mem_tokenRows.mp hr
    obtain ⟨r', hr', ht', hd'⟩ := hkey.mpr ⟨r, hr, ht, hd⟩
    exact ⟨r', mem_partition.mpr ⟨hr', ht'⟩, hd'⟩

theorem dayKey_le {day' : Int} : dayKey rows tokenId day ≤ dayKey rows tokenId day' ↔
    dailyBest rows tokenId day' < dailyBest rows tokenId day ∨
      (dailyBest rows tokenId day = dailyBest rows tokenId day' ∧ day ≤ day') := by
  simp [dayKey, Prod.Lex.toLex_le_toLex]

theorem dayKey_separates (rows : List RankedRow) (tokenId : Nat) (days : List Int) :
    Separates (dayKey rows tokenId) days := by
  intro a _ b _ he
  simp only [dayKey, EmbeddingLike.apply_eq_iff_eq, Prod.mk.injEq] at he
  exact he.2

/-- **The rows that count are those of the days that count.** -/
theorem map_day_counted
    (h : SeparatesIn (fun r => (r.tokenId, r.day)) RankedRow.bestKey rows) (tokenId : Nat) :
    (partition RankedRow.tokenId (counted WEEKLY_COUNTED_DAYS rows) tokenId).map RankedRow.day =
      countedDays rows tokenId := by
  have hkey : (orderBy RankedRow.countKey (partition RankedRow.tokenId (daily rows) tokenId)).map
      RankedRow.day = orderBy (dayKey rows tokenId)
        ((partition RankedRow.tokenId (daily rows) tokenId).map RankedRow.day) := by
    refine List.map_insertionSort _ _ _ _ fun a ha b hb => ?_
    obtain ⟨ha, hta⟩ := mem_partition.mp ha
    obtain ⟨hb, htb⟩ := mem_partition.mp hb
    rw [countKey_le, dayKey_le, (daily_best h ha).1, (daily_best h hb).1, hta, htb]
  rw [counted, partition_upTo, List.map_take, hkey,
    (dayKey_separates rows tokenId _).orderBy_eq (perm_days_daily rows tokenId)]
  rfl

/-- The row of a day that counts. -/
theorem best_of_counted (h : SeparatesIn (fun r => (r.tokenId, r.day)) RankedRow.bestKey rows)
    {r : RankedRow}
    (hr : r ∈ partition RankedRow.tokenId (counted WEEKLY_COUNTED_DAYS rows) tokenId) :
    r.score = dailyBest rows tokenId r.day ∧
      r.createdAt = reachedAt (dayOf rows tokenId r.day) := by
  rw [counted, partition_upTo] at hr
  obtain ⟨hdaily, rfl⟩ := mem_partition.mp (mem_orderBy.mp (List.mem_of_mem_take hr))
  exact daily_best h hdaily

theorem mem_playedDays : day ∈ partitionKeys RankedRow.day (tokenRows rows tokenId) ↔
    ∃ r ∈ rows, r.tokenId = tokenId ∧ r.day = day := by
  simp only [mem_partitionKeys, mem_tokenRows, and_assoc]

theorem dailyBest_eq_zero (h : day ∉ partitionKeys RankedRow.day (tokenRows rows tokenId)) :
    dailyBest rows tokenId day = 0 := by
  have hempty : dayOf rows tokenId day = [] := by
    refine List.eq_nil_iff_forall_not_mem.mpr fun r hr => ?_
    exact h (mem_playedDays.mpr ⟨r, mem_dayOf.mp hr⟩)
  rw [dailyBest, hempty]
  rfl

/-- **The days that count have the greatest sum.** -/
theorem isGreatest_countedDays (hweek : ∀ r ∈ rows, r.week = week) (tokenId : Nat) :
    IsGreatest (weekSums rows week tokenId)
      ((countedDays rows tokenId).map (dailyBest rows tokenId)).sum := by
  have hnodup : (countedDays rows tokenId).Nodup :=
    (((perm_orderBy _ _).nodup_iff.mpr (nodup_partitionKeys _ _)).sublist (List.take_sublist _ _))
  constructor
  · refine ⟨(countedDays rows tokenId).toFinset, ?_, fun d hd => ?_, ?_⟩
    · exact (List.toFinset_card_le _).trans (List.length_take_le _ _)
    · have hd := mem_orderBy.mp (List.mem_of_mem_take (List.mem_toFinset.mp hd))
      obtain ⟨r, hr, -, rfl⟩ := mem_playedDays.mp hd
      exact hweek r hr
    · rw [List.sum_toFinset _ hnodup]
  · rintro total ⟨days, hcard, -, rfl⟩
    -- A day without a row adds nothing.
    have hplayed : ∑ d ∈ days, dailyBest rows tokenId d = ∑ d ∈ days.filter
        (· ∈ partitionKeys RankedRow.day (tokenRows rows tokenId)), dailyBest rows tokenId d := by
      rw [Finset.sum_filter]
      refine Finset.sum_congr rfl fun d _ => ?_
      split
      · rfl
      · next hd => exact dailyBest_eq_zero hd
    rw [hplayed]
    refine sum_le_sum_take _ _ ?_ (fun d hd => ?_) ((Finset.card_filter_le _ _).trans hcard)
    · refine (pairwise_orderBy (dayKey rows tokenId) _).imp fun {a b} hle => ?_
      rcases dayKey_le.mp hle with h | h
      · exact h.le
      · exact h.1.ge
    · exact mem_orderBy.mpr (Finset.mem_filter.mp hd).2

theorem weekScore_eq (hweek : ∀ r ∈ rows, r.week = week) (tokenId : Nat) :
    weekScore rows week tokenId = ((countedDays rows tokenId).map (dailyBest rows tokenId)).sum :=
  (isGreatest_countedDays hweek tokenId).csSup_eq

/-- **A guardian's total is the greatest sum of at most five daily bests.** -/
theorem isGreatest_weekScore (hweek : ∀ r ∈ rows, r.week = week) (tokenId : Nat) :
    IsGreatest (weekSums rows week tokenId) (weekScore rows week tokenId) := by
  rw [weekScore_eq hweek]
  exact isGreatest_countedDays hweek tokenId

/-- The guardians that count are those with a row. -/
theorem exists_counted_iff :
    (∃ r ∈ counted WEEKLY_COUNTED_DAYS rows, r.tokenId = tokenId) ↔
      ∃ r ∈ rows, r.tokenId = tokenId := by
  constructor
  · rintro ⟨r, hr, ht⟩
    exact ⟨r, mem_of_mem_upTo (mem_of_mem_upTo hr), ht⟩
  · rintro ⟨r, hr, rfl⟩
    obtain ⟨first, hfirst, hkey⟩ : ∃ d ∈ daily rows, (d.tokenId, d.day) = (r.tokenId, r.day) :=
      exists_firsts_iff.mpr ⟨r, hr, rfl⟩
    have hown : first ∈ orderBy RankedRow.countKey
        (partition RankedRow.tokenId (daily rows) r.tokenId) :=
      mem_orderBy.mpr (mem_partition.mpr ⟨hfirst, (Prod.mk.inj hkey).1⟩)
    have hcounted := partition_upTo WEEKLY_COUNTED_DAYS RankedRow.tokenId RankedRow.countKey
      (daily rows) r.tokenId
    cases hrows : orderBy RankedRow.countKey
        (partition RankedRow.tokenId (daily rows) r.tokenId) with
    | nil =>
      rw [hrows] at hown
      cases hown
    | cons a rest =>
      have ha : a ∈ partition RankedRow.tokenId (counted WEEKLY_COUNTED_DAYS rows) r.tokenId := by
        rw [counted, hcounted, hrows]
        exact List.mem_cons_self
      exact ⟨a, mem_partition.mp ha⟩

theorem map_tokenId_weekTotals (rows : List RankedRow) :
    (weekTotals rows).map WeekTotal.tokenId = partitionKeys RankedRow.tokenId rows := by
  rw [weekTotals, List.map_map]
  exact List.map_id _

/-- **`WEEK_BOARD` is the leaderboard of the week's totals.** -/
theorem weekBoardRows_leaderboard (h : SlotUnique rows) :
    Leaderboard (weekBoardRows rows collection ruleset game week cutoff WEEKLY_COUNTED_DAYS)
      (fun tokenId => ∃ r ∈ weekRows rows collection ruleset game week cutoff, r.tokenId = tokenId)
      (weekScore (weekRows rows collection ruleset game week cutoff) week)
      (weekReached (weekRows rows collection ruleset game week cutoff)) := by
  unfold weekBoardRows
  have hsep : SeparatesIn (fun r => (r.tokenId, r.day)) RankedRow.bestKey
      (weekRows rows collection ruleset game week cutoff) := weekRows_separatesIn h
  have hweek : ∀ r ∈ weekRows rows collection ruleset game week cutoff, r.week = week :=
    fun r hr => (of_decide_eq_true (List.mem_filter.mp hr).2).2.2.2.1
  generalize weekRows rows collection ruleset game week cutoff = own at hsep hweek ⊢
  have hnodup : ((weekTotals (counted WEEKLY_COUNTED_DAYS own)).map WeekTotal.tokenId).Nodup := by
    rw [map_tokenId_weekTotals]
    exact nodup_partitionKeys _ _
  have htotal : ∀ total ∈ weekTotals (counted WEEKLY_COUNTED_DAYS own),
      total.score = weekScore own week total.tokenId ∧
        total.reached = weekReached own total.tokenId := by
    intro total htotal
    obtain ⟨tokenId, -, rfl⟩ := List.mem_map.mp htotal
    have hdays := map_day_counted hsep tokenId
    have hbest (r) (hr : r ∈ partition RankedRow.tokenId (counted WEEKLY_COUNTED_DAYS own) tokenId) :=
      best_of_counted hsep hr
    constructor
    · show (List.map RankedRow.score _).sum = weekScore own week tokenId
      rw [weekScore_eq hweek, ← hdays, List.map_map]
      exact congrArg List.sum (List.map_congr_left fun r hr => (hbest r hr).1)
    · show (List.map RankedRow.createdAt _).max?.getD 0 = weekReached own tokenId
      rw [weekReached, ← hdays, List.map_map]
      exact congrArg (fun times : List Int => times.max?.getD 0)
        (List.map_congr_left fun r hr => (hbest r hr).2)
  have hboard := leaderboard_of_numbered WeekTotal.tokenId WeekTotal.score WeekTotal.seed
    WeekTotal.reached hnodup (fun e he => (htotal e he).1) fun e he => (htotal e he).2
  refine { hboard with entrants := fun tokenId => (hboard.entrants tokenId).trans ?_ }
  rw [← exists_counted_iff, ← List.mem_map, map_tokenId_weekTotals, mem_partitionKeys]

end WeekBoard

end Mapae.Ranking
