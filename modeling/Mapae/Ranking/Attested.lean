import Mapae.Ranking.History

/-!
# What is attested of a guardian

An attestation signs the titles and the longest streak as of the sealed week. A later one counts the
titles of more weeks and the days of more rows.

* `honor_spec` says what `honor` reads
* `guardianTitles_le` says that titles only add up
* `bestBefore_le` says that rows which settle after a seal do not shorten the longest streak up to
  it, where the day of each keeps pace
-/

namespace Mapae.Ranking

open Mapae.Infra Mapae.Store Mapae.Guardians

/-! ## What is read -/

/-- Nothing to attest. -/
def GuardianHonors.Nothing (h : GuardianHonors) : Prop :=
  h.longestStreak = 0 ∧ ∀ counts ∈ h.titles,
    counts.champion = 0 ∧ counts.podium = 0 ∧ counts.top10 = 0

section Read

variable {version : Nat} {t : RankedTable} {collection : String} {tokenId : Nat} {time : Int}
  {book book' : HonorBook} {honors : Option GuardianHonors}

/-- The honors as of a week, also where they are nothing. -/
def honorsAsOf (t : RankedTable) (book : HonorBook) (collection : String) (tokenId : Nat)
    (week cutoff index : Int) : GuardianHonors where
  week := index
  longestStreak := min LANE_MAX (guardianStreak
    (honorDays t.rows (toLowerCase collection) tokenId (addDays week 6) cutoff) (addDays week 6)).best
  titles := guardianTitles book (toLowerCase collection) tokenId week

/-- **What `honor` reads.** -/
theorem honor_spec (h : honor version t collection tokenId time book = .ok (honors, book')) :
    ∃ last, book.seal version t collection time = .ok (last, book') ∧
      (last = none → honors = none) ∧
      ∀ week, last = some week → ∃ cutoff index, weekCutoff week = .ok cutoff ∧
        rankingWeekIndex week = .ok index ∧
        ((honorsAsOf t book' collection tokenId week cutoff index).Nothing ∧ honors = none ∨
          ¬ (honorsAsOf t book' collection tokenId week cutoff index).Nothing ∧
            honors = some (honorsAsOf t book' collection tokenId week cutoff index)) := by
  rw [honor, bind_eq_ok] at h
  obtain ⟨⟨last, book₁⟩, hseal, h⟩ := h
  refine ⟨last, ?_⟩
  cases last with
  | none =>
    cases pure_eq_ok.mp h
    exact ⟨hseal, fun _ => rfl, fun _ he => nomatch he⟩
  | some week =>
    obtain ⟨cutoff, hcutoff, h⟩ := bind_eq_ok.mp h
    obtain ⟨hmonday, hzero, -⟩ := weekCutoff_eq_ok.mp hcutoff
    have hindex := rankingWeekIndex_eq_ok.mpr ⟨hmonday, hzero, rfl⟩
    dsimp only at h
    split at h
    · next hnothing =>
      cases pure_eq_ok.mp h
      refine ⟨hseal, (nomatch ·), fun _ he => ?_⟩
      cases he
      exact ⟨cutoff, _, hcutoff, hindex, Or.inl ⟨hnothing, rfl⟩⟩
    · next hsomething =>
      obtain ⟨index, hindex', h⟩ := bind_eq_ok.mp h
      cases pure_eq_ok.mp h
      refine ⟨hseal, (nomatch ·), fun _ he => ?_⟩
      cases he
      exact ⟨cutoff, index, hcutoff, hindex', Or.inr ⟨hsomething, rfl⟩⟩

end Read

/-! ## Titles -/

section Titles

variable {a b : GuardianTitleCounts} {titles titles' : List GuardianTitleCounts}
  {rows rows' : List GuardianTitle}

/-- Tier by tier. -/
def CountsLe (a b : GuardianTitleCounts) : Prop :=
  a.champion ≤ b.champion ∧ a.podium ≤ b.podium ∧ a.top10 ≤ b.top10

/-- `a` fits its lanes and is at most `b`. -/
def CountsWithin (a b : GuardianTitleCounts) : Prop :=
  CountsLe a b ∧ isLane a.champion ∧ isLane a.podium ∧ isLane a.top10

theorem CountsWithin.addTitle (h : CountsWithin a b) (tier : TitleTier) :
    CountsWithin (Ranking.addTitle a tier) (Ranking.addTitle b tier) := by
  cases tier <;> simp only [CountsWithin, CountsLe, isLane, LANE_MAX, Ranking.addTitle] at * <;> omega

/-- A capped count does not pass what fits a lane. -/
theorem CountsWithin.addTitle_right (h : CountsWithin a b) (tier : TitleTier) :
    CountsWithin a (Ranking.addTitle b tier) := by
  cases tier <;> simp only [CountsWithin, CountsLe, isLane, LANE_MAX, Ranking.addTitle] at * <;> omega

theorem forall₂_modify {α : Type} {R : α → α → Prop} {f g : α → α} {l l' : List α}
    (h : List.Forall₂ R l l') (hfg : ∀ a b, R a b → R (f a) (g b)) (i : Nat) :
    List.Forall₂ R (l.modify i f) (l'.modify i g) := by
  induction h generalizing i with
  | nil => cases i <;> exact .nil
  | cons hab hrest ih =>
    cases i with
    | zero => exact .cons (hfg _ _ hab) hrest
    | succ i => exact .cons hab (ih i)

theorem countTitle_within (h : List.Forall₂ CountsWithin titles titles') (row : GuardianTitle) :
    List.Forall₂ CountsWithin (countTitle titles row) (countTitle titles' row) := by
  unfold countTitle
  split
  · exact forall₂_modify h (fun _ _ hab => hab.addTitle _) _
  · exact h

theorem countTitle_within_right (h : List.Forall₂ CountsWithin titles titles')
    (row : GuardianTitle) : List.Forall₂ CountsWithin titles (countTitle titles' row) := by
  unfold countTitle
  split
  · next tier _ =>
    have hmodify := forall₂_modify (f := id) h (fun _ _ hab => hab.addTitle_right tier)
      (RANKED_GAMES.idxOf row.game)
    rwa [List.modify_id] at hmodify
  · exact h

/-- More rows, more titles. -/
theorem foldl_countTitle_within (hsub : rows.Sublist rows') :
    ∀ titles titles', List.Forall₂ CountsWithin titles titles' →
      List.Forall₂ CountsWithin (rows.foldl countTitle titles) (rows'.foldl countTitle titles') := by
  induction hsub with
  | slnil => exact fun _ _ h => h
  | cons row _ ih => exact fun titles titles' h => ih titles _ (countTitle_within_right h row)
  | cons_cons row _ ih => exact fun titles titles' h => ih _ _ (countTitle_within h row)

theorem emptyHonors_within : List.Forall₂ CountsWithin emptyHonors.titles emptyHonors.titles := by
  have hzero : CountsWithin ⟨0, 0, 0⟩ ⟨0, 0, 0⟩ := by simp [CountsWithin, CountsLe, isLane]
  exact .cons hzero (.cons hzero (.cons hzero .nil))

/-- What is counted fits the lanes. -/
theorem isLane_guardianTitles (book : HonorBook) (collection : String) (tokenId : Nat) (week : Int) :
    ∀ counts ∈ guardianTitles book collection tokenId week,
      isLane counts.champion ∧ isLane counts.podium ∧ isLane counts.top10 := by
  have hself := foldl_countTitle_within (List.Sublist.refl (book.titles.rows.filter fun r =>
    r.collection = collection ∧ r.tokenId = tokenId ∧ r.week ≤ week)) _ _ emptyHonors_within
  exact fun counts hcounts => (List.forall₂_same.mp hself counts hcounts).2

/-- **Titles only add up.** -/
theorem guardianTitles_le {book book' : HonorBook} (hgrows : book.Grows book') {week week' : Int}
    (hle : week ≤ week') (collection : String) (tokenId : Nat) :
    List.Forall₂ CountsLe (guardianTitles book collection tokenId week)
      (guardianTitles book' collection tokenId week') := by
  have hsub : (book.titles.rows.filter fun r => r.collection = collection ∧ r.tokenId = tokenId ∧
      r.week ≤ week).Sublist (book'.titles.rows.filter fun r => r.collection = collection ∧
        r.tokenId = tokenId ∧ r.week ≤ week') := by
    refine (hgrows.titles.sublist.filter _).trans (List.monotone_filter_right _ fun r h => ?_)
    obtain ⟨hc, ht, hw⟩ := of_decide_eq_true h
    exact decide_eq_true ⟨hc, ht, hw.trans hle⟩
  exact (foldl_countTitle_within hsub _ _ emptyHonors_within).imp fun _ _ h => h.1

end Titles

/-! ## Days -/

section Days

variable {rows rows' later : List RankedRow} {row : RankedRow} {collection : String} {tokenId : Nat}
  {day last cutoff cutoff' week : Int}

theorem mem_honorDays : day ∈ honorDays rows collection tokenId last cutoff ↔
    day ≤ last ∧ ∃ r ∈ rows, r.collection = collection ∧ r.tokenId = tokenId ∧ r.day = day ∧
      r.createdAt < cutoff := by
  simp only [honorDays, mem_orderBy, List.mem_dedup, List.mem_map, List.mem_filter,
    decide_eq_true_eq]
  constructor
  · rintro ⟨r, ⟨hr, hc, ht, hd, hcreated⟩, rfl⟩
    exact ⟨hd, r, hr, hc, ht, rfl, hcreated⟩
  · rintro ⟨hd, r, hr, hc, ht, rfl, hcreated⟩
    exact ⟨r, ⟨hr, hc, ht, hd, hcreated⟩, rfl⟩

/-- The days of the guardian of `row`. -/
def guardianDays (rows : List RankedRow) (row : RankedRow) : List Int :=
  (rows.filter fun r => r.collection = row.collection ∧ r.tokenId = row.tokenId).map RankedRow.day

theorem mem_guardianDays : day ∈ guardianDays rows row ↔
    ∃ r ∈ rows, r.collection = row.collection ∧ r.tokenId = row.tokenId ∧ r.day = day := by
  simp only [guardianDays, List.mem_map, List.mem_filter, decide_eq_true_eq, and_assoc]

/-- With the day of `row`, the streak of its guardian keeps pace up to the latest seal. -/
def InPace (rows : List RankedRow) (row : RankedRow) : Prop :=
  ∀ week ∈ sealedWeek row.createdAt,
    KeepsPace (guardianDays rows row) (row.day :: guardianDays rows row) (addDays week 6)

instance InPace.instDecidable (rows : List RankedRow) (row : RankedRow) : Decidable (InPace rows row) :=
  inferInstanceAs (Decidable (∀ _ ∈ _, KeepsPace _ _ _))

/-- Each row was in pace when it settled. -/
def AllInPace (rows : List RankedRow) : Prop :=
  ∀ pre row post, rows = pre ++ row :: post → InPace pre row

theorem allInPace_append_singleton : AllInPace (rows ++ [row]) ↔ AllInPace rows ∧ InPace rows row := by
  constructor
  · intro h
    refine ⟨fun pre r post he => h pre r (post ++ [row]) ?_, h rows row [] rfl⟩
    rw [he, List.append_assoc, List.cons_append]
  · rintro ⟨h, hrow⟩ pre r post he
    rcases List.eq_nil_or_concat post with rfl | ⟨post', x, rfl⟩
    · obtain ⟨rfl, hrs⟩ := List.append_inj' he rfl
      cases hrs
      exact hrow
    · rw [List.concat_eq_append, ← List.cons_append, ← List.append_assoc] at he
      exact h pre r post' (List.append_inj' he rfl).1

/-- The longest streak as of the end of `week`, of the rows that settled before `cutoff`. -/
def bestBefore (rows : List RankedRow) (collection : String) (tokenId : Nat) (week cutoff : Int) : Nat :=
  (guardianStreak (honorDays rows collection tokenId (addDays week 6) cutoff) (addDays week 6)).best

/-- It depends on the days alone. -/
theorem bestBefore_congr
    (h : ∀ d ≤ addDays week 6, d ∈ honorDays rows collection tokenId (addDays week 6) cutoff ↔
      d ∈ honorDays rows' collection tokenId (addDays week 6) cutoff') :
    bestBefore rows collection tokenId week cutoff = bestBefore rows' collection tokenId week cutoff' :=
  congrArg (·.best) (streakProgress_congr h)

/-- A row that settles later does not count. -/
theorem bestBefore_append (hlater : ∀ r ∈ later, cutoff ≤ r.createdAt) :
    bestBefore (rows ++ later) collection tokenId week cutoff =
      bestBefore rows collection tokenId week cutoff := by
  refine bestBefore_congr fun d _ => ?_
  simp only [mem_honorDays, List.mem_append]
  constructor
  · rintro ⟨hd, r, hr | hr, hc, ht, hday, hcreated⟩
    · exact ⟨hd, r, hr, hc, ht, hday, hcreated⟩
    · exact absurd hcreated (hlater r hr).not_gt
  · rintro ⟨hd, r, hr, h⟩
    exact ⟨hd, r, Or.inl hr, h⟩

/-- **A row that is in pace does not shorten the streak** up to a week that is sealed. -/
theorem bestBefore_le_append (hpace : InPace rows row)
    (hordered : ∀ r ∈ rows, r.createdAt ≤ row.createdAt) (hcutoff : weekCutoff week = .ok cutoff)
    (hzero : WEEK_ZERO < week) (hsettled : cutoff ≤ row.createdAt) (hcreated : row.createdAt < cutoff') :
    bestBefore rows collection tokenId week cutoff' ≤
      bestBefore (rows ++ [row]) collection tokenId week cutoff' := by
  have hbefore : ∀ r ∈ rows, r.createdAt < cutoff' := fun r hr => (hordered r hr).trans_lt hcreated
  by_cases hsame : row.collection = collection ∧ row.tokenId = tokenId
  · obtain ⟨rfl, rfl⟩ := hsame
    obtain ⟨week', hsealed, hle⟩ := le_sealedWeek hcutoff hzero hsettled
    -- The row keeps pace up to the last sealed week, which the week is not after.
    have hkeeps := (hpace week' hsealed).mono (Int.add_le_add_right hle 6)
    have hbest := (ahead_streakProgress (fun d hd => List.mem_cons_of_mem _ hd) hkeeps).best
    refine (congrArg (·.best) (streakProgress_congr fun d hd => ?_)).trans_le
      (hbest.trans (congrArg (·.best) (streakProgress_congr fun d hd => ?_)).le)
    · rw [mem_honorDays, mem_guardianDays]
      constructor
      · rintro ⟨-, r, hr, hc, ht, hday, -⟩
        exact ⟨r, hr, hc, ht, hday⟩
      · rintro ⟨r, hr, hc, ht, hday⟩
        exact ⟨hd, r, hr, hc, ht, hday, hbefore r hr⟩
    · rw [mem_honorDays, List.mem_cons, mem_guardianDays]
      constructor
      · rintro (rfl | ⟨r, hr, hc, ht, hday⟩)
        · exact ⟨hd, row, List.mem_append_right _ List.mem_cons_self, rfl, rfl, rfl, hcreated⟩
        · exact ⟨hd, r, List.mem_append_left _ hr, hc, ht, hday, hbefore r hr⟩
      · rintro ⟨-, r, hr, hc, ht, hday, -⟩
        rcases List.mem_append.mp hr with hr | hr
        · exact Or.inr ⟨r, hr, hc, ht, hday⟩
        · rw [List.mem_singleton.mp hr] at hday
          exact Or.inl hday.symm
  · -- a row of another guardian adds no day
    refine (bestBefore_congr fun d _ => ?_).le
    simp only [mem_honorDays, List.mem_append, List.mem_singleton]
    constructor
    · rintro ⟨hd, r, hr, h⟩
      exact ⟨hd, r, Or.inl hr, h⟩
    · rintro ⟨hd, r, hr | rfl, hc, ht, h⟩
      · exact ⟨hd, r, hr, hc, ht, h⟩
      · exact absurd ⟨hc, ht⟩ hsame

/-- **Rows that settle after the seal do not shorten the streak up to it**, where each is in pace. -/
theorem bestBefore_le (hpace : AllInPace rows)
    (hordered : rows.Pairwise fun a b => a.createdAt ≤ b.createdAt)
    (hcutoff : weekCutoff week = .ok cutoff) (hzero : WEEK_ZERO < week) (hle : cutoff ≤ cutoff') :
    bestBefore rows collection tokenId week cutoff ≤ bestBefore rows collection tokenId week cutoff' := by
  induction rows using List.reverseRecOn with
  | nil => exact le_rfl
  | append_singleton rows row ih =>
    obtain ⟨hpace, hrow⟩ := allInPace_append_singleton.mp hpace
    obtain ⟨hordered, -, hlast⟩ := List.pairwise_append.mp hordered
    have hbefore : ∀ r ∈ rows, r.createdAt ≤ row.createdAt := fun r hr => hlast r hr row List.mem_cons_self
    by_cases hsettled : cutoff ≤ row.createdAt
    · rw [bestBefore_append fun r hr => List.mem_singleton.mp hr ▸ hsettled]
      by_cases hcreated : row.createdAt < cutoff'
      · exact (ih hpace hordered).trans
          (bestBefore_le_append hrow hbefore hcutoff hzero hsettled hcreated)
      · rw [bestBefore_append fun r hr => List.mem_singleton.mp hr ▸ Int.not_lt.mp hcreated]
        exact ih hpace hordered
    · -- All rows had settled before the seal.
      refine (bestBefore_congr fun d _ => ?_).le
      have hall : ∀ r ∈ rows ++ [row], r.createdAt < cutoff := by
        intro r hr
        rcases List.mem_append.mp hr with hr | hr
        · have := hbefore r hr
          omega
        · rw [List.mem_singleton.mp hr]
          omega
      simp only [mem_honorDays]
      exact and_congr_right fun _ => exists_congr fun r => and_congr_right fun hr =>
        and_congr_right fun _ => and_congr_right fun _ => and_congr_right fun _ =>
          ⟨fun h => h.trans_le hle, fun _ => hall r hr⟩

end Days

end Mapae.Ranking
