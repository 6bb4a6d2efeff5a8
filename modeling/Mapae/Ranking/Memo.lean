import Mapae.Ranking.Honors

/-!
# The memo of the title holders

`seal` writes the title holders of a week once, from the boards as they are then. Boards of sealed
weeks do not change, so what is written is also what would be written later.

* `sealedBoard` is the board of a week past its cutoff (`weekBoard_sealed`)
* `Memoised` says that the titles of every week that is done are those of its sealed boards
* `HonorBook.seal_spec` says that `seal` keeps it, and what `seal` adds
-/

namespace Mapae.Ranking

open Mapae.Infra Mapae.Store

/-! ## Sealed boards -/

/-- The board of a sealed week. -/
def sealedBoard (rows : List RankedRow) (collection : String) (game : GameId) (week cutoff : Int) :
    List RankingRow :=
  weekBoardRows rows collection ((weekRuleset rows collection week cutoff).getD 0) game week cutoff
    WEEKLY_COUNTED_DAYS

/-- The title holders of a board, with their places. -/
def topRows (board : List RankingRow) : List (Nat × Nat) :=
  (board.take BOARD_ROWS).map fun row => (row.tokenId, row.rank)

/-- The memoised title holders of a week and a game. -/
def HonorBook.holders (book : HonorBook) (collection : String) (week : Int) (game : GameId) :
    List (Nat × Nat) :=
  (book.titles.rows.filter fun r => r.collection = collection ∧ r.week = week ∧ r.game = game).map
    fun r => (r.tokenId, r.place)

section Boards

variable {t : RankedTable} {rows later : List RankedRow} {collection : String} {game : GameId}
  {version : Nat} {week cutoff time : Int} {board : WeekBoard}

/-- **Past its cutoff, the rows of a week board are those of the sealed board.** -/
theorem weekBoard_sealed (hcutoff : weekCutoff week = .ok cutoff) (htime : cutoff ≤ time) :
    weekBoard version t collection game week time = .ok board ↔
      board.ruleset = (weekRuleset t.rows (toLowerCase collection) week cutoff).getD version ∧
        board.rows = sealedBoard t.rows (toLowerCase collection) game week cutoff := by
  rw [weekBoard_eq_ok]
  have hopen := lt_kstWeek_of_cutoff hcutoff htime
  -- Without a ruleset there are no rows, whatever the ruleset of the arcade.
  have hrows (ruleset : Nat) : weekBoardRows t.rows (toLowerCase collection)
      ((weekRuleset t.rows (toLowerCase collection) week cutoff).getD ruleset) game week cutoff
        WEEKLY_COUNTED_DAYS = sealedBoard t.rows (toLowerCase collection) game week cutoff := by
    unfold sealedBoard
    cases h : weekRuleset t.rows (toLowerCase collection) week cutoff with
    | none => rw [weekBoardRows_eq_nil h, weekBoardRows_eq_nil h]
    | some _ => rfl
  constructor
  · rintro ⟨cutoff', hcutoff', hruleset, hboard⟩
    cases hcutoff.symm.trans hcutoff'
    rw [if_pos hopen] at hruleset
    refine ⟨hruleset, ?_⟩
    rw [hboard, hruleset, hrows]
  · rintro ⟨hruleset, hboard⟩
    refine ⟨cutoff, hcutoff, ?_, ?_⟩
    · rw [if_pos hopen, hruleset]
    · rw [hruleset, hrows, hboard]

/-- Past its cutoff, a week board can always be read. -/
theorem exists_weekBoard (version : Nat) (t : RankedTable) (collection : String) (game : GameId)
    (hcutoff : weekCutoff week = .ok cutoff) (htime : cutoff ≤ time) :
    ∃ board, weekBoard version t collection game week time = .ok board ∧
      board.ruleset = (weekRuleset t.rows (toLowerCase collection) week cutoff).getD version ∧
      board.rows = sealedBoard t.rows (toLowerCase collection) game week cutoff := by
  obtain ⟨ruleset, hruleset⟩ : ∃ ruleset, ruleset =
    (weekRuleset t.rows (toLowerCase collection) week cutoff).getD version := ⟨_, rfl⟩
  obtain ⟨rows, hrows⟩ : ∃ rows, rows =
    sealedBoard t.rows (toLowerCase collection) game week cutoff := ⟨_, rfl⟩
  exact ⟨⟨ruleset, rows⟩, (weekBoard_sealed hcutoff htime).mpr ⟨hruleset, hrows⟩, hruleset, hrows⟩

theorem sealedBoard_append (hlater : ∀ r ∈ later, cutoff ≤ r.createdAt) :
    sealedBoard (rows ++ later) collection game week cutoff =
      sealedBoard rows collection game week cutoff := by
  rw [sealedBoard, weekRuleset_append hlater, weekBoardRows_append hlater, sealedBoard]

theorem nodup_sealedBoard (h : SlotUnique rows) :
    ((sealedBoard rows collection game week cutoff).map RankingRow.tokenId).Nodup :=
  (weekBoardRows_leaderboard h).nodup

end Boards

/-! ## Writing titles -/

section Titles

variable {book book' : HonorBook} {collection : String} {week : Int} {game : GameId}

namespace HonorBook

/-- The rows that the title holders of a game become. -/
def titleRows (collection : String) (week : Int) (game : GameId) (board : List RankingRow) :
    List GuardianTitle :=
  (board.take BOARD_ROWS).map fun row => ⟨collection, week, game, row.tokenId, row.rank⟩

/-- The loop over the rows of a board: no row is there yet. -/
theorem foldlM_title (collection : String) (week : Int) (game : GameId) : ∀ (board : List RankingRow) (book : HonorBook),
    (board.map RankingRow.tokenId).Nodup →
    (∀ r ∈ book.titles.rows, ∀ row ∈ board, r.key ≠ (collection, week, game, row.tokenId)) →
    ∃ titles, board.foldlM (title collection week game) book = .ok ⟨book.weeks, titles⟩ ∧
      titles.rows = book.titles.rows ++
        board.map fun row => ⟨collection, week, game, row.tokenId, row.rank⟩
  | [], book, _, _ => ⟨book.titles, rfl, (List.append_nil _).symm⟩
  | row :: board, book, hnodup, hfree => by
    obtain ⟨hrow, hboard⟩ := List.nodup_cons.mp hnodup
    obtain ⟨titles, hinsert, htitles⟩ : ∃ titles, book.titles.insert?
        ⟨collection, week, game, row.tokenId, row.rank⟩ = some titles ∧
          titles.rows = book.titles.rows ++ [⟨collection, week, game, row.tokenId, row.rank⟩] := by
      cases hinsert : book.titles.insert? ⟨collection, week, game, row.tokenId, row.rank⟩ with
      | none =>
        obtain ⟨r, hr, hkey⟩ := Table.insert?_eq_none.mp hinsert
        exact absurd hkey (hfree r hr row List.mem_cons_self)
      | some titles => exact ⟨titles, rfl, (Table.insert?_eq_some.mp hinsert).2⟩
    obtain ⟨titles', hrest, hrows⟩ := foldlM_title collection week game board ⟨book.weeks, titles⟩ hboard (by
      intro r hr row' hrow' hkey
      rw [htitles, List.mem_append, List.mem_singleton] at hr
      rcases hr with hr | rfl
      · exact hfree r hr row' (List.mem_cons_of_mem _ hrow') hkey
      · have htoken : row.tokenId = row'.tokenId := by simpa [GuardianTitle.key] using hkey
        exact hrow (htoken ▸ List.mem_map_of_mem hrow'))
    refine ⟨titles', ?_, ?_⟩
    · rw [List.foldlM_cons, bind_eq_ok]
      refine ⟨_, ?_, hrest⟩
      rw [title, hinsert]
    · rw [hrows, htitles, List.append_assoc]
      rfl

/-- The title holders of a game. -/
theorem sealGame_eq_ok (version : Nat) (t : RankedTable) (game : GameId) {time cutoff : Int}
    (hcutoff : weekCutoff week = .ok cutoff) (htime : cutoff ≤ time)
    (hfree : ∀ r ∈ book.titles.rows,
      ¬ (r.collection = toLowerCase collection ∧ r.week = week ∧ r.game = game)) :
    ∃ titles, sealGame version t collection week time book game = .ok ⟨book.weeks, titles⟩ ∧
      titles.rows = book.titles.rows ++ titleRows (toLowerCase collection) week game
        (sealedBoard t.rows (toLowerCase collection) game week cutoff) := by
  obtain ⟨titles, htop, htitles⟩ := foldlM_title (toLowerCase collection) week game
    ((sealedBoard t.rows (toLowerCase collection) game week cutoff).take BOARD_ROWS) book
    ((nodup_sealedBoard t.slotUnique).sublist ((List.take_sublist _ _).map _)) (by
      intro r hr row _ hkey
      have hkey : r.collection = toLowerCase collection ∧ r.week = week ∧ r.game = game ∧
        r.tokenId = row.tokenId := by simpa [GuardianTitle.key] using hkey
      exact hfree r hr ⟨hkey.1, hkey.2.1, hkey.2.2.1⟩)
  refine ⟨titles, ?_, htitles⟩
  obtain ⟨board, hboard, -, hrows⟩ := exists_weekBoard version t collection game hcutoff htime
  rw [sealGame, bind_eq_ok]
  exact ⟨board, hboard, hrows ▸ htop⟩

/-- The loop over the games, past the cutoff of the week. -/
theorem foldlM_sealGame (version : Nat) (t : RankedTable) {time cutoff : Int}
    (hcutoff : weekCutoff week = .ok cutoff) (htime : cutoff ≤ time) (games : List GameId)
    (book : HonorBook) (hgames : games.Nodup)
    (hfree : ∀ r ∈ book.titles.rows, r.collection = toLowerCase collection → r.week = week →
      r.game ∉ games) :
    ∃ titles, games.foldlM (sealGame version t collection week time) book =
        .ok ⟨book.weeks, titles⟩ ∧
      titles.rows = book.titles.rows ++ games.flatMap fun game =>
        titleRows (toLowerCase collection) week game
          (sealedBoard t.rows (toLowerCase collection) game week cutoff) := by
  induction games generalizing book with
  | nil => exact ⟨book.titles, rfl, (List.append_nil _).symm⟩
  | cons game games ih =>
    obtain ⟨hgame, hgames⟩ := List.nodup_cons.mp hgames
    obtain ⟨titles, hone, htitles⟩ := sealGame_eq_ok version t game
      hcutoff htime fun r hr h => hfree r hr h.1 h.2.1 (h.2.2 ▸ List.mem_cons_self)
    obtain ⟨titles', hrest, hrows⟩ := ih ⟨book.weeks, titles⟩ hgames (by
      intro r hr hc hw hmem
      rw [htitles, List.mem_append] at hr
      rcases hr with hr | hr
      · exact hfree r hr hc hw (List.mem_cons_of_mem _ hmem)
      · obtain ⟨row, -, rfl⟩ := List.mem_map.mp hr
        exact hgame hmem)
    refine ⟨titles', ?_, ?_⟩
    · rw [List.foldlM_cons, bind_eq_ok]
      exact ⟨_, hone, hrest⟩
    · rw [hrows, htitles, List.append_assoc, List.flatMap_cons]

/-- A week that is not done is done afterwards. -/
theorem sealWeek_eq_ok (version : Nat) (t : RankedTable) {time cutoff : Int} {done : List Int}
    (hcutoff : weekCutoff week = .ok cutoff) (htime : cutoff ≤ time) (hdone : week ∉ done)
    (hweek : (toLowerCase collection, week) ∉ book.weeks.rows)
    (hfree : ∀ r ∈ book.titles.rows, ¬ (r.collection = toLowerCase collection ∧ r.week = week)) :
    ∃ book', sealWeek version t collection time done book week = .ok book' ∧
      book'.weeks.rows = book.weeks.rows ++ [(toLowerCase collection, week)] ∧
      book'.titles.rows = book.titles.rows ++ RANKED_GAMES.flatMap fun game =>
        titleRows (toLowerCase collection) week game
          (sealedBoard t.rows (toLowerCase collection) game week cutoff) := by
  obtain ⟨titles, hgames, htitles⟩ := foldlM_sealGame version t hcutoff htime
    RANKED_GAMES book (by decide) fun r hr hc hw => absurd ⟨hc, hw⟩ (hfree r hr)
  cases hinsert : book.weeks.insert? (toLowerCase collection, week) with
  | none =>
    obtain ⟨w, hw, hkey⟩ := Table.insert?_eq_none.mp hinsert
    have hkey : w = (toLowerCase collection, week) := hkey
    exact absurd (hkey ▸ hw) hweek
  | some weeks =>
    refine ⟨⟨weeks, titles⟩, ?_, (Table.insert?_eq_some.mp hinsert).2, htitles⟩
    rw [sealWeek, if_neg hdone, bind_eq_ok]
    refine ⟨_, hgames, ?_⟩
    rw [mark, hinsert]

/-- Only weeks with a cutoff can be sealed. -/
theorem cutoff_of_sealWeek {version : Nat} {t : RankedTable} {time : Int} {done : List Int}
    (h : sealWeek version t collection time done book week = .ok book') (hdone : week ∉ done) :
    ∃ cutoff, weekCutoff week = .ok cutoff := by
  rw [sealWeek, if_neg hdone, bind_eq_ok] at h
  obtain ⟨_, hgames, -⟩ := h
  rw [RANKED_GAMES, List.foldlM_cons, bind_eq_ok] at hgames
  obtain ⟨_, hgame, -⟩ := hgames
  rw [sealGame, bind_eq_ok] at hgame
  obtain ⟨board, hboard, -⟩ := hgame
  obtain ⟨cutoff, hcutoff, -⟩ := weekBoard_eq_ok.mp hboard
  exact ⟨cutoff, hcutoff⟩

end HonorBook

end Titles

/-! ## The memo -/

/-- The titles are those of the weeks that are done: the top rows of their sealed boards. -/
structure Memoised (rows : List RankedRow) (clock : Int) (book : HonorBook) : Prop where
  done : ∀ r ∈ book.titles.rows, (r.collection, r.week) ∈ book.weeks.rows
  holders : ∀ collection week, (collection, week) ∈ book.weeks.rows →
    ∃ cutoff, weekCutoff week = .ok cutoff ∧ cutoff ≤ clock ∧ ∀ game,
      book.holders collection week game = topRows (sealedBoard rows collection game week cutoff)

/-- Nothing is taken out of the book. -/
structure HonorBook.Grows (book book' : HonorBook) : Prop where
  weeks : book.weeks.rows <+: book'.weeks.rows
  titles : book.titles.rows <+: book'.titles.rows

namespace HonorBook.Grows

variable {book book' book'' : HonorBook}

theorem refl (book : HonorBook) : Grows book book := ⟨List.prefix_rfl, List.prefix_rfl⟩

theorem trans (h : Grows book book') (h' : Grows book' book'') : Grows book book'' :=
  ⟨h.weeks.trans h'.weeks, h.titles.trans h'.titles⟩

end HonorBook.Grows

section Memo

variable {rows later : List RankedRow} {clock clock' time cutoff week : Int} {book book' : HonorBook}
  {collection : String} {version : Nat} {t : RankedTable} {done weeks : List Int}

theorem memoised_empty : Memoised rows clock .empty where
  done _ hr := nomatch hr
  holders _ _ hw := nomatch hw

/-- The holders among the rows of one week. -/
theorem holders_titleRows (collection collection' : String) (week week' : Int) (game : GameId)
    (board : GameId → List RankingRow) :
    ((RANKED_GAMES.flatMap fun game => HonorBook.titleRows collection week game (board game)).filter
        fun r => r.collection = collection' ∧ r.week = week' ∧ r.game = game).map
          (fun r => (r.tokenId, r.place)) =
      if (collection, week) = (collection', week') then topRows (board game) else [] := by
  have hgame (g : GameId) : ((HonorBook.titleRows collection week g (board g)).filter
      fun r => r.collection = collection' ∧ r.week = week' ∧ r.game = game) =
        if collection = collection' ∧ week = week' ∧ g = game then
          HonorBook.titleRows collection week g (board g) else [] := by
    have hrow : ∀ r ∈ HonorBook.titleRows collection week g (board g),
        r.collection = collection ∧ r.week = week ∧ r.game = g := by
      intro r hr
      obtain ⟨row, -, rfl⟩ := List.mem_map.mp hr
      exact ⟨rfl, rfl, rfl⟩
    split
    · next h =>
      refine List.filter_eq_self.mpr fun r hr => decide_eq_true ?_
      obtain ⟨hc, hw, hg⟩ := hrow r hr
      exact ⟨hc.trans h.1, hw.trans h.2.1, hg.trans h.2.2⟩
    · next h =>
      refine List.filter_eq_nil_iff.mpr fun r hr hcond => h ?_
      obtain ⟨hc, hw, hg⟩ := hrow r hr
      rw [← hc, ← hw, ← hg]
      exact of_decide_eq_true hcond
  have htop (g : GameId) : (HonorBook.titleRows collection week g (board g)).map
      (fun r => (r.tokenId, r.place)) = topRows (board g) := by
    rw [HonorBook.titleRows, List.map_map]
    rfl
  rw [List.filter_flatMap]
  simp only [hgame]
  by_cases hsame : (collection, week) = (collection', week')
  · obtain ⟨hc, hw⟩ := Prod.mk.inj hsame
    rw [if_pos hsame]
    cases game <;> simp [RANKED_GAMES, hc, hw, ← htop]
  · rw [if_neg hsame]
    have hnone (g : GameId) : ¬ (collection = collection' ∧ week = week' ∧ g = game) :=
      fun h => hsame (by rw [h.1, h.2.1])
    simp [hnone]

/-- A week that becomes done keeps the memo. -/
theorem Memoised.sealWeek (h : Memoised rows clock book) (hcutoff : weekCutoff week = .ok cutoff)
    (hclock : cutoff ≤ clock) (hweek : (collection, week) ∉ book.weeks.rows)
    (hweeks : book'.weeks.rows = book.weeks.rows ++ [(collection, week)])
    (htitles : book'.titles.rows = book.titles.rows ++ RANKED_GAMES.flatMap fun game =>
      HonorBook.titleRows collection week game (sealedBoard rows collection game week cutoff)) :
    Memoised rows clock book' := by
  have hholders (c : String) (w : Int) (game : GameId) : book'.holders c w game =
      book.holders c w game ++ if (collection, week) = (c, w) then
        topRows (sealedBoard rows collection game week cutoff) else [] := by
    rw [HonorBook.holders, htitles, List.filter_append, List.map_append, HonorBook.holders,
      holders_titleRows]
  constructor
  case done =>
    intro r hr
    rw [htitles, List.mem_append] at hr
    rw [hweeks, List.mem_append, List.mem_singleton]
    rcases hr with hr | hr
    · exact Or.inl (h.done r hr)
    · obtain ⟨game, -, hr⟩ := List.mem_flatMap.mp hr
      obtain ⟨row, -, rfl⟩ := List.mem_map.mp hr
      exact Or.inr rfl
  case holders =>
    intro c w hw
    rw [hweeks, List.mem_append, List.mem_singleton] at hw
    by_cases hsame : (collection, week) = (c, w)
    · obtain ⟨rfl, rfl⟩ := Prod.mk.inj hsame
      refine ⟨cutoff, hcutoff, hclock, fun game => ?_⟩
      -- The week was not done, so it had no titles before.
      have hnone : book.holders collection week game = [] := by
        rw [HonorBook.holders, List.map_eq_nil_iff, List.filter_eq_nil_iff]
        intro r hr hcond
        obtain ⟨hc, hw, -⟩ := of_decide_eq_true hcond
        have hdone := h.done r hr
        rw [hc, hw] at hdone
        exact hweek hdone
      rw [hholders, hnone, if_pos rfl, List.nil_append]
    · obtain ⟨cutoff', hcutoff', hclock', hgames⟩ :=
        h.holders c w (hw.resolve_right fun he => hsame he.symm)
      refine ⟨cutoff', hcutoff', hclock', fun game => ?_⟩
      rw [hholders, if_neg hsame, List.append_nil, hgames]

/-- The memo outlives later rows. -/
theorem Memoised.append (h : Memoised rows clock book) (hlater : ∀ r ∈ later, clock ≤ r.createdAt)
    (hclock : clock ≤ clock') : Memoised (rows ++ later) clock' book where
  done := h.done
  holders collection week hw := by
    obtain ⟨cutoff, hcutoff, hle, hgames⟩ := h.holders collection week hw
    refine ⟨cutoff, hcutoff, hle.trans hclock, fun game => ?_⟩
    rw [hgames, sealedBoard_append fun r hr => hle.trans (hlater r hr)]

/-! ## Sealing -/

/-- The loop over the weeks, all past their cutoffs. -/
theorem foldlM_sealWeek (version : Nat) (weeks : List Int) (h : Memoised t.rows clock book) (htime : time ≤ clock)
    (hweeks : weeks.Nodup)
    (hdone : ∀ week ∈ weeks, week ∈ done ↔ (toLowerCase collection, week) ∈ book.weeks.rows)
    (hcutoff : ∀ week ∈ weeks, week ∉ done → ∃ cutoff, weekCutoff week = .ok cutoff ∧ cutoff ≤ time) :
    ∃ book', weeks.foldlM (HonorBook.sealWeek version t collection time done) book = .ok book' ∧
      Memoised t.rows clock book' ∧ book.Grows book' ∧
      ∀ week ∈ weeks, (toLowerCase collection, week) ∈ book'.weeks.rows := by
  induction weeks generalizing book with
  | nil => exact ⟨book, rfl, h, .refl book, fun _ hw => nomatch hw⟩
  | cons week weeks ih =>
    obtain ⟨hweek, hrest⟩ := List.nodup_cons.mp hweeks
    obtain ⟨book₁, hone, h₁, hgrows, hmark, hothers⟩ : ∃ book₁,
        HonorBook.sealWeek version t collection time done book week = .ok book₁ ∧
          Memoised t.rows clock book₁ ∧ book.Grows book₁ ∧
          (toLowerCase collection, week) ∈ book₁.weeks.rows ∧
          ∀ w, w ≠ week → ((toLowerCase collection, w) ∈ book₁.weeks.rows ↔
            (toLowerCase collection, w) ∈ book.weeks.rows) := by
      by_cases hd : week ∈ done
      · refine ⟨book, ?_, h, .refl book, (hdone week List.mem_cons_self).mp hd, fun _ _ => Iff.rfl⟩
        rw [HonorBook.sealWeek, if_pos hd]
        rfl
      · obtain ⟨cutoff, hc, hle⟩ := hcutoff week List.mem_cons_self hd
        have hfresh : (toLowerCase collection, week) ∉ book.weeks.rows := fun hmem =>
          hd ((hdone week List.mem_cons_self).mpr hmem)
        obtain ⟨book₁, hone, hws, hts⟩ := HonorBook.sealWeek_eq_ok version t hc hle hd
          hfresh fun r hr hcw => by
            have hr := h.done r hr
            rw [hcw.1, hcw.2] at hr
            exact hfresh hr
        refine ⟨book₁, hone, h.sealWeek hc (hle.trans htime) hfresh hws hts,
          ⟨hws ▸ List.prefix_append _ _, hts ▸ List.prefix_append _ _⟩, ?_, fun w hne => ?_⟩
        · rw [hws]
          exact List.mem_append_right _ (List.mem_singleton_self _)
        · rw [hws, List.mem_append, List.mem_singleton, Prod.mk.injEq]
          exact ⟨fun hmem => hmem.resolve_right fun he => hne he.2, Or.inl⟩
    obtain ⟨book', hloop, h', hgrows', hall⟩ := ih h₁ hrest (fun w hw => by
        rw [hothers w fun he => hweek (he ▸ hw)]
        exact hdone w (List.mem_cons_of_mem _ hw))
      fun w hw => hcutoff w (List.mem_cons_of_mem _ hw)
    refine ⟨book', ?_, h', hgrows.trans hgrows', fun w hw => ?_⟩
    · rw [List.foldlM_cons, bind_eq_ok]
      exact ⟨book₁, hone, hloop⟩
    · rcases List.mem_cons.mp hw with rfl | hw
      · exact hgrows'.weeks.subset hmark
      · exact hall w hw

theorem mem_weeksFrom {first last : Int} : week ∈ HonorBook.weeksFrom first last ↔
    first ≤ week ∧ week ≤ last ∧ (week - first) % 7 = 0 := by
  simp only [HonorBook.weeksFrom, List.mem_map, List.mem_range]
  constructor
  · rintro ⟨i, hi, rfl⟩
    omega
  · rintro ⟨hle, hlast, hmod⟩
    exact ⟨((week - first) / 7).toNat, by omega, by omega⟩

theorem nodup_weeksFrom (first last : Int) : (HonorBook.weeksFrom first last).Nodup :=
  List.nodup_range.map fun i j h => by
    have h : first + 7 * (i : Int) = first + 7 * (j : Int) := h
    omega

/-- The weeks of the loop are past their cutoffs. -/
theorem cutoff_le_of_weeksFrom {first last : Int} (h : sealedWeek time = some last)
    (hweek : week ∈ HonorBook.weeksFrom first last) (hcutoff : weekCutoff week = .ok cutoff) :
    cutoff ≤ time := by
  obtain ⟨cutoff', hcutoff', hle⟩ := cutoff_of_sealedWeek h
  exact (cutoff_mono hcutoff hcutoff' (mem_weeksFrom.mp hweek).2.1).trans hle

theorem cutoff_of_foldlM (h : weeks.foldlM (HonorBook.sealWeek version t collection time done) book =
    .ok book') : ∀ week ∈ weeks, week ∉ done → ∃ cutoff, weekCutoff week = .ok cutoff := by
  induction weeks generalizing book with
  | nil => exact fun _ hw => nomatch hw
  | cons week weeks ih =>
    rw [List.foldlM_cons, bind_eq_ok] at h
    obtain ⟨book₁, hone, hrest⟩ := h
    intro w hw hd
    rcases List.mem_cons.mp hw with rfl | hw
    · exact HonorBook.cutoff_of_sealWeek hone hd
    · exact ih hrest w hw hd

/-- The weeks that were done when the loop began. -/
theorem mem_done (book : HonorBook) (collection : String) :
    week ∈ (book.weeks.rows.filter fun w => w.1 = collection).map Prod.snd ↔
      (collection, week) ∈ book.weeks.rows := by
  simp only [List.mem_map, List.mem_filter, decide_eq_true_eq]
  constructor
  · rintro ⟨⟨_, _⟩, ⟨hw, rfl⟩, rfl⟩
    exact hw
  · intro hw
    exact ⟨_, ⟨hw, rfl⟩, rfl⟩

/-- **`seal` keeps the memo and takes nothing out of it.** -/
theorem HonorBook.seal_spec {last : Option Int}
    (h : book.seal version t collection time = .ok (last, book'))
    (hmemo : Memoised t.rows clock book) (htime : time ≤ clock) :
    last = sealedWeek time ∧ Memoised t.rows clock book' ∧ book.Grows book' := by
  unfold HonorBook.seal at h
  cases hsealed : sealedWeek time with
  | none =>
    rw [hsealed] at h
    cases pure_eq_ok.mp h
    exact ⟨rfl, hmemo, .refl book⟩
  | some week =>
    rw [hsealed] at h
    dsimp only at h
    split at h
    · cases pure_eq_ok.mp h
      exact ⟨rfl, hmemo, .refl book⟩
    · next first _ =>
      obtain ⟨book₁, hloop, h⟩ := bind_eq_ok.mp h
      cases pure_eq_ok.mp h
      obtain ⟨book₂, hloop', h₂, hgrows, -⟩ := foldlM_sealWeek version
        (HonorBook.weeksFrom first week) hmemo htime (nodup_weeksFrom first week)
        (fun _ _ => mem_done book (toLowerCase collection)) fun w hw hd => by
          obtain ⟨cutoff, hcutoff⟩ := cutoff_of_foldlM hloop w hw hd
          exact ⟨cutoff, hcutoff, cutoff_le_of_weeksFrom hsealed hw hcutoff⟩
      cases hloop.symm.trans hloop'
      exact ⟨rfl, h₂, hgrows⟩

end Memo

end Mapae.Ranking
