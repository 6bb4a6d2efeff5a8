import Mapae.Ranking.Placement

/-!
# The pages of a board are the board

* `boardPages`: the top rows, the pages and the page around guardians are slices of the whole board
* `boardPages_all`: put together they are the whole board
* `board_pages_held`: the boards and paths there are, and what each is answered with
* `standing_spec`: a guardian's place on a game board, with the row above and those around
* `standings_held`: standings and share cards agree with the boards
-/

namespace Mapae.Ranking

open Mapae.Infra Mapae.Store Mapae.Outings Mapae.Web

/-! ## Top rows and pages -/

/-- The rows of a whole board, each with its earlier rank. -/
def movedRows (current earlier : Window) : List PlacedRow :=
  current.rows.map (WindowRow.withMove (previousRanks current earlier))

/-- The page around the named guardians: that of the best placed below the top rows, or the first. -/
structure PageAround (rows : List PlacedRow) (ids : List Nat) (page : RankingPage) : Prop where
  grid : OnGrid page.offset
  entrants : page.entrants = rows.length
  slice : page.rows = (rows.drop page.offset).take RANKING_PAGE_ROWS
  nobody : page.focus = none → page.offset = BOARD_ROWS ∧ ∀ (index : Nat) (row : PlacedRow),
    rows[index]? = some row → BOARD_ROWS ≤ index → row.tokenId ∉ ids
  focus : ∀ tokenId, page.focus = some tokenId → tokenId ∈ ids ∧ (∃ row ∈ page.rows, row.tokenId = tokenId) ∧
    ∃ index, (rows[index]?.map fun row => row.tokenId) = some tokenId ∧ BOARD_ROWS ≤ index ∧
      ∀ (j : Nat) (other : PlacedRow), rows[j]? = some other → BOARD_ROWS ≤ j → other.tokenId ∈ ids → index ≤ j

/-- What the paths of a board answer with its rows. -/
structure BoardPages (app : RankingApp) (board : RankingBoardId) (period : RankingPeriod)
    (rows : List PlacedRow) : Prop where
  top : ∃ top, app.board board.text period.text = .ok top ∧ top.entrants = rows.length ∧
    top.rows = rows.take BOARD_ROWS
  page : ∀ offset, OnGrid offset → offset < Guardians.GUARDIAN_MAX_SUPPLY →
    ∃ page, app.page board.text period.text "from" (decimalText offset) = .ok page ∧ page.offset = offset ∧
      page.focus = none ∧ page.entrants = rows.length ∧ page.rows = (rows.drop offset).take RANKING_PAGE_ROWS
  around : ∀ ids, RosterIds ids →
    ∃ page, app.page board.text period.text "around" (idsText ids) = .ok page ∧ PageAround rows ids page

section Pages

variable {r : RankingReader} {board : RankingBoardId} {period : RankingPeriod} {current earlier : Window}

theorem placedRows_eq (current earlier : Window) (offset count : Nat) :
    placedRows current.rows offset count (previousRanks current earlier) =
      ((movedRows current earlier).drop offset).take count := by
  rw [placedRows, movedRows, List.map_take, List.map_drop]

theorem board_eq (h : r.windows board period = .ok (current, earlier)) : r.board board period = .ok {
    board, period
    fromDay := current.fromDay
    toDay := current.toDay
    closesAt := current.closesAt
    entrants := current.rows.length
    moves := (previousRanks current earlier).isSome
    rows := (movedRows current earlier).take BOARD_ROWS } := by
  unfold RankingReader.board
  rw [h]
  show Except.ok _ = _
  rw [placedRows_eq, List.drop_zero]

theorem page_offset_eq (h : r.windows board period = .ok (current, earlier)) (offset : Nat) :
    r.page board period (.offset offset) = .ok {
      board, period
      fromDay := current.fromDay
      toDay := current.toDay
      entrants := current.rows.length
      moves := (previousRanks current earlier).isSome
      rows := ((movedRows current earlier).drop offset).take RANKING_PAGE_ROWS
      offset
      focus := none } := by
  unfold RankingReader.page
  rw [h]
  show Except.ok _ = _
  rw [placedRows_eq]
  rfl

theorem page_around_eq (h : r.windows board period = .ok (current, earlier)) (ids : List Nat) :
    r.page board period (.around ids) = .ok {
      board, period
      fromDay := current.fromDay
      toDay := current.toDay
      entrants := current.rows.length
      moves := (previousRanks current earlier).isSome
      rows := ((movedRows current earlier).drop (rankingPageOffset
        (((bestBelow current.rows ids).map Int.ofNat).getD (-1)))).take RANKING_PAGE_ROWS
      offset := rankingPageOffset (((bestBelow current.rows ids).map Int.ofNat).getD (-1))
      focus := (bestBelow current.rows ids).bind fun index => (current.rows[index]?).map fun row => row.tokenId } := by
  unfold RankingReader.page
  rw [h]
  show Except.ok _ = _
  rw [placedRows_eq]

/-- A row of the whole board is the row of the window at its place. -/
theorem getElem?_movedRows {index : Nat} {row : PlacedRow} : (movedRows current earlier)[index]? = some row ↔
    ∃ plain, current.rows[index]? = some plain ∧
      plain.withMove (previousRanks current earlier) = row := by
  rw [movedRows, List.getElem?_map, Option.map_eq_some_iff]

theorem pageAround (h : r.windows board period = .ok (current, earlier)) (ids : List Nat) :
    ∃ page, r.page board period (.around ids) = .ok page ∧ PageAround (movedRows current earlier) ids page := by
  refine ⟨_, page_around_eq h ids, ?_⟩
  cases hbest : bestBelow current.rows ids with
  | none =>
    refine ⟨rankingPageOffset_onGrid _, (List.length_map _).symm, rfl, fun _ => ⟨rfl, fun index row hrow hlow => ?_⟩,
      fun tokenId htoken => ?_⟩
    · obtain ⟨plain, hplain, rfl⟩ := getElem?_movedRows.mp hrow
      exact bestBelow_eq_none.mp hbest index plain hplain hlow
    · cases htoken
  | some index =>
    obtain ⟨plain, hplain, hlow, hnamed, hfirst⟩ := bestBelow_eq_some.mp hbest
    have hbounds := rankingPageOffset_bounds hlow
    have hmoved : (movedRows current earlier)[index]? = some (plain.withMove (previousRanks current earlier)) :=
      getElem?_movedRows.mpr ⟨plain, hplain, rfl⟩
    refine ⟨rankingPageOffset_onGrid _, (List.length_map _).symm, rfl, fun hnone => ?_, fun tokenId htoken => ?_⟩
    · simp [hplain] at hnone
    · obtain rfl : plain.tokenId = tokenId := by simpa [hplain] using htoken
      refine ⟨hnamed, ⟨plain.withMove (previousRanks current earlier), ?_, rfl⟩, index, ?_, hlow,
        fun j other hother hj hother' => ?_⟩
      · -- the place is inside the page of its offset
        have hslice : (((movedRows current earlier).drop (rankingPageOffset index)).take RANKING_PAGE_ROWS)[index -
            rankingPageOffset index]? = some (plain.withMove (previousRanks current earlier)) := by
          rw [List.getElem?_take_of_lt (by omega), List.getElem?_drop, Nat.add_sub_cancel' hbounds.1, hmoved]
        exact List.mem_of_getElem? hslice
      · rw [hmoved]
        rfl
      · obtain ⟨plain', hplain', rfl⟩ := getElem?_movedRows.mp hother
        exact hfirst j plain' hplain' hj hother'

/-- **The paths of a board answer with its rows.** -/
theorem boardPages (shipped : Season) (hanswers : board.Answers r.season period)
    (h : r.windows board period = .ok (current, earlier)) :
    BoardPages ⟨shipped, some r⟩ board period (movedRows current earlier) := by
  have hfrom : ("from" : String) ≠ "around" := by decide
  refine ⟨⟨_, (withBoard_text hanswers _).trans (board_eq h), (List.length_map _).symm, rfl⟩,
    fun offset hgrid hlt => ?_, fun ids hroster => ?_⟩
  · have hparse : parseRankingPageOffset (decimalText offset) = some offset :=
      parseRankingPageOffset_iff.mpr ⟨rfl, hgrid, hlt⟩
    have hroute : (RankingApp.mk shipped (some r)).page board.text period.text "from" (decimalText offset) =
        r.page board period (.offset offset) := by
      unfold RankingApp.page
      rw [if_pos rfl, if_neg hfrom, hparse]
      exact withBoard_text hanswers _
    exact ⟨_, hroute.trans (page_offset_eq h offset), rfl, rfl, (List.length_map _).symm, rfl⟩
  · have hparse : parseRankingIds (idsText ids) = some ids := parseRankingIds_iff.mpr ⟨rfl, hroster⟩
    have hroute : (RankingApp.mk shipped (some r)).page board.text period.text "around" (idsText ids) =
        r.page board period (.around ids) := by
      unfold RankingApp.page
      rw [if_neg hfrom.symm, if_pos rfl, hparse]
      exact withBoard_text hanswers _
    obtain ⟨page, hpage, hspec⟩ := pageAround h ids
    exact ⟨page, hroute.trans hpage, hspec⟩

/-- The pages that a board has below its top rows. -/
def pageCount (entrants : Nat) : Nat := (entrants - BOARD_ROWS + (RANKING_PAGE_ROWS - 1)) / RANKING_PAGE_ROWS

/-- **The top rows and the pages are the whole board**, and every page of it has a path. -/
theorem boardPages_all {app : RankingApp} {rows : List PlacedRow} (h : BoardPages app board period rows)
    (hlength : rows.length ≤ Guardians.GUARDIAN_MAX_SUPPLY) :
    ∃ (top : RankingBoard) (pages : List RankingPage), app.board board.text period.text = .ok top ∧
      pages.length = pageCount rows.length ∧
      (∀ (k : Nat) (page : RankingPage), pages[k]? = some page →
        app.page board.text period.text "from" (decimalText (BOARD_ROWS + k * RANKING_PAGE_ROWS)) = .ok page) ∧
      top.rows ++ pages.flatMap RankingPage.rows = rows := by
  obtain ⟨top, htop, -, hrows⟩ := h.top
  have hpage : ∀ k : Nat, k < pageCount rows.length → ∃ page : RankingPage,
      app.page board.text period.text "from" (decimalText (BOARD_ROWS + k * RANKING_PAGE_ROWS)) = .ok page ∧
        page.rows = (rows.drop (BOARD_ROWS + k * RANKING_PAGE_ROWS)).take RANKING_PAGE_ROWS := by
    intro k hk
    have hlt : BOARD_ROWS + k * RANKING_PAGE_ROWS < Guardians.GUARDIAN_MAX_SUPPLY := by
      simp only [pageCount, BOARD_ROWS, RANKING_PAGE_ROWS] at *
      omega
    obtain ⟨page, hpage, -, -, -, hslice⟩ := h.page _ ⟨k, rfl⟩ hlt
    exact ⟨page, hpage, hslice⟩
  have : Nonempty RankingPage := ⟨⟨board, period, 0, 0, 0, false, [], 0, none⟩⟩
  choose! pageAt hpath hslice using hpage
  refine ⟨top, (List.range (pageCount rows.length)).map pageAt, htop, by simp, fun k page hk => ?_, ?_⟩
  · rw [List.getElem?_map, Option.map_eq_some_iff] at hk
    obtain ⟨k', hk', rfl⟩ := hk
    obtain ⟨hlt, rfl⟩ := List.getElem?_eq_some_iff.mp hk'
    rw [List.length_range] at hlt
    rw [List.getElem_range]
    exact hpath k hlt
  · rw [List.flatMap_map, hrows]
    have hflat : (List.range (pageCount rows.length)).flatMap (fun k => (pageAt k).rows) =
        (List.range (pageCount rows.length)).flatMap fun k =>
          (rows.drop (BOARD_ROWS + k * RANKING_PAGE_ROWS)).take RANKING_PAGE_ROWS :=
      List.flatMap_congr fun k hk => hslice k (List.mem_range.mp hk)
    rw [hflat, take_append_slices, List.take_of_length_le]
    simp only [pageCount, BOARD_ROWS, RANKING_PAGE_ROWS]
    omega

end Pages

/-! ## The result -/

/-- What is read of a board whose window and the one before it are given. -/
structure BoardRead (shipped : Season) (r : RankingReader) (board : RankingBoardId) (period : RankingPeriod)
    (current earlier : Window) : Prop where
  whole : WholeBoard board current.rows
  compared : r.IsEarlier board period earlier
  prev : ∀ row ∈ movedRows current earlier, ∀ rank, row.prev = some rank ↔
    earlier.ruleset = current.ruleset ∧ ∃ other ∈ earlier.rows, other.tokenId = row.tokenId ∧ other.rank = rank
  pages : BoardPages ⟨shipped, some r⟩ board period (movedRows current earlier)
  all : r.ranked.Numbered → ∃ (top : RankingBoard) (pages : List RankingPage),
    (RankingApp.mk shipped (some r)).board board.text period.text = .ok top ∧
      pages.length = pageCount current.rows.length ∧
      (∀ (k : Nat) (page : RankingPage), pages[k]? = some page →
        (RankingApp.mk shipped (some r)).page board.text period.text "from"
          (decimalText (BOARD_ROWS + k * RANKING_PAGE_ROWS)) = .ok page) ∧
      top.rows ++ pages.flatMap RankingPage.rows = movedRows current earlier

theorem prev_of_moved {current earlier : Window} (hnodup : (earlier.rows.map fun row => row.tokenId).Nodup)
    {row : PlacedRow} (hrow : row ∈ movedRows current earlier) (rank : Nat) : row.prev = some rank ↔
      earlier.ruleset = current.ruleset ∧ ∃ other ∈ earlier.rows, other.tokenId = row.tokenId ∧ other.rank = rank := by
  obtain ⟨plain, -, rfl⟩ := List.mem_map.mp hrow
  show Moves.prev (previousRanks current earlier) plain.tokenId = some rank ↔ _
  rw [prev_eq_some hnodup, isSome_previousRanks]
  constructor
  · rintro ⟨⟨-, hruleset⟩, hother⟩
    exact ⟨hruleset, hother⟩
  · rintro ⟨hruleset, other, hother, hsame⟩
    exact ⟨⟨List.ne_nil_of_mem hother, hruleset⟩, other, hother, hsame⟩

/-- The season board is there from the first day of a dated season on. -/
theorem windows_season_iff {r : RankingReader} {period : RankingPeriod} :
    (∃ current earlier, r.windows .season period = .ok (current, earlier)) ↔
    ∃ start last, r.season.start = some start ∧ r.season.end = some last ∧ start ≤ kstDay r.now := by
  have hopen : (∃ window, seasonWindow r.season (kstDay r.now) = some window) ↔
      ∃ start last, r.season.start = some start ∧ r.season.end = some last ∧ start ≤ kstDay r.now := by
    unfold seasonWindow seasonPhase
    cases hstart : r.season.start with
    | none => simp
    | some start =>
      cases hlast : r.season.end with
      | none => simp
      | some last =>
        by_cases hopen : kstDay r.now < start
        · simp [hopen]
        · by_cases hclosed : kstDay r.now ≤ last <;> simp [hopen, hclosed, Int.not_lt.mp hopen]
  rw [← hopen, RankingReader.windows, RankingReader.seasonWindows, seasonWindows]
  cases seasonWindow r.season (kstDay r.now) <;> simp

/-- The rows of a game board between two places are a slice of it. -/
theorem filter_ranks {rows : List PlacedRow} {start : Nat} (low high : Nat)
    (hranks : rows.map (fun row => row.rank) = List.range' start rows.length) (hlow : start ≤ low) :
    rows.filter (fun row => low ≤ row.rank ∧ row.rank ≤ high) = (rows.drop (low - start)).take (high + 1 - low) := by
  induction rows generalizing start low with
  | nil => simp
  | cons row rows ih =>
    rw [List.map_cons, List.length_cons, List.range'_succ, List.cons.injEq] at hranks
    obtain ⟨hrank, hranks⟩ := hranks
    have hlater : ∀ other ∈ rows, start + 1 ≤ other.rank := by
      intro other hother
      have hmem := List.mem_map_of_mem (f := fun row : PlacedRow => row.rank) hother
      rw [hranks, List.mem_range'_1] at hmem
      exact hmem.1
    rcases Nat.lt_or_eq_of_le hlow with hlt | rfl
    · -- the first row comes before the slice
      have hskip : low - start = low - (start + 1) + 1 := by omega
      rw [List.filter_cons_of_neg (by simp only [decide_eq_true_eq]; omega), ih low hranks hlt, hskip,
        List.drop_succ_cons]
    · rw [Nat.sub_self, List.drop_zero]
      have hrest : rows.filter (fun row => start ≤ row.rank ∧ row.rank ≤ high) =
          rows.take (high + 1 - (start + 1)) := by
        have hslice := ih (start + 1) hranks le_rfl
        rw [Nat.sub_self, List.drop_zero] at hslice
        rw [← hslice]
        refine List.filter_congr fun other hother => ?_
        have := hlater other hother
        simp only [decide_eq_decide]
        omega
      by_cases hhigh : start ≤ high
      · have htake : high + 1 - start = high + 1 - (start + 1) + 1 := by omega
        rw [List.filter_cons_of_pos (by simp only [decide_eq_true_eq]; omega), hrest, htake, List.take_succ_cons]
      · have htake : high + 1 - start = 0 := by omega
        have hnone : high + 1 - (start + 1) = 0 := by omega
        rw [List.filter_cons_of_neg (by simp only [decide_eq_true_eq]; omega), hrest, htake, hnone]
        rfl

theorem rank_getElem {α : Type} {rank : α → Nat} {rows : List α} {index : Nat}
    (hranks : rows.map rank = List.range' 1 rows.length) (hlt : index < rows.length) :
    rank rows[index] = index + 1 := by
  have hget := List.getElem_map rank (l := rows) (i := index) (h := by rwa [List.length_map])
  rw [← hget]
  simp only [hranks, List.getElem_range'_1]
  omega

/-- A guardian's place on a board: its row, the row above and those around. -/
structure StandingOn (rows : List PlacedRow) (moves : Bool) (tokenId : Nat) (s : RankingStanding) : Prop where
  place : ∃ row ∈ rows, row.tokenId = tokenId ∧ s.rank = row.rank ∧ s.score = row.score ∧ s.prev = row.prev
  moves : s.moves = moves
  entrants : s.entrants = rows.length
  leader : rows.head?.map (fun row => row.score) = some s.leader
  above : s.above = (rows.find? fun row => row.rank + 1 = s.rank).map fun row => row.toRankingRow
  nearby : s.nearby = (rows.filter fun row => s.rank - NEARBY_SPAN ≤ row.rank ∧ row.rank ≤ s.rank + NEARBY_SPAN).map
    fun row => row.toRankingRow

section Standing

variable {current earlier : Window} {game : GameId} {tokenId : Nat} {s : RankingStanding}

theorem ranking_movedRows (current earlier : Window) :
    current.ranking = (movedRows current earlier).map fun row => row.toRankingRow := by
  rw [movedRows, List.map_map]
  rfl

theorem ranks_movedRows (h : WholeBoard (.game game) current.rows) :
    (movedRows current earlier).map (fun row => row.rank) = List.range' 1 (movedRows current earlier).length := by
  rw [movedRows, List.map_map, List.length_map]
  exact h.places

/-- The row above is the one before. -/
theorem find?_rank {rows : List PlacedRow} (hranks : rows.map (fun row => row.rank) = List.range' 1 rows.length)
    (index : Nat) : (rows.find? fun row => row.rank + 1 = index + 1) = if index = 0 then none else rows[index - 1]? := by
  have hfilter : rows.filter (fun row => row.rank + 1 = index + 1) =
      rows.filter fun row => index ≤ row.rank ∧ row.rank ≤ index := by
    refine List.filter_congr fun row _ => ?_
    simp only [decide_eq_decide]
    omega
  rw [← List.head?_filter, hfilter]
  by_cases hzero : index = 0
  · subst hzero
    rw [if_pos rfl, List.head?_eq_none_iff, List.filter_eq_nil_iff]
    intro row hrow
    have hmem := List.mem_map_of_mem (f := fun row : PlacedRow => row.rank) hrow
    rw [hranks, List.mem_range'_1] at hmem
    simp only [decide_eq_true_eq]
    omega
  · have hone : index + 1 - index = 1 := by omega
    rw [if_neg hzero, filter_ranks index index hranks (by omega), hone, List.head?_take, if_neg Nat.one_ne_zero,
      List.head?_drop]

theorem nearby_ranks {rows : List PlacedRow} (hranks : rows.map (fun row => row.rank) = List.range' 1 rows.length)
    (index : Nat) : rows.filter (fun row => index + 1 - NEARBY_SPAN ≤ row.rank ∧ row.rank ≤ index + 1 + NEARBY_SPAN) =
      (rows.drop (index - NEARBY_SPAN)).take (index + NEARBY_SPAN + 1 - (index - NEARBY_SPAN)) := by
  have hfilter : rows.filter (fun row => index + 1 - NEARBY_SPAN ≤ row.rank ∧ row.rank ≤ index + 1 + NEARBY_SPAN) =
      rows.filter fun row => max 1 (index - 1) ≤ row.rank ∧ row.rank ≤ index + 3 := by
    refine List.filter_congr fun row hrow => ?_
    have hmem := List.mem_map_of_mem (f := fun row : PlacedRow => row.rank) hrow
    rw [hranks, List.mem_range'_1] at hmem
    refine decide_eq_decide.mpr ?_
    simp only [NEARBY_SPAN]
    omega
  have hdrop : max 1 (index - 1) - 1 = index - NEARBY_SPAN := by
    simp only [NEARBY_SPAN]
    omega
  have htake : index + 3 + 1 - max 1 (index - 1) = index + NEARBY_SPAN + 1 - (index - NEARBY_SPAN) := by
    simp only [NEARBY_SPAN]
    omega
  rw [hfilter, filter_ranks _ _ hranks (le_max_left _ _), hdrop, htake]

/-- **A standing is the place on the board that is shown.** -/
theorem standing_spec (h : WholeBoard (.game game) current.rows) (tokenId : Nat) :
    (standing current.ranking tokenId (previousRanks current earlier) = none ↔
      ∀ row ∈ movedRows current earlier, row.tokenId ≠ tokenId) ∧
    ∀ s, standing current.ranking tokenId (previousRanks current earlier) = some s →
      StandingOn (movedRows current earlier) (previousRanks current earlier).isSome tokenId s := by
  have hranks : (movedRows current earlier).map (fun row => row.rank) = List.range' 1 (movedRows current earlier).length :=
    ranks_movedRows h
  rw [ranking_movedRows current earlier]
  have hprev : ∀ row ∈ movedRows current earlier, Moves.prev (previousRanks current earlier) row.tokenId = row.prev := by
    intro row hrow
    obtain ⟨plain, -, rfl⟩ := List.mem_map.mp hrow
    rfl
  generalize movedRows current earlier = rows at hranks hprev
  cases hfind : (rows.map fun row => row.toRankingRow).findIdx? fun row => row.tokenId = tokenId with
  | none =>
    have hnone : standing (rows.map fun row => row.toRankingRow) tokenId (previousRanks current earlier) = none := by
      simp only [standing, hfind, Option.bind_eq_bind, Option.bind_none]
    rw [hnone]
    refine ⟨⟨fun _ row hrow => ?_, fun _ => rfl⟩, fun s hs => by cases hs⟩
    have hno := List.findIdx?_eq_none_iff.mp hfind _ (List.mem_map_of_mem hrow)
    exact of_decide_eq_false hno
  | some index =>
    obtain ⟨hlt, htoken, -⟩ := List.findIdx?_eq_some_iff_getElem.mp hfind
    rw [List.length_map] at hlt
    rw [List.getElem_map, decide_eq_true_eq] at htoken
    have hrow : (rows.map fun row => row.toRankingRow)[index]? = some rows[index].toRankingRow := by
      rw [List.getElem?_map, List.getElem?_eq_getElem hlt]
      rfl
    have hfirst : (rows.map fun row => row.toRankingRow)[0]? = some rows[0].toRankingRow := by
      rw [List.getElem?_map, List.getElem?_eq_getElem (Nat.zero_lt_of_lt hlt)]
      rfl
    have hrank : rows[index].rank = index + 1 := rank_getElem hranks hlt
    have hsome : standing (rows.map fun row => row.toRankingRow) tokenId (previousRanks current earlier) = some {
        rank := rows[index].rank
        score := rows[index].score
        moves := (previousRanks current earlier).isSome
        prev := Moves.prev (previousRanks current earlier) tokenId
        entrants := (rows.map fun row => row.toRankingRow).length
        leader := rows[0].score
        above := if index = 0 then none else (rows.map fun row => row.toRankingRow)[index - 1]?
        nearby := ((rows.map fun row => row.toRankingRow).drop (index - NEARBY_SPAN)).take
          (index + NEARBY_SPAN + 1 - (index - NEARBY_SPAN)) } := by
      simp only [standing, hfind, Option.bind_eq_bind, Option.bind_some, hrow, hfirst, Option.pure_def]
    rw [hsome]
    refine ⟨⟨fun hnone => absurd hnone (Option.some_ne_none _),
      fun hno => absurd htoken (hno _ (List.getElem_mem hlt))⟩, fun s hs => ?_⟩
    obtain rfl := Option.some.inj hs
    refine ⟨⟨rows[index], List.getElem_mem hlt, htoken, rfl, rfl, ?_⟩, rfl, List.length_map _, ?_, ?_, ?_⟩
    · rw [← htoken]
      exact hprev _ (List.getElem_mem hlt)
    · rw [List.head?_eq_getElem?, List.getElem?_eq_getElem (Nat.zero_lt_of_lt hlt)]
      rfl
    · dsimp only
      rw [hrank, find?_rank hranks]
      split
      · rfl
      · rw [List.getElem?_map]
    · dsimp only
      rw [hrank, nearby_ranks hranks, List.map_take, List.map_drop]

end Standing

/-- A guardian's place in the season: its row, and what the bonus and today added to it. -/
structure SeasonStandingOn (rows : List PlacedRow) (moves : Bool) (total : PointTotals) (s : SeasonStanding) : Prop where
  place : ∃ row ∈ rows, row.tokenId = total.tokenId ∧ s.rank = row.rank ∧ s.points = row.score ∧ s.prev = row.prev ∧
    row.extras = some ⟨s.days, s.streak⟩
  moves : s.moves = moves
  entrants : s.entrants = rows.length
  points : s.points = total.points + s.bonus
  today : s.today = total.today

section Season

variable {r : RankingReader} {season : SeasonWindows} {tokenId : Nat}

/-- A season row is that of its points. -/
theorem exists_total_of_row {row : SeasonRow} {toDay : Int} {totals : List PointTotals}
    (hrow : row ∈ rankSeasonRows (totals.map (currentRow toDay))) :
    ∃ total ∈ totals, row.tokenId = total.tokenId ∧ row.score = total.points + (seasonStreak total.days toDay).bonus ∧
      row.days = total.days.length ∧ row.streak = (seasonStreak total.days toDay).current := by
  have hperm := perm_map_rankSeasonRows (totals.map (currentRow toDay))
    (fun row => (row.tokenId, row.score, row.days, row.streak)) fun _ _ => rfl
  have hmem := hperm.subset (List.mem_map_of_mem hrow)
  obtain ⟨own, hown, heq⟩ := List.mem_map.mp hmem
  obtain ⟨total, htotal, rfl⟩ := List.mem_map.mp hown
  simp only [Prod.mk.injEq] at heq
  obtain ⟨htoken, hscore, hdays, hstreak⟩ := heq
  exact ⟨total, htotal, htoken.symm, hscore.symm, hdays.symm, hstreak.symm⟩

/-- The totals of a season are of its window. -/
theorem totals_seasonWindows (h : r.seasonWindows (kstDay r.now) = some season) :
    season.current = rankSeasonRows ((pointTotals r.ranked r.collection season.fromDay season.toDay).map
        (currentRow season.toDay)) ∧
      season.totals = (pointTotals r.ranked r.collection season.fromDay season.toDay).map fun row =>
        (row.tokenId, (seasonStreak row.days season.toDay).bonus, row.today) := by
  obtain ⟨⟨fromDay, toDay⟩, -, rfl⟩ := Option.map_eq_some_iff.mp h
  dsimp only
  exact ⟨rfl, rfl⟩

/-- **A season standing is the place on the season board.** -/
theorem racedStanding_spec (h : r.seasonWindows (kstDay r.now) = some season) (tokenId : Nat) :
    ∃ o, racedStanding (some season) tokenId = .ok o ∧
      (o = none ↔ ∀ row ∈ movedRows season.currentWindow season.earlierWindow, row.tokenId ≠ tokenId) ∧
      ∀ s, o = some s → ∃ total ∈ pointTotals r.ranked r.collection season.fromDay season.toDay,
        total.tokenId = tokenId ∧ SeasonStandingOn (movedRows season.currentWindow season.earlierWindow)
          (previousRanks season.currentWindow season.earlierWindow).isSome total s := by
  obtain ⟨hcurrent, htotals⟩ := totals_seasonWindows h
  cases hfind : season.current.find? fun row => row.tokenId = tokenId with
  | none =>
    refine ⟨none, by simp only [racedStanding, hfind], ⟨fun _ row hrow => ?_, fun _ => rfl⟩, fun s hs => by cases hs⟩
    obtain ⟨plain, hplain, rfl⟩ := List.mem_map.mp hrow
    obtain ⟨own, hown, rfl⟩ := List.mem_map.mp hplain
    show own.tokenId ≠ tokenId
    simpa using List.find?_eq_none.mp hfind own hown
  | some row =>
    have hrow := List.mem_of_find?_eq_some hfind
    have htoken : row.tokenId = tokenId := by simpa using List.find?_some hfind
    obtain ⟨total, htotal, hsame, hscore, -, -⟩ := exists_total_of_row (hcurrent ▸ hrow)
    have hentry : season.totals.reverse.find? (fun entry => entry.1 = row.tokenId) =
        some (total.tokenId, (seasonStreak total.days season.toDay).bonus, total.today) := by
      rw [htotals, hsame]
      exact (find?_entries (f := fun row : PointTotals =>
        (row.tokenId, (seasonStreak row.days season.toDay).bonus, row.today))
        (nodup_pointTotals _ _ _ _)).mpr ⟨⟨total, htotal, rfl⟩, rfl⟩
    have hraced : racedStanding (some season) tokenId = .ok (some {
        moves := (previousRanks season.currentWindow season.earlierWindow).isSome
        prev := Moves.prev (previousRanks season.currentWindow season.earlierWindow) row.tokenId
        points := row.score
        rank := row.rank
        entrants := season.current.length
        days := row.days
        streak := row.streak
        bonus := (seasonStreak total.days season.toDay).bonus
        today := total.today }) := by
      simp only [racedStanding, hfind, seasonStanding, hentry, Option.map_some]
    have hplaced : row.window.withMove (previousRanks season.currentWindow season.earlierWindow) ∈
        movedRows season.currentWindow season.earlierWindow :=
      List.mem_map_of_mem (List.mem_map_of_mem hrow)
    refine ⟨_, hraced, ⟨fun hnone => absurd hnone (Option.some_ne_none _), fun hno => absurd htoken (hno _ hplaced)⟩,
      fun s hs => ⟨total, htotal, hsame.symm.trans htoken, ?_⟩⟩
    obtain rfl := Option.some.inj hs
    refine ⟨⟨_, hplaced, hsame, rfl, rfl, rfl, rfl⟩, rfl, ?_, hscore, rfl⟩
    rw [movedRows, List.length_map]
    exact (List.length_map _).symm

end Season

section Standings

variable {r : RankingReader} {game : GameId} {tokenId : Nat} {boards : GameBoards} {g : GuardianStanding}

/-- The top rows of a game board are those with a top place. -/
theorem mem_take_iff {rows : List WindowRow} (h : WholeBoard (.game game) rows) {row : WindowRow} {count : Nat} :
    row ∈ rows.take count ↔ row ∈ rows ∧ row.rank ≤ count := by
  have hrank : ∀ (index : Nat) (hlt : index < rows.length), rows[index].rank = index + 1 :=
    fun index hlt => rank_getElem h.places hlt
  rw [List.mem_take_iff_getElem]
  constructor
  · rintro ⟨index, hlt, rfl⟩
    refine ⟨List.getElem_mem _, ?_⟩
    rw [hrank index (by omega)]
    omega
  · rintro ⟨hrow, hle⟩
    obtain ⟨index, hlt, rfl⟩ := List.mem_iff_getElem.mp hrow
    rw [hrank index hlt] at hle
    exact ⟨index, by omega, rfl⟩

/-- A place of a guardian on the board that is shown. -/
def PlacedAs (r : RankingReader) (game : GameId) (period : RankingPeriod) (tokenId : Nat)
    (o : Option RankingStanding) : Prop :=
  ∃ current earlier, r.windows (.game game) period = .ok (current, earlier) ∧
    (o = none ↔ ∀ row ∈ movedRows current earlier, row.tokenId ≠ tokenId) ∧
    ∀ s, o = some s → StandingOn (movedRows current earlier) (previousRanks current earlier).isSome tokenId s

theorem gameBoards_eq_ok : r.gameBoards game = .ok boards ↔ ∃ today yesterday week lastweek,
    r.window (.game game) .today 0 = .ok today ∧ r.window (.game game) .yesterday 0 = .ok yesterday ∧
      r.window (.game game) .week 0 = .ok week ∧ r.window (.game game) .lastweek 0 = .ok lastweek ∧
      boards = ⟨today.ranking, week.ranking, lastweek.ranking, previousRanks today yesterday,
        previousRanks week lastweek⟩ := by
  simp only [RankingReader.gameBoards, bind_eq_ok, pure_eq_ok]
  constructor
  · rintro ⟨today, htoday, yesterday, hyesterday, week, hweek, lastweek, hlastweek, rfl⟩
    exact ⟨today, yesterday, week, lastweek, htoday, hyesterday, hweek, hlastweek, rfl⟩
  · rintro ⟨today, yesterday, week, lastweek, htoday, hyesterday, hweek, hlastweek, rfl⟩
    exact ⟨today, htoday, yesterday, hyesterday, week, hweek, lastweek, hlastweek, rfl⟩

/-- The boards of a game are those that are shown. -/
theorem windows_of_gameBoards (h : r.gameBoards game = .ok boards) :
    ∃ today yesterday week lastweek, r.windows (.game game) .today = .ok (today, yesterday) ∧
      r.windows (.game game) .week = .ok (week, lastweek) ∧ r.window (.game game) .lastweek 0 = .ok lastweek ∧
      boards = ⟨today.ranking, week.ranking, lastweek.ranking, previousRanks today yesterday,
        previousRanks week lastweek⟩ := by
  obtain ⟨today, yesterday, week, lastweek, htoday, hyesterday, hweek, hlastweek, rfl⟩ := gameBoards_eq_ok.mp h
  have hgame : RankingBoardId.game game ≠ .season := by simp
  exact ⟨today, yesterday, week, lastweek,
    windows_eq_ok.mpr (.inl ⟨hgame, htoday, window_today_one.mpr hyesterday⟩),
    windows_eq_ok.mpr (.inl ⟨hgame, hweek, window_week_one.mpr hlastweek⟩), hlastweek, rfl⟩

/-- The points that a guardian has this week. -/
theorem weekPoints_eq (t : RankedTable) (collection : String) (monday : Int) (tokenId : Nat) :
    (((pointTotals t collection monday (addDays monday 6)).reverse.find? fun total => total.tokenId = tokenId).map
      fun total => total.points).getD 0 =
        boardPoints (seasonRows t.rows (toLowerCase collection) monday (addDays monday 6)) (toLowerCase collection)
          monday (addDays monday 6) tokenId := by
  have hnodup : ((pointTotals t collection monday (addDays monday 6)).reverse.map PointTotals.tokenId).Nodup := by
    rw [List.map_reverse, List.nodup_reverse]
    exact nodup_pointTotals t collection monday (addDays monday 6)
  cases hfind : (pointTotals t collection monday (addDays monday 6)).reverse.find? fun total =>
      total.tokenId = tokenId with
  | some total =>
    obtain ⟨htotal, rfl⟩ := (find?_key_eq_some hnodup).mp hfind
    exact (points_eq t.slotUnique (List.mem_reverse.mp htotal)).1
  | none =>
    -- a guardian without a total is on no board of the week
    refine (Finset.sum_eq_zero fun key _ => ?_).symm
    unfold pointsOn
    cases hrow : (seasonBoard (seasonRows t.rows (toLowerCase collection) monday (addDays monday 6))
        (toLowerCase collection) key.1 key.2).find? fun row => row.tokenId = tokenId with
    | none => rfl
    | some row =>
      have htotal := (exists_total_iff (addDays (addDays monday 6) (-1)) (addDays monday 6) t.slotUnique).mpr
        ⟨key.1, key.2, row, List.mem_of_find?_eq_some hrow, by simpa using List.find?_some hrow⟩
      obtain ⟨total, htotal, htoken⟩ := htotal
      exact absurd htoken (by simpa using List.find?_eq_none.mp hfind total (List.mem_reverse.mpr htotal))

/-- Where a guardian stands is what the boards say. -/
structure GuardianPlaced (r : RankingReader) (g : GuardianStanding) : Prop where
  games : ∀ game, PlacedAs r game .today g.tokenId (g.games game).today ∧
    PlacedAs r game .week g.tokenId (g.games game).week
  titles : ∀ game place, (game, place) ∈ g.titles ↔ ∃ lastweek, r.window (.game game) .lastweek 0 = .ok lastweek ∧
    ∃ row ∈ lastweek.rows.take BOARD_ROWS, row.tokenId = g.tokenId ∧ row.rank = place
  devotion : ∃ current earlier, r.windows .devotion .last28 = .ok (current, earlier) ∧
    (∀ rank, g.devotionRank = some rank ↔ ∃ row ∈ current.rows, row.tokenId = g.tokenId ∧ row.rank = rank) ∧
    g.devotionDays = (((devotionRows r.ranked.rows (toLowerCase r.collection) current.fromDay current.toDay).filter
      fun row => row.tokenId = g.tokenId).map RankedRow.day).toFinset.card
  season : match r.seasonWindows (kstDay r.now) with
    | none => g.season = none
    | some season =>
      (g.season = none ↔ ∀ row ∈ movedRows season.currentWindow season.earlierWindow, row.tokenId ≠ g.tokenId) ∧
      ∀ s, g.season = some s → ∃ total ∈ pointTotals r.ranked r.collection season.fromDay season.toDay,
        total.tokenId = g.tokenId ∧ SeasonStandingOn (movedRows season.currentWindow season.earlierWindow)
          (previousRanks season.currentWindow season.earlierWindow).isSome total s
  weekPoints : g.weekPoints = boardPoints (seasonRows r.ranked.rows (toLowerCase r.collection) (kstWeek (kstDay r.now))
    (addDays (kstWeek (kstDay r.now)) 6)) (toLowerCase r.collection) (kstWeek (kstDay r.now))
      (addDays (kstWeek (kstDay r.now)) 6) g.tokenId

/-- The days that a guardian is found with on devotion are those it was ranked on. -/
theorem devotionDays_eq {rows : List RankedRow} {collection : String} {fromDay toDay : Int} (tokenId : Nat) :
    (((devotionBoard rows collection fromDay toDay).find? fun row => row.tokenId = tokenId).map
      fun row => row.score).getD 0 = (((devotionRows rows collection fromDay toDay).filter
        fun row => row.tokenId = tokenId).map RankedRow.day).toFinset.card := by
  cases hfind : (devotionBoard rows collection fromDay toDay).find? fun row => row.tokenId = tokenId with
  | some row =>
    obtain ⟨hrow, rfl⟩ := (find?_key_eq_some nodup_devotionBoard).mp hfind
    exact devotionBoard_spec.scores row hrow
  | none =>
    have hempty : (devotionRows rows collection fromDay toDay).filter (fun row => row.tokenId = tokenId) = [] := by
      refine List.filter_eq_nil_iff.mpr fun ranked hranked htoken => ?_
      obtain ⟨row, hrow, hsame⟩ := (devotionBoard_spec.entrants tokenId).mpr
        ⟨ranked, hranked, by simpa using htoken⟩
      exact absurd hsame (by simpa using List.find?_eq_none.mp hfind row hrow)
    rw [hempty]
    rfl

/-- **A guardian stands where the boards place it.** -/
theorem guardianPlaced {all : GameId → GameBoards} {devotion : Window}
    (hall : ∀ game, r.gameBoards game = .ok (all game)) (hdevotion : r.window .devotion .last28 0 = .ok devotion)
    (h : r.guardianStanding all devotion.ranking (r.seasonWindows (kstDay r.now)) tokenId = .ok g) :
    g.tokenId = tokenId ∧ GuardianPlaced r g := by
  obtain ⟨raced, hraced, hg⟩ := bind_eq_ok.mp h
  obtain rfl := (pure_eq_ok.mp hg).symm
  have hpoints := weekPoints_eq r.ranked r.collection (kstWeek (kstDay r.now)) tokenId
  refine ⟨rfl, ⟨fun game => ?_, fun game place => ?_, ?_, ?_, ?_⟩⟩
  · obtain ⟨today, yesterday, week, lastweek, htoday, hweek, -, hboards⟩ := windows_of_gameBoards (hall game)
    dsimp only
    rw [hboards]
    have hwhole := (whole_windows htoday).1
    have hwhole' := (whole_windows hweek).1
    exact ⟨⟨today, yesterday, htoday, standing_spec hwhole tokenId⟩, ⟨week, lastweek, hweek, standing_spec hwhole' tokenId⟩⟩
  · obtain ⟨_, _, _, lastweek, -, -, hlastweek, hboards⟩ := windows_of_gameBoards (hall game)
    have hwhole := whole_window hlastweek
    have hmem : game ∈ RANKED_GAMES := by cases game <;> decide
    have hnodup : (lastweek.ranking.map RankingRow.tokenId).Nodup := by
      rw [Window.ranking, List.map_map]
      exact hwhole.nodup
    dsimp only
    simp only [List.mem_filterMap, Option.bind_eq_some_iff]
    constructor
    · rintro ⟨game', hgame', row, hfind, hplace⟩
      have hle : row.rank ≤ BOARD_ROWS := by
        by_contra hgt
        rw [if_neg hgt] at hplace
        cases hplace
      rw [if_pos hle] at hplace
      obtain ⟨rfl, rfl⟩ := Prod.mk.inj (Option.some.inj hplace)
      rw [hboards] at hfind
      obtain ⟨hrow, htoken⟩ := (find?_key_eq_some hnodup).mp hfind
      obtain ⟨plain, hplain, rfl⟩ := List.mem_map.mp hrow
      exact ⟨lastweek, hlastweek, plain, (mem_take_iff hwhole).mpr ⟨hplain, hle⟩, htoken, rfl⟩
    · rintro ⟨shown, hshown, row, hrow, htoken, rfl⟩
      rw [hlastweek] at hshown
      obtain rfl := Except.ok.inj hshown
      obtain ⟨hrow, hle⟩ := (mem_take_iff hwhole).mp hrow
      refine ⟨game, hmem, row.toRankingRow, ?_, if_pos hle⟩
      rw [hboards]
      exact (find?_key_eq_some hnodup).mpr ⟨List.mem_map_of_mem hrow, htoken⟩
  · have hwindows : r.windows .devotion .last28 = .ok (devotion, _) :=
      windows_eq_ok.mpr (.inl ⟨by simp, hdevotion, window_devotion⟩)
    rw [window_devotion] at hdevotion
    obtain rfl := Except.ok.inj hdevotion
    refine ⟨_, _, hwindows, fun rank => ?_, ?_⟩
    · dsimp only
      rw [Window.ranking, ranking_plain, Option.map_eq_some_iff]
      constructor
      · rintro ⟨row, hfind, rfl⟩
        obtain ⟨hrow, htoken⟩ := (find?_key_eq_some nodup_devotionBoard).mp hfind
        exact ⟨row.plain, List.mem_map_of_mem hrow, htoken, rfl⟩
      · rintro ⟨plain, hplain, htoken, rfl⟩
        obtain ⟨row, hrow, rfl⟩ := List.mem_map.mp hplain
        exact ⟨row, (find?_key_eq_some nodup_devotionBoard).mpr ⟨hrow, htoken⟩, rfl⟩
    · dsimp only
      rw [Window.ranking, ranking_plain]
      exact devotionDays_eq tokenId
  · cases hseason : r.seasonWindows (kstDay r.now) with
    | none =>
      rw [hseason] at hraced
      exact (Except.ok.inj hraced).symm
    | some season =>
      rw [hseason] at hraced
      obtain ⟨o, ho, hnone, hsome⟩ := racedStanding_spec hseason tokenId
      rw [hraced] at ho
      obtain rfl := Except.ok.inj ho
      exact ⟨hnone, hsome⟩
  · dsimp only
    rw [hpoints]

theorem standings_eq_ok {tokenIds : List Nat} {s : RankingStandings} : r.standings tokenIds = .ok s ↔
    ∃ (boards : GameId → GameBoards) (devotion : Window) (guardians : List GuardianStanding),
      (∀ game, r.gameBoards game = .ok (boards game)) ∧ r.window .devotion .last28 0 = .ok devotion ∧
      List.Forall₂ (fun tokenId g =>
        r.guardianStanding boards devotion.ranking (r.seasonWindows (kstDay r.now)) tokenId = .ok g) tokenIds guardians ∧
      s = {
        day := kstDay r.now
        week := kstWeek (kstDay r.now)
        closesDay := nextReset r.now .day
        closesWeek := nextReset r.now .week
        leaders := fun game => ((boards game).today[0]?).map fun row => row.score
        guardians } := by
  simp only [RankingReader.standings, bind_eq_ok, mapM_eq_ok, pure_eq_ok]
  constructor
  · rintro ⟨stamp, hstamp, race, hrace, shop, hshop, devotion, hdevotion, guardians, hguardians, rfl⟩
    refine ⟨RankingReader.boardsOf stamp race shop, devotion, guardians, fun game => ?_, hdevotion, hguardians, rfl⟩
    cases game with
    | stamp => exact hstamp
    | race => exact hrace
    | shop => exact hshop
  · rintro ⟨boards, devotion, guardians, hboards, hdevotion, hguardians, rfl⟩
    have hof : RankingReader.boardsOf (boards .stamp) (boards .race) (boards .shop) = boards := by
      funext game
      cases game <;> rfl
    refine ⟨_, hboards .stamp, _, hboards .race, _, hboards .shop, devotion, hdevotion, guardians, ?_, ?_⟩
    · rw [hof]
      exact hguardians
    · rw [hof]

theorem exists_racedStanding (r : RankingReader) (tokenId : Nat) :
    ∃ raced, racedStanding (r.seasonWindows (kstDay r.now)) tokenId = .ok raced := by
  cases hseason : r.seasonWindows (kstDay r.now) with
  | none => exact ⟨none, rfl⟩
  | some season => exact ⟨_, (racedStanding_spec hseason tokenId).choose_spec.1⟩

/-- The board that a card is on. -/
def RankingReader.cardBoard (r : RankingReader) (game : GameId) (day : Int) : List RankingRow :=
  dayBoard r.ranked.rows (toLowerCase r.collection) r.version game day

/-- A card is a row of the board of its day, which may be a year back. -/
structure CardsOf (r : RankingReader) (game : GameId) (day : Int) (tokenId : Nat) : Prop where
  refused : r.card game day tokenId = .error .invalidRequest ↔ kstDay r.now < day ∨ day + CARD_DAYS_BACK < kstDay r.now
  missing : r.card game day tokenId = .error .notFound ↔ (day ≤ kstDay r.now ∧ kstDay r.now ≤ day + CARD_DAYS_BACK) ∧
    ∀ row ∈ r.cardBoard game day, row.tokenId ≠ tokenId
  found : (day ≤ kstDay r.now ∧ kstDay r.now ≤ day + CARD_DAYS_BACK) →
    (∃ row ∈ r.cardBoard game day, row.tokenId = tokenId) → ∃ card, r.card game day tokenId = .ok card
  card : ∀ card, r.card game day tokenId = .ok card →
    (∃ row ∈ r.cardBoard game day, row.tokenId = tokenId ∧ card.seed = row.seed ∧ card.score = row.score ∧
      card.rank = row.rank) ∧
    card.entrants = (r.cardBoard game day).length ∧
    (r.cardBoard game day).head?.map RankingRow.score = some card.leader ∧ (card.final = true ↔ day < kstDay r.now)

section Card

variable {day : Int}

theorem window_card (hday : day ≤ kstDay r.now ∧ kstDay r.now ≤ day + CARD_DAYS_BACK) :
    ∃ w, r.window (.game game) .today (kstDay r.now - day).toNat = .ok w ∧
      w.rows = (r.cardBoard game day).map RankingRow.plain := by
  have hback : r.gameDay .today (kstDay r.now - day).toNat = day := by
    simp only [RankingReader.gameDay, addDays, if_true]
    omega
  have hwindow := @window_day r .today (kstDay r.now - day).toNat game (.inl rfl)
  rw [hback] at hwindow
  exact ⟨_, hwindow, rfl⟩

theorem card_missing (hday : day ≤ kstDay r.now ∧ kstDay r.now ≤ day + CARD_DAYS_BACK)
    (hfind : (r.cardBoard game day).find? (fun row => row.tokenId = tokenId) = none) :
    r.card game day tokenId = .error .notFound := by
  obtain ⟨w, hwindow, hrows⟩ := @window_card r game day hday
  have hnone : w.rows.find? (fun row => row.tokenId = tokenId) = none := by
    rw [hrows, List.find?_map]
    exact congrArg (Option.map RankingRow.plain) hfind
  unfold RankingReader.card
  dsimp only
  rw [if_neg (by omega), hwindow]
  dsimp only [bind, Except.bind]
  rw [hnone]

theorem card_found (hday : day ≤ kstDay r.now ∧ kstDay r.now ≤ day + CARD_DAYS_BACK) {row first : RankingRow}
    (hfind : (r.cardBoard game day).find? (fun row => row.tokenId = tokenId) = some row)
    (hfirst : (r.cardBoard game day)[0]? = some first) {raced : Option SeasonStanding}
    (hraced : racedStanding (r.seasonWindows (kstDay r.now)) tokenId = .ok raced) :
    r.card game day tokenId = .ok {
      game, day, tokenId
      seed := row.seed
      score := row.score
      rank := row.rank
      entrants := (r.cardBoard game day).length
      leader := first.score
      final := decide (kstDay r.now - day > 0)
      season := raced } := by
  obtain ⟨w, hwindow, hrows⟩ := @window_card r game day hday
  have hplain : w.rows.find? (fun row => row.tokenId = tokenId) = some row.plain := by
    rw [hrows, List.find?_map]
    exact congrArg (Option.map RankingRow.plain) hfind
  have hhead : w.rows[0]? = some first.plain := by
    rw [hrows, List.getElem?_map, hfirst]
    rfl
  have hlength : w.rows.length = (r.cardBoard game day).length := by
    rw [hrows, List.length_map]
  unfold RankingReader.card
  dsimp only
  rw [if_neg (by omega), hwindow]
  dsimp only [bind, Except.bind]
  rw [hplain, hhead, hlength]
  dsimp only
  rw [hraced]
  rfl

theorem cardsOf (r : RankingReader) (game : GameId) (day : Int) (tokenId : Nat) : CardsOf r game day tokenId := by
  by_cases hin : day ≤ kstDay r.now ∧ kstDay r.now ≤ day + CARD_DAYS_BACK
  · obtain ⟨raced, hraced⟩ := exists_racedStanding r tokenId
    have hnodup : ((r.cardBoard game day).map RankingRow.tokenId).Nodup := (dayBoard_leaderboard r.ranked.slotUnique).nodup
    cases hfind : (r.cardBoard game day).find? fun row => row.tokenId = tokenId with
    | none =>
      have hcard := card_missing hin hfind
      have hall : ∀ row ∈ r.cardBoard game day, row.tokenId ≠ tokenId := by simpa using hfind
      refine ⟨?_, ?_, fun _ hrow => ?_, fun card hok => ?_⟩
      · simp only [hcard, Except.error.injEq, reduceCtorEq, false_iff]
        omega
      · exact ⟨fun _ => ⟨hin, hall⟩, fun _ => hcard⟩
      · obtain ⟨row, hrow, htoken⟩ := hrow
        exact absurd htoken (hall row hrow)
      · cases hcard.symm.trans hok
    | some row =>
      obtain ⟨hrow, htoken⟩ := (find?_key_eq_some hnodup).mp hfind
      obtain ⟨first, hfirst⟩ : ∃ first, (r.cardBoard game day)[0]? = some first :=
        ⟨_, List.getElem?_eq_getElem (List.length_pos_of_mem hrow)⟩
      have hok := card_found hin hfind hfirst hraced
      refine ⟨?_, ?_, fun _ _ => ⟨_, hok⟩, fun card hcard' => ?_⟩
      · simp only [hok, reduceCtorEq, false_iff]
        omega
      · simp only [hok, reduceCtorEq, false_iff]
        rintro ⟨-, hall⟩
        exact hall row hrow htoken
      · obtain rfl := Except.ok.inj (hok.symm.trans hcard')
        refine ⟨⟨row, hrow, htoken, rfl, rfl, rfl⟩, rfl, ?_, ?_⟩
        · rw [List.head?_eq_getElem?, hfirst]
          rfl
        · rw [decide_eq_true_eq]
          omega
  · have hcard : r.card game day tokenId = .error .invalidRequest := by
      unfold RankingReader.card
      exact if_pos (by omega)
    refine ⟨⟨fun _ => by omega, fun _ => hcard⟩, ?_, fun hday _ => absurd hday hin, fun card hok => ?_⟩
    · simp only [hcard, Except.error.injEq, reduceCtorEq, false_iff]
      exact fun ⟨hday, _⟩ => hin hday
    · cases hcard.symm.trans hok

end Card

/-- **Standings agree with the boards.** For every store, every season, every instant and all the guardians that are
asked for:

* the answer is about these guardians, and there is one from the third ranking week on
* a guardian stands on the day and week boards where they place it, with the rank it had a window earlier, the row above
  and those around; it has the titles of the last week's top rows
* its devotion, its season standing and its points of the week are those of the boards
* the leaders are those of today's boards
* there is a share card for each row of the board of a day, at most a year back, and it is that row
-/
theorem standings_held (r : RankingReader) (tokenIds : List Nat) :
    (WEEK_ZERO + 14 ≤ kstWeek (kstDay r.now) → ∃ s, r.standings tokenIds = .ok s) ∧
    (∀ s, r.standings tokenIds = .ok s →
      s.guardians.map GuardianStanding.tokenId = tokenIds ∧ (∀ g ∈ s.guardians, GuardianPlaced r g) ∧
        ∀ game, ∃ top, r.board (.game game) .today = .ok top ∧
          s.leaders game = top.rows.head?.map fun row => row.score) ∧
    ∀ game day tokenId, CardsOf r game day tokenId := by
  refine ⟨?_, ?_, fun game day tokenId => cardsOf r game day tokenId⟩
  · intro hclock
    have hboards : ∀ game, ∃ boards, r.gameBoards game = .ok boards := by
      intro game
      obtain ⟨today, yesterday, htoday⟩ := @exists_windows r (.game game) .today
        (by simp [RankingBoardId.Answers, GAME_PERIODS]) (by simp) hclock
      obtain ⟨week, lastweek, hweek⟩ := @exists_windows r (.game game) .week
        (by simp [RankingBoardId.Answers, GAME_PERIODS]) (by simp) hclock
      obtain ⟨-, htoday, hyesterday⟩ | ⟨hseason, -⟩ := windows_eq_ok.mp htoday
      · obtain ⟨-, hweek, hlastweek⟩ | ⟨hseason, -⟩ := windows_eq_ok.mp hweek
        · exact ⟨_, gameBoards_eq_ok.mpr ⟨today, yesterday, week, lastweek, htoday, window_today_one.mp hyesterday, hweek,
            window_week_one.mp hlastweek, rfl⟩⟩
        · cases hseason
      · cases hseason
    choose boards hboards using hboards
    have hguardian : ∀ devotion tokenId, ∃ g,
        r.guardianStanding boards devotion (r.seasonWindows (kstDay r.now)) tokenId = .ok g := by
      intro devotion tokenId
      obtain ⟨raced, hraced⟩ := exists_racedStanding r tokenId
      exact ⟨_, bind_eq_ok.mpr ⟨raced, hraced, rfl⟩⟩
    choose guardian hguardian using hguardian
    exact ⟨_, standings_eq_ok.mpr ⟨boards, _, tokenIds.map (guardian _), hboards, window_devotion,
      List.forall₂_map_right_iff.mpr (List.forall₂_same.mpr fun tokenId _ => hguardian _ tokenId), rfl⟩⟩
  · intro s hs
    obtain ⟨boards, devotion, guardians, hboards, hdevotion, hguardians, rfl⟩ := standings_eq_ok.mp hs
    clear hs
    have hall : guardians.map GuardianStanding.tokenId = tokenIds ∧ ∀ g ∈ guardians, GuardianPlaced r g := by
      induction hguardians with
      | nil => exact ⟨rfl, fun g hg => absurd hg List.not_mem_nil⟩
      | cons hg _ ih =>
        obtain ⟨htoken, hplaced⟩ := guardianPlaced hboards hdevotion hg
        exact ⟨by rw [List.map_cons, ih.1, htoken], List.forall_mem_cons.mpr ⟨hplaced, ih.2⟩⟩
    refine ⟨hall.1, hall.2, fun game => ?_⟩
    obtain ⟨today, yesterday, _, _, htoday, -, -, hgame⟩ := windows_of_gameBoards (hboards game)
    refine ⟨_, board_eq htoday, ?_⟩
    dsimp only
    rw [hgame]
    dsimp only
    rw [ranking_movedRows today yesterday, List.head?_take, if_neg (by decide), List.getElem?_map,
      List.head?_eq_getElem?, Option.map_map]
    rfl

end Standings

end Mapae.Ranking
