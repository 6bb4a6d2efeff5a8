import Mapae.Properties.SealedWeeks
import Mapae.Ranking.Hall

/-!
# A season's hall is sealed once

The seller keeps the hall of each season in a table. It seals one at the first read past the cutoff of the
season's last week, once it has found the close block on the chain. Reads run at the same time: each may await
the chain while rows settle, the clock goes on and other reads seal. After a restart the season may be another one.

* `HallState.respond` answers a read, up to the await and after it
* `HallInv` holds in every reachable state: each hall is the one of the rows there are now
* `season_halls_held`: at most one hall for a season, and none of the clock that sealed it but `sealedAt`
-/

namespace Mapae.Ranking

open Mapae.Infra Mapae.Store

/-! ## The seller's halls -/

/-- What a seller is configured with, and the chain that it reads. -/
structure HallSetting where
  kit : HallKit
  collection : String
  chain : Chain

structure HallState where
  ranking : RankingState
  season : Season
  /-- Whether there is a reader of close blocks. -/
  closeBlock : Bool
  halls : Table SealedHall.season
  /-- The reads that await the close block, each with the cutoff that it answers with if it is not found. -/
  pending : Nat → Option Int
  next : Nat

inductive HallReply where
  /-- Not a read. -/
  | quiet
  | hall (hall : SeasonHall)
  | invalidRequest
  | notFound
  | threw (error : HallError)
  | awaits (read : Nat)

inductive HallEvent where
  /-- A round settles, the clock goes on or the ruleset is raised. -/
  | ranking (event : RankingEvent)
  | restart (season : Season) (closeBlock : Bool)
  | read (period : String)
  /-- The close block could not be read. -/
  | failed (read : Nat)
  /-- The close block was found. The hall is sealed at the first instant, its teams are read at the second. -/
  | found (read : Nat) (growth : Growth) (sealedAt teamsAt : Int)

/-- `Number(HALL_PERIOD.exec(period)?.[1])`. -/
def hallPeriod (period : String) : Option Nat :=
  match period.toList with
  | 's' :: digits =>
    if isPositiveText (String.ofList digits) then some (Binary64.ofInt (decimalValue digits)).toNat else none
  | _ => none

/-- The period of a season. -/
def seasonPeriod (season : Season) : String := "s" ++ decimalText season.id

/-- **A season is read by its period.** -/
theorem hallPeriod_seasonPeriod {season : Season} (hid : season.id ≠ 0) (hsmall : season.id ≤ 2 ^ 53) :
    hallPeriod (seasonPeriod season) = some season.id := by
  have htext : (seasonPeriod season).toList = 's' :: decimalDigits season.id := by
    simp [seasonPeriod, decimalText]
  have hint : Binary64.ofInt (season.id : Int) = season.id := by
    refine Binary64.ofInt_eq ?_
    rw [abs_of_nonneg (Int.natCast_nonneg _)]
    exact_mod_cast hsmall
  rw [hallPeriod, htext]
  show (if isPositiveText (decimalText season.id) then
    some (Binary64.ofInt (decimalValue (decimalDigits season.id))).toNat else none) = _
  rw [isPositiveText_decimalText hid, if_pos rfl, decimalValue_decimalDigits, hint, Int.toNat_natCast]

/-- The instant that a season ends, as long as a `Date` can hold it. -/
def closeInstant (season : Season) : Option Calendar.Instant :=
  (seasonEndsAt season).bind fun ms => if h : ms.natAbs ≤ Calendar.maxTime then some ⟨ms, h⟩ else none

namespace HallState

/-- `hall`, up to the await. -/
def read (s : HallState) (period : String) : HallState × HallReply :=
  match hallPeriod period with
  | none => (s, .invalidRequest)
  | some id =>
    match s.halls.get? id with
    | some held => (s, .hall (.sealed held))
    | none =>
      if id ≠ s.season.id then (s, .notFound)
      else
        match hallSealsAt s.season with
        | .error e => (s, .threw (.ranking e))
        | .ok none => (s, .invalidRequest)
        | .ok (some sealsAt) =>
          if seasonPhase s.season (kstDay s.ranking.clock) ≠ .closed then (s, .invalidRequest)
          else if s.ranking.clock < sealsAt ∨ s.closeBlock = false then (s, .hall (.unsealed id sealsAt))
          else
            ({ s with pending := Function.update s.pending s.next (some sealsAt), next := s.next + 1 },
              .awaits s.next)

/-- The read no longer waits, and the clock has gone on. -/
def resume (s : HallState) (read : Nat) (clock : Int) : HallState :=
  { s with pending := Function.update s.pending read none, ranking := { s.ranking with clock := clock } }

/-- `seal`, in one transaction: the hall on record, or the one that is built. -/
def «seal» (setting : HallSetting) (s : HallState) (block : CloseBlock) (sealedAt teamsAt : Int) :
    HallState × HallReply :=
  match s.halls.get? s.season.id with
  | some held => (s, .hall (.sealed held))
  | none =>
    match buildHall setting.kit s.ranking.version s.season s.ranking.table setting.collection block sealedAt teamsAt with
    | .error e => (s, .threw e)
    | .ok hall =>
      match s.halls.insert? hall with
      | none => (s, .threw .constraint)
      | some halls => ({ s with halls := halls }, .hall (.sealed hall))

/-- What an event does and what is answered, if it can happen. -/
def respond (setting : HallSetting) (s : HallState) : HallEvent → Option (HallState × HallReply)
  | .ranking event => (s.ranking.act event).map fun ranking => ({ s with ranking := ranking }, .quiet)
  | .restart season closeBlock =>
    some ({ s with season := season, closeBlock := closeBlock, pending := fun _ => none }, .quiet)
  | .read period => some (s.read period)
  | .failed read =>
    (s.pending read).map fun sealsAt =>
      (s.resume read s.ranking.clock, .hall (.unsealed s.season.id sealsAt))
  | .found read growth sealedAt teamsAt =>
    (s.pending read).bind fun _ => (closeInstant s.season).bind fun at_ =>
      match (findCloseBlock (setting.chain.reader growth) at_).result with
      | .error _ => none
      | .ok block =>
        if s.ranking.clock ≤ sealedAt ∧ sealedAt ≤ teamsAt then
          some ((s.resume read teamsAt).seal setting block sealedAt teamsAt)
        else none

def act (setting : HallSetting) (s : HallState) (event : HallEvent) : Option HallState :=
  (s.respond setting event).map Prod.fst

/-- A seller with no halls and no rows. -/
def fresh (version : Nat) (clock : Int) (season : Season) (closeBlock : Bool) : HallState :=
  ⟨.fresh version clock, season, closeBlock, .empty, fun _ => none, 0⟩

end HallState

def hallSystem (setting : HallSetting) : System HallState :=
  .ofAct (fun s => ∃ version clock season closeBlock, s = .fresh version clock season closeBlock)
    (HallState.act setting)

/-! ## Steps -/

section Steps

variable {setting : HallSetting} {s s' : HallState}

/-- The others still wait. -/
theorem pending_of_resume {read other : Nat} {clock sealsAt : Int}
    (h : (s.resume read clock).pending other = some sealsAt) : s.pending other = some sealsAt := by
  have hpending : Function.update s.pending read none other = some sealsAt := h
  by_cases heq : other = read
  · rw [heq, Function.update_self] at hpending
    cases hpending
  · rwa [Function.update_of_ne heq] at hpending

/-- What a step can do: it leaves the halls alone, or seals the one of the season. -/
theorem hall_step_cases (h : (hallSystem setting).step s s') :
    (∃ event, s.ranking.act event = some s'.ranking ∧ s'.season = s.season ∧ s'.halls = s.halls ∧
      s'.pending = s.pending) ∨
    (s'.ranking = s.ranking ∧ s'.halls = s.halls ∧ ∀ read, s'.pending read = none) ∨
    (s'.ranking = s.ranking ∧ s'.season = s.season ∧ s'.halls = s.halls ∧
      ∀ read sealsAt, s'.pending read = some sealsAt → s.pending read = some sealsAt ∨
        (hallSealsAt s.season = .ok (some sealsAt) ∧ sealsAt ≤ s.ranking.clock)) ∨
    (∃ read sealsAt growth at_ block sealedAt teamsAt, s.pending read = some sealsAt ∧
      closeInstant s.season = some at_ ∧
      (findCloseBlock (setting.chain.reader growth) at_).result = .ok block ∧
      s.ranking.clock ≤ sealedAt ∧ sealedAt ≤ teamsAt ∧
      s' = ((s.resume read teamsAt).seal setting block sealedAt teamsAt).1) := by
  obtain ⟨event, hevent⟩ := h
  obtain ⟨⟨next, reply⟩, h, rfl⟩ := Option.map_eq_some_iff.mp hevent
  clear hevent
  cases event with
  | ranking event =>
    obtain ⟨ranking, hact, h⟩ := Option.map_eq_some_iff.mp h
    cases h
    exact .inl ⟨event, hact, rfl, rfl, rfl⟩
  | restart season closeBlock =>
    cases h
    exact .inr (.inl ⟨rfl, rfl, fun _ => rfl⟩)
  | read period =>
    refine .inr (.inr (.inl ?_))
    obtain rfl : (s.read period).1 = next := congrArg Prod.fst (Option.some.inj h)
    unfold HallState.read
    repeat' split
    all_goals try exact ⟨rfl, rfl, rfl, fun _ _ hpending => .inl hpending⟩
    next sealsAt hseals _ hready =>
      refine ⟨rfl, rfl, rfl, fun read sealsAt' hpending => ?_⟩
      dsimp only at hpending
      by_cases hread : read = s.next
      · subst hread
        rw [Function.update_self] at hpending
        cases hpending
        exact .inr ⟨hseals, not_lt.mp fun hlt => hready (.inl hlt)⟩
      · rw [Function.update_of_ne hread] at hpending
        exact .inl hpending
  | failed read =>
    obtain ⟨sealsAt, hpending, h⟩ := Option.map_eq_some_iff.mp h
    cases h
    exact .inr (.inr (.inl ⟨rfl, rfl, rfl, fun other sealsAt' hother => .inl (pending_of_resume hother)⟩))
  | found read growth sealedAt teamsAt =>
    obtain ⟨sealsAt, hpending, h⟩ := Option.bind_eq_some_iff.mp h
    obtain ⟨at_, hat, h⟩ := Option.bind_eq_some_iff.mp h
    split at h
    · cases h
    · next block hblock =>
      split at h
      · next hclock =>
        have hnext := congrArg Prod.fst (Option.some.inj h)
        exact .inr (.inr (.inr ⟨read, sealsAt, growth, at_, block, sealedAt, teamsAt, hpending, hat, hblock,
          hclock.1, hclock.2, hnext.symm⟩))
      · cases h

/-- What sealing does: nothing but to a season without a hall, and then the hall that was built is added. -/
theorem seal_cases (setting : HallSetting) (s : HallState) (block : CloseBlock) (sealedAt teamsAt : Int) :
    (s.seal setting block sealedAt teamsAt).1 = s ∨
    ∃ hall halls, buildHall setting.kit s.ranking.version s.season s.ranking.table setting.collection block
        sealedAt teamsAt = .ok hall ∧ s.halls.insert? hall = some halls ∧
      (s.seal setting block sealedAt teamsAt) = ({ s with halls := halls }, .hall (.sealed hall)) := by
  unfold HallState.seal
  split
  · exact .inl rfl
  · split
    · exact .inl rfl
    · next hall hbuild =>
      split
      · exact .inl rfl
      · next halls hinsert => exact .inr ⟨hall, halls, hbuild, hinsert, rfl⟩

/-- **The rows live on**: a step of the seller is one of the rankings, or none. -/
theorem ranking_steps (h : (hallSystem setting).step s s') : rankingSystem.Steps s.ranking s'.ranking := by
  obtain ⟨event, hact, -⟩ | ⟨hranking, -⟩ | ⟨hranking, -⟩ |
    ⟨read, _, _, _, block, sealedAt, teamsAt, _, _, _, hsealed, hteams, rfl⟩ := hall_step_cases h
  · exact .single ⟨event, hact⟩
  · rw [hranking]
  · rw [hranking]
  · have hranking : ((s.resume read teamsAt).seal setting block sealedAt teamsAt).1.ranking =
        (s.resume read teamsAt).ranking := by
      rcases seal_cases setting (s.resume read teamsAt) block sealedAt teamsAt with heq | ⟨_, _, _, _, heq⟩ <;> rw [heq]
    rw [hranking]
    refine .single ⟨.tick teamsAt, ?_⟩
    exact if_pos (hsealed.trans hteams)

theorem ranking_reachable (h : (hallSystem setting).Reachable s) : rankingSystem.Reachable s.ranking := by
  induction h with
  | init h =>
    obtain ⟨version, clock, _, _, rfl⟩ := h
    exact .init ⟨version, clock, rfl⟩
  | step _ hstep ih => exact ih.steps (ranking_steps hstep)

end Steps

/-! ## What a hall keeps -/

/-- A hall was sealed past the cutoff of the last week, with the close block of the chain, and is the hall of
the rows there are now. -/
structure HallKept (setting : HallSetting) (s : HallState) (hall : SealedHall) : Prop where
  cutoff : ∃ cutoff, weekCutoff (kstWeek hall.end) = .ok cutoff ∧ cutoff ≤ hall.sealedAt
  past : hall.sealedAt ≤ s.ranking.clock
  closeBlock : ∃ (at_ : Calendar.Instant) (growth : Growth), at_.ms = dayStart (addDays hall.end 1) - KST_OFFSET ∧
    (findCloseBlock (setting.chain.reader growth) at_).result = .ok hall.closeBlock
  rows : hall = hallOf setting.kit s.ranking.table.rows (toLowerCase setting.collection) hall.season hall.start hall.end
    hall.sealedAt hall.closeBlock

structure HallInv (setting : HallSetting) (s : HallState) : Prop where
  halls : ∀ hall ∈ s.halls.rows, HallKept setting s hall
  pending : ∀ read sealsAt, s.pending read = some sealsAt →
    hallSealsAt s.season = .ok (some sealsAt) ∧ sealsAt ≤ s.ranking.clock

section Kept

variable {setting : HallSetting} {s s' : HallState} {hall hall' : SealedHall}

/-- What settles later is too late for the hall. -/
theorem HallKept.later (h : HallKept setting s hall) (hlater : s.ranking.Later s'.ranking) :
    HallKept setting s' hall := by
  obtain ⟨cutoff, hcutoff, hsealed⟩ := h.cutoff
  obtain ⟨later, hrows, hcreated⟩ := hlater.rows
  refine ⟨h.cutoff, h.past.trans hlater.clock, h.closeBlock, ?_⟩
  have hsame : hallRows s'.ranking.table.rows (toLowerCase setting.collection) hall.start hall.end =
      hallRows s.ranking.table.rows (toLowerCase setting.collection) hall.start hall.end := by
    rw [hrows]
    exact hallRows_append hcutoff fun r hr => (hsealed.trans h.past).trans (hcreated r hr)
  rw [hallOf_congr setting.kit hall.season hall.sealedAt hall.closeBlock s'.ranking.table.slotUnique
    (.of_eq hsame)]
  exact h.rows

theorem closeInstant_eq_some {season : Season} {at_ : Calendar.Instant} {last : Int} (hend : season.end = some last)
    (h : closeInstant season = some at_) : at_.ms = dayStart (addDays last 1) - KST_OFFSET := by
  obtain ⟨ms, hms, h⟩ := Option.bind_eq_some_iff.mp h
  rw [seasonEndsAt, hend] at hms
  split at h
  · cases h
    exact (Option.some.inj hms).symm
  · cases h

/-- A closed season's seal is the cutoff of its last week. -/
theorem hallSealsAt_eq_some {season : Season} {sealsAt : Int} (h : hallSealsAt season = .ok (some sealsAt)) :
    ∃ last, season.end = some last ∧ weekCutoff (kstWeek last) = .ok sealsAt := by
  unfold hallSealsAt at h
  split at h
  · cases h
  · next last hend =>
    cases hcutoff : weekCutoff (kstWeek last) with
    | error e =>
      rw [hcutoff] at h
      cases h
    | ok cutoff =>
      rw [hcutoff] at h
      cases h
      exact ⟨last, hend, hcutoff⟩

/-- **The hall that is sealed** is the one of the rows. -/
theorem kept_of_build {block : CloseBlock} {growth : Growth} {at_ : Calendar.Instant} {sealsAt sealedAt teamsAt : Int}
    (hseals : hallSealsAt s.season = .ok (some sealsAt)) (hsealed : sealsAt ≤ sealedAt) (hteams : sealedAt ≤ teamsAt)
    (hclock : s.ranking.clock = teamsAt) (hat : closeInstant s.season = some at_)
    (hblock : (findCloseBlock (setting.chain.reader growth) at_).result = .ok block)
    (h : buildHall setting.kit s.ranking.version s.season s.ranking.table setting.collection block sealedAt teamsAt =
      .ok hall) : HallKept setting s hall := by
  obtain ⟨last, hend, hcutoff⟩ := hallSealsAt_eq_some hseals
  obtain ⟨start, hstart⟩ := start_of_buildHall h
  obtain rfl := buildHall_eq_ok hstart hend hcutoff hsealed (hsealed.trans hteams) h
  exact ⟨⟨sealsAt, hcutoff, hsealed⟩, hteams.trans hclock.ge, ⟨at_, growth, closeInstant_eq_some hend hat, hblock⟩, rfl⟩

/-- One step keeps the invariant and every hall. -/
theorem hall_inv_step (hr : (hallSystem setting).Reachable s) (hinv : HallInv setting s)
    (h : (hallSystem setting).step s s') : HallInv setting s' ∧ s.halls.rows <+: s'.halls.rows := by
  have hlater := later_of_steps (ranking_reachable hr) (ranking_steps h)
  have hkept : ∀ hall ∈ s.halls.rows, HallKept setting s' hall := fun hall hmem => (hinv.halls hall hmem).later hlater
  obtain ⟨event, -, hseason, hhalls, hpending⟩ | ⟨-, hhalls, hpending⟩ | ⟨hranking, hseason, hhalls, hpending⟩ |
    ⟨read, sealsAt, growth, at_, block, sealedAt, teamsAt, hread, hat, hblock, hsealed, hteams, rfl⟩ := hall_step_cases h
  · refine ⟨⟨hhalls ▸ hkept, fun read sealsAt hread => ?_⟩, hhalls ▸ List.prefix_rfl⟩
    rw [hpending] at hread
    obtain ⟨hseals, hclock⟩ := hinv.pending read sealsAt hread
    exact ⟨hseason ▸ hseals, hclock.trans hlater.clock⟩
  · refine ⟨⟨hhalls ▸ hkept, fun read sealsAt hread => ?_⟩, hhalls ▸ List.prefix_rfl⟩
    rw [hpending read] at hread
    cases hread
  · refine ⟨⟨hhalls ▸ hkept, fun read sealsAt hread => ?_⟩, hhalls ▸ List.prefix_rfl⟩
    rw [hseason, hranking]
    rcases hpending read sealsAt hread with hold | hnew
    · exact hinv.pending read sealsAt hold
    · exact hnew
  · obtain ⟨hseals, hclock⟩ := hinv.pending read sealsAt hread
    have hwaiting : ∀ other sealsAt', (s.resume read teamsAt).pending other = some sealsAt' →
        hallSealsAt s.season = .ok (some sealsAt') ∧ sealsAt' ≤ teamsAt := by
      intro other sealsAt' hother
      obtain ⟨hseals', hclock'⟩ := hinv.pending other sealsAt' (pending_of_resume hother)
      exact ⟨hseals', (hclock'.trans hsealed).trans hteams⟩
    rcases seal_cases setting (s.resume read teamsAt) block sealedAt teamsAt with
      heq | ⟨hall, halls, hbuild, hinsert, heq⟩
    · rw [heq] at hkept ⊢
      exact ⟨⟨hkept, hwaiting⟩, List.prefix_rfl⟩
    · rw [heq] at hkept ⊢
      obtain ⟨-, hrows⟩ := Table.insert?_eq_some.mp hinsert
      have hnew : HallKept setting (s.resume read teamsAt) hall :=
        kept_of_build hseals (hclock.trans hsealed) hteams rfl hat hblock hbuild
      refine ⟨⟨fun other hother => ?_, hwaiting⟩, ?_⟩
      · rw [show ({ s.resume read teamsAt with halls := halls } : HallState).halls.rows = s.halls.rows ++ [hall] from hrows,
          List.mem_append, List.mem_singleton] at hother
        rcases hother with hother | rfl
        · exact hkept other hother
        · exact ⟨hnew.cutoff, hnew.past, hnew.closeBlock, hnew.rows⟩
      · exact hrows.symm ▸ List.prefix_append _ _

/-- **The invariant holds in every reachable state.** -/
theorem hall_inv_of_reachable (h : (hallSystem setting).Reachable s) : HallInv setting s := by
  refine h.invariant ?_ fun _ _ hr hinv hstep => (hall_inv_step hr hinv hstep).1
  rintro _ ⟨version, clock, season, closeBlock, rfl⟩
  exact ⟨fun hall hmem => absurd hmem List.not_mem_nil, fun read sealsAt hread => by cases hread⟩

/-- **A hall on record stays.** -/
theorem isPrefix_halls (hr : (hallSystem setting).Reachable s) (h : (hallSystem setting).Steps s s') :
    s.halls.rows <+: s'.halls.rows :=
  System.Steps.relation (R := fun s s' => s.halls.rows <+: s'.halls.rows) (fun _ => List.prefix_rfl)
    (fun _ _ _ => List.IsPrefix.trans) (fun _ _ hr hstep => (hall_inv_step hr (hall_inv_of_reachable hr) hstep).2) hr h

theorem get?_of_halls (h : hall ∈ s.halls.rows) : s.halls.get? hall.season = some hall := Table.get?_of_mem h

/-- A read of a season on record is answered with its hall. -/
theorem respond_read_of_mem (setting : HallSetting) {period : String} (h : hall ∈ s.halls.rows)
    (hperiod : hallPeriod period = some hall.season) :
    s.respond setting (.read period) = some (s, .hall (.sealed hall)) := by
  show some (s.read period) = _
  rw [HallState.read, hperiod]
  dsimp only
  rw [get?_of_halls h]

/-- So is a read that awaited the chain meanwhile. -/
theorem respond_found_of_mem {read : Nat} {growth : Growth} {sealedAt teamsAt : Int} {reply : HallReply}
    (hmem : hall ∈ s.halls.rows) (hseason : s.season.id = hall.season)
    (h : s.respond setting (.found read growth sealedAt teamsAt) = some (s', reply)) : reply = .hall (.sealed hall) := by
  obtain ⟨_, -, h⟩ := Option.bind_eq_some_iff.mp h
  obtain ⟨at_, -, h⟩ := Option.bind_eq_some_iff.mp h
  have hheld : (s.resume read teamsAt).halls.get? (s.resume read teamsAt).season.id = some hall := by
    show s.halls.get? s.season.id = some hall
    rw [hseason, get?_of_halls hmem]
  split at h
  · cases h
  · split at h
    · rw [HallState.seal, hheld] at h
      cases h
      rfl
    · cases h

/-- **A read that found the close block is answered with the hall on record.** -/
theorem respond_found {read : Nat} {growth : Growth} {sealedAt teamsAt start last : Int} {reply : HallReply}
    (hinv : HallInv setting s) (hstart : s.season.start = some start) (hend : s.season.end = some last)
    (hdates : start ≤ last) (hzero : WEEK_ZERO ≤ kstWeek start)
    (h : s.respond setting (.found read growth sealedAt teamsAt) = some (s', reply)) :
    ∃ hall ∈ s'.halls.rows, hall.season = s.season.id ∧ reply = .hall (.sealed hall) := by
  obtain ⟨sealsAt, hread, h⟩ := Option.bind_eq_some_iff.mp h
  obtain ⟨at_, -, h⟩ := Option.bind_eq_some_iff.mp h
  obtain ⟨hseals, hclock⟩ := hinv.pending read sealsAt hread
  obtain ⟨last', hend', hcutoff⟩ := hallSealsAt_eq_some hseals
  cases hend.symm.trans hend'
  split at h
  · cases h
  · next block hblock =>
    split at h
    · next htimes =>
      have hsealed := hclock.trans htimes.1
      obtain ⟨hall, hbuild, hseason⟩ := exists_buildHall setting.kit s.ranking.version s.ranking.table
        setting.collection block hstart hend hdates hzero hcutoff hsealed (hsealed.trans htimes.2)
      cases hheld : s.halls.get? s.season.id with
      | some held =>
        obtain ⟨hmem, hkey⟩ := Table.get?_eq_some.mp hheld
        have hreply : (s.resume read teamsAt).seal setting block sealedAt teamsAt =
            (s.resume read teamsAt, .hall (.sealed held)) := by
          rw [HallState.seal, show (s.resume read teamsAt).halls.get? (s.resume read teamsAt).season.id = _ from hheld]
        rw [hreply] at h
        cases h
        exact ⟨held, hmem, hkey, rfl⟩
      | none =>
        obtain ⟨halls, hinsert, hrows⟩ : ∃ halls, s.halls.insert? hall = some halls ∧
            halls.rows = s.halls.rows ++ [hall] := by
          cases hinsert : s.halls.insert? hall with
          | none =>
            obtain ⟨other, hother, hkey⟩ := Table.insert?_eq_none.mp hinsert
            exact absurd (hkey.trans hseason) (Table.get?_eq_none.mp hheld other hother)
          | some halls => exact ⟨halls, rfl, (Table.insert?_eq_some.mp hinsert).2⟩
        have hreply : (s.resume read teamsAt).seal setting block sealedAt teamsAt =
            ({ s.resume read teamsAt with halls := halls }, .hall (.sealed hall)) := by
          rw [HallState.seal, show (s.resume read teamsAt).halls.get? (s.resume read teamsAt).season.id = _ from hheld]
          dsimp only
          rw [show buildHall setting.kit (s.resume read teamsAt).ranking.version (s.resume read teamsAt).season
            (s.resume read teamsAt).ranking.table setting.collection block sealedAt teamsAt = _ from hbuild]
          dsimp only
          rw [show (s.resume read teamsAt).halls.insert? hall = _ from hinsert]
        rw [hreply] at h
        cases h
        refine ⟨hall, ?_, hseason, rfl⟩
        show hall ∈ halls.rows
        rw [hrows]
        exact List.mem_append_right _ (List.mem_singleton_self hall)
    · cases h

/-- The winners of a hall on record. -/
theorem raffle_of_kept (h : HallKept setting s hall) :
    hall.raffle.Nodup ∧ hall.raffle ⊆ hall.streakPool.map HallStreak.tokenId ∧
      hall.raffle.length = min RAFFLE_WINNERS hall.streakPool.length ∧
      ∀ pool, pool.Perm (hall.streakPool.map HallStreak.tokenId) →
        raffleDraw setting.kit.keccak256 hall.closeBlock.hash pool RAFFLE_WINNERS = hall.raffle := by
  have hpool := congrArg SealedHall.streakPool h.rows
  have hraffle := congrArg SealedHall.raffle h.rows
  rw [streakPool_hallOf] at hpool
  rw [raffle_hallOf, ← hpool] at hraffle
  have hnodup : (hall.streakPool.map HallStreak.tokenId).Nodup := by
    rw [hpool]
    exact nodup_streakPool _ _ _ _
  obtain ⟨hdistinct, hsub, hlength⟩ := raffleDraw_spec setting.kit.keccak256 hall.closeBlock.hash hnodup RAFFLE_WINNERS
  rw [hraffle]
  refine ⟨hdistinct, hsub, ?_, fun pool hperm => raffleDraw_congr hperm⟩
  rw [hlength, List.length_map]

/-- Whenever it is searched for, the chain has one close block. -/
theorem closeBlock_unique {chain : Chain} {at_ : Calendar.Instant} {growth growth' : Growth} {block block' : CloseBlock}
    (h : (findCloseBlock (chain.reader growth) at_).result = .ok block)
    (h' : (findCloseBlock (chain.reader growth') at_).result = .ok block') : block = block' := by
  obtain ⟨n, hash, hleast, -, hhash, rfl⟩ := ((findsClose chain growth at_).found block).mp h
  obtain ⟨m, hash', hleast', -, hhash', rfl⟩ := ((findsClose chain growth' at_).found block').mp h'
  obtain rfl := hleast.unique hleast'
  rw [Option.some.inj (hhash.symm.trans hhash')]

/-- Two halls of a season's rows agree in all but the instant they were sealed at. -/
theorem hall_congr (h : HallKept setting s hall) (h' : HallKept setting s' hall')
    (hseason : hall.season = hall'.season) (hstart : hall.start = hall'.start) (hend : hall.end = hall'.end)
    (hrows : (hallRows s.ranking.table.rows (toLowerCase setting.collection) hall.start hall.end).Perm
      (hallRows s'.ranking.table.rows (toLowerCase setting.collection) hall.start hall.end)) :
    hall' = { hall with sealedAt := hall'.sealedAt } := by
  -- The chain has one first block at or after the close.
  have hblock : hall.closeBlock = hall'.closeBlock := by
    obtain ⟨at_, growth, hat, hfound⟩ := h.closeBlock
    obtain ⟨at', growth', hat', hfound'⟩ := h'.closeBlock
    obtain rfl : at_ = at' := by
      cases at_
      cases at'
      simp only at hat hat'
      rw [← hend, ← hat] at hat'
      cases hat'
      rfl
    exact closeBlock_unique hfound hfound'
  calc hall' = hallOf setting.kit s'.ranking.table.rows (toLowerCase setting.collection) hall.season hall.start hall.end
        hall'.sealedAt hall.closeBlock := by
        rw [hseason, hstart, hend, hblock]
        exact h'.rows
    _ = hallOf setting.kit s.ranking.table.rows (toLowerCase setting.collection) hall.season hall.start hall.end
        hall'.sealedAt hall.closeBlock :=
        (hallOf_congr setting.kit hall.season hall'.sealedAt hall.closeBlock s.ranking.table.slotUnique hrows).symm
    _ = { hall with sealedAt := hall'.sealedAt } := by
        rw [hallOf_sealedAt _ _ _ _ _ _ hall.sealedAt, ← h.rows]

end Kept

/-! ## Halls on record -/

/-- What the halls on record are to whoever reads them. -/
structure HallsHeld (setting : HallSetting) (s : HallState) : Prop where
  /-- A season has one hall. -/
  once : (s.halls.rows.map SealedHall.season).Nodup
  /-- It was not there before the cutoff of the season's last week. -/
  past : ∀ hall ∈ s.halls.rows, ∃ cutoff, weekCutoff (kstWeek hall.end) = .ok cutoff ∧ cutoff ≤ hall.sealedAt ∧
    hall.sealedAt ≤ s.ranking.clock
  /-- Later reads are answered with it, whatever season it is, and so are those that awaited the chain and found
  the block. -/
  kept : ∀ hall ∈ s.halls.rows, ∀ s', (hallSystem setting).Steps s s' → hall ∈ s'.halls.rows ∧
    (∀ period, hallPeriod period = some hall.season →
      s'.respond setting (.read period) = some (s', .hall (.sealed hall))) ∧
    ∀ read growth sealedAt teamsAt s'' reply, s'.season.id = hall.season →
      s'.respond setting (.found read growth sealedAt teamsAt) = some (s'', reply) → reply = .hall (.sealed hall)
  /-- Where the season's dates are in order, from the first ranking week on, a read that finds the close block
  seals it, if it is not sealed yet. -/
  answered : ∀ start last, s.season.start = some start → s.season.end = some last → start ≤ last →
    WEEK_ZERO ≤ kstWeek start → ∀ read growth sealedAt teamsAt s' reply,
      s.respond setting (.found read growth sealedAt teamsAt) = some (s', reply) →
        ∃ hall ∈ s'.halls.rows, hall.season = s.season.id ∧ reply = .hall (.sealed hall)
  /-- The winners are distinct, of the pool, as many as there can be, and the same for the pool in any order. -/
  raffle : ∀ hall ∈ s.halls.rows, hall.raffle.Nodup ∧ hall.raffle ⊆ hall.streakPool.map HallStreak.tokenId ∧
    hall.raffle.length = min RAFFLE_WINNERS hall.streakPool.length ∧
    ∀ pool, pool.Perm (hall.streakPool.map HallStreak.tokenId) →
      raffleDraw setting.kit.keccak256 hall.closeBlock.hash pool RAFFLE_WINNERS = hall.raffle

/--
**A season's hall is sealed once, and it does not matter when.**

Two sellers that settled the same rows in time, in whatever order, seal the same hall, whenever they do.
-/
theorem season_halls_held (setting : HallSetting) (s : HallState) (hr : (hallSystem setting).Reachable s) :
    HallsHeld setting s ∧ ∀ s', (hallSystem setting).Reachable s' →
      ∀ hall ∈ s.halls.rows, ∀ hall' ∈ s'.halls.rows, hall.season = hall'.season → hall.start = hall'.start →
        hall.end = hall'.end →
        (hallRows s.ranking.table.rows (toLowerCase setting.collection) hall.start hall.end).Perm
          (hallRows s'.ranking.table.rows (toLowerCase setting.collection) hall.start hall.end) →
        hall' = { hall with sealedAt := hall'.sealedAt } := by
  have hinv := hall_inv_of_reachable hr
  refine ⟨⟨s.halls.nodup_keys, fun hall hmem => ?_, fun hall hmem s' hsteps => ?_,
    fun start last hstart hend hdates hzero read growth sealedAt teamsAt s' reply h =>
      respond_found hinv hstart hend hdates hzero h,
    fun hall hmem => raffle_of_kept (hinv.halls hall hmem)⟩, ?_⟩
  · obtain ⟨cutoff, hcutoff, hsealed⟩ := (hinv.halls hall hmem).cutoff
    exact ⟨cutoff, hcutoff, hsealed, (hinv.halls hall hmem).past⟩
  · have hmem' := (isPrefix_halls hr hsteps).subset hmem
    exact ⟨hmem', fun period hperiod => respond_read_of_mem setting hmem' hperiod,
      fun read growth sealedAt teamsAt s'' reply hseason h => respond_found_of_mem hmem' hseason h⟩
  · intro s' hr' hall hmem hall' hmem' hseason hstart hend hrows
    exact hall_congr (hinv.halls hall hmem) ((hall_inv_of_reachable hr').halls hall' hmem') hseason hstart hend hrows

/-- A season of one week, a round on its third day, and a chain of one block past the close. -/
def oneWeek : Season := ⟨1, some 20717, some 20723⟩
def hallRow : RankedRow := ⟨"0x01", "0xa", 1, 7, 1, .race, 20719, 1, 500, 1790132400000⟩
def oneBlock : Growth := ⟨fun _ => 0, fun _ _ _ => le_rfl⟩
def hallSetting : HallSetting where
  kit := ⟨fun _ => .rat, fun _ i => i⟩
  collection := "0xA"
  chain := ⟨fun _ => some "0xab", fun _ => 1790607600, fun _ _ _ => le_rfl⟩

theorem season_halls_held_oneWeek : ∃ s s' : HallState, ∃ hall,
    s.ranking.table.rows = [hallRow] ∧ s.halls.rows = [] ∧ hall ∈ s'.halls.rows ∧ hall.season = 1 ∧
      s.respond hallSetting (.found 0 oneBlock 1790607600000 1790607600000) = some (s', .hall (.sealed hall)) ∧
      s'.respond hallSetting (.read "s1") = some (s', .hall (.sealed hall)) := by
  have hrun : ((System.performAll (HallState.act hallSetting) (.fresh 1 0 oneWeek true)
      [.ranking (.settle hallRow), .ranking (.tick 1790607600000)]).map fun s =>
        (s.ranking.table.rows, s.ranking.clock, s.season, s.closeBlock, s.halls.rows.length, s.next)) =
          some ([hallRow], 1790607600000, oneWeek, true, 0, 0) := by decide +kernel
  obtain ⟨s, hs, hfields⟩ := Option.map_eq_some_iff.mp hrun
  simp only [Prod.mk.injEq] at hfields
  obtain ⟨hrows, hclock, hseason, hreader, hlength, hnext⟩ := hfields
  have hhalls := List.length_eq_zero_iff.mp hlength
  have hr : (hallSystem hallSetting).Reachable s :=
    System.reachable_of_performAll (.init ⟨1, 0, oneWeek, true, rfl⟩) hs
  have hperiod : hallPeriod "s1" = some 1 :=
    @hallPeriod_seasonPeriod oneWeek (by decide) (by decide)
  have hnone : s.halls.get? 1 = none := by
    rw [Table.get?, hhalls]
    rfl
  -- The read waits for the close block.
  have hread : (s.read "s1").1.pending 0 = some 1790607600000 ∧ (s.read "s1").1.season = oneWeek ∧
      (s.read "s1").1.ranking = s.ranking ∧ (s.read "s1").1.halls = s.halls := by
    unfold HallState.read
    rw [hperiod]
    dsimp only
    rw [hnone]
    dsimp only
    rw [hseason, hclock, hreader]
    have hid : ¬ (1 ≠ oneWeek.id) := by decide
    have hseals : hallSealsAt oneWeek = .ok (some 1790607600000) := by rfl
    have hphase : ¬ (seasonPhase oneWeek (kstDay 1790607600000) ≠ .closed) := by decide
    have hready : ¬ ((1790607600000 : Int) < 1790607600000 ∨ true = false) := by decide
    rw [if_neg hid, hseals]
    dsimp only
    rw [if_neg hphase, if_neg hready]
    refine ⟨?_, rfl, rfl, rfl⟩
    dsimp only
    rw [hnext, Function.update_self]
  obtain ⟨hpending, hseason', hranking, hsame⟩ := hread
  have hr' : (hallSystem hallSetting).Reachable (s.read "s1").1 := hr.step ⟨.read "s1", rfl⟩
  obtain ⟨block, hblock⟩ : ∃ block, (findCloseBlock (hallSetting.chain.reader oneBlock)
      ⟨1790521200000, by decide⟩).result = .ok block := by
    refine ⟨_, ((findsClose hallSetting.chain oneBlock ⟨1790521200000, by decide⟩).found ⟨"0", "0xab"⟩).mpr
      ⟨0, "0xab", ⟨?_, fun n _ => Nat.zero_le n⟩, le_rfl, rfl, rfl⟩⟩
    show (1790521200000 + 999) / 1000 ≤ (1790607600 : Int)
    decide
  obtain ⟨⟨s', reply⟩, hfound⟩ : ∃ next, (s.read "s1").1.respond hallSetting
      (.found 0 oneBlock 1790607600000 1790607600000) = some next := by
    have hat : closeInstant oneWeek = some ⟨1790521200000, by decide⟩ := by rfl
    rw [HallState.respond, hpending, Option.bind_some, hseason', hat, Option.bind_some, hblock, hranking, hclock]
    exact ⟨_, if_pos ⟨le_rfl, le_rfl⟩⟩
  obtain ⟨hall, hmem, hid, rfl⟩ := (season_halls_held hallSetting _ hr').1.answered 20717 20723 (by rw [hseason']; rfl)
    (by rw [hseason']; rfl) (by decide) (by decide) _ _ _ _ _ _ hfound
  have hr'' : (hallSystem hallSetting).Reachable s' :=
    hr'.step ⟨.found 0 oneBlock 1790607600000 1790607600000, by rw [HallState.act, hfound]; rfl⟩
  rw [hseason'] at hid
  refine ⟨(s.read "s1").1, s', hall, by rw [hranking, hrows], by rw [hsame, hhalls], hmem, hid, hfound, ?_⟩
  exact ((season_halls_held hallSetting s' hr'').1.kept hall hmem s' .refl).2.1 "s1" (by rw [hperiod, hid]; rfl)

end Mapae.Ranking
