import Mathlib.Algebra.Order.Archimedean.Basic
import Mapae.Arcade.RacePassing

/-!
# A fair race

* whoever is listed first has no advantage (`Relisted.simulateRace`)
* ranks count those that are strictly faster (`finish_of_simulateRace`)
* on the inner path nobody passes (`OnTrack.never_passes`)

The ids must be told apart by their collation keys, and for the last part they must not be empty: an id
that is empty is not followed. A horse that is level with another one can be followed in its place.
-/

namespace Mapae.Arcade.Track

open Mapae.Infra

variable {κ : Type} [LinearOrder κ] (collate : String → κ) (weather : RaceCourse → ℚ → ℚ)

/-- The same answer for any order of the entrants. -/
def OrderFree (input : RaceInput) : Prop :=
  ∀ entrants', input.entrants.Perm entrants' →
    SameAnswer (simulateRace collate weather input) (simulateRace collate weather { input with entrants := entrants' })

/-- A horse that runs on the inner path in a tick, where it is before that and where it is after. -/
structure OnInnerPath (state next : RaceState) (before after : RacePosition) : Prop where
  mem : before ∈ state.positions
  mem_next : after ∈ next.positions
  same : after.id = before.id
  running : arrived state.times before.id = false
  path : after.path = .shortcut

/-- A third horse, ahead of the one behind, that is level with the one ahead and does not come after it. -/
def LevelWith (state next : RaceState) (behind ahead : RacePosition) : Prop :=
  ∃ third third', OnInnerPath state next third third' ∧ third ≠ ahead ∧
    behind.distance + TIE < third.distance ∧ nearKey collate third ≤ nearKey collate ahead ∧
    ahead.distance ≤ third.distance + TIE

section Passing

variable {collate weather} {input : RaceInput} {state : RaceState} {tick : Nat} {before after : RacePosition}

variable (collate weather tick) in
/-- The horse as all see it in the tick. -/
theorem OnInnerPath.seen (hlegal : Legal input) (h : OnTrack input state)
    (hinner : OnInnerPath state (raceTick collate weather input tick state) before after) :
    ∃ seen ∈ runningAt collate input tick state, seen.id = before.id ∧ seen.distance = before.distance ∧
      seen.path = .shortcut ∧
      positionOf (raceTick collate weather input tick state).positions seen.id = some after := by
  have hnext := h.raceTick_sound collate weather tick
  have hnodup : ((raceTick collate weather input tick state).positions.map RacePosition.id).Nodup := by
    rw [hnext.horses]
    exact hlegal.nodup
  have hafter := positionOf_eq_some hnodup hinner.mem_next
  rw [hinner.same] at hafter
  have hsnapshot : _ ∈ snapshotAt collate input tick state := mem_snapshotOf.mpr ⟨before, hinner.mem, rfl⟩
  have hmem := mem_runningAt.mpr ⟨hsnapshot, hinner.running⟩
  obtain ⟨hpath, -⟩ := h.went hlegal hmem hafter
  exact ⟨_, hmem, rfl, rfl, hpath.symm.trans hinner.path, hafter⟩

variable (collate weather) in
/-- What all see of a horse on the inner path. -/
theorem onInnerPath_of_seen (hlegal : Legal input) (h : OnTrack input state) {seen : RacePosition}
    (hseen : seen ∈ runningAt collate input tick state) (hpath : seen.path = .shortcut) :
    ∃ before after, OnInnerPath state (raceTick collate weather input tick state) before after ∧
      before.id = seen.id ∧ before.distance = seen.distance := by
  obtain ⟨hmem, hrunning⟩ := mem_runningAt.mp hseen
  obtain ⟨before, hbefore, hsame⟩ := mem_snapshotOf.mp hmem
  obtain ⟨after, hafter, -⟩ := h.ticked collate weather hlegal tick hmem
  have hid : before.id = seen.id := by rw [hsame]
  have hdistance : before.distance = seen.distance := by rw [hsame]
  refine ⟨before, after, ⟨hbefore, List.mem_of_find?_eq_some hafter, ?_, ?_, ?_⟩, hid, hdistance⟩
  · rw [positionOf_id hafter, hid]
  · rw [hid]
    exact hrunning
  · exact (h.went hlegal hseen hafter).1.trans hpath

/-- **On the inner path nobody passes**, unless a third horse is level with the one ahead. -/
theorem inner_path_order (hlegal : Legal input) (hnames : ∀ runner ∈ input.entrants, runner.id ≠ "")
    (hweather : Mild weather) (hreached : Reached collate weather input tick state)
    {behind behind' ahead ahead' : RacePosition}
    (hbehind : OnInnerPath state (raceTick collate weather input tick state) behind behind')
    (hahead : OnInnerPath state (raceTick collate weather input tick state) ahead ahead')
    (hlt : behind.distance + TIE < ahead.distance)
    (hlevel : ¬ LevelWith collate state (raceTick collate weather input tick state) behind ahead) :
    behind'.distance < ahead'.distance := by
  have h := hreached.onTrack hlegal
  obtain ⟨seen, hseen, hid, hdistance, hpath, hafter⟩ := hbehind.seen collate weather tick hlegal h
  obtain ⟨seen', hseen', hid', hdistance', hpath', hafter'⟩ := hahead.seen collate weather tick hlegal h
  -- so many horses, a tie apart, there is room for
  obtain ⟨n, hn⟩ := exists_nat_ge ((seen'.distance - seen.distance) / TIE)
  have htie : 0 < TIE := by norm_num [TIE]
  rw [div_le_iff₀ htie] at hn
  refine h.never_passes hlegal hnames hweather hseen' hpath' hafter' n hseen hpath (by rwa [hdistance, hdistance'])
    (by linarith) (fun third hthird hthirdpath hfar hnear hclose => ?_) hafter
  by_contra hne
  -- what all see has the distance and the id, and so the key, of the horse before the tick
  obtain ⟨old, new, hold, holdid, holddistance⟩ :=
    onInnerPath_of_seen collate weather hlegal h hthird hthirdpath
  refine hlevel ⟨old, new, hold, ?_, ?_, ?_, ?_⟩
  · rintro rfl
    exact hne (List.inj_on_of_nodup_map (runningAt_nodup collate tick hlegal h) hthird hseen'
      (holdid.symm.trans hid'.symm))
  · rwa [holddistance, ← hdistance]
  · rwa [nearKey, holdid, holddistance, nearKey, ← hid', ← hdistance']
  · rwa [holddistance, ← hdistance']

end Passing

/-! ## Fairness -/

/-- In every tick, the horses on the inner path keep their order, unless a third one is level with the one
ahead. -/
def KeepsOrder (input : RaceInput) : Prop :=
  ∀ tick state, Reached collate weather input tick state → ∀ behind behind' ahead ahead',
    OnInnerPath state (raceTick collate weather input tick state) behind behind' →
    OnInnerPath state (raceTick collate weather input tick state) ahead ahead' →
    behind.distance + TIE < ahead.distance →
    ¬ LevelWith collate state (raceTick collate weather input tick state) behind ahead →
    behind'.distance < ahead'.distance

/-- The ranks of a finish: those that are strictly faster, and one. Who is as fast has the same rank and the
same points. -/
structure Ranked (finish : List RaceFinish) : Prop where
  rank : ∀ horse ∈ finish,
    horse.rank = 1 + (finish.filter fun other => other.seconds < horse.seconds - TIE).length
  points : ∀ horse ∈ finish, horse.points = [5, 3, 2, 1][horse.rank - 1]?
  ties : ∀ horse ∈ finish, ∀ other ∈ finish, horse.seconds = other.seconds →
    horse.rank = other.rank ∧ horse.points = other.points

/-- **A race is fair.** Its result does not depend on the order of the entrants, everyone finishes with the
rank of the time, and on the inner path nobody passes. -/
theorem fair_race (input : RaceInput) (hlegal : Legal input) :
    (Tells collate (input.entrants.map Racer.id) → OrderFree collate weather input) ∧
      (∀ race, simulateRace collate weather input = .ok race →
        (race.finish.map RaceFinish.id).Perm (input.entrants.map Racer.id) ∧ Ranked race.finish) ∧
      (Mild weather → (∀ runner ∈ input.entrants, runner.id ≠ "") → KeepsOrder collate weather input) := by
  refine ⟨fun hids entrants' hperm => ?_, fun race hrace => ?_, fun hweather hnames => ?_⟩
  · have hlist : Relisted input { input with entrants := entrants' } := ⟨⟨hperm, hlegal.nodup⟩, rfl, rfl, rfl⟩
    exact hlist.simulateRace hids
  · obtain ⟨hids, hfinish⟩ := finish_of_simulateRace hrace
    refine ⟨hids, fun horse hhorse => (hfinish horse hhorse).1, fun horse hhorse => (hfinish horse hhorse).2, ?_⟩
    intro horse hhorse other hother hseconds
    have hrank : horse.rank = other.rank := by
      rw [(hfinish horse hhorse).1, (hfinish other hother).1, hseconds]
    refine ⟨hrank, ?_⟩
    rw [(hfinish horse hhorse).2, (hfinish other hother).2, hrank]
  · intro tick state hreached behind behind' ahead ahead' hbehind hahead hlt hlevel
    exact inner_path_order hlegal hnames hweather hreached hbehind hahead hlt hlevel

/-! ## Races -/

/-- `localeCompare` on a few ids: by their first letters. -/
def firstLetter (id : String) : Nat := (id.toList.head?.map Char.toNat).getD 0

/-- The weather of a clear day. -/
def calm (_ : RaceCourse) (_ : ℚ) : ℚ := 1

def racer (id : String) (aptitude : Nat) : Racer := ⟨id, id, .burst, some aptitude⟩

/-- A race of one metre. `localeCompare` ignores U+0000. -/
def twins : RaceInput := ⟨⟨0, .clear, .short, 1, 0⟩, [racer "a" 5, racer "a\u0000" 5], [], none⟩

/-- Two of them are level, and the owner's burst is at 0.1 seconds. -/
def levelRace : RaceInput :=
  ⟨⟨0, .clear, .short, 42 / 5, 0⟩, [racer "owner" 5, racer "b" 4, racer "c" 6, racer "z" 5], [], some (some (1 / 10))⟩

/-- One of them has no name. -/
def nameless : RaceInput := ⟨⟨0, .clear, .short, 17 / 2, 0⟩, [racer "" 6, racer "b" 5], [], none⟩

/-- The race of two horses. -/
def pair : RaceInput := ⟨⟨0, .clear, .short, 17 / 2, 0⟩, [racer "a" 6, racer "b" 5], [], none⟩

theorem calm_mild : Mild calm := by
  intro course distance
  unfold calm
  constructor <;> norm_num

theorem fair_race_pair : OrderFree firstLetter calm pair ∧
    (∃ race, simulateRace firstLetter calm pair = .ok race ∧ Ranked race.finish) ∧
    KeepsOrder firstLetter calm pair := by
  have hlegal : Legal pair := ⟨by decide +kernel, by decide +kernel⟩
  have hfair := fair_race firstLetter calm pair hlegal
  refine ⟨hfair.1 (by unfold Tells; decide), ?_, hfair.2.2 calm_mild (by decide)⟩
  obtain ⟨race, hrace⟩ : ∃ race, (simulateRace firstLetter calm pair).toOption = some race :=
    Option.isSome_iff_exists.mp (by decide +kernel)
  have hok : simulateRace firstLetter calm pair = .ok race := by
    cases hanswer : simulateRace firstLetter calm pair with
    | error e =>
      rw [hanswer] at hrace
      cases hrace
    | ok race' =>
      rw [hanswer] at hrace
      rw [Option.some.inj hrace]
  exact ⟨race, hok, (hfair.2.1 race hok).2⟩

/-- A horse that is ahead on the inner path, by more than a tie, is passed. -/
def Passed (input : RaceInput) : Prop :=
  ∃ tick state behind behind' ahead ahead', Reached collate weather input tick state ∧
    OnInnerPath state (raceTick collate weather input tick state) behind behind' ∧
    OnInnerPath state (raceTick collate weather input tick state) ahead ahead' ∧
    behind.distance + TIE < ahead.distance ∧ ahead'.distance < behind'.distance

/-- What to look at to see it. -/
def overtakes (state next : RaceState) (id id' : String) : Bool :=
  match positionOf state.positions id, positionOf next.positions id, positionOf state.positions id',
      positionOf next.positions id' with
  | some behind, some behind', some ahead, some ahead' =>
    decide (arrived state.times id = false ∧ behind'.path = .shortcut) &&
      decide (arrived state.times id' = false ∧ ahead'.path = .shortcut) &&
      decide (behind.distance + TIE < ahead.distance ∧ ahead'.distance < behind'.distance)
  | _, _, _, _ => false

theorem passed_of_overtakes (id id' : String) {input : RaceInput} {tick : Nat} {state : RaceState}
    (hreached : Reached collate weather input tick state)
    (h : overtakes state (raceTick collate weather input tick state) id id' = true) :
    Passed collate weather input := by
  unfold overtakes at h
  split at h
  · next behind behind' ahead ahead' hbehind hbehind' hahead hahead' =>
    simp only [Bool.and_eq_true, decide_eq_true_eq] at h
    obtain ⟨⟨⟨hrunning, hpath⟩, hrunning', hpath'⟩, hlt, hlt'⟩ := h
    refine ⟨tick, state, behind, behind', ahead, ahead', hreached, ⟨?_, ?_, ?_, ?_, hpath⟩, ⟨?_, ?_, ?_, ?_, hpath'⟩,
      hlt, hlt'⟩
    · exact List.mem_of_find?_eq_some hbehind
    · exact List.mem_of_find?_eq_some hbehind'
    · rw [positionOf_id hbehind', positionOf_id hbehind]
    · rwa [positionOf_id hbehind]
    · exact List.mem_of_find?_eq_some hahead
    · exact List.mem_of_find?_eq_some hahead'
    · rw [positionOf_id hahead', positionOf_id hahead]
    · rwa [positionOf_id hahead]
  · cases h

theorem SameAnswer.finish_eq {answer answer' : Except TrackError RaceSimulation} (h : SameAnswer answer answer') :
    (answer.toOption.map fun race => race.finish.map RaceFinish.id) =
      answer'.toOption.map fun race => race.finish.map RaceFinish.id := by
  cases h with
  | ok h => exact congrArg (fun finish => some (finish.map RaceFinish.id)) h.finish
  | error e => rfl

/-- **Not every race is.** Ids that are not told apart finish in the order of the list. A horse passes the
one that is level with the one that it follows, and one without a name. -/
theorem unfair_races :
    (Legal twins ∧ ¬ OrderFree firstLetter calm twins) ∧ (Legal levelRace ∧ Passed firstLetter calm levelRace) ∧
      (Legal nameless ∧ Passed firstLetter calm nameless) := by
  refine ⟨⟨⟨by decide +kernel, by decide +kernel⟩, fun hfree => ?_⟩,
    ⟨⟨by decide +kernel, by decide +kernel⟩, ?_⟩, ⟨⟨by decide +kernel, by decide +kernel⟩, ?_⟩⟩
  · have hfinish := (hfree twins.entrants.reverse (List.reverse_perm _).symm).finish_eq
    exact absurd hfinish (by decide +kernel)
  · -- "owner" and "z" are level, and "b" follows "owner"
    exact passed_of_overtakes _ _ "b" "z" (.tick .start (by decide) (by decide)) (by decide +kernel)
  · exact passed_of_overtakes _ _ "b" "" (.tick .start (by decide) (by decide)) (by decide +kernel)

end Mapae.Arcade.Track
