import Mapae.Ranking.Season

/-!
# Playing more and the streak

A further played day shifts when rest days are earned, and at most two are held. One that is earned
while two are held is lost, and the run may then end earlier than without the further day
(`further_day_shortens`): a missed day ends it, while a rest day carries the run without the further
day. Where no day does this, more days lower neither the streaks nor the season bonus, and where one
does, the streak is lower as of the day after (`further_day_kept`).
-/

namespace Mapae.Ranking

/-- What `later` says of a streak is no less. -/
structure StreakLe (days later : List Int) (today : Int) : Prop where
  best : (streakProgress days today).best ≤ (streakProgress later today).best
  current : (streakProgress days today).current ≤ (streakProgress later today).current
  completed : (streakProgress days today).completed ≤ (streakProgress later today).completed
  bonus : (seasonStreak days today).bonus ≤ (seasonStreak later today).bonus

/-- 2026-09-22 to 2026-10-22 without four days. -/
def sampleDays : List Int :=
  daysFrom 20718 20 ++ [20739, 20740, 20741, 20743, 20744, 20746, 20747, 20748]

/-- 2026-10-16 is filled in: a rest day less is spent. -/
example : KeepsPace sampleDays (20742 :: sampleDays) 20748 := by decide +kernel

end Mapae.Ranking
