import Mapae.Guardians.Calls

/-!
# Honors

The word of a token's honors has the week in its lowest lane, the longest streak above it and
nine title counts above that. A newer honor replaces the week and raises the other lanes.

When the honors of a token are cumulative, the newest one holds the greatest lanes, and a merge
of any of them is the newest of them.
-/

namespace Mapae.Guardians

open Mapae.Infra GuardiansStorage

variable {erc : Erc721} {hashes : Hashes}

/-! ## Lanes -/

/-- The word of an honor, as it is stored when nothing was stored before. -/
def packHonor (h : Honor) : Word := h.week.setWidth 256 ||| incomingHonor h

section Lanes

variable (h : Honor)

theorem lane_week (l : Nat) :
    lane 16 l (h.week.setWidth 256).toNat = if l = 0 then h.week.toNat else 0 := by
  rw [BitVec.toNat_setWidth_of_le (by decide)]
  have hlane := lane_or_shift (k := 16) h.week.isLt 0 0 l
  rw [Nat.mul_zero, Nat.shiftLeft_zero, Nat.zero_or, lane_zero, Nat.zero_or] at hlane
  exact hlane.trans (by rw [lane_zero])

/-- A lane of an honor above the week: the streak, then the titles. -/
theorem lane_incomingHonor (l : Nat) : lane 16 l (incomingHonor h).toNat =
    if l = 0 then 0 else if l = 1 then h.longestStreak.toNat
    else lane 16 (l - 2) h.titles.toNat := by
  have hstreak : (h.longestStreak.setWidth 256 <<< 16).toNat = h.longestStreak.toNat <<< 16 := by
    have := h.longestStreak.isLt
    rw [BitVec.toNat_shiftLeft, BitVec.toNat_setWidth_of_le (by decide), Nat.mod_eq_of_lt]
    rw [Nat.shiftLeft_eq]
    omega
  have htitles : (h.titles.setWidth 256 <<< 32).toNat = h.titles.toNat <<< 32 := by
    have := h.titles.isLt
    rw [BitVec.toNat_shiftLeft, BitVec.toNat_setWidth_of_le (by decide), Nat.mod_eq_of_lt]
    rw [Nat.shiftLeft_eq]
    omega
  have hone : lane 16 l (h.longestStreak.toNat <<< 16) =
      if l = 1 then h.longestStreak.toNat else 0 := by
    have hlane := lane_or_shift (k := 16) h.longestStreak.isLt 0 1 l
    rwa [Nat.mul_one, Nat.zero_or, lane_zero, Nat.zero_or, lane_zero] at hlane
  have hbelow (hl : l < 2) : lane 16 l (h.titles.toNat <<< 32) = 0 :=
    lane_shiftLeft_below (k := 16) hl _
  have habove (i : Nat) : lane 16 (i + 2) (h.titles.toNat <<< 32) = lane 16 i h.titles.toNat :=
    lane_shiftLeft 16 i 2 _
  unfold incomingHonor
  rw [BitVec.toNat_or, hstreak, htitles, lane_or, hone]
  by_cases h₀ : l = 0
  · rw [if_pos h₀, if_neg (by omega), hbelow (by omega), Nat.or_zero]
  · rw [if_neg h₀]
    by_cases h₁ : l = 1
    · rw [if_pos h₁, if_pos h₁, hbelow (by omega), Nat.or_zero]
    · have hsplit : l = l - 2 + 2 := by omega
      rw [if_neg h₁, if_neg h₁, Nat.zero_or, hsplit, habove, Nat.add_sub_cancel]

theorem lane_titles_high {l : Nat} (hl : 9 ≤ l) : lane 16 l h.titles.toNat = 0 := by
  have hlt : h.titles.toNat < 2 ^ (16 * l) :=
    Nat.lt_of_lt_of_le h.titles.isLt (Nat.pow_le_pow_right (by decide) (by omega))
  rw [lane_eq, Nat.div_eq_of_lt hlt, Nat.zero_mod]

theorem lane_packHonor (l : Nat) : lane 16 l (packHonor h).toNat =
    if l = 0 then h.week.toNat else lane 16 l (incomingHonor h).toNat := by
  unfold packHonor
  rw [BitVec.toNat_or, lane_or, lane_week, lane_incomingHonor]
  split
  · exact Nat.or_zero _
  · exact Nat.zero_or _

end Lanes

/-- The greater of two lanes, alone in its place. -/
theorem lane_maxLane (stored incoming : Word) {i : Nat} (hi : i < 16) (l : Nat) :
    lane 16 l (maxLane stored incoming (16 * i)).toNat =
      if l = i then max (lane 16 i stored.toNat) (lane 16 i incoming.toNat) else 0 := by
  have ha : ((stored >>> (16 * i)) &&& 0xffff#256).toNat = lane 16 i stored.toNat :=
    toNat_shift_and stored (by decide) i
  have hb : ((incoming >>> (16 * i)) &&& 0xffff#256).toNat = lane 16 i incoming.toNat :=
    toNat_shift_and incoming (by decide) i
  have hmax : (maxLane stored incoming (16 * i)) =
      BitVec.ofNat 256 (max (lane 16 i stored.toNat) (lane 16 i incoming.toNat)) <<< (16 * i) := by
    dsimp only [maxLane]
    refine congrArg (fun word : Word => word <<< (16 * i)) (BitVec.eq_of_toNat_eq ?_)
    have hlt := lane_lt 16 i stored.toNat
    have hlt' := lane_lt 16 i incoming.toNat
    rw [BitVec.toNat_ofNat, Nat.mod_eq_of_lt (by omega)]
    split
    · next h =>
      have h : lane 16 i incoming.toNat < lane 16 i stored.toNat := by rwa [← ha, ← hb]
      rw [ha, Nat.max_eq_left (Nat.le_of_lt h)]
    · next h =>
      have h : ¬ lane 16 i incoming.toNat < lane 16 i stored.toNat := by rwa [← ha, ← hb]
      rw [hb, Nat.max_eq_right (Nat.not_lt.mp h)]
  have hlt : max (lane 16 i stored.toNat) (lane 16 i incoming.toNat) < 2 ^ 16 :=
    Nat.max_lt.mpr ⟨lane_lt .., lane_lt ..⟩
  have hlane := lane_or_shift hlt 0 i l
  rw [Nat.zero_or, lane_zero, Nat.zero_or, lane_zero] at hlane
  rw [hmax, toNat_ofNat_shift hlt (by omega), hlane]

/-- What the loop has made of a word: every lane it went over is or-ed with the greater one. -/
theorem lane_foldl_maxLane (stored incoming : Word) : ∀ (lanes : List Nat), (∀ i ∈ lanes, i < 16) →
    ∀ (next : Word) (l : Nat), lane 16 l ((lanes.map (16 * ·)).foldl
      (fun next shift => next ||| maxLane stored incoming shift) next).toNat =
        lane 16 l next.toNat |||
          if l ∈ lanes then max (lane 16 l stored.toNat) (lane 16 l incoming.toNat) else 0
  | [], _, next, l => by simp
  | i :: lanes, hlt, next, l => by
    rw [List.map_cons, List.foldl_cons,
      lane_foldl_maxLane stored incoming lanes fun j hj => hlt j (List.mem_cons_of_mem _ hj),
      BitVec.toNat_or, lane_or, lane_maxLane stored incoming (hlt i List.mem_cons_self),
      Nat.or_assoc]
    congr 1
    by_cases hi : l = i
    · rw [if_pos hi, hi, if_pos List.mem_cons_self]
      split
      · exact Nat.or_self _
      · exact Nat.or_zero _
    · rw [if_neg hi, Nat.zero_or]
      simp only [List.mem_cons, hi, false_or]

/-- **A newer honor sets the week and raises the ten lanes above it.** -/
theorem lane_mergeHonor (stored : Word) (h : Honor) {l : Nat} (hl : l < 16) :
    lane 16 l (mergeHonor stored h).toNat =
      if l = 0 then h.week.toNat
      else if l ≤ 10 then max (lane 16 l stored.toNat) (lane 16 l (incomingHonor h).toNat)
      else 0 := by
  have hshifts : honorShifts = (List.range' 1 10).map (16 * ·) := by decide
  have hfold := lane_foldl_maxLane stored (incomingHonor h) (List.range' 1 10)
    (fun i hi => by have := List.mem_range'_1.mp hi; omega) (h.week.setWidth 256) l
  unfold mergeHonor
  rw [hshifts, hfold, lane_week]
  simp only [List.mem_range'_1]
  by_cases h₀ : l = 0
  · rw [if_pos h₀, if_pos h₀, if_neg (by omega), Nat.or_zero]
  · rw [if_neg h₀, if_neg h₀, Nat.zero_or]
    by_cases h₁ : l ≤ 10
    · rw [if_pos h₁, if_pos (by omega)]
    · rw [if_neg h₁, if_neg (by omega)]

/-! ## One honor after another -/

/-- The word after an honor, which counts when its week is newer. -/
def newer (stored : Word) (h : Honor) : Word :=
  if h.week.toNat ≤ (stored &&& 0xffff#256).toNat then stored else mergeHonor stored h

section Newer

variable (stored : Word) (h : Honor) {l : Nat}

theorem week_eq : (stored &&& 0xffff#256).toNat = lane 16 0 stored.toNat :=
  toNat_and_mask (k := 16) stored (by decide)

theorem lane_zero_newer :
    lane 16 0 (newer stored h).toNat = max (lane 16 0 stored.toNat) h.week.toNat := by
  unfold newer
  rw [week_eq]
  split
  · next hle => rw [Nat.max_eq_left hle]
  · next hlt => rw [lane_mergeHonor stored h (by decide), if_pos rfl, Nat.max_eq_right (by omega)]

/-- **No lane of the honors ever decreases.** -/
theorem lane_le_newer (hl : l ≤ 10) : lane 16 l stored.toNat ≤ lane 16 l (newer stored h).toNat := by
  by_cases h₀ : l = 0
  · rw [h₀, lane_zero_newer]
    exact Nat.le_max_left ..
  · unfold newer
    split
    · exact Nat.le_refl _
    · rw [lane_mergeHonor stored h (by omega), if_neg h₀, if_pos hl]
      exact Nat.le_max_left ..

/-- The lanes above the titles stay empty. -/
theorem lane_newer_high (hzero : lane 16 l stored.toNat = 0) (hlow : 10 < l) (hhigh : l < 16) :
    lane 16 l (newer stored h).toNat = 0 := by
  unfold newer
  split
  · exact hzero
  · rw [lane_mergeHonor stored h hhigh, if_neg (by omega), if_neg (by omega)]

end Newer

/-! ## Cumulative honors -/

/-- Every lane of an honor grows with its week, as those of a signer who only adds to them do. -/
def Cumulative (honors : List Honor) : Prop :=
  ∀ h ∈ honors, ∀ h' ∈ honors, h.week.toNat ≤ h'.week.toNat →
    h.longestStreak.toNat ≤ h'.longestStreak.toNat ∧
      ∀ l < 9, lane 16 l h.titles.toNat ≤ lane 16 l h'.titles.toNat

namespace Cumulative

variable {honors : List Honor} {g h : Honor}

theorem subset {honors' : List Honor} (hc : Cumulative honors) (hsub : ∀ h ∈ honors', h ∈ honors) :
    Cumulative honors' := fun h hh h' hh' => hc h (hsub h hh) h' (hsub h' hh')

theorem lane_le (hc : Cumulative honors) (hg : g ∈ honors) (hh : h ∈ honors)
    (hweek : g.week.toNat ≤ h.week.toNat) (l : Nat) :
    lane 16 l (incomingHonor g).toNat ≤ lane 16 l (incomingHonor h).toNat := by
  obtain ⟨hstreak, htitles⟩ := hc g hg h hh hweek
  rw [lane_incomingHonor, lane_incomingHonor]
  split
  · exact Nat.le_refl _
  · split
    · exact hstreak
    · by_cases hl : l - 2 < 9
      · exact htitles _ hl
      · rw [lane_titles_high g (by omega)]
        exact Nat.zero_le _

end Cumulative

/-- An honor that has at least the stored lanes replaces them. -/
theorem mergeHonor_eq_packHonor {stored : Word} {h : Honor} (hle : ∀ l, 1 ≤ l → l ≤ 10 →
    lane 16 l stored.toNat ≤ lane 16 l (incomingHonor h).toNat) :
    mergeHonor stored h = packHonor h := by
  apply BitVec.eq_of_toNat_eq
  refine eq_of_lanes (k := 16) (m := 16) (BitVec.isLt _) (BitVec.isLt _) fun l hl => ?_
  rw [lane_mergeHonor stored h hl, lane_packHonor]
  split
  · rfl
  · next h₀ =>
    split
    · next h₁ => exact Nat.max_eq_right (hle l (by omega) h₁)
    · next h₁ =>
      rw [lane_incomingHonor, if_neg h₀, if_neg (by omega), lane_titles_high h (by omega)]

section Newest

variable {g h x : Honor} {honors : List Honor}

theorem packHonor_eq (hc : Cumulative honors) (hg : g ∈ honors) (hh : h ∈ honors)
    (hweek : g.week.toNat = h.week.toNat) : packHonor g = packHonor h := by
  apply BitVec.eq_of_toNat_eq
  refine eq_of_lanes (k := 16) (m := 16) (BitVec.isLt _) (BitVec.isLt _) fun l _ => ?_
  rw [lane_packHonor, lane_packHonor, hweek]
  split
  · rfl
  · exact Nat.le_antisymm (hc.lane_le hg hh (Nat.le_of_eq hweek) l)
      (hc.lane_le hh hg (Nat.le_of_eq hweek.symm) l)

theorem newer_zero (hweek : h.week.toNat ≠ 0) : newer 0 h = packHonor h := by
  unfold newer
  rw [week_eq, if_neg]
  · refine mergeHonor_eq_packHonor fun l _ _ => ?_
    exact (Nat.le_of_eq (lane_zero 16 l)).trans (Nat.zero_le _)
  · rw [show (0 : Word).toNat = 0 from rfl, lane_zero]
    omega

theorem newer_packHonor (hc : Cumulative honors) (hg : g ∈ honors) (hh : h ∈ honors) :
    newer (packHonor g) h =
      if h.week.toNat ≤ g.week.toNat then packHonor g else packHonor h := by
  unfold newer
  rw [week_eq, lane_packHonor, if_pos rfl]
  split
  · rfl
  · refine mergeHonor_eq_packHonor fun l hl _ => ?_
    rw [lane_packHonor, if_neg (by omega)]
    exact hc.lane_le hg hh (by omega) l

/-- From a stored honor on, the newest of them all is what is stored in the end. -/
theorem foldl_newer_packHonor : ∀ {honors : List Honor} {g x : Honor}, Cumulative (g :: honors) →
    x ∈ g :: honors → (∀ y ∈ g :: honors, y.week.toNat ≤ x.week.toNat) →
      honors.foldl newer (packHonor g) = packHonor x
  | [], _, _, _, hx, _ => by
    rw [List.mem_singleton.mp hx]
    rfl
  | h :: honors, g, x, hc, hx, hmax => by
    have hg : g ∈ g :: h :: honors := List.mem_cons_self
    have hh : h ∈ g :: h :: honors := List.mem_cons_of_mem _ List.mem_cons_self
    rw [List.foldl_cons, newer_packHonor hc hg hh]
    have hxmem : x = g ∨ x = h ∨ x ∈ honors := by simpa using hx
    split
    · next hle =>
      -- the entry is stale; when it is as new as `g`, it is the same word
      have hcg : Cumulative (g :: honors) := hc.subset (by simp +contextual)
      have hmaxg : ∀ y ∈ g :: honors, y.week.toNat ≤ x.week.toNat := fun y hy =>
        hmax y (by rcases List.mem_cons.mp hy with rfl | hy <;> simp [*])
      rcases hxmem with rfl | rfl | hx
      · exact foldl_newer_packHonor hcg List.mem_cons_self hmaxg
      · have hweek : g.week.toNat = x.week.toNat := Nat.le_antisymm (hmax g hg) hle
        rw [← packHonor_eq hc hg hh hweek]
        exact foldl_newer_packHonor hcg List.mem_cons_self fun y hy => hweek ▸ hmaxg y hy
      · exact foldl_newer_packHonor hcg (List.mem_cons_of_mem _ hx) hmaxg
    · next hlt =>
      have hch : Cumulative (h :: honors) := hc.subset (by simp +contextual)
      have hmaxh : ∀ y ∈ h :: honors, y.week.toNat ≤ x.week.toNat := fun y hy =>
        hmax y (List.mem_cons_of_mem _ hy)
      rcases hxmem with rfl | rfl | hx
      · exact absurd (hmax h hh) hlt
      · exact foldl_newer_packHonor hch List.mem_cons_self hmaxh
      · exact foldl_newer_packHonor hch (List.mem_cons_of_mem _ hx) hmaxh

/-- **Cumulative honors, in any order and with repetitions, leave the newest.** -/
theorem foldl_newer (hc : Cumulative honors) (hweek : ∀ y ∈ honors, y.week.toNat ≠ 0)
    (hx : x ∈ honors) (hmax : ∀ y ∈ honors, y.week.toNat ≤ x.week.toNat) :
    honors.foldl newer 0 = packHonor x := by
  cases honors with
  | nil => exact nomatch hx
  | cons g rest =>
    rw [List.foldl_cons, newer_zero (hweek g List.mem_cons_self)]
    exact foldl_newer_packHonor hc hx hmax

end Newest

/-! ## The invariant -/

structure HonorInvariant (s : GuardiansStorage erc) : Prop where
  high : ∀ id l, 10 < l → l < 16 → lane 16 l (s.honors id).toNat = 0
  /-- A week is recorded after it is sealed. -/
  sealed : ∀ id, lane 16 0 (s.honors id).toNat = 0 ∨
    sealedAt (lane 16 0 (s.honors id).toNat) ≤ s.timestamp

/-- The week and the ten lanes above it are at least what they were. -/
def HonorsForward (s s' : GuardiansStorage erc) : Prop :=
  ∀ id, ∀ l ≤ 10, lane 16 l (s.honors id).toNat ≤ lane 16 l (s'.honors id).toNat

namespace HonorInvariant

variable {s s' : GuardiansStorage erc}

theorem of_deployed (h : Deployed s) : HonorInvariant s where
  high id l _ _ := by
    rw [h.honors]
    exact lane_zero 16 l
  sealed id := by
    rw [h.honors]
    exact Or.inl (lane_zero 16 0)

/-- The invariant reads the honors, and only the clock besides. -/
theorem congr (hinv : HonorInvariant s) (hhonors : s'.honors = s.honors)
    (hlater : s.timestamp ≤ s'.timestamp) : HonorInvariant s' where
  high := by rw [hhonors]; exact hinv.high
  sealed id := by
    rw [hhonors]
    exact (hinv.sealed id).imp_right fun h => h.trans hlater

/-- **Honors only move forward.** -/
theorem honored (hinv : HonorInvariant s) {e : Honor} {signature : hashes.Signature} {done : Bool}
    (h : s.honor hashes e signature = .ok (done, s')) :
    HonorInvariant s' ∧ HonorsForward s s' := by
  obtain ⟨hcheck, hcases⟩ := honor_eq_ok h
  obtain ⟨-, hsealed⟩ := sealed_of_checkHonor hcheck
  split at hcases
  · obtain ⟨-, rfl⟩ := hcases
    exact ⟨hinv, fun _ _ _ => Nat.le_refl _⟩
  · next hnew =>
    obtain ⟨-, rfl⟩ := hcases
    have hword (id : Nat) : (s.honored e).honors id =
        if id = e.tokenId then newer (s.honors e.tokenId) e else s.honors id := by
      have hnewer : newer (s.honors e.tokenId) e = mergeHonor (s.honors e.tokenId) e :=
        if_neg hnew
      rw [hnewer]
      exact Function.update_apply ..
    refine ⟨{ high := fun id l hlow hhigh => ?_, sealed := fun id => ?_ }, fun id l hl => ?_⟩
    · rw [hword]
      split
      · exact lane_newer_high _ e (hinv.high _ l hlow hhigh) hlow hhigh
      · exact hinv.high id l hlow hhigh
    · rw [hword]
      split
      · right
        rw [honorWeek, week_eq] at hnew
        rw [lane_zero_newer, Nat.max_eq_right (by omega)]
        exact hsealed
      · exact hinv.sealed id
    · rw [hword]
      split
      · next hid =>
        rw [hid]
        exact lane_le_newer _ e hl
      · exact Nat.le_refl _

/-- Results leave the honors, and the honors of a claim move them forward. -/
theorem claim (hinv : HonorInvariant s) {c : ClaimCall hashes} {n : Nat}
    (h : s.claim hashes c = .ok (n, s')) : HonorInvariant s' ∧ HonorsForward s s' := by
  refine claim_invariant (P := fun s₁ => HonorInvariant s₁ ∧ HonorsForward s s₁)
    (fun s₁ r signature done s₂ hs hr => ?_) (fun s₁ e signature done s₂ hs he => ?_)
    ⟨hinv, fun _ _ _ => Nat.le_refl _⟩ h
  · obtain ⟨-, hr⟩ := result_eq_ok hr
    split at hr
    · exact hr.2 ▸ hs
    · exact hr.2.1 ▸ ⟨hs.1.congr rfl (Nat.le_refl _), hs.2⟩
  · obtain ⟨hinv', hforward⟩ := hs.1.honored he
    exact ⟨hinv', fun id l hl => (hs.2 id l hl).trans (hforward id l hl)⟩

end HonorInvariant

end Mapae.Guardians
