import Mapae.Delegation.Preflight

/-!
# What preflight judges

The enforcers let a payment through when no caveat of any link is in its way. The reader sees the
first caveat of each enforcer, so the judgement is on these.

For every chain whose statuses can be read, the judgement is right if and only if the caveats that
are not read do no harm: they let through what the first ones do, and none of them is a lifetime
total as tight as any other allowance of a payment that is refused for money. Where no link has two
caveats of one enforcer it always is.
-/

namespace Mapae.Delegation.Preflight

open Mapae.Infra

/-- A validity window that is open. -/
def Opens (now : Nat) (window : Option ValidityWindow) : Prop :=
  ∃ validity, window = some validity ∧ judgeValidity (some validity) now = ⟨false, false⟩

/-- An allowance the amount fits in. -/
def Covers (amount : Nat) (allowance : Option Nat) : Prop := ∃ n, allowance = some n ∧ amount ≤ n

namespace LinkReading

/-- The link is unrevoked, and all its windows are open. -/
def Active (now : Nat) (reading : LinkReading) : Prop :=
  reading.revoked = false ∧ ∀ window ∈ reading.windows, Opens now window

/-- The amount is within every allowance of the link. -/
def Affords (amount : Nat) (reading : LinkReading) : Prop :=
  (∀ a ∈ reading.periods, Covers amount a) ∧ ∀ a ∈ reading.lifetimes, Covers amount a

/-- The caveats of the link that are not read let the payment through. -/
def SkippedPass (now amount : Nat) (reading : LinkReading) : Prop :=
  (∀ window ∈ reading.windows.drop 1, Opens now window) ∧
    (∀ a ∈ reading.periods.drop 1, Covers amount a) ∧
      ∀ a ∈ reading.lifetimes.drop 1, Covers amount a

/-- No enforcer has two caveats on the link. -/
def Single (reading : LinkReading) : Prop :=
  reading.windows.length ≤ 1 ∧ reading.periods.length ≤ 1 ∧ reading.lifetimes.length ≤ 1

end LinkReading

open LinkReading

/-- The enforcers let the payment through. -/
def Allowed (now amount : Nat) (readings : List LinkReading) : Prop :=
  readings ≠ [] ∧ ∀ r ∈ readings, r.Active now ∧ r.Affords amount

/-- An amount no greater than any period allowance. -/
def NoPeriodBelow (readings : List LinkReading) (n : Nat) : Prop :=
  ∀ r ∈ readings, ∀ m, some m ∈ r.periods → n ≤ m

/-- A lifetime allowance is tied for the tightest. -/
def LifetimeTied (readings : List LinkReading) : Prop :=
  ∃ r ∈ readings, ∃ n, some n ∈ r.lifetimes ∧ NoPeriodBelow readings n

/-- The verdict says whether the payment is let through, and names the lifetime total of a payment
refused for money whenever it is tied for the tightest. -/
structure JudgedRight (now amount : Nat) (readings : List LinkReading) (verdict : PreflightVerdict) :
    Prop where
  ok_iff : verdict = .ok ↔ Allowed now amount readings
  names_lifetime : ∀ detail, verdict = .refused .LIMIT_EXCEEDED detail → LifetimeTied readings →
    ∃ n, detail = limitDetail amount ⟨n, .lifetime⟩

/-- The caveats that are not read do no harm. -/
structure SkippedHarmless (now amount : Nat) (readings : List LinkReading) : Prop where
  /-- They let through what the first ones do. -/
  pass : Allowed now amount (readings.map LinkReading.first) → ∀ r ∈ readings, r.SkippedPass now amount
  /-- Of a payment refused for money, none is a lifetime total as tight as every period allowance,
  unless one that is read is. -/
  untied : (∀ r ∈ readings, r.first.Active now) → (∃ r ∈ readings, ¬ r.first.Affords amount) →
    (∃ r ∈ readings, ∃ n, some n ∈ r.lifetimes.drop 1 ∧ NoPeriodBelow readings n) →
      LifetimeTied (readings.map LinkReading.first)

/-! ## The first caveats and the others -/

section Skipped

variable {now amount : Nat} {reading : LinkReading} {readings : List LinkReading}

theorem forall_mem_take_drop {α : Type} {p : α → Prop} {l : List α} :
    (∀ x ∈ l, p x) ↔ (∀ x ∈ l.take 1, p x) ∧ ∀ x ∈ l.drop 1, p x := by
  conv_lhs => rw [← List.take_append_drop 1 l]
  rw [List.forall_mem_append]

/-- A link passes when its first caveats do and the others do. -/
theorem passes_iff :
    reading.Active now ∧ reading.Affords amount ↔
      (reading.first.Active now ∧ reading.first.Affords amount) ∧
        reading.SkippedPass now amount := by
  rw [Active, Affords, forall_mem_take_drop (l := reading.windows),
    forall_mem_take_drop (l := reading.periods), forall_mem_take_drop (l := reading.lifetimes)]
  simp only [Active, Affords, SkippedPass, LinkReading.first]
  tauto

theorem allowed_iff :
    Allowed now amount readings ↔
      Allowed now amount (readings.map LinkReading.first) ∧
        ∀ r ∈ readings, r.SkippedPass now amount := by
  simp only [Allowed, List.forall_mem_map, List.map_eq_nil_iff, ne_eq]
  constructor
  · rintro ⟨hne, hall⟩
    exact ⟨⟨hne, fun r hr => (passes_iff.mp (hall r hr)).1⟩,
      fun r hr => (passes_iff.mp (hall r hr)).2⟩
  · rintro ⟨⟨hne, hfirst⟩, hskipped⟩
    exact ⟨hne, fun r hr => passes_iff.mpr ⟨hfirst r hr, hskipped r hr⟩⟩

theorem NoPeriodBelow.first {n : Nat} (h : NoPeriodBelow readings n) :
    NoPeriodBelow (readings.map LinkReading.first) n := by
  refine List.forall_mem_map.mpr fun r hr m hm => h r hr m (List.mem_of_mem_take hm)

/-- A lifetime total that is tied is a first one, or one that is not read. -/
theorem LifetimeTied.cases (h : LifetimeTied readings) :
    LifetimeTied (readings.map LinkReading.first) ∨
      ∃ r ∈ readings, ∃ n, some n ∈ r.lifetimes.drop 1 ∧ NoPeriodBelow readings n := by
  obtain ⟨r, hr, n, hn, hbelow⟩ := h
  rw [← List.take_append_drop 1 r.lifetimes, List.mem_append] at hn
  rcases hn with hn | hn
  · exact .inl ⟨r.first, List.mem_map_of_mem hr, n, hn, hbelow.first⟩
  · exact .inr ⟨r, hr, n, hn, hbelow⟩

theorem lifetimeTied_of_skipped
    (h : ∃ r ∈ readings, ∃ n, some n ∈ r.lifetimes.drop 1 ∧ NoPeriodBelow readings n) :
    LifetimeTied readings := by
  obtain ⟨r, hr, n, hn, hbelow⟩ := h
  exact ⟨r, hr, n, List.mem_of_mem_drop hn, hbelow⟩

/-- Where there is nothing to skip, nothing that is skipped does harm. -/
theorem skippedHarmless_of_single (h : ∀ r ∈ readings, r.Single) :
    SkippedHarmless now amount readings where
  pass _ r hr := by
    obtain ⟨hwindows, hperiods, hlifetimes⟩ := h r hr
    rw [SkippedPass, List.drop_eq_nil_of_le hwindows, List.drop_eq_nil_of_le hperiods,
      List.drop_eq_nil_of_le hlifetimes]
    exact ⟨nofun, nofun, nofun⟩
  untied _ _ hskipped := by
    obtain ⟨r, hr, n, hn, -⟩ := hskipped
    rw [List.drop_eq_nil_of_le (h r hr).2.2] at hn
    cases hn

end Skipped

/-! ## What the reader shows -/

section Shown

variable {now amount : Nat} {status : DelegationStatus} {statuses : List DelegationStatus}
  {reading : LinkReading} {readings : List LinkReading}

theorem active_of_shows (h : Shows now status reading) :
    inactiveDetail status = none ↔ reading.first.Active now := by
  obtain ⟨validity, hwindows, hverdict⟩ := h.windows_eq
  rw [inactiveDetail_eq_none, h.revoked_eq, Active, LinkReading.first, hwindows]
  refine and_congr_right fun _ => ?_
  rw [← ValidityVerdict.mk.injEq, hverdict]
  cases validity with
  | none => simp [judgeValidity]
  | some validity => simp [Opens]

/-- The candidates of a status are the first caveats' allowances. -/
theorem mem_allowances_of_shows (h : Shows now status reading) {c : RemainingAllowance} :
    c ∈ status.allowances ↔
      (c.source = .period ∧ some c.amount ∈ reading.first.periods) ∨
        (c.source = .lifetime ∧ some c.amount ∈ reading.first.lifetimes) := by
  simp only [LinkReading.first, h.periods_eq, h.lifetimes_eq, DelegationStatus.allowances]
  cases c with
  | mk n source => cases source <;> simp [eq_comm]

theorem affords_of_shows (h : Shows now status reading) :
    (∀ c ∈ status.allowances, amount ≤ c.amount) ↔ reading.first.Affords amount := by
  simp only [Affords, LinkReading.first, h.periods_eq, h.lifetimes_eq, DelegationStatus.allowances,
    Covers]
  simp [or_imp, forall_and]

/-- What holds of every status holds of every link. -/
theorem forall_of_shows {p : DelegationStatus → Prop} {q : LinkReading → Prop}
    (hpq : ∀ {s r}, Shows now s r → (p s ↔ q r)) (h : List.Forall₂ (Shows now) statuses readings) :
    (∀ s ∈ statuses, p s) ↔ ∀ r ∈ readings, q r := by
  induction h with
  | nil => simp
  | cons hshows _ ih => simp [hpq hshows, ih]

theorem exists_of_shows {p : DelegationStatus → Prop} {q : LinkReading → Prop}
    (hpq : ∀ {s r}, Shows now s r → (p s ↔ q r)) (h : List.Forall₂ (Shows now) statuses readings) :
    (∃ s ∈ statuses, p s) ↔ ∃ r ∈ readings, q r := by
  induction h with
  | nil => simp
  | cons hshows _ ih => simp [hpq hshows, ih]

theorem ne_nil_of_shows (h : List.Forall₂ (Shows now) statuses readings) :
    statuses ≠ [] ↔ readings ≠ [] := by
  cases h <;> simp

/-- **The judgement is on the first caveats.** -/
theorem judgePreflight_ok_iff (h : List.Forall₂ (Shows now) statuses readings) :
    judgePreflight statuses amount = .ok ↔ Allowed now amount (readings.map LinkReading.first) := by
  rw [judgePreflight_eq_ok, ne_nil_of_shows h, forall_of_shows active_of_shows h,
    List.forall_mem_flatMap, forall_of_shows affords_of_shows h, Allowed, List.forall_mem_map]
  simp only [ne_eq, List.map_eq_nil_iff]
  constructor
  · rintro ⟨hne, hactive, haffords⟩
    exact ⟨hne, fun r hr => ⟨hactive r hr, haffords r hr⟩⟩
  · rintro ⟨hne, hall⟩
    exact ⟨hne, fun r hr => (hall r hr).1, fun r hr => (hall r hr).2⟩

theorem mem_candidates_of_shows (h : List.Forall₂ (Shows now) statuses readings)
    {c : RemainingAllowance} :
    c ∈ statuses.flatMap DelegationStatus.allowances ↔
      ∃ r ∈ readings, (c.source = .period ∧ some c.amount ∈ r.first.periods) ∨
        (c.source = .lifetime ∧ some c.amount ∈ r.first.lifetimes) := by
  rw [List.mem_flatMap]
  exact exists_of_shows (fun hshows => mem_allowances_of_shows hshows) h

/-- The lifetime total is named when it is tied among the first caveats, and only then. -/
theorem lifetime_iff_tied (h : List.Forall₂ (Shows now) statuses readings) {t : RemainingAllowance}
    (ht : Tightest (statuses.flatMap DelegationStatus.allowances) t) :
    t.source = .lifetime ↔ LifetimeTied (readings.map LinkReading.first) := by
  constructor
  · intro hsource
    obtain ⟨r, hr, hperiod | hlifetime⟩ := (mem_candidates_of_shows h).mp ht.mem
    · exact absurd (hsource.symm.trans hperiod.1) nofun
    · refine ⟨r.first, List.mem_map_of_mem hr, t.amount, hlifetime.2, List.forall_mem_map.mpr ?_⟩
      intro r' hr' m hm
      exact ht.least ⟨m, .period⟩ ((mem_candidates_of_shows h).mpr ⟨r', hr', .inl ⟨rfl, hm⟩⟩)
  · rintro ⟨r, hr, n, hn, hbelow⟩
    obtain ⟨r, hread, rfl⟩ := List.mem_map.mp hr
    have hcandidate :
        ⟨n, .lifetime⟩ ∈ statuses.flatMap DelegationStatus.allowances :=
      (mem_candidates_of_shows h).mpr ⟨r, hread, .inr ⟨rfl, hn⟩⟩
    -- a period allowance that is tightest is tied with this one
    obtain ⟨r', hr', hperiod | hlifetime⟩ := (mem_candidates_of_shows h).mp ht.mem
    · have hle := hbelow r'.first (List.mem_map_of_mem hr') t.amount hperiod.2
      exact ht.lifetime _ hcandidate rfl (le_antisymm hle (ht.least _ hcandidate))
    · exact hlifetime.1

/-- **A payment refused for money** is refused for a first caveat. -/
theorem judgePreflight_limit_iff (h : List.Forall₂ (Shows now) statuses readings) {detail : String} :
    judgePreflight statuses amount = .refused .LIMIT_EXCEEDED detail ↔
      readings ≠ [] ∧ (∀ r ∈ readings, r.first.Active now) ∧
        ∃ t, Tightest (statuses.flatMap DelegationStatus.allowances) t ∧ t.amount < amount ∧
          detail = limitDetail amount t := by
  rw [judgePreflight_eq_limit, ne_nil_of_shows h, forall_of_shows active_of_shows h]

/-- A payment that some first caveat does not cover has a tightest allowance. -/
theorem exists_tightest (h : List.Forall₂ (Shows now) statuses readings)
    (hover : ∃ r ∈ readings, ¬ r.first.Affords amount) :
    ∃ t, Tightest (statuses.flatMap DelegationStatus.allowances) t ∧ t.amount < amount := by
  have hnot : ¬ ∀ c ∈ statuses.flatMap DelegationStatus.allowances, amount ≤ c.amount := by
    rw [List.forall_mem_flatMap, forall_of_shows affords_of_shows h]
    intro hall
    obtain ⟨r, hr, hafford⟩ := hover
    exact hafford (hall r hr)
  push Not at hnot
  obtain ⟨c, hc, hlt⟩ := hnot
  obtain ⟨t, -, ht⟩ := tightest_of_ne_nil (List.ne_nil_of_mem hc)
  exact ⟨t, ht, (ht.least c hc).trans_lt hlt⟩

end Shown

/-! ## When the judgement is right -/

section Right

variable {now amount : Nat} {statuses : List DelegationStatus} {readings : List LinkReading}

theorem harmless_of_right (h : List.Forall₂ (Shows now) statuses readings)
    (hright : JudgedRight now amount readings (judgePreflight statuses amount)) :
    SkippedHarmless now amount readings where
  pass hfirst := (allowed_iff.mp (hright.ok_iff.mp ((judgePreflight_ok_iff h).mpr hfirst))).2
  untied hactive hover hskipped := by
    obtain ⟨t, ht, hlt⟩ := exists_tightest h hover
    obtain ⟨r, hr, -⟩ := hover
    have hlimit := (judgePreflight_limit_iff h).mpr
      ⟨List.ne_nil_of_mem hr, hactive, t, ht, hlt, rfl⟩
    obtain ⟨n, hn⟩ := hright.names_lifetime _ hlimit (lifetimeTied_of_skipped hskipped)
    refine (lifetime_iff_tied h ht).mp ?_
    cases t with
    | mk m source =>
      cases source with
      | period => exact absurd hn (limitDetail_ne amount m n)
      | lifetime => rfl

theorem right_of_harmless (h : List.Forall₂ (Shows now) statuses readings)
    (hharmless : SkippedHarmless now amount readings) :
    JudgedRight now amount readings (judgePreflight statuses amount) where
  ok_iff := by
    rw [judgePreflight_ok_iff h]
    exact ⟨fun hfirst => allowed_iff.mpr ⟨hfirst, hharmless.pass hfirst⟩,
      fun hall => (allowed_iff.mp hall).1⟩
  names_lifetime detail hdetail htied := by
    obtain ⟨hne, hactive, t, ht, hlt, rfl⟩ := (judgePreflight_limit_iff h).mp hdetail
    have hover : ∃ r ∈ readings, ¬ r.first.Affords amount := by
      by_contra hnone
      push Not at hnone
      have hall := (forall_of_shows affords_of_shows h).mpr hnone
      obtain ⟨s, hs, hmem⟩ := List.mem_flatMap.mp ht.mem
      exact absurd (hall s hs t hmem) (not_le.mpr hlt)
    have hfirst : LifetimeTied (readings.map LinkReading.first) := by
      rcases htied.cases with hfirst | hskipped
      · exact hfirst
      · exact hharmless.untied hactive hover hskipped
    obtain ⟨m, source⟩ := t
    have hsource := (lifetime_iff_tied h ht).mpr hfirst
    exact ⟨m, by rw [show source = Source.lifetime from hsource]⟩

end Right

/-- **When preflight judges the whole chain.** -/
theorem preflight_judges_chain_iff {viem : Viem} {hash : Link → String}
    {environment : SmartAccountsEnvironment} {chain : ChainState} {now : Nat} {links : List Link}
    {statuses : List DelegationStatus}
    (hread : readStatuses viem hash environment chain now links = .ok statuses) (amount : Nat) :
    (JudgedRight now amount (links.map (readLink viem hash environment chain))
        (judgePreflight statuses amount) ↔
      SkippedHarmless now amount (links.map (readLink viem hash environment chain))) ∧
    ((∀ r ∈ links.map (readLink viem hash environment chain), r.Single) →
      JudgedRight now amount (links.map (readLink viem hash environment chain))
        (judgePreflight statuses amount)) := by
  have hshows := shows_of_readStatuses hread
  exact ⟨⟨harmless_of_right hshows, right_of_harmless hshows⟩,
    fun hsingle => right_of_harmless hshows (skippedHarmless_of_single hsingle)⟩

/-! ## Two caps of one enforcer -/

def periodEnforcerAddress : String := "0x00000000000000000000000000000000000000e1"

def totalEnforcerAddress : String := "0x00000000000000000000000000000000000000e2"

def sampleEnvironment : SmartAccountsEnvironment :=
  ⟨some periodEnforcerAddress, some totalEnforcerAddress, none⟩

/-- The terms of two period caps, and of a lifetime total of 30. -/
def wideTerms : String := hexText (List.replicate 232 '0')

def narrowTerms : String := hexText (List.replicate 232 '1')

def totalTerms : String := hexText (List.replicate 102 '0' ++ ['1', 'e'])

/-- Under the wide cap 100 are left, under the narrow one 10. -/
def sampleChain : ChainState where
  disabledDelegations _ := false
  getAvailableAmount _ terms := if terms = wideTerms then ⟨100, false, 1⟩ else ⟨10, false, 1⟩
  getSpentAmount _ := 5

def onceCapped : Link where
  delegate := "0x0a"
  delegator := "0x0b"
  caveats := [⟨periodEnforcerAddress, narrowTerms⟩, ⟨totalEnforcerAddress, totalTerms⟩]

def twiceCapped : Link where
  delegate := "0x0a"
  delegator := "0x0b"
  caveats := [⟨periodEnforcerAddress, wideTerms⟩, ⟨periodEnforcerAddress, narrowTerms⟩]

def onceCappedStatus : DelegationStatus where
  delegationHash := "0x01"
  delegator := "0x0b"
  delegate := "0x0a"
  limit := some ⟨hexText (List.replicate 40 '1'), hexValue (List.replicate 64 '1'),
    hexValue (List.replicate 64 '1'), hexValue (List.replicate 64 '1')⟩
  lifetimeTotal := some ⟨hexText (List.replicate 40 '0'), 30⟩
  validity := none
  remaining := some 10
  lifetimeRemaining := some 25
  isNewPeriod := some false
  currentPeriod := some 1
  revoked := false
  expired := false
  notYetActive := false

def twiceCappedStatus : DelegationStatus where
  delegationHash := "0x01"
  delegator := "0x0b"
  delegate := "0x0a"
  limit := some ⟨hexText (List.replicate 40 '0'), 0, 0, 0⟩
  lifetimeTotal := none
  validity := none
  remaining := some 100
  lifetimeRemaining := none
  isNewPeriod := some false
  currentPeriod := some 1
  revoked := false
  expired := false
  notYetActive := false

theorem narrowTerms_ne_wideTerms : narrowTerms ≠ wideTerms := fun h => by
  have hdigits := congrArg hexBody h
  rw [narrowTerms, wideTerms, hexBody_hexText, hexBody_hexText] at hdigits
  exact absurd hdigits (by decide)

/-- What the terms of a period cap decode to where one digit is repeated in them. -/
def samplePeriod (c : Char) : PeriodLimit :=
  ⟨hexText (List.replicate 40 c), hexValue (List.replicate 64 c), hexValue (List.replicate 64 c),
    hexValue (List.replicate 64 c)⟩

theorem decode_replicate (c : Char) :
    decodePeriodTransferTerms Viem.plain (hexText (List.replicate 232 c)) = .ok (samplePeriod c) := by
  rw [decodePeriodTransferTerms_hexText Viem.plain List.length_replicate]
  simp only [List.drop_replicate, List.take_replicate]
  rfl

theorem decode_totalTerms :
    decodeTransferAmountTerms Viem.plain totalTerms = .ok ⟨hexText (List.replicate 40 '0'), 30⟩ := by
  rw [totalTerms, decodeTransferAmountTerms_hexText Viem.plain (by decide)]
  rfl

theorem decode_narrowTerms :
    decodePeriodTransferTerms Viem.plain narrowTerms = .ok (samplePeriod '1') := decode_replicate '1'

theorem decode_wideTerms :
    decodePeriodTransferTerms Viem.plain wideTerms = .ok (samplePeriod '0') := decode_replicate '0'

theorem available_narrowTerms : sampleChain.getAvailableAmount "0x01" narrowTerms = ⟨10, false, 1⟩ := by
  simp only [sampleChain, narrowTerms_ne_wideTerms, if_false]

theorem available_wideTerms : sampleChain.getAvailableAmount "0x01" wideTerms = ⟨100, false, 1⟩ := by
  simp only [sampleChain, if_true]

theorem samplePeriod_zero : samplePeriod '0' = ⟨hexText (List.replicate 40 '0'), 0, 0, 0⟩ := by
  have hzero : hexValue (List.replicate 64 '0') = 0 := by decide +kernel
  rw [samplePeriod, hzero]

theorem read_onceCapped :
    readStatuses Viem.plain (fun _ => "0x01") sampleEnvironment sampleChain 1000 [onceCapped]
      = .ok [onceCappedStatus] := by
  have hperiod : findCaveatTerms Viem.plain onceCapped periodEnforcerAddress = some narrowTerms := by
    simp [findCaveatTerms, onceCapped]
  have htotal : findCaveatTerms Viem.plain onceCapped totalEnforcerAddress = some totalTerms := by
    simp [findCaveatTerms, onceCapped, Viem.plain, periodEnforcerAddress, totalEnforcerAddress]
  simp only [readStatuses, List.mapM_cons, List.mapM_nil, readDelegationStatus, sampleEnvironment,
    Option.bind_some, Option.bind_none, hperiod, htotal, decoded, decode_totalTerms,
    decode_narrowTerms, Option.map_some, available_narrowTerms]
  rfl

theorem read_twiceCapped :
    readStatuses Viem.plain (fun _ => "0x01") sampleEnvironment sampleChain 1000 [twiceCapped]
      = .ok [twiceCappedStatus] := by
  have hperiod : findCaveatTerms Viem.plain twiceCapped periodEnforcerAddress = some wideTerms := by
    simp [findCaveatTerms, twiceCapped]
  have htotal : findCaveatTerms Viem.plain twiceCapped totalEnforcerAddress = none := by
    simp [findCaveatTerms, twiceCapped, Viem.plain, periodEnforcerAddress, totalEnforcerAddress]
  simp only [readStatuses, List.mapM_cons, List.mapM_nil, readDelegationStatus, sampleEnvironment,
    Option.bind_some, Option.bind_none, hperiod, htotal, decoded, decode_wideTerms,
    samplePeriod_zero, Option.map_some, available_wideTerms]
  rfl

theorem readLink_onceCapped :
    readLink Viem.plain (fun _ => "0x01") sampleEnvironment sampleChain onceCapped
      = ⟨false, [], [some 10], [some 25]⟩ := by
  have hperiods : caveatsOf Viem.plain onceCapped (some periodEnforcerAddress)
      = [⟨periodEnforcerAddress, narrowTerms⟩] := by
    simp [caveatsOf, onceCapped, Viem.plain, periodEnforcerAddress, totalEnforcerAddress]
  have htotals : caveatsOf Viem.plain onceCapped (some totalEnforcerAddress)
      = [⟨totalEnforcerAddress, totalTerms⟩] := by
    simp [caveatsOf, onceCapped, Viem.plain, periodEnforcerAddress, totalEnforcerAddress]
  simp only [readLink, sampleEnvironment, hperiods, htotals, List.map_cons, List.map_nil,
    decode_narrowTerms, decode_totalTerms, available_narrowTerms]
  rfl

theorem readLink_twiceCapped :
    readLink Viem.plain (fun _ => "0x01") sampleEnvironment sampleChain twiceCapped
      = ⟨false, [], [some 100, some 10], []⟩ := by
  have hperiods : caveatsOf Viem.plain twiceCapped (some periodEnforcerAddress)
      = [⟨periodEnforcerAddress, wideTerms⟩, ⟨periodEnforcerAddress, narrowTerms⟩] := by
    simp [caveatsOf, twiceCapped]
  have htotals : caveatsOf Viem.plain twiceCapped (some totalEnforcerAddress) = [] := by
    simp [caveatsOf, twiceCapped, Viem.plain, periodEnforcerAddress, totalEnforcerAddress]
  simp only [readLink, sampleEnvironment, hperiods, htotals, List.map_cons, List.map_nil,
    decode_wideTerms, decode_narrowTerms, available_wideTerms, available_narrowTerms]
  rfl

/-- A payment of 20 through a chain of single caps, and one of 5 that both caps of a link let through. -/
theorem preflight_judges_chain_capped :
    JudgedRight 1000 20
        ([onceCapped].map (readLink Viem.plain (fun _ => "0x01") sampleEnvironment sampleChain))
        (judgePreflight [onceCappedStatus] 20) ∧
      JudgedRight 1000 5
        ([twiceCapped].map (readLink Viem.plain (fun _ => "0x01") sampleEnvironment sampleChain))
        (judgePreflight [twiceCappedStatus] 5) := by
  constructor
  · refine (preflight_judges_chain_iff read_onceCapped 20).2 (List.forall_mem_singleton.mpr ?_)
    rw [readLink_onceCapped]
    exact ⟨by decide, by decide, by decide⟩
  · refine (preflight_judges_chain_iff read_twiceCapped 5).1.mpr ?_
    rw [List.map_singleton, readLink_twiceCapped]
    refine ⟨fun _ => List.forall_mem_singleton.mpr ⟨nofun, ?_, nofun⟩, fun _ _ hskipped => ?_⟩
    · exact List.forall_mem_singleton.mpr ⟨10, rfl, by decide⟩
    · obtain ⟨_, hr, _, hn, -⟩ := hskipped
      cases List.mem_singleton.mp hr
      cases hn

/-- A payment of 50 is cleared, and the second cap has 10 left. -/
theorem twiceCapped_cleared :
    readStatuses Viem.plain (fun _ => "0x01") sampleEnvironment sampleChain 1000 [twiceCapped]
        = .ok [twiceCappedStatus] ∧
      judgePreflight [twiceCappedStatus] 50 = .ok ∧
      ¬ JudgedRight 1000 50
        ([twiceCapped].map (readLink Viem.plain (fun _ => "0x01") sampleEnvironment sampleChain))
        (judgePreflight [twiceCappedStatus] 50) := by
  have hcleared : judgePreflight [twiceCappedStatus] 50 = .ok := by decide +kernel
  refine ⟨read_twiceCapped, hcleared, fun hright => ?_⟩
  obtain ⟨-, hall⟩ := hright.ok_iff.mp hcleared
  obtain ⟨-, hperiods, -⟩ := hall _ List.mem_cons_self
  rw [readLink_twiceCapped] at hperiods
  obtain ⟨n, hn, hle⟩ := hperiods (some 10) (by decide)
  obtain rfl := Option.some.inj hn
  exact absurd hle (by decide)

end Mapae.Delegation.Preflight
