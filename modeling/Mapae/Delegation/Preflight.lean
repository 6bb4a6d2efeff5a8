import Mapae.Delegation.Policy
import Mapae.Delegation.UserOperation

/-!
# Preflight of a payment

`readDelegationStatus` reads the terms of a delegation's caveats and what their enforcers say of
them, and `judgePreflight` says from every link's status whether a payment may be signed.

* `findCaveatTerms` finds the first caveat of an enforcer. A second one is not read
* `Tightest` is what `tightestRemaining` returns: a least allowance, the lifetime's where it is tied
* `LinkReading` has every caveat of a link, as the enforcers have it, and `LinkReading.first` what the
  reader sees of it
-/

namespace Mapae.Delegation.Preflight

open Mapae.Infra

structure Caveat where
  enforcer : String
  terms : String

/-- A delegation of the chain. -/
structure Link where
  delegate : String
  delegator : String
  caveats : List Caveat

/-- The pinned contracts. An environment may lack an enforcer. -/
structure SmartAccountsEnvironment where
  periodEnforcer : Option String
  totalEnforcer : Option String
  timestampEnforcer : Option String

/-- What `getAvailableAmount` returns. -/
structure Available where
  availableAmount : Nat
  isNewPeriod : Bool
  currentPeriod : Nat

/-- The state of the contracts, for the manager of the environment. -/
structure ChainState where
  disabledDelegations : String → Bool
  /-- By the hash of the delegation and the terms of the caveat. -/
  getAvailableAmount : String → String → Available
  /-- One cell for each hash. -/
  getSpentAmount : String → Nat

structure PeriodLimit where
  token : String
  periodAmount : Nat
  periodDuration : Nat
  startDate : Nat

structure LifetimeTotal where
  token : String
  maxAmount : Nat

/-! ## Terms -/

/-- `size(terms)`. -/
def size (terms : String) : Nat := ((hexBody terms).length + 1) / 2

/-- The digits of `slice(terms, from, to)`. -/
def slice (terms : String) (first last : Nat) : List Char :=
  ((hexBody terms).drop (2 * first)).take (2 * (last - first))

def decodePeriodTransferTerms (viem : Viem) (terms : String) : Except String PeriodLimit := do
  throwIf (size terms ≠ 116) s!"erc20PeriodTransfer terms must be 116 bytes, got {size terms}"
  pure
    { token := viem.getAddress (hexText (slice terms 0 20))
      periodAmount := hexValue (slice terms 20 52)
      periodDuration := hexValue (slice terms 52 84)
      startDate := hexValue (slice terms 84 116) }

def decodeTransferAmountTerms (viem : Viem) (terms : String) : Except String LifetimeTotal := do
  throwIf (size terms ≠ 52) s!"erc20TransferAmount terms must be 52 bytes, got {size terms}"
  pure
    { token := viem.getAddress (hexText (slice terms 0 20))
      maxAmount := hexValue (slice terms 20 52) }

def decodeTimestampTerms (terms : String) : Except String ValidityWindow := do
  throwIf (size terms ≠ 32) s!"timestamp terms must be 32 bytes, got {size terms}"
  pure ⟨hexValue (slice terms 0 16), hexValue (slice terms 16 32)⟩

section Terms

variable (viem : Viem) {digits : List Char}

/-- Terms of a period cap that are 116 bytes. -/
theorem decodePeriodTransferTerms_hexText (h : digits.length = 232) :
    decodePeriodTransferTerms viem (hexText digits) = .ok
      { token := viem.getAddress (hexText (digits.take 40))
        periodAmount := hexValue ((digits.drop 40).take 64)
        periodDuration := hexValue ((digits.drop 104).take 64)
        startDate := hexValue ((digits.drop 168).take 64) } := by
  have hsize : size (hexText digits) = 116 := by rw [size, hexBody_hexText, h]
  simp [decodePeriodTransferTerms, slice, hsize, throwIf]

/-- Terms of a lifetime total that are 52 bytes. -/
theorem decodeTransferAmountTerms_hexText (h : digits.length = 104) :
    decodeTransferAmountTerms viem (hexText digits) = .ok
      { token := viem.getAddress (hexText (digits.take 40))
        maxAmount := hexValue ((digits.drop 40).take 64) } := by
  have hsize : size (hexText digits) = 52 := by rw [size, hexBody_hexText, h]
  simp [decodeTransferAmountTerms, slice, hsize, throwIf]

end Terms

/-- The caveats of one enforcer. -/
def caveatsOf (viem : Viem) (link : Link) (enforcer : Option String) : List Caveat :=
  match enforcer with
  | none => []
  | some enforcer =>
    link.caveats.filter fun caveat => viem.getAddress caveat.enforcer = viem.getAddress enforcer

/-- The first caveat of an enforcer. -/
def findCaveatTerms (viem : Viem) (link : Link) (enforcer : String) : Option String :=
  (link.caveats.find? fun caveat =>
    viem.getAddress caveat.enforcer = viem.getAddress enforcer).map Caveat.terms

/-- The reader takes the first caveat only. -/
theorem findCaveatTerms_eq (viem : Viem) (link : Link) (enforcer : Option String) :
    enforcer.bind (findCaveatTerms viem link)
      = (caveatsOf viem link enforcer).head?.map Caveat.terms := by
  cases enforcer with
  | none => rfl
  | some enforcer =>
    rw [Option.bind_some, findCaveatTerms, caveatsOf, List.head?_filter]

/-! ## The status of a link -/

structure DelegationStatus where
  delegationHash : String
  delegator : String
  delegate : String
  limit : Option PeriodLimit
  lifetimeTotal : Option LifetimeTotal
  validity : Option ValidityWindow
  /-- What is left of the period. -/
  remaining : Option Nat
  /-- What is left of the lifetime total. -/
  lifetimeRemaining : Option Nat
  isNewPeriod : Option Bool
  currentPeriod : Option Nat
  revoked : Bool
  expired : Bool
  notYetActive : Bool

/-- What the terms decode to, where there are terms. -/
def decoded {α : Type} (decode : String → Except String α) (terms : Option String) :
    Except String (Option α) :=
  match terms with
  | none => pure none
  | some terms => do
    let value ← decode terms
    pure (some value)

/-- `hash` is the kit's hash of a delegation, `now` the time of the judgement. -/
def readDelegationStatus (viem : Viem) (hash : Link → String)
    (environment : SmartAccountsEnvironment) (chain : ChainState) (now : Nat)
    (link : Link) : Except String DelegationStatus := do
  let delegationHash := hash link
  let periodTerms := environment.periodEnforcer.bind (findCaveatTerms viem link)
  let totalTerms := environment.totalEnforcer.bind (findCaveatTerms viem link)
  let timestampTerms := environment.timestampEnforcer.bind (findCaveatTerms viem link)
  let available := periodTerms.map (chain.getAvailableAmount delegationHash)
  let validity ← decoded decodeTimestampTerms timestampTerms
  let verdict := judgeValidity validity now
  let lifetimeTotal ← decoded (decodeTransferAmountTerms viem) totalTerms
  let limit ← decoded (decodePeriodTransferTerms viem) periodTerms
  pure
    { delegationHash
      delegator := viem.getAddress link.delegator
      delegate := viem.getAddress link.delegate
      limit
      lifetimeTotal
      validity
      remaining := available.map Available.availableAmount
      lifetimeRemaining := lifetimeTotal.map fun total =>
        total.maxAmount - chain.getSpentAmount delegationHash
      isNewPeriod := available.map Available.isNewPeriod
      currentPeriod := available.map Available.currentPeriod
      revoked := chain.disabledDelegations delegationHash
      expired := verdict.expired
      notYetActive := verdict.notYetActive }

/-! ## The tightest allowance -/

/-- Which cap gave the answer. -/
inductive Source where
  | period
  | lifetime
  deriving DecidableEq

structure RemainingAllowance where
  amount : Nat
  source : Source

/-- One candidate more. Of two equal amounts the lifetime's is named. -/
def consider (tightest : Option RemainingAllowance) (candidate : RemainingAllowance) :
    Option RemainingAllowance :=
  match tightest with
  | none => some candidate
  | some tightest =>
    if candidate.amount < tightest.amount then some candidate
    else if candidate.amount = tightest.amount ∧ candidate.source = .lifetime then some candidate
    else some tightest

/-- The allowances of one link. -/
def DelegationStatus.allowances (status : DelegationStatus) : List RemainingAllowance :=
  (status.remaining.map fun amount => ⟨amount, .period⟩).toList ++
    (status.lifetimeRemaining.map fun amount => ⟨amount, .lifetime⟩).toList

def tightestRemaining (statuses : List DelegationStatus) : Option RemainingAllowance :=
  (statuses.flatMap DelegationStatus.allowances).foldl consider none

inductive RefusalCode where
  | LIMIT_EXCEEDED
  | PERMISSION_INACTIVE
  | PERMISSION_EMPTY
  deriving DecidableEq

inductive PreflightVerdict where
  | ok
  | refused (code : RefusalCode) (detail : String)
  deriving DecidableEq

/-- What is said of a payment over the limit. -/
def limitDetail (amount : Nat) (tightest : RemainingAllowance) : String :=
  match tightest.source with
  | .period => s!"payment of {amount} exceeds {tightest.amount} left in this period"
  | .lifetime =>
    s!"payment of {amount} exceeds {tightest.amount} left in this permission's lifetime total" ++
      " — the total does not refresh with the period, so a new grant has to be signed"

/-- Why a link is not usable at any amount. -/
def inactiveDetail (status : DelegationStatus) : Option String :=
  if status.revoked then some "permission was revoked"
  else if status.expired then some "permission has expired"
  else if status.notYetActive then some "permission is not active yet"
  else none

def judgePreflight (statuses : List DelegationStatus) (amount : Nat) : PreflightVerdict :=
  if statuses = [] then
    .refused .PERMISSION_EMPTY
      "permission context decodes to no delegations — nothing to spend under"
  else
    match statuses.findSome? inactiveDetail with
    | some detail => .refused .PERMISSION_INACTIVE detail
    | none =>
      match tightestRemaining statuses with
      | none => .ok
      | some tightest =>
        if tightest.amount < amount then .refused .LIMIT_EXCEEDED (limitDetail amount tightest)
        else .ok

/-- The statuses of a chain. -/
def readStatuses (viem : Viem) (hash : Link → String) (environment : SmartAccountsEnvironment)
    (chain : ChainState) (now : Nat) (links : List Link) : Except String (List DelegationStatus) :=
  links.mapM (readDelegationStatus viem hash environment chain now)

/-! ## What the enforcers say of a link -/

/-- Every caveat of a link, and what its enforcer says of it. Terms that cannot be decoded say
nothing, and let nothing through. -/
structure LinkReading where
  revoked : Bool
  windows : List (Option ValidityWindow)
  periods : List (Option Nat)
  lifetimes : List (Option Nat)

/-- What the reader sees: one caveat of each enforcer. -/
def LinkReading.first (reading : LinkReading) : LinkReading where
  revoked := reading.revoked
  windows := reading.windows.take 1
  periods := reading.periods.take 1
  lifetimes := reading.lifetimes.take 1

def readLink (viem : Viem) (hash : Link → String) (environment : SmartAccountsEnvironment)
    (chain : ChainState) (link : Link) : LinkReading where
  revoked := chain.disabledDelegations (hash link)
  windows := (caveatsOf viem link environment.timestampEnforcer).map fun caveat =>
    (decodeTimestampTerms caveat.terms).toOption
  periods := (caveatsOf viem link environment.periodEnforcer).map fun caveat =>
    (decodePeriodTransferTerms viem caveat.terms).toOption.map fun _ =>
      (chain.getAvailableAmount (hash link) caveat.terms).availableAmount
  lifetimes := (caveatsOf viem link environment.totalEnforcer).map fun caveat =>
    (decodeTransferAmountTerms viem caveat.terms).toOption.map fun total =>
      total.maxAmount - chain.getSpentAmount (hash link)

/-- The status says of a link what the enforcers say of its first caveats. -/
structure Shows (now : Nat) (status : DelegationStatus) (reading : LinkReading) : Prop where
  revoked_eq : status.revoked = reading.revoked
  windows_eq : ∃ validity, reading.windows.take 1 = (validity.map some).toList ∧
    (⟨status.expired, status.notYetActive⟩ : ValidityVerdict) = judgeValidity validity now
  periods_eq : reading.periods.take 1 = (status.remaining.map some).toList
  lifetimes_eq : reading.lifetimes.take 1 = (status.lifetimeRemaining.map some).toList

section Reading

variable {viem : Viem} {hash : Link → String} {environment : SmartAccountsEnvironment}
  {chain : ChainState} {now : Nat} {link : Link} {status : DelegationStatus}

/-- What the first of some caveats decodes to. -/
theorem decoded_head_eq_ok {α : Type} {decode : String → Except String α} {caveats : List Caveat}
    {value : Option α} :
    decoded decode (caveats.head?.map Caveat.terms) = .ok value ↔
      (caveats = [] ∧ value = none) ∨
        ∃ caveat rest v, caveats = caveat :: rest ∧ decode caveat.terms = .ok v ∧ value = some v := by
  cases caveats with
  | nil => simp only [List.head?_nil, Option.map_none, decoded, pure_eq_ok]; simp [eq_comm]
  | cons caveat rest =>
    simp only [List.head?_cons, Option.map_some, decoded, bind_eq_ok, pure_eq_ok]
    simp [eq_comm]

/-- **The reader sees the first caveats.** -/
theorem shows_of_read
    (h : readDelegationStatus viem hash environment chain now link = .ok status) :
    Shows now status (readLink viem hash environment chain link) := by
  simp only [readDelegationStatus, bind_eq_ok, pure_eq_ok, findCaveatTerms_eq, decoded_head_eq_ok]
    at h
  obtain ⟨validity, hvalidity, total, htotal, limit, hlimit, rfl⟩ := h
  refine ⟨rfl, ⟨validity, ?_, rfl⟩, ?_, ?_⟩
  · rcases hvalidity with ⟨hnil, rfl⟩ | ⟨caveat, rest, v, hcons, hdecode, rfl⟩
    · simp [readLink, hnil]
    · simp [readLink, hcons, hdecode, Except.toOption]
  · rcases hlimit with ⟨hnil, rfl⟩ | ⟨caveat, rest, v, hcons, hdecode, rfl⟩
    · simp [readLink, hnil]
    · simp [readLink, hcons, hdecode, Except.toOption]
  · rcases htotal with ⟨hnil, rfl⟩ | ⟨caveat, rest, v, hcons, hdecode, rfl⟩
    · simp [readLink, hnil]
    · simp [readLink, hcons, hdecode, Except.toOption]

theorem shows_of_readStatuses {links : List Link} {statuses : List DelegationStatus}
    (h : readStatuses viem hash environment chain now links = .ok statuses) :
    List.Forall₂ (Shows now) statuses (links.map (readLink viem hash environment chain)) := by
  induction links generalizing statuses with
  | nil =>
    obtain rfl := pure_eq_ok.mp h
    exact .nil
  | cons link links ih =>
    rw [readStatuses, List.mapM_cons] at h
    simp only [bind_eq_ok, pure_eq_ok] at h
    obtain ⟨status, hstatus, rest, hrest, rfl⟩ := h
    exact .cons (shows_of_read hstatus) (ih hrest)

end Reading

/-! ## The tightest allowance, as a minimum -/

/-- A least one of some allowances, the lifetime's where it is tied. -/
structure Tightest (candidates : List RemainingAllowance) (t : RemainingAllowance) : Prop where
  mem : t ∈ candidates
  least : ∀ c ∈ candidates, t.amount ≤ c.amount
  lifetime : ∀ c ∈ candidates, c.source = .lifetime → c.amount = t.amount → t.source = .lifetime

section Tightest

variable {seen candidates : List RemainingAllowance} {t c : RemainingAllowance}

/-- One candidate more keeps a tightest one. -/
theorem Tightest.consider (h : Tightest seen t) (c : RemainingAllowance) :
    ∃ t', consider (some t) c = some t' ∧ Tightest (seen ++ [c]) t' := by
  have hmem : ∀ {x}, x ∈ seen ++ [c] ↔ x ∈ seen ∨ x = c := by
    intro x
    rw [List.mem_append, List.mem_singleton]
  simp only [Preflight.consider]
  split
  · next hlt =>
    refine ⟨c, rfl, hmem.mpr (.inr rfl), fun x hx => ?_, fun x hx hsource heq => ?_⟩
    · rcases hmem.mp hx with hx | rfl
      · exact (hlt.trans_le (h.least x hx)).le
      · exact le_refl _
    · rcases hmem.mp hx with hx | rfl
      · have := h.least x hx
        omega
      · exact hsource
  · next hlt =>
    split
    · next htie =>
      refine ⟨c, rfl, hmem.mpr (.inr rfl), fun x hx => ?_, fun x _ _ _ => htie.2⟩
      rcases hmem.mp hx with hx | rfl
      · exact htie.1.trans_le (h.least x hx)
      · exact le_refl _
    · next htie =>
      refine ⟨t, rfl, hmem.mpr (.inl h.mem), fun x hx => ?_, fun x hx hsource heq => ?_⟩
      · rcases hmem.mp hx with hx | rfl
        · exact h.least x hx
        · omega
      · rcases hmem.mp hx with hx | rfl
        · exact h.lifetime x hx hsource heq
        · exact absurd ⟨heq, hsource⟩ htie

/-- Two tightest allowances are one. -/
theorem Tightest.unique {t' : RemainingAllowance} (h : Tightest candidates t)
    (h' : Tightest candidates t') : t' = t := by
  have hamount : t'.amount = t.amount := le_antisymm (h'.least t h.mem) (h.least t' h'.mem)
  have hsource : t'.source = .lifetime ↔ t.source = .lifetime :=
    ⟨fun hs => h.lifetime t' h'.mem hs hamount, fun hs => h'.lifetime t h.mem hs hamount.symm⟩
  cases t with
  | mk amount source =>
    cases t' with
    | mk amount' source' =>
      cases source <;> cases source' <;> simp_all

theorem Tightest.foldl (h : Tightest seen t) (candidates : List RemainingAllowance) :
    ∃ t', candidates.foldl Preflight.consider (some t) = some t' ∧
      Tightest (seen ++ candidates) t' := by
  induction candidates generalizing seen t with
  | nil => exact ⟨t, rfl, by rwa [List.append_nil]⟩
  | cons c candidates ih =>
    obtain ⟨t₁, hstep, h₁⟩ := h.consider c
    obtain ⟨t', hrest, h'⟩ := ih h₁
    exact ⟨t', by rw [List.foldl_cons, hstep, hrest], by simpa using h'⟩

/-- **The allowance that is named is a tightest one.** -/
theorem tightest_of_ne_nil (hne : candidates ≠ []) :
    ∃ t, candidates.foldl Preflight.consider none = some t ∧ Tightest candidates t := by
  cases candidates with
  | nil => exact absurd rfl hne
  | cons c candidates =>
    have hfirst : Tightest [c] c := by
      refine ⟨List.mem_singleton_self c, ?_, ?_⟩
      · intro x hx
        rw [List.mem_singleton.mp hx]
      · intro x hx hsource _
        rwa [← List.mem_singleton.mp hx]
    exact hfirst.foldl candidates

end Tightest

/-! ## The verdict -/

section Verdict

variable {statuses : List DelegationStatus} {amount : Nat}

theorem inactiveDetail_eq_none {status : DelegationStatus} :
    inactiveDetail status = none ↔
      status.revoked = false ∧ status.expired = false ∧ status.notYetActive = false := by
  unfold inactiveDetail
  cases status.revoked <;> cases status.expired <;> cases status.notYetActive <;> simp

/-- How a verdict comes about. -/
inductive Judged (statuses : List DelegationStatus) (amount : Nat) : PreflightVerdict → Prop where
  | empty (detail : String) (hempty : statuses = []) :
    Judged statuses amount (.refused .PERMISSION_EMPTY detail)
  | inactive (detail : String) (s : DelegationStatus) (hs : s ∈ statuses)
      (hdetail : inactiveDetail s = some detail) :
    Judged statuses amount (.refused .PERMISSION_INACTIVE detail)
  | uncapped (hne : statuses ≠ []) (hactive : ∀ s ∈ statuses, inactiveDetail s = none)
      (hnone : statuses.flatMap DelegationStatus.allowances = []) : Judged statuses amount .ok
  | overLimit (hne : statuses ≠ []) (hactive : ∀ s ∈ statuses, inactiveDetail s = none)
      (t : RemainingAllowance) (ht : Tightest (statuses.flatMap DelegationStatus.allowances) t)
      (hlt : t.amount < amount) :
    Judged statuses amount (.refused .LIMIT_EXCEEDED (limitDetail amount t))
  | within (hne : statuses ≠ []) (hactive : ∀ s ∈ statuses, inactiveDetail s = none)
      (t : RemainingAllowance) (ht : Tightest (statuses.flatMap DelegationStatus.allowances) t)
      (hle : amount ≤ t.amount) : Judged statuses amount .ok

theorem judged (statuses : List DelegationStatus) (amount : Nat) :
    Judged statuses amount (judgePreflight statuses amount) := by
  unfold judgePreflight
  split
  · next hempty => exact .empty _ hempty
  · next hne =>
    split
    · next detail hdetail =>
      obtain ⟨s, hs, hsome⟩ := List.exists_of_findSome?_eq_some hdetail
      exact .inactive detail s hs hsome
    · next hactive =>
      have hactive := List.findSome?_eq_none_iff.mp hactive
      by_cases hnone : statuses.flatMap DelegationStatus.allowances = []
      · rw [tightestRemaining, hnone]
        exact .uncapped hne hactive hnone
      · obtain ⟨t, hfold, ht⟩ := tightest_of_ne_nil hnone
        rw [tightestRemaining, hfold]
        dsimp only
        split
        · next hlt => exact .overLimit hne hactive t ht hlt
        · next hle => exact .within hne hactive t ht (not_lt.mp hle)

/-- **A payment may be signed** when every link is active and no allowance is below the amount. -/
theorem judgePreflight_eq_ok :
    judgePreflight statuses amount = .ok ↔
      statuses ≠ [] ∧ (∀ s ∈ statuses, inactiveDetail s = none) ∧
        ∀ c ∈ statuses.flatMap DelegationStatus.allowances, amount ≤ c.amount := by
  have hjudged := judged statuses amount
  constructor
  · intro hok
    rw [hok] at hjudged
    cases hjudged with
    | uncapped hne hactive hnone => exact ⟨hne, hactive, fun c hc => by rw [hnone] at hc; cases hc⟩
    | within hne hactive t ht hle => exact ⟨hne, hactive, fun c hc => hle.trans (ht.least c hc)⟩
  · rintro ⟨hne, hactive, hall⟩
    generalize judgePreflight statuses amount = verdict at hjudged ⊢
    cases hjudged with
    | empty detail hempty => exact absurd hempty hne
    | inactive detail s hs hdetail => rw [hactive s hs] at hdetail; cases hdetail
    | overLimit _ _ t ht hlt => exact absurd (hall t ht.mem) (not_le.mpr hlt)
    | uncapped | within => rfl

/-- **A payment is refused for money** when every link is active and the tightest allowance is below
the amount. -/
theorem judgePreflight_eq_limit {detail : String} :
    judgePreflight statuses amount = .refused .LIMIT_EXCEEDED detail ↔
      statuses ≠ [] ∧ (∀ s ∈ statuses, inactiveDetail s = none) ∧
        ∃ t, Tightest (statuses.flatMap DelegationStatus.allowances) t ∧ t.amount < amount ∧
          detail = limitDetail amount t := by
  have hjudged := judged statuses amount
  constructor
  · intro hlimit
    rw [hlimit] at hjudged
    cases hjudged with
    | overLimit hne hactive t ht hlt => exact ⟨hne, hactive, t, ht, hlt, rfl⟩
  · rintro ⟨hne, hactive, t, ht, hlt, rfl⟩
    generalize judgePreflight statuses amount = verdict at hjudged ⊢
    cases hjudged with
    | empty detail hempty => exact absurd hempty hne
    | inactive detail s hs hdetail => rw [hactive s hs] at hdetail; cases hdetail
    | uncapped _ _ hnone => rw [hnone] at ht; cases ht.mem
    | overLimit _ _ t' ht' _ => rw [ht'.unique ht]
    | within _ _ t' ht' hle => exact absurd (hle.trans (ht'.least t ht.mem)) (not_le.mpr hlt)

/-- How a text ends. -/
theorem reverse_take_append {a b : String} (h : 2 ≤ b.toList.length) :
    (a ++ b).toList.reverse.take 2 = b.toList.reverse.take 2 := by
  rw [String.toList_append, List.reverse_append,
    List.take_append_of_le_length (by rwa [List.length_reverse])]

/-- The text of a refusal says which cap gave the answer. -/
theorem limitDetail_ne (amount n m : Nat) :
    limitDetail amount ⟨n, .period⟩ ≠ limitDetail amount ⟨m, .lifetime⟩ := by
  intro h
  have hends := congrArg (fun text : String => text.toList.reverse.take 2) h
  simp only [limitDetail] at hends
  rw [reverse_take_append (by decide), reverse_take_append (by decide)] at hends
  revert hends
  decide

end Verdict

end Mapae.Delegation.Preflight
