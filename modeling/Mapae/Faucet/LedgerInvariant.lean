import Mapae.Faucet.LedgerRun

/-!
# The invariant of the faucet's ledger

The limits of a kind are quotas: an address bucket, a subnet and the day are counted, the ETH of
a day is added up. All of them count the active claims of the last `dayMs`, so one argument
serves all of them.

* `LedgerHistory.used` is what is taken of a quota within a span, and `used_le_of_write` says that
  no call takes a quota over its cap
* `Older` is how a claim compares with the same claim after a call
* `LedgerInvariant.write` is the step lemma: a call keeps the invariant
* `finished_mem` says that a claim that is not in flight is never written again
-/

namespace Mapae.Faucet

open Mapae.Infra Mapae.Store

inductive FaucetQuota where
  | ip (key : String)
  | subnet (key : String)
  | day
  | amount

/-- What one active claim takes of a quota. -/
def FaucetQuota.weight : FaucetQuota → FaucetClaimRow → Int
  | .ip key, row => if row.ipKey = key then 1 else 0
  | .subnet key, row => if row.subnetKey = key then 1 else 0
  | .day, _ => 1
  | .amount, row => row.amount

/-- What a kind may take of a quota in a day. Only ETH is signed for what it reserved. -/
def FaucetQuota.cap (limits : FaucetReserveLimits) (kind : FaucetClaimKind) :
    FaucetQuota → Option Nat
  | .ip _ => some limits.perIp
  | .subnet _ => some limits.perSubnet
  | .day => limits.perDay
  | .amount => if kind = .eth then limits.dailyAmount else none

/-- An active claim of `kind` that was reserved after `since` and not after `until'`. -/
def FaucetClaimRow.countedIn (kind : FaucetClaimKind) (since upTo : Int) (row : FaucetClaimRow) :
    Bool :=
  row.kind = kind ∧ since < row.createdAt ∧ row.createdAt ≤ upTo ∧ row.state.active = true

/-- What a claim takes of a quota within a span. -/
def FaucetQuota.share (quota : FaucetQuota) (kind : FaucetClaimKind) (since upTo : Int)
    (row : FaucetClaimRow) : Int :=
  if row.countedIn kind since upTo = true then quota.weight row else 0

/-- What is taken of a quota within a span. -/
def LedgerHistory.used (h : LedgerHistory) (quota : FaucetQuota) (kind : FaucetClaimKind)
    (since upTo : Int) : Int :=
  (h.claims.map (quota.share kind since upTo)).sum

/-- No quota of any rolling day is overdrawn. -/
def LedgerHistory.WithinQuotas (policy : FaucetPolicy) (h : LedgerHistory) : Prop :=
  ∀ kind (quota : FaucetQuota) n, quota.cap (policy.limits kind) kind = some n →
    ∀ upTo, h.used quota kind (upTo - (policy.limits kind).dayMs) upTo ≤ n

namespace FaucetQuota

variable {quota : FaucetQuota} {kind : FaucetClaimKind} {row row' : FaucetClaimRow}
  {since upTo : Int}

theorem weight_nonneg (h : 0 ≤ row.amount) : 0 ≤ quota.weight row := by
  cases quota with
  | ip key => simp only [weight]; split <;> decide
  | subnet key => simp only [weight]; split <;> decide
  | day => exact Int.one_nonneg
  | amount => exact h

theorem share_nonneg (h : 0 ≤ row.amount) : 0 ≤ quota.share kind since upTo row := by
  unfold share
  split
  · exact weight_nonneg h
  · exact Int.le_refl 0

theorem share_of_not_counted (h : ¬ row.countedIn kind since upTo = true) :
    quota.share kind since upTo row = 0 := if_neg h

/-- A claim that moves on takes as much of a capped quota as before, or nothing. -/
theorem share_le_of_moves {limits : FaucetReserveLimits} {n : Nat}
    (hcap : quota.cap limits kind = some n) (hmoves : Moves row row') (h : 0 ≤ row.amount) :
    quota.share kind since upTo row' ≤ quota.share kind since upTo row := by
  by_cases hcounted : row'.countedIn kind since upTo = true
  · have hcols := of_decide_eq_true hcounted
    have hkind : row.kind = kind := hmoves.kind_eq ▸ hcols.1
    have hrow : row.countedIn kind since upTo = true :=
      decide_eq_true ⟨hkind, hmoves.createdAt_eq ▸ hcols.2.1, hmoves.createdAt_eq ▸ hcols.2.2.1,
        FaucetClaimState.active_of_inflight hmoves.inflight⟩
    rw [share, share, if_pos hcounted, if_pos hrow]
    cases quota with
    | ip key => rw [weight, weight, hmoves.ipKey_eq]
    | subnet key => rw [weight, weight, hmoves.subnetKey_eq]
    | day => exact Int.le_refl 1
    | amount =>
      -- Only ETH has a capped amount, and an ETH claim keeps its amount while it is active.
      have heth : kind = .eth := by
        by_contra hne
        rw [cap, if_neg hne] at hcap
        cases hcap
      exact Int.le_of_eq (hmoves.amount_eq (hkind.trans heth) hcols.2.2.2)
  · rw [share_of_not_counted hcounted]
    exact share_nonneg h

/-- Adding one up for each claim with a property counts them. -/
theorem sum_indicator (p : FaucetClaimRow → Prop) [DecidablePred p] (l : List FaucetClaimRow) :
    (l.map fun row => if p row then (1 : Int) else 0).sum = l.countP p := by
  rw [List.sum_map_ite, List.map_const', List.sum_replicate, List.map_const', List.sum_replicate,
    List.countP_eq_length_filter]
  simp

theorem sum_weight_day (l : List FaucetClaimRow) : (l.map day.weight).sum = (l.length : Int) := by
  rw [show day.weight = fun _ => 1 from rfl, List.map_const', List.sum_replicate]
  simp

/-- **What `admission` counted of a quota leaves room for the new claim.** -/
theorem room_of_admitted {rows : ClaimTable} {input : FaucetReserveInput} {now : Int}
    {limits : FaucetReserveLimits} {n : Nat} {id : String} (h : Admitted rows input now limits)
    (hcap : quota.cap limits input.kind = some n)
    (hweight : quota.weight (reservedRow id input now) ≠ 0) :
    ((activeSince rows input.kind (now - limits.dayMs)).map quota.weight).sum +
      quota.weight (reservedRow id input now) ≤ n := by
  cases quota with
  | ip key =>
    have hkey : input.ipKey = key := by
      by_contra hne
      exact hweight (if_neg hne)
    subst hkey
    have hroom := h.perIp
    rw [show limits.perIp = n from Option.some.inj hcap] at hroom
    have hsum : ((activeSince rows input.kind (now - limits.dayMs)).map
        (ip input.ipKey).weight).sum =
          (countIp rows input.ipKey input.kind (now - limits.dayMs) : Int) := sum_indicator _ _
    rw [hsum, show (ip input.ipKey).weight (reservedRow id input now) = 1 from if_pos rfl]
    exact_mod_cast hroom
  | subnet key =>
    have hkey : input.subnetKey = key := by
      by_contra hne
      exact hweight (if_neg hne)
    subst hkey
    have hroom := h.perSubnet
    rw [show limits.perSubnet = n from Option.some.inj hcap] at hroom
    have hsum : ((activeSince rows input.kind (now - limits.dayMs)).map
        (subnet input.subnetKey).weight).sum =
          (countSubnet rows input.subnetKey input.kind (now - limits.dayMs) : Int) :=
      sum_indicator _ _
    rw [hsum, show (subnet input.subnetKey).weight (reservedRow id input now) = 1 from if_pos rfl]
    exact_mod_cast hroom
  | day =>
    have hroom := h.perDay n hcap
    rw [sum_weight_day, show day.weight (reservedRow id input now) = 1 from rfl]
    exact_mod_cast hroom
  | amount =>
    refine h.dailyAmount n ?_
    rw [cap] at hcap
    split at hcap
    · exact hcap
    · cases hcap

end FaucetQuota

/-! ## How a call moves what is used -/

section Used

variable {h : LedgerHistory} {now : Int} {quota : FaucetQuota}
  {kind : FaucetClaimKind} {since upTo : Int}

/-- Within the span of a new claim the pruned rows are too old to count, and the others were
counted by `admission`. -/
theorem used_le_activeSince {now : Int} (hnonneg : ∀ claim ∈ h.claims, 0 ≤ claim.amount)
    (hpruned : ∀ claim ∈ h.pruned, claim.createdAt ≤ since) (hsince : now ≤ since) :
    h.used quota kind since upTo ≤ ((activeSince h.rows kind now).map quota.weight).sum := by
  have hrows : (h.rows.rows.map (quota.share kind since upTo)).sum ≤
      ((activeSince h.rows kind now).map quota.weight).sum := by
    have hfiltered : ((activeSince h.rows kind now).map quota.weight).sum =
        (h.rows.rows.map fun row =>
          if row.kind = kind ∧ now < row.createdAt ∧ row.state.active = true then quota.weight row
          else 0).sum := by
      rw [List.sum_map_ite, List.map_const', List.sum_replicate, nsmul_zero, add_zero]
      rfl
    rw [hfiltered]
    refine List.sum_le_sum fun row hrow => ?_
    have hamount := hnonneg row (List.mem_append_left _ hrow)
    unfold FaucetQuota.share
    split
    · next hcounted =>
      have hcols := of_decide_eq_true hcounted
      rw [if_pos ⟨hcols.1, Int.lt_of_le_of_lt hsince hcols.2.1, hcols.2.2.2⟩]
    · split
      · exact FaucetQuota.weight_nonneg hamount
      · exact Int.le_refl 0
  have hold : (h.pruned.map (quota.share kind since upTo)).sum = 0 := by
    refine List.sum_eq_zero fun x hx => ?_
    obtain ⟨claim, hclaim, rfl⟩ := List.mem_map.mp hx
    refine FaucetQuota.share_of_not_counted fun hcounted => ?_
    have hcols := of_decide_eq_true hcounted
    exact absurd hcols.2.1 (Int.not_lt.mpr (hpruned claim hclaim))
  rw [LedgerHistory.used, LedgerHistory.claims, List.map_append, List.sum_append, hold, add_zero]
  exact hrows

/-- A new claim adds its own share. -/
theorem used_of_insert {row : FaucetClaimRow} {rows' : ClaimTable}
    (hinsert : h.rows.insert? row = some rows') :
    LedgerHistory.used ⟨rows', h.pruned, now⟩ quota kind since upTo =
      h.used quota kind since upTo + quota.share kind since upTo row := by
  simp only [LedgerHistory.used, LedgerHistory.claims, (Table.insert?_eq_some.mp hinsert).2,
    List.map_append, List.sum_append, List.map_singleton, List.sum_singleton]
  omega

/-- A claim that moves on takes no more than before. -/
theorem used_le_of_moved {row : FaucetClaimRow} {target : FaucetClaimState} {columns : SetColumns}
    {limits : FaucetReserveLimits} {n : Nat} (hcap : quota.cap limits kind = some n)
    (hrow : row ∈ h.rows) (hmoves : Moves row (row.move target now columns))
    (hamount : 0 ≤ row.amount) :
    LedgerHistory.used ⟨moved h.rows row.id target now columns, h.pruned, now⟩ quota kind since
      upTo ≤ h.used quota kind since upTo := by
  have hsum := Table.sum_update (f := FaucetClaimRow.move target now columns) (fun _ => rfl)
    (Table.get?_of_mem hrow) (quota.share kind since upTo)
  have hshare : quota.share kind since upTo (row.move target now columns) ≤
      quota.share kind since upTo row := FaucetQuota.share_le_of_moves hcap hmoves hamount
  simp only [Table.sum] at hsum
  simp only [LedgerHistory.used, LedgerHistory.claims, List.map_append, List.sum_append, moved]
  omega

/-- Pruning forgets nothing. -/
theorem claims_perm_of_prune (h : LedgerHistory) (now before : Int) :
    List.Perm
      (LedgerHistory.claims
        ⟨h.rows.filter fun row => !row.prunable before,
          h.rows.rows.filter (FaucetClaimRow.prunable before) ++ h.pruned, now⟩)
      h.claims := by
  unfold LedgerHistory.claims
  rw [← List.append_assoc]
  refine List.Perm.append_right _ (List.perm_append_comm.trans ?_)
  exact List.filter_append_perm (FaucetClaimRow.prunable before) h.rows.rows

end Used

/-- What holds of a ledger between two calls. -/
structure LedgerInvariant (policy : FaucetPolicy) (h : LedgerHistory) : Prop where
  ids : (h.claims.map FaucetClaimRow.id).Nodup
  created : ∀ claim ∈ h.claims, claim.createdAt ≤ h.clock
  nonneg : ∀ claim ∈ h.claims, 0 ≤ claim.amount
  checked : ∀ claim ∈ h.claims, claim.Checked
  /-- Only what is older than every window was pruned. -/
  old : ∀ claim ∈ h.pruned, claim.createdAt ≤ h.clock - policy.retention
  finished : ∀ claim ∈ h.pruned, claim.state.inflight = false
  /-- An owner has at most one claim of a kind in flight. -/
  inflight : ∀ claim ∈ h.claims, ∀ claim' ∈ h.claims, claim'.isOf claim.kind claim.owner = true →
    claim.state.inflight = true → claim'.state.inflight = true → claim.id = claim'.id
  /-- Two active claims of an owner are a window apart. -/
  spaced : ∀ claim ∈ h.claims, ∀ claim' ∈ h.claims, claim'.isOf claim.kind claim.owner = true →
    claim.state.active = true → claim'.state.active = true → claim.id ≠ claim'.id →
      (policy.limits claim.kind).windowMs ≤ |claim.createdAt - claim'.createdAt|
  quotas : h.WithinQuotas policy

/-- A claim before a call, and after it. -/
structure Older (row row' : FaucetClaimRow) : Prop where
  id_eq : row'.id = row.id
  kind_eq : row'.kind = row.kind
  owner_eq : row'.owner = row.owner
  createdAt_eq : row'.createdAt = row.createdAt
  inflight : row'.state.inflight = true → row.state.inflight = true
  active : row'.state.active = true → row.state.active = true
  nonneg : 0 ≤ row.amount → 0 ≤ row'.amount
  checked : row.Checked → row'.Checked

theorem Older.refl (row : FaucetClaimRow) : Older row row :=
  ⟨rfl, rfl, rfl, rfl, id, id, id, id⟩

theorem Moves.older {row row' : FaucetClaimRow} (hmoves : Moves row row') : Older row row' :=
  ⟨hmoves.id_eq, hmoves.kind_eq, hmoves.owner_eq, hmoves.createdAt_eq, fun _ => hmoves.inflight,
    fun _ => FaucetClaimState.active_of_inflight hmoves.inflight, hmoves.nonneg, hmoves.checked⟩

theorem isOf_iff {row : FaucetClaimRow} {kind : FaucetClaimKind} {owner : String} :
    row.isOf kind owner = true ↔ row.kind = kind ∧ row.owner = owner := decide_eq_true_iff

variable {policy : FaucetPolicy} {h h' : LedgerHistory} {now : Int}

/-- What only concerns single claims and pairs of them survives a call that adds no claim. -/
theorem LedgerInvariant.of_older (hinv : LedgerInvariant policy h) (hclock : h.clock ≤ h'.clock)
    (holder : ∀ claim' ∈ h'.claims, ∃ claim ∈ h.claims, Older claim claim')
    (hids : (h'.claims.map FaucetClaimRow.id).Nodup)
    (hold : ∀ claim ∈ h'.pruned, claim.createdAt ≤ h'.clock - policy.retention)
    (hfinished : ∀ claim ∈ h'.pruned, claim.state.inflight = false)
    (hquotas : h'.WithinQuotas policy) : LedgerInvariant policy h' where
  ids := hids
  created claim' hclaim' := by
    obtain ⟨claim, hclaim, hle⟩ := holder claim' hclaim'
    exact hle.createdAt_eq ▸ Int.le_trans (hinv.created claim hclaim) hclock
  nonneg claim' hclaim' := by
    obtain ⟨claim, hclaim, hle⟩ := holder claim' hclaim'
    exact hle.nonneg (hinv.nonneg claim hclaim)
  checked claim' hclaim' := by
    obtain ⟨claim, hclaim, hle⟩ := holder claim' hclaim'
    exact hle.checked (hinv.checked claim hclaim)
  old := hold
  finished := hfinished
  inflight a' ha' b' hb' hof hinflight hinflight' := by
    obtain ⟨a, ha, hle⟩ := holder a' ha'
    obtain ⟨b, hb, hle'⟩ := holder b' hb'
    rw [hle.id_eq, hle'.id_eq]
    rw [isOf_iff, hle'.kind_eq, hle'.owner_eq, hle.kind_eq, hle.owner_eq] at hof
    exact hinv.inflight a ha b hb (isOf_iff.mpr hof) (hle.inflight hinflight)
      (hle'.inflight hinflight')
  spaced a' ha' b' hb' hof hactive hactive' hne := by
    obtain ⟨a, ha, hle⟩ := holder a' ha'
    obtain ⟨b, hb, hle'⟩ := holder b' hb'
    rw [hle.id_eq, hle'.id_eq] at hne
    rw [isOf_iff, hle'.kind_eq, hle'.owner_eq, hle.kind_eq, hle.owner_eq] at hof
    rw [hle.kind_eq, hle.createdAt_eq, hle'.createdAt_eq]
    exact hinv.spaced a ha b hb (isOf_iff.mpr hof) (hle.active hactive) (hle'.active hactive') hne
  quotas := hquotas

theorem invariant_of_opened (h : LedgerHistory) (hopen : h.Opened) : LedgerInvariant policy h := by
  have hclaims : h.claims = [] := by rw [LedgerHistory.claims, hopen.1, hopen.2]; rfl
  have hnone : ∀ {P : FaucetClaimRow → Prop}, ∀ claim ∈ h.claims, P claim := by
    intro P claim hclaim
    rw [hclaims] at hclaim
    cases hclaim
  have hpruned : ∀ {P : FaucetClaimRow → Prop}, ∀ claim ∈ h.pruned, P claim :=
    fun claim hclaim => hnone claim (List.mem_append_right _ hclaim)
  exact {
    ids := by rw [hclaims]; exact List.nodup_nil
    created := hnone
    nonneg := hnone
    checked := hnone
    old := hpruned
    finished := hpruned
    inflight := hnone
    spaced := hnone
    quotas := fun kind quota n _ upTo => by
      rw [LedgerHistory.used, hclaims]
      exact Int.natCast_nonneg n }

/-! ## One call -/

theorem LedgerInvariant.moved (hinv : LedgerInvariant policy h) (hclock : h.clock ≤ now)
    {row : FaucetClaimRow} {target : FaucetClaimState} {columns : SetColumns} (hrow : row ∈ h.rows)
    (hmoves : Moves row (row.move target now columns)) :
    LedgerInvariant policy ⟨Faucet.moved h.rows row.id target now columns, h.pruned, now⟩ := by
  refine hinv.of_older hclock ?_ ?_ ?_ hinv.finished ?_
  · intro claim' hclaim'
    rcases List.mem_append.mp hclaim' with hmem | hmem
    · obtain ⟨claim, hclaim, rfl⟩ := mem_moved.mp hmem
      refine ⟨claim, List.mem_append_left _ hclaim, ?_⟩
      split
      · next hid => exact Table.eq_of_key hclaim hrow hid ▸ hmoves.older
      · exact Older.refl claim
    · exact ⟨claim', List.mem_append_right _ hmem, Older.refl claim'⟩
  · rw [LedgerHistory.claims, List.map_append, map_id_moved, ← List.map_append]
    exact hinv.ids
  · exact fun claim hclaim => Int.le_trans (hinv.old claim hclaim) (Int.sub_le_sub_right hclock _)
  · intro kind quota n hcap upTo
    have hamount := hinv.nonneg row (List.mem_append_left _ hrow)
    exact Int.le_trans (used_le_of_moved hcap hrow hmoves hamount)
      (hinv.quotas kind quota n hcap upTo)

theorem LedgerInvariant.pruned (hinv : LedgerInvariant policy h) (hclock : h.clock ≤ now)
    {before : Int} (hbefore : before ≤ now - policy.retention) :
    LedgerInvariant policy
      ⟨h.rows.filter fun row => !row.prunable before,
        h.rows.rows.filter (FaucetClaimRow.prunable before) ++ h.pruned, now⟩ := by
  have hperm := claims_perm_of_prune h now before
  have hgone : ∀ claim ∈ h.rows.rows.filter (FaucetClaimRow.prunable before),
      claim.createdAt < before ∧ claim.state.inflight = false := fun claim hclaim =>
    of_decide_eq_true (List.mem_filter.mp hclaim).2
  refine hinv.of_older hclock ?_ ?_ ?_ ?_ ?_
  · exact fun claim hclaim => ⟨claim, hperm.mem_iff.mp hclaim, Older.refl claim⟩
  · exact (hperm.map FaucetClaimRow.id).nodup_iff.mpr hinv.ids
  · intro claim hclaim
    rcases List.mem_append.mp hclaim with hmem | hmem
    · exact Int.le_of_lt (Int.lt_of_lt_of_le (hgone claim hmem).1 hbefore)
    · exact Int.le_trans (hinv.old claim hmem) (Int.sub_le_sub_right hclock _)
  · intro claim hclaim
    rcases List.mem_append.mp hclaim with hmem | hmem
    · exact (hgone claim hmem).2
    · exact hinv.finished claim hmem
  · intro kind quota n hcap upTo
    have hsame := (hperm.map
      (quota.share kind (upTo - (policy.limits kind).dayMs) upTo)).sum_eq
    rw [LedgerHistory.used, hsame]
    exact hinv.quotas kind quota n hcap upTo

/-- A new claim in the room that admission found. -/
theorem withinQuotas_of_reserved (hinv : LedgerInvariant policy h) (hclock : h.clock ≤ now)
    {id : String} {input : FaucetReserveInput} {rows' : ClaimTable}
    (hadmitted : Admitted h.rows input now (policy.limits input.kind))
    (hinsert : h.rows.insert? (reservedRow id input now) = some rows') :
    LedgerHistory.WithinQuotas policy ⟨rows', h.pruned, now⟩ := by
  intro kind quota n hcap upTo
  rw [used_of_insert hinsert]
  by_cases hshare : quota.share kind (upTo - (policy.limits kind).dayMs) upTo
      (reservedRow id input now) = 0
  · rw [hshare, add_zero]
    exact hinv.quotas kind quota n hcap upTo
  · -- The new claim counts, so the span ends after it and began after every pruned claim.
    have hcounted : (reservedRow id input now).countedIn kind (upTo - (policy.limits kind).dayMs)
        upTo = true := by
      by_contra hnot
      exact hshare (FaucetQuota.share_of_not_counted hnot)
    obtain ⟨hkind, -, hupTo, -⟩ := of_decide_eq_true hcounted
    rw [FaucetQuota.share, if_pos hcounted] at hshare ⊢
    have hkind : input.kind = kind := hkind
    subst hkind
    have hnow : now ≤ upTo := hupTo
    have hday := policy.dayMs_le input.kind
    have hused : h.used quota input.kind (upTo - (policy.limits input.kind).dayMs) upTo ≤
        ((activeSince h.rows input.kind (now - (policy.limits input.kind).dayMs)).map
          quota.weight).sum := by
      refine used_le_activeSince hinv.nonneg (fun claim hclaim => ?_) (by omega)
      have hold := hinv.old claim hclaim
      omega
    exact Int.le_trans (Int.add_le_add_right hused _)
      (FaucetQuota.room_of_admitted hadmitted hcap hshare)

theorem LedgerInvariant.reserved (hinv : LedgerInvariant policy h) (hclock : h.clock ≤ now)
    {id : String} {input : FaucetReserveInput} {rows' : ClaimTable}
    (hfresh : ∀ claim ∈ h.claims, claim.id ≠ id) (hamount : 0 ≤ input.amount)
    (hadmitted : Admitted h.rows input now (policy.limits input.kind))
    (hinsert : h.rows.insert? (reservedRow id input now) = some rows') :
    LedgerInvariant policy ⟨rows', h.pruned, now⟩ := by
  have hrows : rows'.rows = h.rows.rows ++ [reservedRow id input now] :=
    (Table.insert?_eq_some.mp hinsert).2
  have hmem : ∀ claim ∈ LedgerHistory.claims ⟨rows', h.pruned, now⟩,
      claim ∈ h.claims ∨ claim = reservedRow id input now := by
    intro claim hclaim
    rcases List.mem_append.mp hclaim with hclaim | hclaim
    · rcases (Table.mem_insert? hinsert).mp hclaim with hclaim | rfl
      · exact Or.inl (List.mem_append_left _ hclaim)
      · exact Or.inr rfl
    · exact Or.inl (List.mem_append_right _ hclaim)
  -- The owner's earlier claims: none in flight, and the active ones at least a window old.
  have hbefore : ∀ claim ∈ h.claims, claim.isOf input.kind input.owner = true →
      claim.state.inflight = false ∧ (claim.state.active = true →
        (policy.limits input.kind).windowMs ≤ now - claim.createdAt) := by
    intro claim hclaim hof
    rcases List.mem_append.mp hclaim with hclaim | hclaim
    · refine ⟨hadmitted.inflight claim hclaim hof, fun hactive => ?_⟩
      have := hadmitted.spaced claim hclaim hof hactive
      omega
    · refine ⟨hinv.finished claim hclaim, fun _ => ?_⟩
      have hold := hinv.old claim hclaim
      have hwindow := policy.windowMs_le input.kind
      omega
  have hsymm : ∀ {a b : FaucetClaimRow}, a.isOf b.kind b.owner = true →
      b.isOf a.kind a.owner = true := fun hof =>
    isOf_iff.mpr ⟨(isOf_iff.mp hof).1.symm, (isOf_iff.mp hof).2.symm⟩
  exact {
    ids := by
      rw [LedgerHistory.claims, hrows, List.append_assoc]
      refine ((List.perm_middle (a := reservedRow id input now)).map _).nodup_iff.mpr ?_
      refine List.nodup_cons.mpr ⟨fun hin => ?_, hinv.ids⟩
      obtain ⟨claim, hclaim, hid⟩ := List.mem_map.mp hin
      exact hfresh claim hclaim hid
    created := fun claim hclaim => by
      rcases hmem claim hclaim with hclaim | rfl
      · exact Int.le_trans (hinv.created claim hclaim) hclock
      · exact Int.le_refl now
    nonneg := fun claim hclaim => by
      rcases hmem claim hclaim with hclaim | rfl
      · exact hinv.nonneg claim hclaim
      · exact hamount
    checked := fun claim hclaim => by
      rcases hmem claim hclaim with hclaim | rfl
      · exact hinv.checked claim hclaim
      · exact fun _ hne => absurd rfl hne
    old := fun claim hclaim =>
      Int.le_trans (hinv.old claim hclaim) (Int.sub_le_sub_right hclock _)
    finished := hinv.finished
    inflight := fun a ha b hb hof hinflight hinflight' => by
      rcases hmem a ha with ha | rfl
      · rcases hmem b hb with hb | rfl
        · exact hinv.inflight a ha b hb hof hinflight hinflight'
        · rw [(hbefore a ha (hsymm hof)).1] at hinflight
          cases hinflight
      · rcases hmem b hb with hb | rfl
        · rw [(hbefore b hb hof).1] at hinflight'
          cases hinflight'
        · rfl
    spaced := fun a ha b hb hof hactive hactive' hne => by
      rcases hmem a ha with ha | rfl
      · rcases hmem b hb with hb | rfl
        · exact hinv.spaced a ha b hb hof hactive hactive' hne
        · have hkind : a.kind = input.kind := (isOf_iff.mp (hsymm hof)).1
          rw [hkind, abs_sub_comm]
          exact Int.le_trans ((hbefore a ha (hsymm hof)).2 hactive) (le_abs_self _)
      · rcases hmem b hb with hb | rfl
        · exact Int.le_trans ((hbefore b hb hof).2 hactive') (le_abs_self _)
        · exact absurd rfl hne
    quotas := withinQuotas_of_reserved hinv hclock hadmitted hinsert }

/-- **A call keeps the invariant.** -/
theorem LedgerInvariant.write (hinv : LedgerInvariant policy h) (hclock : h.clock ≤ now)
    (hwrite : Write policy h now h') : LedgerInvariant policy h' := by
  cases hwrite with
  | nothing =>
    refine hinv.of_older hclock (fun claim hclaim => ⟨claim, hclaim, Older.refl claim⟩) hinv.ids
      (fun claim hclaim => ?_) hinv.finished hinv.quotas
    exact Int.le_trans (hinv.old claim hclaim) (Int.sub_le_sub_right hclock _)
  | reserved hfresh hamount hadmitted hinsert =>
    exact hinv.reserved hclock hfresh hamount hadmitted hinsert
  | moved hrow hmoves => exact hinv.moved hclock hrow hmoves
  | pruned hbefore => exact hinv.pruned hclock hbefore

/-- **The invariant holds after every sequence of calls.** -/
theorem LedgerInvariant.of_reachable (hr : (faucetLedger policy).Reachable h) :
    LedgerInvariant policy h := by
  refine hr.invariant invariant_of_opened ?_
  rintro s s' - hinv ⟨call, hact⟩
  obtain ⟨hclock, hwrite⟩ := write_of_act hact
  exact hinv.write hclock hwrite

/-! ## Finished claims -/

/-- A claim that is not in flight is not written again. -/
theorem finished_mem (hwrite : Write policy h now h') {claim : FaucetClaimRow}
    (hclaim : claim ∈ h.claims) (hfinished : claim.state.inflight = false) :
    claim ∈ h'.claims := by
  cases hwrite with
  | nothing => exact hclaim
  | reserved hfresh hamount hadmitted hinsert =>
    rcases List.mem_append.mp hclaim with hmem | hmem
    · exact List.mem_append_left _ ((Table.mem_insert? hinsert).mpr (Or.inl hmem))
    · exact List.mem_append_right _ hmem
  | @moved row target columns hrow hmoves =>
    rcases List.mem_append.mp hclaim with hmem | hmem
    · refine List.mem_append_left _ (mem_moved.mpr ⟨claim, hmem, (if_neg fun hid => ?_).symm⟩)
      rw [Table.eq_of_key hmem hrow hid, hmoves.inflight] at hfinished
      cases hfinished
    · exact List.mem_append_right _ hmem
  | pruned hbefore => exact (claims_perm_of_prune h now _).mem_iff.mpr hclaim

theorem finished_mem_of_steps (hr : (faucetLedger policy).Reachable h)
    (hsteps : (faucetLedger policy).Steps h h') {claim : FaucetClaimRow} (hclaim : claim ∈ h.claims)
    (hfinished : claim.state.inflight = false) : claim ∈ h'.claims := by
  refine System.Steps.relation (S := faucetLedger policy)
    (R := fun s s' => ∀ claim ∈ s.claims, claim.state.inflight = false → claim ∈ s'.claims)
    (fun _ _ hclaim _ => hclaim)
    (fun _ _ _ hab hbc claim hclaim hfinished => hbc claim (hab claim hclaim hfinished) hfinished)
    ?_ hr hsteps claim hclaim hfinished
  rintro s s' - ⟨call, hact⟩ claim hclaim hfinished
  exact finished_mem (write_of_act hact).2 hclaim hfinished

end Mapae.Faucet
