import Mapae.Faucet.Ledger
import Mapae.Infra.Transition

/-!
# Runs of the faucet's ledger

Calls reach the ledger one after the other, each with the time it was made at. What `prune`
removes is kept beside the table, so a claim can be spoken of after its row is gone.

* `FaucetPolicy` is what one faucet allows: its windows are no longer than what it keeps
* `LedgerHistory.act` makes one call; `none` is a call no faucet makes
* `Write` is all that one call can do
-/

namespace Mapae.Faucet

open Mapae.Infra Mapae.Store

/-- The limits of each kind, and how long finished rows are kept. -/
structure FaucetPolicy where
  limits : FaucetClaimKind → FaucetReserveLimits
  retention : Int
  windowMs_le : ∀ kind, (limits kind).windowMs ≤ retention
  dayMs_le : ∀ kind, (limits kind).dayMs ≤ retention

/-- `FAUCET_WINDOW_MS`, and `FAUCET_LIMIT_WINDOW_MS`. -/
def faucetWindowMs : Int := 86400000

/-- `LEDGER_RETENTION_MS`. -/
def ledgerRetentionMs : Int := 30 * 24 * 60 * 60 * 1000

/-- `limitsOf` of a faucet whose ETH tab may commit `ethDailyWei` a day. -/
def limitsOf (ethDailyWei : Nat) : FaucetClaimKind → FaucetReserveLimits
  | .musdc => ⟨faucetWindowMs, faucetWindowMs, 5, 20, some 1000, none⟩
  | .eth => ⟨7 * faucetWindowMs, faucetWindowMs, 1, 3, none, some ethDailyWei⟩

/-- What `createFaucet` allows. -/
def createFaucetPolicy (ethDailyWei : Nat) : FaucetPolicy where
  limits := limitsOf ethDailyWei
  retention := ledgerRetentionMs
  windowMs_le kind := by cases kind <;> simp [limitsOf, faucetWindowMs, ledgerRetentionMs]
  dayMs_le kind := by cases kind <;> simp [limitsOf, faucetWindowMs, ledgerRetentionMs]

/-- The ledger, the rows that were pruned from it, and the time of the last call. -/
structure LedgerHistory where
  rows : ClaimTable
  pruned : List FaucetClaimRow
  clock : Int

inductive LedgerOp where
  | reserve (id : String) (input : FaucetReserveInput)
  | markSigned (id : String) (signed : SignedClaim)
  | markSent (id : String)
  | markConfirmed (id : String)
  | markFailed (id : String)
  | markSkipped (id : String)
  | prune (before : Int)

structure LedgerCall where
  now : Int
  op : LedgerOp

namespace LedgerHistory

/-- Every claim that was ever reserved. -/
def claims (h : LedgerHistory) : List FaucetClaimRow := h.rows.rows ++ h.pruned

/-- What a faucet keeps to. A random UUID names no earlier claim, an ETH claim is signed for the
amount it reserved, and `prune` keeps what is younger than the retention. -/
def allowed (policy : FaucetPolicy) (h : LedgerHistory) (call : LedgerCall) : Bool :=
  match call.op with
  | .reserve id _ => h.claims.all fun claim => claim.id ≠ id
  | .markSigned id signed =>
    (h.rows.get? id).all fun row =>
      row.kind = .eth → row.state = .reserved → signed.amount = row.amount
  | .prune before => before ≤ call.now - policy.retention
  | _ => true

/-- The table after a call, however it ended. -/
def execRows (policy : FaucetPolicy) (rows : ClaimTable) (call : LedgerCall) : ClaimTable :=
  match call.op with
  | .reserve id input => after (reserve id input call.now (policy.limits input.kind)) rows
  | .markSigned id signed => after (markSigned id signed call.now) rows
  | .markSent id => after (markSent id call.now) rows
  | .markConfirmed id => after (markConfirmed id call.now) rows
  | .markFailed id => after (markFailed id call.now) rows
  | .markSkipped id => after (markSkipped id call.now) rows
  | .prune before => after (Faucet.prune before) rows

/-- The rows that a call removes. -/
def removedBy (rows : ClaimTable) (call : LedgerCall) : List FaucetClaimRow :=
  match call.op with
  | .prune before => rows.rows.filter (FaucetClaimRow.prunable before)
  | _ => []

/-- Makes one call, which is no earlier than the ones before it. -/
def act (policy : FaucetPolicy) (h : LedgerHistory) (call : LedgerCall) : Option LedgerHistory :=
  if h.clock ≤ call.now ∧ h.allowed policy call = true then
    some ⟨execRows policy h.rows call, removedBy h.rows call ++ h.pruned, call.now⟩
  else none

/-- A ledger without rows. -/
def Opened (h : LedgerHistory) : Prop := h.rows = Table.empty ∧ h.pruned = []

end LedgerHistory

/-- The sequences of calls on a ledger that started without rows. -/
def faucetLedger (policy : FaucetPolicy) : System LedgerHistory :=
  System.ofAct LedgerHistory.Opened (LedgerHistory.act policy)

/-! ## What one call does -/

/-- How a row changes when a claim moves on. -/
structure Moves (row row' : FaucetClaimRow) : Prop where
  inflight : row.state.inflight = true
  id_eq : row'.id = row.id
  kind_eq : row'.kind = row.kind
  owner_eq : row'.owner = row.owner
  ipKey_eq : row'.ipKey = row.ipKey
  subnetKey_eq : row'.subnetKey = row.subnetKey
  createdAt_eq : row'.createdAt = row.createdAt
  amount_eq : row.kind = .eth → row'.state.active = true → row'.amount = row.amount
  nonneg : 0 ≤ row.amount → 0 ≤ row'.amount
  checked : row.Checked → row'.Checked

/-- All that a call made at `now` can do to a ledger. -/
inductive Write (policy : FaucetPolicy) (h : LedgerHistory) (now : Int) : LedgerHistory → Prop
  | nothing : Write policy h now ⟨h.rows, h.pruned, now⟩
  | reserved {id : String} {input : FaucetReserveInput} {rows' : ClaimTable}
      (hfresh : ∀ claim ∈ h.claims, claim.id ≠ id) (hamount : 0 ≤ input.amount)
      (hadmitted : Admitted h.rows input now (policy.limits input.kind))
      (hinsert : h.rows.insert? (reservedRow id input now) = some rows') :
      Write policy h now ⟨rows', h.pruned, now⟩
  | moved {row : FaucetClaimRow} {target : FaucetClaimState} {columns : SetColumns}
      (hrow : row ∈ h.rows) (hmoves : Moves row (row.move target now columns)) :
      Write policy h now ⟨moved h.rows row.id target now columns, h.pruned, now⟩
  | pruned {before : Int} (hbefore : before ≤ now - policy.retention) :
      Write policy h now
        ⟨h.rows.filter fun row => !row.prunable before,
          h.rows.rows.filter (FaucetClaimRow.prunable before) ++ h.pruned, now⟩

variable {policy : FaucetPolicy} {h h' : LedgerHistory} {now : Int}

/-- A transition out of states that are in flight moves one row or writes nothing. -/
theorem write_of_transition {id : String} {source : List FaucetClaimState}
    {target : FaucetClaimState} {columns : SetColumns}
    (hmoves : ∀ row, h.rows.get? id = some row → row.state ∈ source →
      Moves row (row.move target now columns)) :
    Write policy h now ⟨after (transition id source target now columns) h.rows, h.pruned, now⟩ := by
  rcases after_eq_or fun _ _ he => absurd he transition_ne_error with hafter | ⟨changed, hok⟩
  · rw [hafter]
    exact .nothing
  · rcases transition_eq_ok.mp hok with ⟨-, hrows, -⟩ | ⟨-, hrows, row, hget, hin⟩
    · rw [hrows]
      exact .nothing
    · rw [hrows]
      obtain ⟨hmem, rfl⟩ := Table.get?_eq_some.mp hget
      exact .moved hmem (hmoves row hget hin)

/-- A transition that sets no column. -/
theorem moves_none {row : FaucetClaimRow} {target : FaucetClaimState}
    (hin : row.state.inflight = true)
    (hsigned : target.active = true → row.state ≠ .reserved) :
    Moves row (row.move target now .none) where
  inflight := hin
  id_eq := rfl
  kind_eq := rfl
  owner_eq := rfl
  ipKey_eq := rfl
  subnetKey_eq := rfl
  createdAt_eq := rfl
  amount_eq _ _ := rfl
  nonneg hamount := hamount
  checked hchecked hactive _ :=
    hchecked (FaucetClaimState.active_of_inflight hin) (hsigned hactive)

theorem moves_of_broadcast {row : FaucetClaimRow} {target : FaucetClaimState}
    (hin : row.state ∈ [FaucetClaimState.signed, .sent]) :
    Moves row (row.move target now .none) := by
  have hcases : row.state = .signed ∨ row.state = .sent := by simpa using hin
  refine moves_none ?_ fun _ => ?_
  · rcases hcases with h | h <;> rw [h] <;> rfl
  · rcases hcases with h | h <;> rw [h] <;> exact FaucetClaimState.noConfusion

theorem moves_failed {row : FaucetClaimRow}
    (hin : row.state ∈ [FaucetClaimState.reserved, .signed, .sent]) :
    Moves row (row.move .failed now .none) := by
  have hcases : row.state = .reserved ∨ row.state = .signed ∨ row.state = .sent := by
    simpa using hin
  refine moves_none ?_ fun hactive => ?_
  · rcases hcases with h | h | h <;> rw [h] <;> rfl
  · cases hactive

theorem moves_skipped {row : FaucetClaimRow} (hin : row.state ∈ [FaucetClaimState.reserved]) :
    Moves row (row.move .skipped now ⟨some 0, none⟩) where
  inflight := by rw [List.mem_singleton.mp hin]; rfl
  id_eq := rfl
  kind_eq := rfl
  owner_eq := rfl
  ipKey_eq := rfl
  subnetKey_eq := rfl
  createdAt_eq := rfl
  amount_eq _ hactive := by cases hactive
  nonneg _ := Int.le_refl 0
  checked _ hactive := by cases hactive

theorem moves_signed {row : FaucetClaimRow} {signed : SignedClaim} (hpos : 0 < signed.amount)
    (hin : row.state ∈ [FaucetClaimState.reserved])
    (hamount : row.kind = .eth → signed.amount = row.amount) :
    Moves row (row.move .signed now ⟨some signed.amount, some signed.toSignedTransaction⟩) where
  inflight := by rw [List.mem_singleton.mp hin]; rfl
  id_eq := rfl
  kind_eq := rfl
  owner_eq := rfl
  ipKey_eq := rfl
  subnetKey_eq := rfl
  createdAt_eq := rfl
  amount_eq hkind _ := hamount hkind
  nonneg _ := Int.le_of_lt hpos
  checked _ _ _ := rfl

/-- **A call does one of these things.** -/
theorem write_of_act {call : LedgerCall} (ha : h.act policy call = some h') :
    h.clock ≤ call.now ∧ Write policy h call.now h' := by
  obtain ⟨now, op⟩ := call
  unfold LedgerHistory.act at ha
  split at ha
  next hok =>
    obtain ⟨hclock, hallowed⟩ := hok
    refine ⟨hclock, ?_⟩
    cases Option.some.inj ha
    cases op with
    | reserve id input =>
      show Write policy h now ⟨after (reserve id input now _) h.rows, h.pruned, now⟩
      rcases after_eq_or fun _ _ => reserve_eq_error with hafter | ⟨result, hresult⟩
      · rw [hafter]
        exact .nothing
      · rcases reserve_eq_ok hresult with ⟨hrows, -⟩ | ⟨hamount, hadmitted, hinsert, -⟩
        · rw [hrows]
          exact .nothing
        · refine .reserved (fun claim hclaim => ?_) hamount hadmitted hinsert
          simpa using List.all_eq_true.mp hallowed claim hclaim
    | markSigned id signed =>
      show Write policy h now ⟨after (markSigned id signed now) h.rows, h.pruned, now⟩
      rcases after_eq_or fun _ _ => markSigned_eq_error with hafter | ⟨changed, hok⟩
      · rw [hafter]
        exact .nothing
      · obtain ⟨hpos, -, htransition⟩ := markSigned_eq_ok hok
        rw [show after (markSigned id signed now) h.rows = after (transition id _ _ _ _) h.rows from
          by rw [after, after, hok, htransition]]
        refine write_of_transition fun row hget hin => moves_signed hpos hin fun hkind => ?_
        simp only [LedgerHistory.allowed, hget, Option.all_some, decide_eq_true_eq] at hallowed
        exact hallowed hkind (List.mem_singleton.mp hin)
    | markSent id => exact write_of_transition fun _ _ => moves_of_broadcast
    | markConfirmed id => exact write_of_transition fun _ _ => moves_of_broadcast
    | markFailed id => exact write_of_transition fun _ _ => moves_failed
    | markSkipped id => exact write_of_transition fun _ _ => moves_skipped
    | prune before => exact .pruned (of_decide_eq_true hallowed)
  next => cases ha

end Mapae.Faucet
