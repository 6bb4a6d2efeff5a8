import Mapae.Infra.Table
import Mapae.Infra.Transaction
import Mapae.Store.Values

/-!
# The faucet's claim ledger

`faucet_claims`: one row for each claim that was admitted. A claim walks
`reserved → signed → sent → confirmed`, or ends `failed` or `skipped`. The four states of the
walk are active: every window and every limit counts them, and nothing else.

* `admission_eq_none` says what a claim that is admitted was checked against
* `reserve_eq_ok` and `transition_eq_ok` say all that a successful call did
* a call that throws writes nothing (`reserve_eq_error`, `markSigned_eq_error`)

The three columns of a signature are written together, so they are one optional column here.
The counts of refusals are a table of their own that no claim is decided by; they are left out.
-/

namespace Mapae.Faucet

open Mapae.Infra Mapae.Store

inductive FaucetClaimKind where
  | musdc
  | eth
  deriving DecidableEq

inductive FaucetClaimState where
  | reserved
  | signed
  | sent
  | confirmed
  | failed
  | skipped
  deriving DecidableEq

namespace FaucetClaimState

/-- `INFLIGHT`. -/
def inflight : FaucetClaimState → Bool
  | reserved | signed | sent => true
  | confirmed | failed | skipped => false

/-- `ACTIVE`: the claims that windows and limits count. -/
def active : FaucetClaimState → Bool
  | confirmed => true
  | state => state.inflight

theorem active_of_inflight {state : FaucetClaimState} (h : state.inflight = true) :
    state.active = true := by
  cases state <;> first | rfl | cases h

end FaucetClaimState

/-- The columns that `markSigned` fills. -/
structure SignedTransaction where
  nonce : Int
  txHash : String
  rawTx : String

structure FaucetClaimRow where
  id : String
  kind : FaucetClaimKind
  owner : String
  recipient : String
  ipKey : String
  subnetKey : String
  amount : Int
  state : FaucetClaimState
  signed : Option SignedTransaction
  createdAt : Int
  updatedAt : Int

structure FaucetReserveInput where
  kind : FaucetClaimKind
  owner : String
  recipient : String
  ipKey : String
  subnetKey : String
  amount : Int

/-- What one kind is allowed. -/
structure FaucetReserveLimits where
  /-- Per owner: one counted claim per window. -/
  windowMs : Int
  /-- The rolling span the network limits and the daily caps count over. -/
  dayMs : Int
  perIp : Nat
  perSubnet : Nat
  perDay : Option Nat
  dailyAmount : Option Nat

inductive AdmissionRefusal where
  | cooldown (nextAt : Int)
  | rateLimited
  | budgetExhausted

inductive FaucetAdmission where
  /-- The owner's claim that is on its way. -/
  | inflight (claim : FaucetClaimRow)
  | refused (refusal : AdmissionRefusal)

inductive FaucetReservation where
  | ok (claim : FaucetClaimRow) (created : Bool)
  | refused (refusal : AdmissionRefusal)

/-- `faucet_claims`. -/
abbrev ClaimTable := Table FaucetClaimRow.id

abbrev Statement := EStateM StoreError ClaimTable

/-! ## The checks of a request -/

def isLowerHexDigit (c : Char) : Bool := ('0' ≤ c ∧ c ≤ '9') ∨ ('a' ≤ c ∧ c ≤ 'f')

/-- `/^0x[0-9a-f]…$/`, with `many` digits. -/
def isLowerHex (many : Nat → Bool) (text : String) : Bool :=
  match text.toList with
  | '0' :: 'x' :: digits => many digits.length && digits.all isLowerHexDigit
  | _ => false

/-- `ADDRESS`. -/
def isLowerAddress : String → Bool := isLowerHex (· == 40)

/-- `KEY`. -/
def isNetworkKey (text : String) : Bool :=
  text.toList.length == 64 && text.toList.all isLowerHexDigit

def assertReserveInput (input : FaucetReserveInput) (now : Int) : Except StoreError Unit := do
  throwIf (isLowerAddress input.owner = false ∨ isLowerAddress input.recipient = false)
    (StoreError.typeError "owner and recipient must be lowercase addresses")
  throwIf (isNetworkKey input.ipKey = false ∨ isNetworkKey input.subnetKey = false)
    (StoreError.typeError "network keys must be 32-byte lowercase hex digests")
  throwIf (input.amount < 0) (StoreError.typeError "amount must be non-negative")
  throwIf (isSafeInteger now = false ∨ now < 0)
    (StoreError.typeError "now must be a non-negative integer")

/-! ## Admission -/

/-- `WHERE kind = ? AND owner = ?`. -/
def FaucetClaimRow.isOf (row : FaucetClaimRow) (kind : FaucetClaimKind) (owner : String) : Bool :=
  row.kind = kind ∧ row.owner = owner

/-- `WHERE kind = ? AND owner = ? AND state IN INFLIGHT`. -/
def inflightOf (rows : ClaimTable) (kind : FaucetClaimKind) (owner : String) :
    Option FaucetClaimRow :=
  rows.rows.find? fun row => row.isOf kind owner && row.state.inflight

/-- `created_at` of the owner's newest active claim after `since`. -/
def lastActive (rows : ClaimTable) (kind : FaucetClaimKind) (owner : String) (since : Int) :
    Option Int :=
  ((rows.rows.filter fun row => row.isOf kind owner && row.state.active && since < row.createdAt).map
    FaucetClaimRow.createdAt).max?

/-- `WHERE kind = ? AND created_at > ? AND state IN ACTIVE`. -/
def activeSince (rows : ClaimTable) (kind : FaucetClaimKind) (since : Int) : List FaucetClaimRow :=
  rows.rows.filter fun row => row.kind = kind ∧ since < row.createdAt ∧ row.state.active = true

def countIp (rows : ClaimTable) (ipKey : String) (kind : FaucetClaimKind) (since : Int) : Nat :=
  (activeSince rows kind since).countP fun row => row.ipKey = ipKey

def countSubnet (rows : ClaimTable) (subnetKey : String) (kind : FaucetClaimKind) (since : Int) :
    Nat :=
  (activeSince rows kind since).countP fun row => row.subnetKey = subnetKey

/-- The amounts of the active claims of a kind. -/
def dayRows (rows : ClaimTable) (kind : FaucetClaimKind) (since : Int) : List Int :=
  (activeSince rows kind since).map FaucetClaimRow.amount

/-- The checks `reserve` runs, in its order, without writing. -/
def admission (rows : ClaimTable) (input : FaucetReserveInput) (now : Int)
    (limits : FaucetReserveLimits) : Option FaucetAdmission :=
  match inflightOf rows input.kind input.owner with
  | some existing => some (.inflight existing)
  | none =>
    match lastActive rows input.kind input.owner (now - limits.windowMs) with
    | some last => some (.refused (.cooldown (last + limits.windowMs)))
    | none =>
      let since := now - limits.dayMs
      if limits.perIp ≤ countIp rows input.ipKey input.kind since then
        some (.refused .rateLimited)
      else if limits.perSubnet ≤ countSubnet rows input.subnetKey input.kind since then
        some (.refused .rateLimited)
      else if limits.perDay.any (· ≤ (dayRows rows input.kind since).length) then
        some (.refused .budgetExhausted)
      else if limits.dailyAmount.any fun dailyAmount : Nat =>
          (dailyAmount : Int) < (dayRows rows input.kind since).sum + input.amount then
        some (.refused .budgetExhausted)
      else none

/-- The row `reserve` writes. -/
def reservedRow (id : String) (input : FaucetReserveInput) (now : Int) : FaucetClaimRow :=
  { id := id, kind := input.kind, owner := input.owner, recipient := input.recipient
    ipKey := input.ipKey, subnetKey := input.subnetKey, amount := input.amount
    state := .reserved, signed := none, createdAt := now, updatedAt := now }

/-- `INSERT INTO faucet_claims`. The index allows one claim in flight for a kind and an owner. -/
def insertClaim (row : FaucetClaimRow) : Statement Unit := do
  let rows ← get
  match inflightOf rows row.kind row.owner with
  | some _ => throw (.constraint "faucet_claims_one_inflight")
  | none =>
    match rows.insert? row with
    | none => throw (.constraint "faucet_claims.id")
    | some inserted => set inserted

/-- `reserve`: `id` is the random UUID of the new row. -/
def reserve (id : String) (input : FaucetReserveInput) (now : Int) (limits : FaucetReserveLimits) :
    Statement FaucetReservation := do
  assertReserveInput input now
  let rows ← get
  match admission rows input now limits with
  | some (.inflight claim) => pure (.ok claim false)
  | some (.refused refusal) => pure (.refused refusal)
  | none =>
    insertClaim (reservedRow id input now)
    pure (.ok (reservedRow id input now) true)

/-- `CHECK (state IN ('reserved','skipped','failed') OR (nonce IS NOT NULL AND …))`. -/
def FaucetClaimRow.Checked (row : FaucetClaimRow) : Prop :=
  row.state.active = true → row.state ≠ .reserved → row.signed.isSome = true

/-! ## Moving a claim on -/

/-- The columns a transition sets besides the state; the others stay as they are. -/
structure SetColumns where
  amount : Option Int
  signed : Option SignedTransaction

def SetColumns.none : SetColumns := ⟨Option.none, Option.none⟩

/-- `SET state = ?, updated_at = ?, …`. -/
def FaucetClaimRow.move (target : FaucetClaimState) (now : Int) (columns : SetColumns)
    (row : FaucetClaimRow) : FaucetClaimRow :=
  { row with
    state := target
    updatedAt := now
    amount := columns.amount.getD row.amount
    signed := columns.signed.or row.signed }

/-- Moves `id` from one of `source` to `target`; false when the row was elsewhere. -/
def transition (id : String) (source : List FaucetClaimState) (target : FaucetClaimState)
    (now : Int) (columns : SetColumns) : Statement Bool := do
  let rows ← get
  match (rows.get? id).filter fun row => row.state ∈ source with
  | none => pure false
  | some _ =>
    set (rows.update id (FaucetClaimRow.move target now columns) fun _ => rfl)
    pure true

/-- What `markSigned` is given. -/
structure SignedClaim extends SignedTransaction where
  amount : Int

/-- Persists the signed transaction before it is broadcast. Only a reserved row can be signed. -/
def markSigned (id : String) (signed : SignedClaim) (now : Int) : Statement Bool := do
  throwIf (signed.amount ≤ 0 ∨ isSafeInteger signed.nonce = false ∨ signed.nonce < 0)
    (StoreError.typeError "a signed claim needs a positive amount and a nonce")
  throwIf (isLowerHex (· == 64) signed.txHash = false ∨ isLowerHex (1 ≤ ·) signed.rawTx = false)
    (StoreError.typeError "a signed claim needs its lowercase hash and raw bytes")
  transition id [.reserved] .signed now ⟨some signed.amount, some signed.toSignedTransaction⟩

/-- The node accepted the bytes. -/
def markSent (id : String) (now : Int) : Statement Bool :=
  transition id [.signed, .sent] .sent now .none

def markConfirmed (id : String) (now : Int) : Statement Bool :=
  transition id [.signed, .sent] .confirmed now .none

/-- Nothing landed. A signed row keeps its hash as the record of what was tried. -/
def markFailed (id : String) (now : Int) : Statement Bool :=
  transition id [.reserved, .signed, .sent] .failed now .none

/-- The recipient already held enough. -/
def markSkipped (id : String) (now : Int) : Statement Bool :=
  transition id [.reserved] .skipped now ⟨some 0, none⟩

/-- A finished row created before `before`. -/
def FaucetClaimRow.prunable (before : Int) (row : FaucetClaimRow) : Bool :=
  row.createdAt < before ∧ row.state.inflight = false

/-- Drops the finished rows created before `before`. In-flight rows are never pruned. -/
def prune (before : Int) : Statement Nat := do
  let rows ← get
  set (rows.filter fun row => !row.prunable before)
  pure (rows.rows.countP (FaucetClaimRow.prunable before))

/-! ## Reading -/

namespace FaucetClaimState

/-- The claims whose nonce is taken: `state IN ('signed','sent','confirmed')`. -/
def holdsNonce : FaucetClaimState → Bool
  | signed | sent | confirmed => true
  | reserved | failed | skipped => false

/-- The claims that are signed but not yet finished: `state IN ('signed','sent')`. -/
def broadcasting : FaucetClaimState → Bool
  | signed | sent => true
  | reserved | confirmed | failed | skipped => false

end FaucetClaimState

/-- What signed and sent claims will still take from the faucet once they are mined. -/
def inflight (rows : ClaimTable) : Int × Nat :=
  let broadcasting := rows.rows.filter fun row => row.state.broadcasting
  ((broadcasting.map fun row => if row.kind = .eth then row.amount else 0).sum, broadcasting.length)

/-- `ORDER BY nonce, created_at`: SQLite puts the rows without a nonce first. -/
def FaucetClaimRow.before (a b : FaucetClaimRow) : Bool :=
  match a.signed, b.signed with
  | none, none => a.createdAt ≤ b.createdAt
  | none, some _ => true
  | some _, none => false
  | some s, some t => s.nonce < t.nonce ∨ (s.nonce = t.nonce ∧ a.createdAt ≤ b.createdAt)

/-- Rows the reconciler still owes an outcome. -/
def unsettled (rows : ClaimTable) : List FaucetClaimRow :=
  (rows.rows.filter fun row => row.state.inflight).mergeSort FaucetClaimRow.before

/-- The nonces that signed, sent and confirmed claims hold. -/
def heldNonces (rows : ClaimTable) : List Int :=
  (rows.rows.filter fun row => row.state.holdsNonce).filterMap fun row =>
    row.signed.map SignedTransaction.nonce

/-- One past the highest nonce this ledger has spent or holds signed, or 0. -/
def nextNonce (rows : ClaimTable) : Int :=
  match (heldNonces rows).max? with
  | none => 0
  | some n => n + 1

/-! ## What a call did -/

variable {rows rows' : ClaimTable} {id : String} {input : FaucetReserveInput} {now : Int}
  {limits : FaucetReserveLimits} {row : FaucetClaimRow} {e : StoreError}

/-- What a claim that is admitted was checked against. -/
structure Admitted (rows : ClaimTable) (input : FaucetReserveInput) (now : Int)
    (limits : FaucetReserveLimits) : Prop where
  inflight : ∀ row ∈ rows, row.isOf input.kind input.owner = true → row.state.inflight = false
  spaced : ∀ row ∈ rows, row.isOf input.kind input.owner = true → row.state.active = true →
    row.createdAt ≤ now - limits.windowMs
  perIp : countIp rows input.ipKey input.kind (now - limits.dayMs) < limits.perIp
  perSubnet : countSubnet rows input.subnetKey input.kind (now - limits.dayMs) < limits.perSubnet
  perDay : ∀ n, limits.perDay = some n →
    (activeSince rows input.kind (now - limits.dayMs)).length < n
  dailyAmount : ∀ n : Nat, limits.dailyAmount = some n →
    ((activeSince rows input.kind (now - limits.dayMs)).map FaucetClaimRow.amount).sum +
      input.amount ≤ n

theorem inflightOf_eq_none {kind : FaucetClaimKind} {owner : String} :
    inflightOf rows kind owner = none ↔
      ∀ row ∈ rows, row.isOf kind owner = true → row.state.inflight = false := by
  simp only [inflightOf, List.find?_eq_none, Bool.and_eq_true, not_and, Bool.not_eq_true]
  exact Iff.rfl

theorem lastActive_eq_none {kind : FaucetClaimKind} {owner : String} {since : Int} :
    lastActive rows kind owner since = none ↔
      ∀ row ∈ rows, row.isOf kind owner = true → row.state.active = true →
        row.createdAt ≤ since := by
  simp only [lastActive, List.max?_eq_none_iff, List.map_eq_nil_iff, List.filter_eq_nil_iff,
    Bool.and_eq_true, decide_eq_true_eq, not_and, Int.not_lt, and_imp]
  exact Iff.rfl

/-- **A claim that is admitted passed every check.** -/
theorem admission_eq_none (h : admission rows input now limits = none) :
    Admitted rows input now limits := by
  unfold admission at h
  split at h
  · cases h
  next hinflight =>
  split at h
  · cases h
  next hlast =>
  dsimp only at h
  split at h
  · cases h
  next hip =>
  split at h
  · cases h
  next hsubnet =>
  split at h
  · cases h
  next hday =>
  split at h
  · cases h
  next hamount =>
  refine
    { inflight := inflightOf_eq_none.mp hinflight
      spaced := lastActive_eq_none.mp hlast
      perIp := Nat.not_le.mp hip
      perSubnet := Nat.not_le.mp hsubnet
      perDay := fun n hn => ?_
      dailyAmount := fun n hn => ?_ }
  · simp only [hn, Option.any_some, decide_eq_true_eq, dayRows, List.length_map] at hday
    exact Nat.not_le.mp hday
  · simp only [hn, Option.any_some, dayRows] at hamount
    exact Int.not_lt.mp fun hlt => hamount (decide_eq_true hlt)

theorem assertReserveInput_eq_ok {u : Unit} (h : assertReserveInput input now = .ok u) :
    0 ≤ input.amount := by
  simp only [assertReserveInput, bind_eq_ok, throwIf_eq_ok] at h
  obtain ⟨-, -, -, -, -, hamount, -⟩ := h
  exact Int.not_lt.mp hamount

theorem insertClaim_eq_ok {u : Unit} (h : (insertClaim row).run rows = .ok u rows') :
    rows.insert? row = some rows' := by
  simp only [insertClaim, run_bind_eq_ok, run_get_eq_ok, exists_eq_left, and_assoc,
    exists_and_left] at h
  split at h
  · exact absurd h run_throw_ne_ok
  · split at h
    · exact absurd h run_throw_ne_ok
    · next inserted hinsert => rw [hinsert, run_set_eq_ok.mp h]

theorem insertClaim_eq_error (h : (insertClaim row).run rows = .error e rows') : rows' = rows := by
  simp only [insertClaim, run_bind_eq_error, run_get_eq_ok, run_get_ne_error, false_or,
    exists_and_left, exists_eq_left, and_assoc] at h
  split at h
  · exact (run_throw_eq_error.mp h).2
  · split at h
    · exact (run_throw_eq_error.mp h).2
    · exact absurd h run_set_ne_error

/-- **A successful `reserve` found the owner's claim in flight, refused, or wrote a new row that
passed every check.** -/
theorem reserve_eq_ok {result : FaucetReservation}
    (h : (reserve id input now limits).run rows = .ok result rows') :
    (rows' = rows ∧ ∀ claim, result ≠ .ok claim true) ∨
      (0 ≤ input.amount ∧ Admitted rows input now limits ∧
        rows.insert? (reservedRow id input now) = some rows' ∧
        result = .ok (reservedRow id input now) true) := by
  simp only [reserve, run_bind_eq_ok, run_lift_eq_ok, run_get_eq_ok, exists_and_left,
    exists_eq_left, and_assoc] at h
  obtain ⟨_, hinput, h⟩ := h
  cases hadmission : admission rows input now limits with
  | some answer =>
    rw [hadmission] at h
    refine Or.inl ?_
    cases answer with
    | inflight claim =>
      obtain ⟨rfl, hrows⟩ := run_pure_eq_ok.mp h
      exact ⟨hrows, fun _ hr => by cases hr⟩
    | refused refusal =>
      obtain ⟨rfl, hrows⟩ := run_pure_eq_ok.mp h
      exact ⟨hrows, fun _ hr => by cases hr⟩
  | none =>
    rw [hadmission] at h
    obtain ⟨_, inserted, hinsert, h⟩ := run_bind_eq_ok.mp h
    obtain ⟨rfl, rfl⟩ := run_pure_eq_ok.mp h
    exact Or.inr ⟨assertReserveInput_eq_ok hinput, admission_eq_none hadmission,
      insertClaim_eq_ok hinsert, rfl⟩

theorem reserve_eq_error (h : (reserve id input now limits).run rows = .error e rows') :
    rows' = rows := by
  simp only [reserve, run_bind_eq_error, run_lift_eq_error, run_lift_eq_ok, run_get_eq_ok,
    run_get_ne_error, false_or, exists_and_left, exists_eq_left, and_assoc] at h
  rcases h with ⟨-, h⟩ | ⟨_, -, h⟩
  · exact h
  · split at h
    · exact absurd h run_pure_ne_error
    · exact absurd h run_pure_ne_error
    · rcases run_bind_eq_error.mp h with h | ⟨_, _, -, h⟩
      · exact insertClaim_eq_error h
      · exact absurd h run_pure_ne_error

/-- What `transition` writes when it moves a row. -/
def moved (rows : ClaimTable) (id : String) (target : FaucetClaimState) (now : Int)
    (columns : SetColumns) : ClaimTable :=
  rows.update id (FaucetClaimRow.move target now columns) fun _ => rfl

section Moved

variable {target : FaucetClaimState} {columns : SetColumns}

theorem mem_moved {row' : FaucetClaimRow} :
    row' ∈ moved rows id target now columns ↔
      ∃ row ∈ rows, row' = if row.id = id then row.move target now columns else row :=
  Table.mem_update (f := FaucetClaimRow.move target now columns) fun _ => rfl

theorem map_id_moved : (moved rows id target now columns).rows.map FaucetClaimRow.id =
    rows.rows.map FaucetClaimRow.id :=
  Table.map_update (f := FaucetClaimRow.move target now columns) (fun _ => rfl) fun _ => rfl

end Moved

/-- **A transition moves the row of `id` out of one of the states it starts from, or writes
nothing.** -/
theorem transition_eq_ok {source : List FaucetClaimState} {target : FaucetClaimState}
    {columns : SetColumns} {changed : Bool} :
    (transition id source target now columns).run rows = .ok changed rows' ↔
      (changed = false ∧ rows' = rows ∧ ∀ row, rows.get? id = some row → row.state ∉ source) ∨
        (changed = true ∧ rows' = moved rows id target now columns ∧
          ∃ row, rows.get? id = some row ∧ row.state ∈ source) := by
  simp only [transition, run_bind_eq_ok, run_get_eq_ok, exists_and_left, exists_eq_left,
    and_assoc]
  cases hrow : (rows.get? id).filter fun row => row.state ∈ source with
  | none =>
    have hout : ∀ row, rows.get? id = some row → row.state ∉ source := by
      simpa [Option.filter_eq_none_iff] using hrow
    simp only [run_pure_eq_ok]
    constructor
    · rintro ⟨hchanged, hrows⟩
      exact Or.inl ⟨hchanged, hrows, hout⟩
    · rintro (⟨hchanged, hrows, -⟩ | ⟨-, -, row, hget, hin⟩)
      · exact ⟨hchanged, hrows⟩
      · exact absurd hin (hout row hget)
  | some row =>
    obtain ⟨hget, hin⟩ := Option.filter_eq_some_iff.mp hrow
    have hin : row.state ∈ source := by simpa using hin
    simp only [run_bind_eq_ok, run_set_eq_ok, run_pure_eq_ok]
    constructor
    · rintro ⟨_, t, rfl, hchanged, rfl⟩
      exact Or.inr ⟨hchanged, rfl, row, hget, hin⟩
    · rintro (⟨-, -, hout⟩ | ⟨hchanged, rfl, -⟩)
      · exact absurd hin (hout row hget)
      · exact ⟨(), _, rfl, hchanged, rfl⟩

theorem transition_ne_error {source : List FaucetClaimState} {target : FaucetClaimState}
    {columns : SetColumns} :
    ¬ (transition id source target now columns).run rows = .error e rows' := by
  simp only [transition, run_bind_eq_error, run_get_eq_ok, run_get_ne_error, false_or,
    exists_and_left, exists_eq_left, and_assoc]
  intro h
  split at h
  · exact absurd h run_pure_ne_error
  · rcases run_bind_eq_error.mp h with h | ⟨_, _, -, h⟩
    · exact absurd h run_set_ne_error
    · exact absurd h run_pure_ne_error

theorem markSigned_eq_ok {signed : SignedClaim} {changed : Bool}
    (h : (markSigned id signed now).run rows = .ok changed rows') :
    0 < signed.amount ∧ 0 ≤ signed.nonce ∧
      (transition id [.reserved] .signed now
        ⟨some signed.amount, some signed.toSignedTransaction⟩).run rows = .ok changed rows' := by
  simp only [markSigned, run_bind_eq_ok, run_lift_eq_ok, throwIf_eq_ok, exists_and_left,
    exists_eq_left, and_assoc, exists_const, not_or] at h
  obtain ⟨hamount, -, hnonce, -, -, h⟩ := h
  exact ⟨Int.not_le.mp hamount, Int.not_lt.mp hnonce, h⟩

theorem markSigned_eq_error {signed : SignedClaim}
    (h : (markSigned id signed now).run rows = .error e rows') : rows' = rows := by
  simp only [markSigned, run_bind_eq_error, run_lift_eq_error, run_lift_eq_ok, exists_and_left,
    exists_eq_left, and_assoc, transition_ne_error, or_false, and_false, exists_false] at h
  rcases h with ⟨-, h⟩ | ⟨_, -, -, h⟩
  · exact h
  · exact h

/-! ## What a reading says -/

/-- **The next nonce is above every nonce that is held.** -/
theorem lt_nextNonce {signed : SignedTransaction} (hrow : row ∈ rows)
    (hheld : row.state.holdsNonce = true) (hsigned : row.signed = some signed) :
    signed.nonce < nextNonce rows := by
  have hmem : signed.nonce ∈ heldNonces rows :=
    List.mem_filterMap.mpr ⟨row, List.mem_filter.mpr ⟨hrow, hheld⟩, by rw [hsigned]; rfl⟩
  unfold nextNonce
  split
  · next hnone =>
    rw [List.max?_eq_none_iff.mp hnone] at hmem
    cases hmem
  · next n hn =>
    exact Int.lt_add_one_of_le ((List.max?_eq_some_iff.mp hn).2 _ hmem)

theorem mem_unsettled : row ∈ unsettled rows ↔ row ∈ rows ∧ row.state.inflight = true := by
  rw [unsettled, List.mem_mergeSort, List.mem_filter]
  exact Iff.rfl

theorem before_trans (a b c : FaucetClaimRow) (hab : a.before b = true) (hbc : b.before c = true) :
    a.before c = true := by
  unfold FaucetClaimRow.before at *
  cases ha : a.signed with
  | none =>
    cases hc : c.signed with
    | none =>
      cases hb : b.signed with
      | none =>
        simp only [ha, hb, hc, decide_eq_true_eq] at hab hbc ⊢
        exact Int.le_trans hab hbc
      | some t => simp [hb, hc] at hbc
    | some u => rfl
  | some s =>
    cases hb : b.signed with
    | none => simp [ha, hb] at hab
    | some t =>
      cases hc : c.signed with
      | none => simp [hb, hc] at hbc
      | some u =>
        simp only [ha, hb, hc, decide_eq_true_eq] at hab hbc ⊢
        omega

theorem before_total (a b : FaucetClaimRow) : (a.before b || b.before a) = true := by
  unfold FaucetClaimRow.before
  cases a.signed with
  | none =>
    cases b.signed with
    | none =>
      simp only [Bool.or_eq_true, decide_eq_true_eq]
      omega
    | some t => rfl
  | some s =>
    cases b.signed with
    | none => rfl
    | some t =>
      simp only [Bool.or_eq_true, decide_eq_true_eq]
      omega

/-- **The rows without a nonce come before the others.** -/
theorem unsettled_sorted : (unsettled rows).Pairwise fun a b => a.signed ≠ none → b.signed ≠ none := by
  refine (List.pairwise_mergeSort before_trans before_total _).imp ?_
  intro a b hab ha hb
  unfold FaucetClaimRow.before at hab
  rw [hb] at hab
  cases hsigned : a.signed with
  | none => exact ha hsigned
  | some _ => simp [hsigned] at hab

end Mapae.Faucet
