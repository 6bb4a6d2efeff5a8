import Mapae.Delegation.RevocationSubmission

/-!
# The relayer of the revocation submitter

`boot` reads the submitter's numbers from the process's variables. Without
`PAYER_ACCOUNT_ADDRESS` it is the public, sponsored submitter: a sponsor deposits what the EntryPoint
will take, and the policy has a floor below which no operation is carried.

`carry` sends `handleOps` from the relayer's own account, at fees of its own. The EntryPoint pays the
relayer back at the fees of the operation.
-/

namespace Mapae.Delegation

open Mapae.Infra Mapae.Store

/-- `process.env`. -/
abbrev ProcessEnv := String → Option String

/-- `process.env[name]?.trim()`, where an empty text reads as none. -/
def readText (env : ProcessEnv) (name : String) : Option String :=
  ((env name).map fun value => String.ofList (trim value)).filter (· ≠ "")

def readPositiveInteger (env : ProcessEnv) (name : String) (fallback : Nat) : Except String Nat := do
  let raw := (readText env name).getD (decimalText fallback)
  throwIf (isPositiveText raw = false) s!"{name} must be a positive integer"
  pure (decimalValue raw.toList)

def readFlag (env : ProcessEnv) (name : String) : Bool :=
  (readText env name).map toLowerCase = some "true"

def readOptionalAddressEnv (viem : Viem) (env : ProcessEnv) (name : String) :
    Except String (Option String) :=
  match readText env name with
  | none => pure none
  | some value => do
    throwIf (viem.isAddress value = false) s!"{name} must be an address"
    pure (some (viem.getAddress value))

/-- The numbers of the sponsored mode. -/
structure SponsorConfig where
  depositGas : Nat
  maxFeePerGas : Nat
  priorityFeePerGas : Nat
  minBalance : Nat
  dailyBudget : Nat
  ratePerHour : Nat
  deriving DecidableEq

structure SubmitterConfig where
  /-- The tip the relayer offers, before it is clamped to the operation's fee. -/
  relayerPriorityFee : Nat
  policy : RevocationSubmissionPolicy
  /-- There in the sponsored mode. -/
  sponsor : Option SponsorConfig
  deriving DecidableEq

/-- The phrase that arms the sponsor of one composition. -/
def buildSponsoredRevocationApproval (compositionId : String) : String :=
  s!"sponsored-revocation-chain-91342-{compositionId}"

def readSponsorConfig (compositionId : String) (env : ProcessEnv) : Except String SponsorConfig := do
  throwIf (readFlag env "REVOCATION_SPONSOR_ENABLED" = false)
    ("PAYER_ACCOUNT_ADDRESS is unset, which selects sponsored mode — it requires " ++
      "REVOCATION_SPONSOR_ENABLED=true (or set PAYER_ACCOUNT_ADDRESS for the pinned mode)")
  let expectedApproval := buildSponsoredRevocationApproval compositionId
  throwIf (readText env "REVOCATION_SPONSOR_APPROVAL" ≠ some expectedApproval)
    ("sponsored mode requires REVOCATION_SPONSOR_APPROVAL to match this composition; " ++
      s!"expected {expectedApproval}")
  let depositGas ← readPositiveInteger env "REVOCATION_DEPOSIT_GAS" 60000
  let maxFeePerGas ← readPositiveInteger env "REVOCATION_SPONSOR_FEE_PER_GAS" 50000000
  let priorityFeePerGas ← readPositiveInteger env "REVOCATION_SPONSOR_PRIORITY_FEE_WEI" 1000000
  let minBalance ← readPositiveInteger env "REVOCATION_MIN_SPONSOR_BALANCE_WEI" 1000000000000
  let dailyBudget ← readPositiveInteger env "REVOCATION_DAILY_WEI" 700000000000000
  let ratePerHour ← readPositiveInteger env "REVOCATION_RATE_PER_HOUR" 2
  pure { depositGas, maxFeePerGas, priorityFeePerGas, minBalance, dailyBudget, ratePerHour }

/-- The names of an older service, which are refused. -/
def LEGACY_NAMES : List String := ["RELAYER_ADDRESS", "RELAYER_PRIVATE_KEY", "RELAYER_PRIORITY_FEE_WEI"]

def refuseLegacyName (env : ProcessEnv) (legacy : String) : Except String Unit :=
  throwIf ((readText env legacy).isSome = true)
    (s!"{legacy} is not a variable of this service — its own sender is " ++
      s!"REVOCATION_{legacy}. In the bootstrap and facilitator .env files the " ++
      "RELAYER_* spelling names the settlement signer, which this service must " ++
      "never broadcast from; a copied .env would assert exactly that. Rename or " ++
      "remove the variable.")

/-- The floor of the price, in the sponsored mode only. -/
def readFloor (env : ProcessEnv) (payer : Option String) : Except String (Option Nat) :=
  match payer with
  | some _ => pure none
  | none => do
    let floor ← readPositiveInteger env "MIN_FEE_PER_GAS" 10000000
    pure (some floor)

/-- The sponsor's numbers, in the sponsored mode only. -/
def readSponsor (compositionId : String) (env : ProcessEnv) (payer : Option String) :
    Except String (Option SponsorConfig) :=
  match payer with
  | some _ => pure none
  | none => do
    let config ← readSponsorConfig compositionId env
    throwIf (config.maxFeePerGas < config.priorityFeePerGas)
      ("REVOCATION_SPONSOR_PRIORITY_FEE_WEI must not exceed REVOCATION_SPONSOR_FEE_PER_GAS; " ++
        "the node would refuse every broadcast")
    pure (some config)

/-- What the process reads before it serves. -/
def boot (viem : Viem) (compositionId : String) (env : ProcessEnv) : Except String SubmitterConfig := do
  let relayerPriorityFee ← readPositiveInteger env "REVOCATION_RELAYER_PRIORITY_FEE_WEI" 1000000
  LEGACY_NAMES.forM (refuseLegacyName env)
  let payer ← readOptionalAddressEnv viem env "PAYER_ACCOUNT_ADDRESS"
  let maxCallGasLimit ← readPositiveInteger env "MAX_CALL_GAS_LIMIT" 300000
  let maxVerificationGasLimit ← readPositiveInteger env "MAX_VERIFICATION_GAS_LIMIT" 300000
  let maxPreVerificationGas ← readPositiveInteger env "MAX_PRE_VERIFICATION_GAS" 100000
  let maxFeePerGas ← readPositiveInteger env "MAX_FEE_PER_GAS"
    (if payer = none then 10000000 else 1000000000)
  let minFeePerGas ← readFloor env payer
  let sponsor ← readSponsor compositionId env payer
  pure
    { relayerPriorityFee
      policy := { payer, maxCallGasLimit, maxVerificationGasLimit, maxPreVerificationGas,
                  maxFeePerGas, minFeePerGas }
      sponsor }

/-- The fees of a transaction. -/
structure TransactionFees where
  maxFeePerGas : Nat
  maxPriorityFeePerGas : Nat

/-- The fees `carry` sends `handleOps` with. -/
def relayerFees (config : SubmitterConfig) (gas : RevocationGas) : TransactionFees where
  maxFeePerGas := gas.maxFeePerGas
  maxPriorityFeePerGas :=
    if config.relayerPriorityFee < gas.maxFeePerGas then config.relayerPriorityFee
    else gas.maxFeePerGas

/-- The price per gas of a transaction in a block. -/
def TransactionFees.price (fees : TransactionFees) (baseFee : Nat) : Nat :=
  min fees.maxFeePerGas (baseFee + fees.maxPriorityFeePerGas)

/-- The price per gas at which the EntryPoint pays the relayer. -/
def reimbursedPrice (gas : RevocationGas) (baseFee : Nat) : Nat :=
  min gas.maxFeePerGas (baseFee + gas.maxPriorityFeePerGas)

/-! ## What the boot reads -/

variable {viem : Viem} {compositionId : String} {env : ProcessEnv} {config : SubmitterConfig}

/-- **A submitter that serves no one payer has a floor.** -/
theorem boot_floor (hboot : boot viem compositionId env = .ok config)
    (hsponsored : config.policy.payer = none) : ∃ floor, config.policy.minFeePerGas = some floor := by
  simp only [boot, bind_eq_ok, pure_eq_ok] at hboot
  obtain ⟨_, -, _, -, payer, -, _, -, _, -, _, -, _, -, minFeePerGas, hfloor, _, -, rfl⟩ := hboot
  simp only at hsponsored
  subst hsponsored
  simp only [readFloor, bind_eq_ok, pure_eq_ok] at hfloor
  obtain ⟨floor, -, rfl⟩ := hfloor
  exact ⟨floor, rfl⟩

/-! ## The two prices -/

variable {gas : RevocationGas} {baseFee : Nat}

/-- **The relayer pays no more than it is paid back** when it tips no more than the operation, or
the operation's cap is reached. -/
theorem price_le_reimbursed_iff :
    (relayerFees config gas).price baseFee ≤ reimbursedPrice gas baseFee ↔
      config.relayerPriorityFee ≤ gas.maxPriorityFeePerGas ∨
        gas.maxFeePerGas ≤ baseFee + gas.maxPriorityFeePerGas := by
  simp only [TransactionFees.price, relayerFees, reimbursedPrice]
  split <;> omega

/-- No operation below the floor is carried. -/
theorem price_le_reimbursed_of_floor {floor : Nat} (hfees : FeesAdmitted config.policy
      gas.maxFeePerGas gas.maxPriorityFeePerGas)
    (hfloor : config.policy.minFeePerGas = some floor)
    (h : config.relayerPriorityFee ≤ floor ∨ config.policy.maxFeePerGas ≤ floor) :
    (relayerFees config gas).price baseFee ≤ reimbursedPrice gas baseFee := by
  have htip := hfees.floor_le floor hfloor
  have hcap := hfees.maxFee_le
  rw [price_le_reimbursed_iff]
  omega

end Mapae.Delegation
