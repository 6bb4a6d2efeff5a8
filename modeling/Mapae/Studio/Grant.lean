import Mapae.Guardians.Names
import Mapae.Shared.Token

/-!
# Grants

The app creates a grant in four ways: signed in the Studio, imported from a permission code,
recovered from settled payments, or signed in the arcade for a guardian. A permission code is a chain
of delegations as the kit encodes it, in hex. The kit's codec is an argument of what reads one.

* `parsePermissionContext` reads pasted or stored text, and `parsePermissionContext_eq_ok` says which
  texts it reads unchanged
* `validateGrantDraft` is the check of the Studio's form
* `signedSessionGrant`, `importedSessionGrant`, `recoveredGrant` and `arcadeGrant` make the grants
-/

namespace Mapae.Studio

open Mapae.Infra Mapae.Guardians Mapae.Shared

/-- The tests of a hex digit. -/
def isHexDigit (c : Char) : Bool := c.isDigit ∨ c ∈ "abcdefABCDEF".toList

/-- `isHex`. -/
def isHex (value : List Char) : Bool := value.take 2 = ['0', 'x'] ∧ (value.drop 2).all isHexDigit

/--
What the app uses of the kit and of its address functions. Chains are leaf-first. `decodeDelegations`
is `none` where it throws; `getAddress` is only called on addresses.
-/
structure DelegationKit (Delegation : Type) where
  delegate : Delegation → String
  delegator : Delegation → String
  encodeDelegations : List Delegation → String
  decodeDelegations : String → Option (List Delegation)
  isAddress : String → Bool
  getAddress : String → String
  decode_encode : ∀ links, decodeDelegations (encodeDelegations links) = some links
  isHex_encode : ∀ links, isHex (encodeDelegations links).toList = true

inductive ParsedPermission (Delegation : Type) where
  | empty
  | invalid (reason : String)
  | ok (context : String) (root : Delegation) (links : Nat)

structure PermissionReasons where
  notHex : String
  emptyChain : String
  notDelegations : String

def REASONS : Guardians.Locale → PermissionReasons
  | .en => {
      notHex := "A permission code starts with 0x. Check the value you copied."
      emptyChain := "This permission code is empty. Copy the full approval output again."
      notDelegations :=
        "This is not a valid Mapae permission code. Check that the entire value was copied." }
  | .ko => {
      notHex := "권한 코드는 0x로 시작해야 합니다. 복사한 값을 다시 확인해 주세요."
      emptyChain := "비어 있는 권한 코드입니다. 승인 결과 전체를 다시 복사해 주세요."
      notDelegations := "올바른 마패 권한 코드가 아닙니다. 값 전체가 복사됐는지 확인해 주세요." }

section Parse

variable {Delegation : Type} (kit : DelegationKit Delegation)

/-- Pasted text to a root delegation. The root is the last link. -/
def parsePermissionContext (raw : String) (locale : Guardians.Locale := .en) :
    ParsedPermission Delegation :=
  let value := trim raw
  if value.isEmpty then .empty
  else if ¬ isHex value then .invalid (REASONS locale).notHex
  else
    match kit.decodeDelegations (String.ofList value) with
    | none => .invalid (REASONS locale).notDelegations
    | some links =>
      match links.getLast? with
      | none => .invalid (REASONS locale).emptyChain
      | some root => .ok (String.ofList value) root links.length

variable {kit}

theorem isSpace_of_isHex {value : List Char} (h : isHex value = true) :
    ∀ c ∈ value, isSpace c = false := by
  obtain ⟨hmark, hdigits⟩ := of_decide_eq_true h
  intro c hc
  rw [← List.take_append_drop 2 value, hmark, List.mem_append] at hc
  have hnone : ∀ text : List Char, text.all (fun c => !isSpace c) = true → ∀ c ∈ text,
      isSpace c = false := by
    intro text htext c hc
    exact Bool.not_eq_true' _ |>.mp (List.all_eq_true.mp htext c hc)
  rcases hc with hc | hc
  · exact hnone _ rfl c hc
  · rcases of_decide_eq_true (List.all_eq_true.mp hdigits c hc) with hd | hd
    · exact isSpace_of_isDigit hd
    · exact hnone _ rfl c hd

/-- A code that is hex and decodes to a chain is read as it is. -/
theorem parsePermissionContext_of {context : String} {links : List Delegation} {root : Delegation}
    (hhex : isHex context.toList = true) (hdecode : kit.decodeDelegations context = some links)
    (hroot : links.getLast? = some root) (locale : Guardians.Locale) :
    parsePermissionContext kit context locale = .ok context root links.length := by
  have htrim : trim context = context.toList := by
    have htext := trim_ofList (isSpace_of_isHex hhex)
    rwa [String.ofList_toList] at htext
  have hne : context.toList.isEmpty = false := by
    cases hlist : context.toList with
    | nil =>
      rw [hlist] at hhex
      cases hhex
    | cons => rfl
  simp [parsePermissionContext, htrim, hne, hhex, hdecode, hroot]

/-- What is read is hex, decodes and has a root. -/
theorem parsePermissionContext_eq_ok {raw context : String} {root : Delegation} {count : Nat}
    {locale : Guardians.Locale} (h : parsePermissionContext kit raw locale = .ok context root count) :
    context = String.ofList (trim raw) ∧ isHex context.toList = true ∧
      ∃ links, kit.decodeDelegations context = some links ∧ links.getLast? = some root := by
  unfold parsePermissionContext at h
  dsimp only at h
  split at h
  · cases h
  split at h
  · cases h
  next hhex =>
  split at h
  · cases h
  · next links hdecode =>
    split at h
    · cases h
    · next root' hroot =>
      cases h
      refine ⟨rfl, ?_, links, hdecode, hroot⟩
      rw [String.toList_ofList]
      simpa using hhex

end Parse

def DELEGATION_FRAMEWORK_VERSION : String := "1.3.0"
def GIWA_SEPOLIA_ID : Nat := 91342
def MAX_SAFE_INTEGER : Nat := 2 ^ 53 - 1

structure PermissionArtifact where
  frameworkVersion : String
  chainId : Nat
  role : String
  delegator : String
  delegate : String
  permissionContext : String
  createdAt : Int

structure AgentSessionKey where
  address : String
  privateKey : String

inductive GrantSource where
  | signed
  | imported
  deriving DecidableEq

structure SessionGrant where
  id : String
  name : String
  source : GrantSource
  artifact : PermissionArtifact
  amount : Option Nat := none
  periodSeconds : Option Nat := none
  expirySeconds : Option Nat := none
  recipient : Option String := none
  agentKey : Option AgentSessionKey := none

/-! ## The form -/

structure GrantDraft where
  agentName : String
  delegate : String
  amount : String
  periodSeconds : String
  expirySeconds : String
  recipientFixed : Bool
  recipient : String

structure ValidGrantDraft where
  agentName : String
  delegate : String
  periodAmount : Nat
  periodDurationSeconds : Nat
  expiresAfterSeconds : Nat
  recipient : Option String

/-- The fields that a refusal names. -/
inductive GrantField where
  | agentName
  | delegate
  | amount
  | periodSeconds
  | expirySeconds
  | recipient

inductive GrantDraftState where
  | invalid (field : GrantField) (reason : String)
  | ok (value : ValidGrantDraft)

/-- The sentences of `MSG` that these functions use. -/
structure GrantMessages where
  agentNameRequired : String
  agentNameTooLong : String
  delegateInvalid : String
  delegateZero : String
  delegateAnyone : String
  amountInvalid : String
  amountZero : String
  amountOverflow : String
  periodRequired : String
  expiryRequired : String
  expiryShorterThanPeriod : String
  recipientInvalid : String
  recipientZero : String
  recipientAnyone : String
  importedEmpty : String
  importedAgentPrefix : String
  recoveredAgentPrefix : String

def MSG : Guardians.Locale → GrantMessages
  | .en => {
      agentNameRequired := "Enter an agent name."
      agentNameTooLong := "Keep the agent name to 40 characters or fewer."
      delegateInvalid := "Check the agent's 0x wallet address."
      delegateZero := "The 0x0 address cannot be used as the agent address."
      delegateAnyone := "This address is usable by anyone and cannot be the agent address."
      amountInvalid := "Enter a positive amount with at most 6 decimal places."
      amountZero := "The amount must be greater than 0."
      amountOverflow := "The amount exceeds the on-chain uint256 range."
      periodRequired := "Select a payment period."
      expiryRequired := "Select how long the permission remains valid."
      expiryShorterThanPeriod := "The permission's validity cannot be shorter than the payment period."
      recipientInvalid := "Check the allowed recipient's 0x address."
      recipientZero := "The 0x0 address cannot be used as the recipient."
      recipientAnyone := "This address is usable by anyone and cannot be the recipient."
      importedEmpty := "An empty permission code cannot be imported."
      importedAgentPrefix := "Agent"
      recoveredAgentPrefix := "Recovered agent" }
  | .ko => {
      agentNameRequired := "에이전트 이름을 입력해 주세요."
      agentNameTooLong := "에이전트 이름은 40자 이내로 입력해 주세요."
      delegateInvalid := "에이전트의 0x 지갑 주소를 확인해 주세요."
      delegateZero := "에이전트 주소로 0x0 주소를 사용할 수 없습니다."
      delegateAnyone := "이 주소는 누구나 사용할 수 있는 값이라 에이전트 주소로 쓸 수 없습니다."
      amountInvalid := "금액은 소수점 6자리 이하의 양수로 입력해 주세요."
      amountZero := "금액은 0보다 커야 합니다."
      amountOverflow := "금액이 온체인 uint256 범위를 넘습니다."
      periodRequired := "결제 주기를 선택해 주세요."
      expiryRequired := "권한 유효 기간을 선택해 주세요."
      expiryShorterThanPeriod := "권한 유효 기간은 결제 주기보다 짧을 수 없습니다."
      recipientInvalid := "허용할 수취인의 0x 주소를 확인해 주세요."
      recipientZero := "수취인으로 0x0 주소를 사용할 수 없습니다."
      recipientAnyone := "이 주소는 누구나 사용할 수 있는 값이라 수취인으로 쓸 수 없습니다."
      importedEmpty := "비어 있는 권한 코드는 가져올 수 없습니다."
      importedAgentPrefix := "에이전트"
      recoveredAgentPrefix := "복구된 에이전트" }

/-- `BigInt` of the token bound. -/
def maxUint256 : Nat := 2 ^ 256 - 1

def zeroAddress : String := "0x0000000000000000000000000000000000000000"

def positiveSafeInteger (raw : String) : Option Nat :=
  let digits := trim raw
  if digits.head?.any (fun c => c.isDigit ∧ c ≠ '0') ∧ digits.all Char.isDigit then
    if decimalValue digits ≤ MAX_SAFE_INTEGER then some (decimalValue digits) else none
  else none

/-- A value that has to be there. -/
def required {α : Type} (value : Option α) (refusal : GrantField × String) :
    Except (GrantField × String) α :=
  match value with
  | some value => .ok value
  | none => .error refusal

section Grants

variable {Delegation : Type} (kit : DelegationKit Delegation)

/-- `DelegationManager.ANY_DELEGATE`. -/
def ANY_DELEGATE : String := kit.getAddress "0x0000000000000000000000000000000000000a11"

/-- The checks of an address field, in their order. -/
def checkAddress (raw : String) (field : GrantField) (invalid zero anyone : String) :
    Except (GrantField × String) String :=
  let value := String.ofList (trim raw)
  if ¬ kit.isAddress value then .error (field, invalid)
  else if kit.getAddress value = zeroAddress then .error (field, zero)
  else if kit.getAddress value = ANY_DELEGATE kit then .error (field, anyone)
  else .ok (kit.getAddress value)

/-- The recipient, where the draft fixes one. -/
def checkRecipient (draft : GrantDraft) (m : GrantMessages) :
    Except (GrantField × String) (Option String) :=
  if draft.recipientFixed then
    some <$> checkAddress kit draft.recipient .recipient m.recipientInvalid m.recipientZero
      m.recipientAnyone
  else .ok none

/-- The checks of `validateGrantDraft`, in their order. -/
def checkGrantDraft (draft : GrantDraft) (locale : Guardians.Locale) :
    Except (GrantField × String) ValidGrantDraft := do
  let m := MSG locale
  let agentName := String.ofList (trim draft.agentName)
  throwIf (agentName = "") (.agentName, m.agentNameRequired)
  throwIf (unitLength agentName > 40) (.agentName, m.agentNameTooLong)
  let delegate ← checkAddress kit draft.delegate .delegate m.delegateInvalid m.delegateZero
    m.delegateAnyone
  let periodAmount ← required (toTokenAmount draft.amount) (.amount, m.amountInvalid)
  throwIf (periodAmount = 0) (.amount, m.amountZero)
  throwIf (periodAmount > maxUint256) (.amount, m.amountOverflow)
  let periodDurationSeconds ← required (positiveSafeInteger draft.periodSeconds)
    (.periodSeconds, m.periodRequired)
  let expiresAfterSeconds ← required (positiveSafeInteger draft.expirySeconds)
    (.expirySeconds, m.expiryRequired)
  throwIf (expiresAfterSeconds < periodDurationSeconds) (.expirySeconds, m.expiryShorterThanPeriod)
  let recipient ← checkRecipient kit draft m
  return ⟨agentName, delegate, periodAmount, periodDurationSeconds, expiresAfterSeconds, recipient⟩

def validateGrantDraft (draft : GrantDraft) (locale : Guardians.Locale := .en) : GrantDraftState :=
  match checkGrantDraft kit draft locale with
  | .ok value => .ok value
  | .error (field, reason) => .invalid field reason

/-! ## Making grants -/

/-- `value.slice(-18)`. -/
def tail18 (value : String) : String := String.ofList (value.toList.drop (value.toList.length - 18))

/-- `getAddress(...).slice(0, 8)`. -/
def shortAddress (address : String) : String := String.ofList ((kit.getAddress address).toList.take 8)

/-- `permissionArtifact`. -/
def permissionArtifact (role : String) (chain : List Delegation) (createdAt : Int) :
    Except String PermissionArtifact :=
  match chain.head?, chain.getLast? with
  | some leaf, some root => .ok
      { frameworkVersion := DELEGATION_FRAMEWORK_VERSION
        chainId := GIWA_SEPOLIA_ID
        role := role
        delegator := kit.getAddress (kit.delegator root)
        delegate := kit.getAddress (kit.delegate leaf)
        permissionContext := kit.encodeDelegations chain
        createdAt := createdAt }
  | _, _ => .error "delegation chain must not be empty"

def grantId (artifact : PermissionArtifact) : String :=
  toString artifact.createdAt ++ ":" ++ artifact.delegate ++ ":" ++ tail18 artifact.permissionContext

/-- `signedSessionGrant`. -/
def signedSessionGrant (artifact : PermissionArtifact) (value : ValidGrantDraft)
    (agentKey : Option AgentSessionKey) : SessionGrant where
  id := grantId artifact
  name := value.agentName
  source := .signed
  artifact := artifact
  amount := value.periodAmount
  periodSeconds := value.periodDurationSeconds
  expirySeconds := value.expiresAfterSeconds
  recipient := value.recipient
  agentKey := agentKey

/-- `Math.floor(Date.now() / 1000)`. -/
def nowSeconds (now : Nat) : Nat := now / 1000

/-- `importedSessionGrant`; the decoder throws on what is no permission code. -/
def importedSessionGrant (permissionContext : String) (locale : Guardians.Locale) (now : Nat) :
    Except String SessionGrant :=
  match kit.decodeDelegations permissionContext with
  | none => .error "invalid delegations"
  | some links =>
    match links.head?, links.getLast? with
    | some leaf, some root => .ok
        { id := "imported:" ++ toString (nowSeconds now) ++ ":" ++ tail18 permissionContext
          name := (MSG locale).importedAgentPrefix ++ " " ++ shortAddress kit (kit.delegate leaf)
          source := .imported
          artifact :=
            { frameworkVersion := DELEGATION_FRAMEWORK_VERSION
              chainId := GIWA_SEPOLIA_ID
              role := "imported"
              delegator := kit.getAddress (kit.delegator root)
              delegate := kit.getAddress (kit.delegate leaf)
              permissionContext := permissionContext
              createdAt := nowSeconds now } }
    | _, _ => .error (MSG locale).importedEmpty

/-- What `recoverGrantsFromChain` makes of a root. -/
def recoveredGrant (root : Delegation) (locale : Guardians.Locale) (now : Nat) : SessionGrant where
  id := "chain:" ++ kit.getAddress (kit.delegate root) ++ ":" ++ tail18 (kit.encodeDelegations [root])
  name := (MSG locale).recoveredAgentPrefix ++ " " ++ shortAddress kit (kit.delegate root)
  source := .imported
  artifact :=
    { frameworkVersion := DELEGATION_FRAMEWORK_VERSION
      chainId := GIWA_SEPOLIA_ID
      role := "imported"
      delegator := kit.getAddress (kit.delegator root)
      delegate := kit.getAddress (kit.delegate root)
      permissionContext := kit.encodeDelegations [root]
      createdAt := nowSeconds now }

/-- The arcade's grant for a guardian of this name. -/
def arcadeGrant (artifact : PermissionArtifact) (name : String) : SessionGrant where
  id := grantId artifact
  name := "Mapae Arcade · " ++ name
  source := .signed
  artifact := artifact

end Grants

end Mapae.Studio
