import Mathlib.Data.Fintype.BigOperators
import Mathlib.Tactic.Abel
import Mapae.Infra.Transaction
import Mapae.Infra.Transition

/-!
# MockUSDC

The stablecoin with transfers by authorization: the payer signs, anybody may submit.

* `Erc20` stands for the token base that `MockUSDC` inherits, with what is relied on of it: what a
  transfer and a mint do to the balances, and that the total supply is what the accounts hold.
  `plainErc20` is a base as it is documented; with it the contract can be run
* `Message` is what a call reads of the chain: the caller, the time, and whose signatures are
  valid. A smart account answers that itself, so the answer may be another for every call
* `Hashing` stands for the hash functions
* a call is a transaction: one that reverts takes its writes and its logs back
-/

namespace Mapae.Usdc

open Mapae.Infra

/-- An account: 20 bytes. -/
abbrev Address := Fin (2 ^ 160)

/-! ## Moving amounts between accounts -/

section Balances

variable {ι : Type} [DecidableEq ι] [Fintype ι] {balances : ι → Nat} {a b : ι} {value : Nat}

/-- `value` less for `a` and more for `b`; the two may be one account. -/
def moved (balances : ι → Nat) (a b : ι) (value : Nat) : ι → Nat :=
  let debited := Function.update balances a (balances a - value)
  Function.update debited b (debited b + value)

theorem sum_update (balances : ι → Nat) (a : ι) (amount : Nat) :
    ∑ x, Function.update balances a amount x + balances a = ∑ x, balances x + amount := by
  have hrest : ∑ x ∈ Finset.univ.erase a, Function.update balances a amount x =
      ∑ x ∈ Finset.univ.erase a, balances x := by
    refine Finset.sum_congr rfl fun x hx => ?_
    rw [Function.update_of_ne (Finset.ne_of_mem_erase hx)]
  rw [← Finset.add_sum_erase _ _ (Finset.mem_univ a), ← Finset.add_sum_erase _ _ (Finset.mem_univ a),
    hrest, Function.update_self]
  abel

/-- **Moving an amount that is there keeps the sum.** -/
theorem sum_moved (h : value ≤ balances a) : ∑ x, moved balances a b value x = ∑ x, balances x := by
  have hdebit := sum_update balances a (balances a - value)
  have hcredit := sum_update (Function.update balances a (balances a - value)) b
    (Function.update balances a (balances a - value) b + value)
  simp only [moved]
  omega

end Balances

/-! ## The base -/

/-- The inherited token base. An operation answers `none` when it reverts. -/
structure Erc20 where
  State : Type
  empty : State
  balanceOf : State → Address → Nat
  totalSupply : State → Nat
  /-- `_transfer(from, to, value)`. -/
  transfer : State → Address → Address → Nat → Option State
  /-- `_mint(to, value)`. -/
  mint : State → Address → Nat → Option State
  /-- `_approve(owner, spender, value)`. -/
  approve : State → Address → Address → Nat → Option State
  /-- `_spendAllowance(owner, spender, value)`. -/
  spendAllowance : State → Address → Address → Nat → Option State
  /-- The total supply is the amount of tokens in existence. -/
  totalSupply_eq : ∀ s, totalSupply s = ∑ a, balanceOf s a
  balanceOf_empty : ∀ a, balanceOf empty a = 0
  balanceOf_transfer : ∀ {s a b value s'}, transfer s a b value = some s' →
    value ≤ balanceOf s a ∧ balanceOf s' = moved (balanceOf s) a b value
  balanceOf_mint : ∀ {s a value s'}, mint s a value = some s' →
    balanceOf s' = Function.update (balanceOf s) a (balanceOf s a + value)
  balanceOf_approve : ∀ {s owner spender value s'}, approve s owner spender value = some s' →
    balanceOf s' = balanceOf s
  balanceOf_spendAllowance : ∀ {s owner spender value s'},
    spendAllowance s owner spender value = some s' → balanceOf s' = balanceOf s

namespace Erc20

variable (E : Erc20) {s s' : E.State} {a b : Address} {value : Nat}

theorem totalSupply_transfer (h : E.transfer s a b value = some s') :
    E.totalSupply s' = E.totalSupply s := by
  obtain ⟨hfunds, hbalances⟩ := E.balanceOf_transfer h
  rw [E.totalSupply_eq, E.totalSupply_eq, hbalances]
  exact sum_moved hfunds

theorem totalSupply_mint (h : E.mint s a value = some s') :
    E.totalSupply s' = E.totalSupply s + value := by
  have hsum := sum_update (E.balanceOf s) a (E.balanceOf s a + value)
  rw [E.totalSupply_eq, E.totalSupply_eq, E.balanceOf_mint h]
  omega

theorem totalSupply_congr (h : E.balanceOf s' = E.balanceOf s) :
    E.totalSupply s' = E.totalSupply s := by
  rw [E.totalSupply_eq, E.totalSupply_eq, h]

end Erc20

/-! ## A base that can be run -/

/-- Balances and allowances. The supply is carried along, and is the sum of the balances. -/
structure PlainBalances where
  balances : Address → Nat
  allowances : Address → Address → Nat
  supply : Nat
  supply_eq : supply = ∑ a, balances a

namespace PlainBalances

variable {s s' : PlainBalances} {a b owner spender : Address} {value : Nat}

def empty : PlainBalances where
  balances _ := 0
  allowances _ _ := 0
  supply := 0
  supply_eq := Finset.sum_const_zero.symm

/-- The zero address neither sends nor receives. -/
def transfer (s : PlainBalances) (a b : Address) (value : Nat) : Option PlainBalances :=
  if h : a ≠ 0 ∧ b ≠ 0 ∧ value ≤ s.balances a then
    some { s with
      balances := moved s.balances a b value
      supply_eq := s.supply_eq.trans (sum_moved h.2.2).symm }
  else none

/-- The supply is a `uint256`. -/
def mint (s : PlainBalances) (a : Address) (value : Nat) : Option PlainBalances :=
  if a ≠ 0 ∧ s.supply + value < 2 ^ 256 then
    some { s with
      balances := Function.update s.balances a (s.balances a + value)
      supply := s.supply + value
      supply_eq := by
        have hsum := sum_update s.balances a (s.balances a + value)
        have hsupply := s.supply_eq
        omega }
  else none

def approve (s : PlainBalances) (owner spender : Address) (value : Nat) : Option PlainBalances :=
  if owner ≠ 0 ∧ spender ≠ 0 then
    let allowances := Function.update (s.allowances owner) spender value
    some { s with allowances := Function.update s.allowances owner allowances }
  else none

/-- An allowance of `type(uint256).max` is not used up. -/
def spendAllowance (s : PlainBalances) (owner spender : Address) (value : Nat) :
    Option PlainBalances :=
  if s.allowances owner spender = 2 ^ 256 - 1 then some s
  else if value ≤ s.allowances owner spender then
    s.approve owner spender (s.allowances owner spender - value)
  else none

theorem transfer_eq_some (h : s.transfer a b value = some s') :
    value ≤ s.balances a ∧ s'.balances = moved s.balances a b value := by
  obtain ⟨hok, h⟩ := Option.dite_none_right_eq_some.mp h
  cases h
  exact ⟨hok.2.2, rfl⟩

theorem mint_eq_some (h : s.mint a value = some s') :
    s'.balances = Function.update s.balances a (s.balances a + value) := by
  obtain ⟨-, h⟩ := Option.ite_none_right_eq_some.mp h
  cases h
  rfl

theorem approve_eq_some (h : s.approve owner spender value = some s') :
    s'.balances = s.balances := by
  obtain ⟨-, h⟩ := Option.ite_none_right_eq_some.mp h
  cases h
  rfl

theorem spendAllowance_eq_some (h : s.spendAllowance owner spender value = some s') :
    s'.balances = s.balances := by
  unfold spendAllowance at h
  split at h
  · cases h
    rfl
  · exact approve_eq_some (Option.ite_none_right_eq_some.mp h).2

end PlainBalances

def plainErc20 : Erc20 where
  State := PlainBalances
  empty := .empty
  balanceOf := PlainBalances.balances
  totalSupply := PlainBalances.supply
  transfer := PlainBalances.transfer
  mint := PlainBalances.mint
  approve := PlainBalances.approve
  spendAllowance := PlainBalances.spendAllowance
  totalSupply_eq := PlainBalances.supply_eq
  balanceOf_empty _ := rfl
  balanceOf_transfer h := PlainBalances.transfer_eq_some h
  balanceOf_mint h := PlainBalances.mint_eq_some h
  balanceOf_approve h := PlainBalances.approve_eq_some h
  balanceOf_spendAllowance h := PlainBalances.spendAllowance_eq_some h

abbrev Bytes32 := BitVec 256
abbrev Bytes := List UInt8

/-- The custom errors, and a revert of the token base. -/
inductive UsdcError where
  | AuthorizationNotYetValid (validAfter nowTs : Nat)
  | AuthorizationExpired (validBefore nowTs : Nat)
  | AuthorizationAlreadyUsed (authorizer : Address) (nonce : Bytes32)
  | InvalidAuthorizationSignature (expectedSigner : Address)
  | CallerMustBePayee (caller payee : Address)
  | erc20

inductive UsdcEvent where
  | AuthorizationUsed (authorizer : Address) (nonce : Bytes32)
  | AuthorizationCanceled (authorizer : Address) (nonce : Bytes32)

structure Hashing where
  keccak256 : Bytes → Bytes32
  /-- `_hashTypedDataV4`. -/
  hashTypedDataV4 : Bytes32 → Bytes32

/-- What a call reads of the chain. -/
structure Message where
  sender : Address
  timestamp : Nat
  /-- `SignatureChecker.isValidSignatureNow(signer, digest, signature)`. -/
  isValidSignatureNow : Address → Bytes32 → Bytes → Bool

/-- The arguments that the two settlements share. -/
structure Authorization where
  payer : Address
  payee : Address
  value : Nat
  validAfter : Nat
  validBefore : Nat
  nonce : Bytes32

/-- The contract's storage, and the events it emitted, the last first. -/
structure MockUSDC (E : Erc20) where
  token : E.State
  authorizationStates : Address → Bytes32 → Bool
  logs : List UsdcEvent

/-! ## Encoding -/

/-- The 32 bytes of a word, the highest first. -/
def wordBytes (word : Bytes32) : Bytes :=
  (List.range 32).map fun i => UInt8.ofNat (word.toNat / 256 ^ (31 - i))

/-- `abi.encode` of values that take one word each. -/
def abiEncode (words : List Bytes32) : Bytes := words.flatMap wordBytes

/-- `abi.encodePacked(r, s, v)`. -/
def encodePacked (r s : Bytes32) (v : UInt8) : Bytes := wordBytes r ++ wordBytes s ++ [v]

def uint (value : Nat) : Bytes32 := BitVec.ofNat 256 value

/-- `keccak256` of a type's text. -/
def typehash (H : Hashing) (type : String) : Bytes32 := H.keccak256 type.toUTF8.toList

def TRANSFER_WITH_AUTHORIZATION_TYPEHASH (H : Hashing) : Bytes32 :=
  typehash H ("TransferWithAuthorization(address from,address to,uint256 value," ++
    "uint256 validAfter,uint256 validBefore,bytes32 nonce)")

def RECEIVE_WITH_AUTHORIZATION_TYPEHASH (H : Hashing) : Bytes32 :=
  typehash H ("ReceiveWithAuthorization(address from,address to,uint256 value," ++
    "uint256 validAfter,uint256 validBefore,bytes32 nonce)")

def CANCEL_AUTHORIZATION_TYPEHASH (H : Hashing) : Bytes32 :=
  typehash H "CancelAuthorization(address authorizer,bytes32 nonce)"

/-- The struct hash of a settlement under the type hash of its action. -/
def Authorization.structHash (H : Hashing) (typehash : Bytes32) (a : Authorization) : Bytes32 :=
  H.keccak256 (abiEncode [typehash, uint a.payer, uint a.payee, uint a.value, uint a.validAfter,
    uint a.validBefore, a.nonce])

def cancelStructHash (H : Hashing) (authorizer : Address) (nonce : Bytes32) : Bytes32 :=
  H.keccak256 (abiEncode [CANCEL_AUTHORIZATION_TYPEHASH H, uint authorizer, nonce])

/-! ## The checks and the writes -/

section Contract

variable {E : Erc20} (H : Hashing) (m : Message)

/-- A part of a call. -/
abbrev Statement (E : Erc20) := EStateM UsdcError (MockUSDC E)

/-- `_requireValidWindow`. -/
def requireValidWindow (validAfter validBefore : Nat) : Except UsdcError Unit := do
  throwIf (m.timestamp ≤ validAfter) (UsdcError.AuthorizationNotYetValid validAfter m.timestamp)
  throwIf (m.timestamp ≥ validBefore) (UsdcError.AuthorizationExpired validBefore m.timestamp)

/-- `_requireUnusedAuthorization`. -/
def requireUnusedAuthorization (authorizer : Address) (nonce : Bytes32) : Statement E Unit := do
  let s ← get
  throwIf (s.authorizationStates authorizer nonce = true)
    (UsdcError.AuthorizationAlreadyUsed authorizer nonce)

/-- `_requireValidSignature`. -/
def requireValidSignature (signer : Address) (structHash : Bytes32) (signature : Bytes) :
    Except UsdcError Unit :=
  throwIf (m.isValidSignatureNow signer (H.hashTypedDataV4 structHash) signature = false)
    (UsdcError.InvalidAuthorizationSignature signer)

/-- `_authorizationStates[authorizer][nonce] = true`, and the event. -/
def MockUSDC.consume (s : MockUSDC E) (authorizer : Address) (nonce : Bytes32)
    (event : UsdcEvent) : MockUSDC E :=
  { s with
    authorizationStates := Function.update s.authorizationStates authorizer
      (Function.update (s.authorizationStates authorizer) nonce true)
    logs := event :: s.logs }

/-- `_consumeAuthorization`. -/
def consumeAuthorization (authorizer : Address) (nonce : Bytes32) : Statement E Unit := do
  let s ← get
  set (s.consume authorizer nonce (.AuthorizationUsed authorizer nonce))

/-- An operation of the token base. -/
def withToken (op : E.State → Option E.State) : Statement E Unit := do
  let s ← get
  match op s.token with
  | none => throw .erc20
  | some token => set { s with token := token }

/-! ## The entry points -/

/-- What `transferWithAuthorization` and `receiveWithAuthorization` do alike. -/
def settle (typehash : Bytes32) (a : Authorization) (signature : Bytes) : Statement E Unit := do
  requireValidWindow m a.validAfter a.validBefore
  requireUnusedAuthorization a.payer a.nonce
  requireValidSignature H m a.payer (a.structHash H typehash) signature
  consumeAuthorization a.payer a.nonce
  withToken fun token => E.transfer token a.payer a.payee a.value

def transferWithAuthorization (a : Authorization) (signature : Bytes) : Statement E Unit :=
  settle H m (TRANSFER_WITH_AUTHORIZATION_TYPEHASH H) a signature

def receiveWithAuthorization (a : Authorization) (signature : Bytes) : Statement E Unit := do
  throwIf (m.sender ≠ a.payee) (UsdcError.CallerMustBePayee m.sender a.payee)
  settle H m (RECEIVE_WITH_AUTHORIZATION_TYPEHASH H) a signature

def cancelAuthorization (authorizer : Address) (nonce : Bytes32) (signature : Bytes) :
    Statement E Unit := do
  requireUnusedAuthorization authorizer nonce
  requireValidSignature H m authorizer (cancelStructHash H authorizer nonce) signature
  let s ← get
  set (s.consume authorizer nonce (.AuthorizationCanceled authorizer nonce))

/-- The signature forms of an entry point. -/
inductive Signature where
  | bytes (signature : Bytes)
  | vrs (v : UInt8) (r s : Bytes32)

/-- The overloads for `v`, `r` and `s` pass the packed bytes on. -/
def Signature.packed : Signature → Bytes
  | bytes signature => signature
  | vrs v r s => encodePacked r s v

/-- A call of the contract: the six entry points for authorizations, the calls of a plain token,
and the faucet. -/
inductive Call where
  | transferWithAuthorization (a : Authorization) (signature : Signature)
  | receiveWithAuthorization (a : Authorization) (signature : Signature)
  | cancelAuthorization (authorizer : Address) (nonce : Bytes32) (signature : Signature)
  | transfer (payee : Address) (value : Nat)
  | transferFrom (payer payee : Address) (value : Nat)
  | approve (spender : Address) (value : Nat)
  | mint (payee : Address) (value : Nat)

def Call.body : Call → Statement E Unit
  | transferWithAuthorization a signature => Usdc.transferWithAuthorization H m a signature.packed
  | receiveWithAuthorization a signature => Usdc.receiveWithAuthorization H m a signature.packed
  | cancelAuthorization authorizer nonce signature =>
    Usdc.cancelAuthorization H m authorizer nonce signature.packed
  | transfer payee value => withToken fun token => E.transfer token m.sender payee value
  | transferFrom payer payee value => do
    withToken fun token => E.spendAllowance token payer m.sender value
    withToken fun token => E.transfer token payer payee value
  | approve spender value => withToken fun token => E.approve token m.sender spender value
  | mint payee value => withToken fun token => E.mint token payee value

end Contract

/-! ## Runs -/

/-- A call with what it reads of the chain. -/
structure Tx where
  message : Message
  call : Call

variable {E : Erc20} (H : Hashing)

/-- The whole call: it reverts as a whole. -/
def Tx.perform (tx : Tx) : Statement E Unit := transaction (tx.call.body H tx.message)

def exec (s : MockUSDC E) (tx : Tx) : MockUSDC E := after (tx.perform H) s

def deployed (E : Erc20) : MockUSDC E := ⟨E.empty, fun _ _ => false, []⟩

def Tx.succeeds (s : MockUSDC E) (tx : Tx) : Bool := (answer (tx.perform H) s).isOk

/-- The calls of a run that did not revert. -/
def succeeded : MockUSDC E → List Tx → List Tx
  | _, [] => []
  | s, tx :: txs =>
    if tx.succeeds H s then tx :: succeeded (exec H s tx) txs else succeeded (exec H s tx) txs

/-! ## What a call did -/

namespace Call

/-- The settlement that a call asks for. -/
def settlement : Call → Option Authorization
  | transferWithAuthorization a _ | receiveWithAuthorization a _ => some a
  | _ => none

/-- The authorization that a call consumes: a settlement or a cancellation. -/
def consumes : Call → Option (Address × Bytes32)
  | transferWithAuthorization a _ | receiveWithAuthorization a _ => some (a.payer, a.nonce)
  | cancelAuthorization authorizer nonce _ => some (authorizer, nonce)
  | _ => none

def minted : Call → Nat
  | mint _ value => value
  | _ => 0

end Call

/-- What a call that did not revert checked, and what it wrote. -/
structure Did (m : Message) (call : Call) (s s' : MockUSDC E) : Prop where
  unused : ∀ authorizer nonce, call.consumes = some (authorizer, nonce) →
    s.authorizationStates authorizer nonce = false
  states : ∀ authorizer nonce, s'.authorizationStates authorizer nonce = true ↔
    s.authorizationStates authorizer nonce = true ∨ call.consumes = some (authorizer, nonce)
  window : ∀ a, call.settlement = some a → a.validAfter < m.timestamp ∧ m.timestamp < a.validBefore
  payee : ∀ a signature, call = .receiveWithAuthorization a signature → m.sender = a.payee
  supply : E.totalSupply s'.token = E.totalSupply s.token + call.minted

section Spec

variable {H} {m : Message} {s s' : MockUSDC E} {u : Unit}

theorem MockUSDC.consume_states (s : MockUSDC E) (authorizer : Address) (nonce : Bytes32)
    (event : UsdcEvent) (authorizer' : Address) (nonce' : Bytes32) :
    (s.consume authorizer nonce event).authorizationStates authorizer' nonce' = true ↔
      s.authorizationStates authorizer' nonce' = true ∨
        some (authorizer, nonce) = some (authorizer', nonce') := by
  simp only [consume, Option.some.injEq, Prod.mk.injEq]
  by_cases ha : authorizer' = authorizer
  · subst ha
    by_cases hn : nonce' = nonce
    · subst hn
      simp
    · simp [Function.update_of_ne hn, Ne.symm hn]
  · simp [Function.update_of_ne ha, Ne.symm ha]

theorem requireUnusedAuthorization_eq_ok {authorizer : Address} {nonce : Bytes32} :
    (requireUnusedAuthorization authorizer nonce).run s = .ok u s' ↔
      s.authorizationStates authorizer nonce = false ∧ s' = s := by
  simp only [requireUnusedAuthorization, run_bind_eq_ok, run_get_eq_ok, run_lift_eq_ok,
    throwIf_eq_ok, and_assoc, exists_and_left, exists_eq_left, Bool.not_eq_true]

theorem requireValidWindow_eq_ok {validAfter validBefore : Nat} :
    requireValidWindow m validAfter validBefore = .ok u ↔
      validAfter < m.timestamp ∧ m.timestamp < validBefore := by
  simp only [requireValidWindow, bind_eq_ok, throwIf_eq_ok, exists_const, not_le, ge_iff_le]

theorem withToken_eq_ok {op : E.State → Option E.State} :
    (withToken op).run s = .ok u s' ↔
      ∃ token, op s.token = some token ∧ s' = { s with token := token } := by
  simp only [withToken, run_bind_eq_ok, run_get_eq_ok, and_assoc, exists_and_left, exists_eq_left]
  cases hop : op s.token with
  | none => simp
  | some token => simp [eq_comm]

/-- **A settlement passes every check, consumes its authorization and moves its value.** -/
theorem settle_eq_ok {typehash : Bytes32} {a : Authorization} {signature : Bytes}
    (h : (settle H m typehash a signature).run s = .ok u s') :
    (a.validAfter < m.timestamp ∧ m.timestamp < a.validBefore) ∧
      s.authorizationStates a.payer a.nonce = false ∧
      ∃ token, E.transfer s.token a.payer a.payee a.value = some token ∧
        s' = { s.consume a.payer a.nonce (.AuthorizationUsed a.payer a.nonce) with
          token := token } := by
  simp only [settle, consumeAuthorization, run_bind_eq_ok, run_lift_eq_ok, run_get_eq_ok,
    run_set_eq_ok, requireUnusedAuthorization_eq_ok, requireValidWindow_eq_ok, withToken_eq_ok,
    exists_const, exists_and_left, exists_eq_left, and_assoc] at h
  obtain ⟨hafter, hbefore, hunused, -, -, token, htoken, rfl⟩ := h
  exact ⟨⟨hafter, hbefore⟩, hunused, token, htoken, rfl⟩

theorem cancelAuthorization_eq_ok {authorizer : Address} {nonce : Bytes32} {signature : Bytes}
    (h : (cancelAuthorization H m authorizer nonce signature).run s = .ok u s') :
    s.authorizationStates authorizer nonce = false ∧
      s' = s.consume authorizer nonce (.AuthorizationCanceled authorizer nonce) := by
  simp only [cancelAuthorization, run_bind_eq_ok, run_lift_eq_ok, run_get_eq_ok, run_set_eq_ok,
    requireUnusedAuthorization_eq_ok, exists_const, exists_and_left, exists_eq_left,
    and_assoc] at h
  obtain ⟨hunused, -, -, rfl⟩ := h
  exact ⟨hunused, rfl⟩

/-- A call of the token base alone touches no authorization. -/
theorem did_of_token {call : Call} {token : E.State} (hconsumes : call.consumes = none)
    (hsettlement : call.settlement = none)
    (hsupply : E.totalSupply token = E.totalSupply s.token + call.minted) :
    Did m call s { s with token := token } where
  unused _ _ h := by
    rw [hconsumes] at h
    cases h
  states _ _ := by
    rw [hconsumes]
    simp
  window a h := by
    rw [hsettlement] at h
    cases h
  payee a signature h := by
    rw [h] at hsettlement
    cases hsettlement
  supply := hsupply

/-- **What a call that did not revert did.** -/
theorem did_of_perform {call : Call} (h : ((⟨m, call⟩ : Tx).perform H).run s = .ok u s') :
    Did m call s s' := by
  replace h : (call.body H m).run s = .ok u s' := run_transaction_eq_ok.mp h
  cases call with
  | transferWithAuthorization a signature =>
    obtain ⟨hwindow, hunused, token, htoken, rfl⟩ := settle_eq_ok h
    exact
      { unused := by
          rintro _ _ ⟨⟩
          exact hunused
        states := s.consume_states a.payer a.nonce (.AuthorizationUsed a.payer a.nonce)
        window := by
          rintro _ ⟨⟩
          exact hwindow
        payee := by rintro _ _ ⟨⟩
        supply := E.totalSupply_transfer htoken }
  | receiveWithAuthorization a signature =>
    simp only [Call.body, receiveWithAuthorization, run_bind_eq_ok, run_lift_eq_ok, throwIf_eq_ok,
      exists_const, exists_and_left, exists_eq_left, and_assoc, not_not] at h
    obtain ⟨hpayee, h⟩ := h
    obtain ⟨hwindow, hunused, token, htoken, rfl⟩ := settle_eq_ok h
    exact
      { unused := by
          rintro _ _ ⟨⟩
          exact hunused
        states := s.consume_states a.payer a.nonce (.AuthorizationUsed a.payer a.nonce)
        window := by
          rintro _ ⟨⟩
          exact hwindow
        payee := by
          rintro _ _ ⟨⟩
          exact hpayee
        supply := E.totalSupply_transfer htoken }
  | cancelAuthorization authorizer nonce signature =>
    obtain ⟨hunused, rfl⟩ := cancelAuthorization_eq_ok h
    exact
      { unused := by
          rintro _ _ ⟨⟩
          exact hunused
        states := s.consume_states authorizer nonce (.AuthorizationCanceled authorizer nonce)
        window := by rintro _ ⟨⟩
        payee := by rintro _ _ ⟨⟩
        supply := rfl }
  | transfer payee value =>
    simp only [Call.body, withToken_eq_ok] at h
    obtain ⟨token, htoken, rfl⟩ := h
    exact did_of_token rfl rfl (E.totalSupply_transfer htoken)
  | transferFrom payer payee value =>
    simp only [Call.body, run_bind_eq_ok, withToken_eq_ok] at h
    obtain ⟨_, _, ⟨spent, hspent, rfl⟩, token, htoken, rfl⟩ := h
    refine did_of_token rfl rfl ((E.totalSupply_transfer htoken).trans ?_)
    exact E.totalSupply_congr (E.balanceOf_spendAllowance hspent)
  | approve spender value =>
    simp only [Call.body, withToken_eq_ok] at h
    obtain ⟨token, htoken, rfl⟩ := h
    exact did_of_token rfl rfl (E.totalSupply_congr (E.balanceOf_approve htoken))
  | mint payee value =>
    simp only [Call.body, withToken_eq_ok] at h
    obtain ⟨token, htoken, rfl⟩ := h
    exact did_of_token rfl rfl (E.totalSupply_mint htoken)

/-- **A call either reverts and changes nothing, or does what it says.** -/
theorem exec_eq_or (s : MockUSDC E) (tx : Tx) :
    (tx.succeeds H s = false ∧ exec H s tx = s) ∨
      (tx.succeeds H s = true ∧ Did tx.message tx.call s (exec H s tx)) := by
  rcases after_transaction_eq (tx.call.body H tx.message) s with ⟨hsame, e, herror⟩ | ⟨a, hok⟩
  · refine Or.inl ⟨?_, hsame⟩
    simp only [Tx.succeeds, Tx.perform, herror]
    rfl
  · refine Or.inr ⟨?_, did_of_perform hok⟩
    simp only [Tx.succeeds, Tx.perform, answer_eq_ok.mpr hok]
    rfl

end Spec

end Mapae.Usdc
