import Mapae.Guardians.Requests
import Mathlib.Data.Nat.Pairing

/-!
# A token base

`plainErc721` is the inherited token base as it is documented: an owner for each token, an
approved account for each token, and operators for each owner. `pairHashes` hashes without
collisions and recovers the signer that a signature names. With them the collection can be run.
-/

namespace Mapae.Guardians

open Mapae.Infra

/-- Owners, approved accounts and operators. -/
structure PlainTokens where
  owners : Nat → Address
  approvals : Nat → Address
  operators : Address → Address → Bool

inductive PlainApproval where
  | approve (sender receiver : Address) (tokenId : Nat)
  | setApprovalForAll (sender operator : Address) (approved : Bool)

namespace PlainTokens

/-- `_isAuthorized`. -/
def Authorized (t : PlainTokens) (sender : Address) (tokenId : Nat) : Prop :=
  t.owners tokenId ≠ 0 ∧ (t.owners tokenId = sender ∨
    t.operators (t.owners tokenId) sender = true ∨ t.approvals tokenId = sender)

instance Authorized.instDecidable (t : PlainTokens) (sender : Address) (tokenId : Nat) :
    Decidable (t.Authorized sender tokenId) := inferInstanceAs (Decidable (_ ∧ _))

/-- A change of owner forgets the approved account. -/
def update (t : PlainTokens) (receiver : Address) (tokenId : Nat) (auth : Address) :
    Option PlainTokens :=
  if auth ≠ 0 ∧ ¬ t.Authorized auth tokenId then none
  else some { t with
    owners := Function.update t.owners tokenId receiver
    approvals := Function.update t.approvals tokenId 0 }

def approve (t : PlainTokens) : PlainApproval → Option PlainTokens
  | .approve sender receiver tokenId =>
    if t.owners tokenId ≠ 0 ∧ (t.owners tokenId = sender ∨
        t.operators (t.owners tokenId) sender = true) then
      some { t with approvals := Function.update t.approvals tokenId receiver }
    else none
  | .setApprovalForAll sender operator approved =>
    if operator = 0 then none
    else
      let operators := Function.update (t.operators sender) operator approved
      some { t with operators := Function.update t.operators sender operators }

theorem update_eq_some {t t' : PlainTokens} {receiver auth : Address} {tokenId : Nat}
    (h : t.update receiver tokenId auth = some t') :
    (auth ≠ 0 → t.Authorized auth tokenId) ∧
      t'.owners = Function.update t.owners tokenId receiver := by
  unfold update at h
  split at h
  · exact nomatch h
  · next hauth =>
    cases h
    exact ⟨fun hne => not_not.mp fun hno => hauth ⟨hne, hno⟩, rfl⟩

theorem approve_eq_some {t t' : PlainTokens} {a : PlainApproval} (h : t.approve a = some t') :
    t'.owners = t.owners := by
  cases a with
  | approve sender receiver tokenId =>
    simp only [approve] at h
    split at h
    · cases h
      rfl
    · exact nomatch h
  | setApprovalForAll sender operator approved =>
    simp only [approve] at h
    split at h
    · exact nomatch h
    · cases h
      rfl

end PlainTokens

def plainErc721 : Erc721 where
  State := PlainTokens
  Approval := PlainApproval
  empty := ⟨fun _ => 0, fun _ => 0, fun _ _ => false⟩
  ownerOf := PlainTokens.owners
  update := PlainTokens.update
  approve := PlainTokens.approve
  owned_of_update h hne := ((PlainTokens.update_eq_some h).1 hne).1
  ownerOf_empty _ := rfl
  ownerOf_update h := (PlainTokens.update_eq_some h).2
  ownerOf_approve h := PlainTokens.approve_eq_some h

/-- Pairing, for hashes that do not collide. A signature is the account that signed. -/
def pairHashes : Hashes where
  Signature := Address
  requestKey entropy provider sequence := Nat.pair entropy (Nat.pair provider sequence) + 1
  birthSeed randomNumber tokenId := Nat.pair randomNumber tokenId + 1
  traitsHash seed := seed + 1
  recoverResult _ signature := some signature
  recoverHonor _ signature := some signature

def signedBy (account : Address) : pairHashes.Signature := account

theorem keysApart_pairHashes : KeysApart pairHashes := fun _ _ _ _ _ _ h => by
  obtain ⟨he, hrest⟩ := Nat.pair_eq_pair.mp (Nat.succ.inj h)
  obtain ⟨hp, hq⟩ := Nat.pair_eq_pair.mp hrest
  exact ⟨he, hp, hq⟩

/-- A collection that was just deployed, with the given implementation and signer. -/
def deployed (implementation : Implementation) (resultSigner : Address) (timestamp : Nat) :
    GuardiansStorage plainErc721 where
  base := plainErc721.empty
  implementation := implementation
  resultSigner := resultSigner
  mintPaused := false
  drawn := 0
  accounts _ := ⟨0, 0, 0⟩
  tokens _ := ⟨0, 0, 0, false, 0⟩
  growth _ := ⟨0, 0⟩
  requestToken _ := 0
  claimedPayments _ := false
  idPool _ := 0
  honors _ := 0
  timestamp := timestamp
  mints := []
  applied := []

theorem deployed_spec (implementation : Implementation) (resultSigner : Address)
    (timestamp : Nat) : Deployed (deployed implementation resultSigner timestamp) :=
  ⟨rfl, rfl, rfl, rfl, rfl, rfl, rfl, rfl, rfl, rfl, rfl⟩

/-- The collection after the given actions; `none` when one of them is refused. -/
def afterActions (implementation : Implementation) (resultSigner : Address) (timestamp : Nat)
    (actions : List (Action plainErc721 pairHashes)) :
    Option (Nested (GuardiansStorage plainErc721) Suspended) :=
  System.performAll (fun m a => m.perform a.move)
    ⟨deployed implementation resultSigner timestamp, []⟩ actions

theorem reachable_of_afterActions {implementation : Implementation} {resultSigner : Address}
    {timestamp : Nat} {actions : List (Action plainErc721 pairHashes)}
    {m : Nested (GuardiansStorage plainErc721) Suspended}
    (h : afterActions implementation resultSigner timestamp actions = some m) :
    (guardians plainErc721 pairHashes).Reachable m :=
  System.reachable_of_performAll (.init ⟨deployed_spec .., rfl⟩) h

end Mapae.Guardians
