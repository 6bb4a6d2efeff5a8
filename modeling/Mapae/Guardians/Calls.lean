import Mapae.Guardians.Effects

/-!
# The collection on chain

Anyone may call the collection, at any time and also from inside a call of it. `guardians` is
the contract with its suspended calls: an action is a call, the rest of a suspended call, the
failure of one, or something the owner of the collection or the chain does.

A call that fails at once changes nothing and is no step. A call that fails later takes back
what happened inside it, which is `fail`; `call` and `return` are the boundaries of any other
call or transaction that may still fail.
-/

namespace Mapae.Guardians

open Mapae.Infra GuardiansStorage

/-- A call that called out. A function of the collection goes on with the code it started with. -/
inductive Suspended where
  /-- `mint`, in `onERC721Received` or in `requestV2`. -/
  | mint (code : Implementation) (tokenId : Nat)
  /-- `rerequestBirth`, in `requestV2`. -/
  | rerequestBirth (code : Implementation) (tokenId : Nat)
  /-- `safeTransferFrom`, in `onERC721Received`. -/
  | safeTransferFrom
  /-- A call or a transaction of another contract. -/
  | other

/-- The functions that may not be entered again. -/
def Suspended.nonReentrant : Suspended → Bool
  | mint _ _ => true
  | rerequestBirth _ _ => true
  | safeTransferFrom => false
  | other => false

inductive Action (erc : Erc721) (hashes : Hashes) where
  | call
  | return
  | fail
  | mint (sender : Address) (payment : Payment) (random : Nat)
  /-- The rest of `mint`, with the sequence number that the entropy contract returned. -/
  | mintRequested (sequence : Nat)
  | rerequestBirth (sender : Address) (tokenId : Nat) (payment : Payment)
  | birthRerequested (sequence : Nat)
  | entropyCallback (sender : Address) (sequence : Nat) (provider : Address)
      (randomNumber : Bytes32)
  | transferFrom (sender owner receiver : Address) (tokenId : Nat)
  | safeTransferFrom (sender owner receiver : Address) (tokenId : Nat)
  | approve (approval : erc.Approval)
  | claim (c : ClaimCall hashes)
  | setMintPaused (paused : Bool)
  | setResultSigner (signer : Address)
  | upgrade (implementation : Implementation)
  | nextBlock (seconds : Nat)

variable {erc : Erc721} {hashes : Hashes}

/-- The guard of the functions that may not be entered again. -/
def nonReentrant {α : Type} (calls : List Suspended) (x : Option α) : Option α :=
  if calls.any Suspended.nonReentrant then none else x

/-- No call comes from the zero address. -/
def sentBy {α : Type} (sender : Address) (x : Option α) : Option α := if sender = 0 then none else x

def Action.move : Action erc hashes → Move (GuardiansStorage erc) Suspended
  | .call => .suspend fun _ s => some (.other, s)
  | .return => .resume fun
    | .safeTransferFrom, s => some s
    | .other, s => some s
    | _, _ => none
  | .fail => .rollback
  | .mint sender payment random => .suspend fun calls s =>
    sentBy sender (nonReentrant calls ((s.mint sender payment random).toOption.map fun r =>
      (.mint s.implementation r.1, r.2)))
  | .mintRequested sequence => .resume fun
    | .mint code tokenId, s => (s.requestBirth hashes code tokenId sequence).toOption
    | _, _ => none
  | .rerequestBirth sender tokenId payment => .suspend fun calls s =>
    sentBy sender (nonReentrant calls
      ((s.rerequestBirth hashes sender tokenId payment).toOption.map fun _ =>
        (.rerequestBirth s.implementation tokenId, s)))
  | .birthRerequested sequence => .resume fun
    | .rerequestBirth code tokenId, s => (s.requestBirth hashes code tokenId sequence).toOption
    | _, _ => none
  | .entropyCallback sender sequence provider randomNumber => .run fun _ s =>
    sentBy sender (s.entropyCallback hashes sender sequence provider randomNumber).toOption
  | .transferFrom sender owner receiver tokenId => .run fun _ s =>
    sentBy sender (s.transferFrom sender owner receiver tokenId).toOption
  | .safeTransferFrom sender owner receiver tokenId => .suspend fun _ s =>
    sentBy sender ((s.transferFrom sender owner receiver tokenId).toOption.map fun s =>
      (.safeTransferFrom, s))
  | .approve approval => .run fun _ s =>
    (erc.approve s.base approval).map fun base => { s with base := base }
  | .claim c => .run fun calls s => nonReentrant calls ((s.claim hashes c).toOption.map Prod.snd)
  | .setMintPaused paused => .run fun _ s => some { s with mintPaused := paused }
  | .setResultSigner signer => .run fun _ s => some { s with resultSigner := signer }
  | .upgrade implementation => .run fun _ s => some { s with implementation := implementation }
  | .nextBlock seconds => .run fun calls s =>
    if calls.isEmpty then some { s with timestamp := s.timestamp + seconds } else none

/-- A collection that was just deployed. -/
structure Deployed (s : GuardiansStorage erc) : Prop where
  base : s.base = erc.empty
  drawn : s.drawn = 0
  accounts : s.accounts = fun _ => ⟨0, 0, 0⟩
  tokens : s.tokens = fun _ => ⟨0, 0, 0, false, 0⟩
  growth : s.growth = fun _ => ⟨0, 0⟩
  requestToken : s.requestToken = fun _ => 0
  claimedPayments : s.claimedPayments = fun _ => false
  idPool : s.idPool = fun _ => 0
  honors : s.honors = fun _ => 0
  mints : s.mints = []
  applied : s.applied = []

/-- The collection, with all calls that anyone may make. -/
def guardians (erc : Erc721) (hashes : Hashes) : System (Nested (GuardiansStorage erc) Suspended) :=
  Nested.system Deployed (@Action.move erc hashes)

/-! ## Guards of a call -/

theorem sentBy_eq_some {α : Type} {sender : Address} {x : Option α} {a : α} :
    sentBy sender x = some a ↔ sender ≠ 0 ∧ x = some a := by
  unfold sentBy
  split
  · next h => simp [h]
  · next h => simp [h]

theorem nonReentrant_eq_some {α : Type} {calls : List Suspended} {x : Option α} {a : α} :
    nonReentrant calls x = some a ↔ calls.any Suspended.nonReentrant = false ∧ x = some a := by
  unfold nonReentrant
  split
  · next h => simp [h]
  · next h => simp [h]

theorem toOption_eq_some {ε α : Type} {x : Except ε α} {a : α} :
    x.toOption = some a ↔ x = .ok a := by
  cases x with
  | error e => exact ⟨nofun, nofun⟩
  | ok b => exact ⟨fun h => congrArg _ (Option.some.inj h), fun h => congrArg _ (Except.ok.inj h)⟩

/-! ## Effects -/

/-- The kinds of change that a step makes. -/
inductive Kind where
  | mint
  | request
  | birth
  | transfer
  | approve
  | claim
  | admin
  deriving DecidableEq

/-- The kind of change that an action makes, if it makes one. -/
def Action.kind : Action erc hashes → Option Kind
  | .call => none
  | .return => none
  | .fail => none
  | .mint _ _ _ => some .mint
  | .mintRequested _ => some .request
  | .rerequestBirth _ _ _ => none
  | .birthRerequested _ => some .request
  | .entropyCallback _ _ _ _ => some .birth
  | .transferFrom _ _ _ _ => some .transfer
  | .safeTransferFrom _ _ _ _ => some .transfer
  | .approve _ => some .approve
  | .claim _ => some .claim
  | .setMintPaused _ => some .admin
  | .setResultSigner _ => some .admin
  | .upgrade _ => some .admin
  | .nextBlock _ => some .admin

/-- **What a step that does not fail does to the storage.** -/
inductive Effect (hashes : Hashes) (s : GuardiansStorage erc) : Kind → GuardiansStorage erc → Prop
  | mint {sender random accounts base epoch} (found : Mints s sender random)
      (updates : Updates (s.preparedMint sender random) sender (s.drawnId random) 0
        accounts base epoch) :
      Effect hashes s .mint
        ((s.preparedMint sender random).moved base accounts (s.drawnId random) epoch)
  | request {code id sequence} (minted : ∃ m ∈ s.mints, m.tokenId = id) (sequence_ne : sequence ≠ 0)
      (fresh : s.requestToken (requestKey hashes code sequence) = 0)
      (attempt_lt : (s.tokens id).attempt + 1 < 2 ^ 32) :
      Effect hashes s .request (s.requested hashes code id sequence)
  | birth {id sequence random} (deliverable : Deliverable hashes s s.implementation id sequence) :
      Effect hashes s .birth (s.born hashes id sequence random)
  | transfer {receiver auth id accounts base epoch} (receiver_ne : receiver ≠ 0)
      (owned : s.ownerOf id ≠ 0) (updates : Updates s receiver id auth accounts base epoch) :
      Effect hashes s .transfer (s.moved base accounts id epoch)
  | approve {base} (owners : ∀ id, erc.ownerOf base id = s.ownerOf id) :
      Effect hashes s .approve { s with base := base }
  | claim {c : ClaimCall hashes} {applied s'} (claimed : s.claim hashes c = .ok (applied, s')) :
      Effect hashes s .claim s'
  | admin {implementation resultSigner mintPaused} {timestamp : Nat}
      (later : s.timestamp ≤ timestamp) :
      Effect hashes s .admin
        { s with implementation := implementation, resultSigner := resultSigner
                 mintPaused := mintPaused, timestamp := timestamp }

/-- The change of an action, or none. -/
def Changes (a : Action erc hashes) (s s' : GuardiansStorage erc) : Prop :=
  match a.kind with
  | none => s' = s
  | some kind => Effect hashes s kind s'

/-- What a suspended call relies on: its token was minted. -/
def Suspended.Relies (call : Suspended) (s : GuardiansStorage erc) : Prop :=
  match call with
  | mint _ tokenId => ∃ m ∈ s.mints, m.tokenId = tokenId
  | rerequestBirth _ tokenId => ∃ m ∈ s.mints, m.tokenId = tokenId
  | safeTransferFrom => True
  | other => True

section Changes

variable {s s' : GuardiansStorage erc} {a : Action erc hashes}

theorem effect_of_transferFrom {sender owner receiver : Address} {id : Nat}
    (hsender : sender ≠ 0) (h : s.transferFrom sender owner receiver id = .ok s') :
    Effect hashes s .transfer s' := by
  obtain ⟨hreceiver, rfl, accounts, base, epoch, hupdates, rfl⟩ := transferFrom_eq_ok h
  exact .transfer hreceiver (erc.owned_of_update hupdates.base_eq hsender) hupdates

theorem changes_of_run {f : List Suspended → GuardiansStorage erc → Option (GuardiansStorage erc)}
    (hmove : a.move = .run f) {calls : List Suspended} (hf : f calls s = some s') :
    Changes a s s' := by
  cases a <;> cases hmove
  case entropyCallback.refl =>
    obtain ⟨-, -, id, hd, rfl⟩ :=
      entropyCallback_eq_ok.mp (toOption_eq_some.mp (sentBy_eq_some.mp hf).2)
    exact Effect.birth hd
  case transferFrom.refl =>
    obtain ⟨hsender, hf⟩ := sentBy_eq_some.mp hf
    exact effect_of_transferFrom hsender (toOption_eq_some.mp hf)
  case approve.refl =>
    obtain ⟨base, hbase, rfl⟩ := Option.map_eq_some_iff.mp hf
    exact Effect.approve fun id => congrFun (erc.ownerOf_approve hbase) id
  case claim.refl =>
    obtain ⟨⟨applied, s₁⟩, hclaim, rfl⟩ :=
      Option.map_eq_some_iff.mp (nonReentrant_eq_some.mp hf).2
    exact Effect.claim (toOption_eq_some.mp hclaim)
  case setMintPaused.refl | setResultSigner.refl | upgrade.refl =>
    cases hf
    exact Effect.admin (Nat.le_refl _)
  case nextBlock.refl =>
    dsimp only at hf
    split at hf
    · cases hf
      exact Effect.admin (Nat.le_add_right _ _)
    · exact nomatch hf

/-- A pending mint is of a minted token. -/
def PendingMinted (s : GuardiansStorage erc) : Prop :=
  ∀ account, (s.accounts account).pendingMint ≠ 0 →
    ∃ m ∈ s.mints, m.tokenId = (s.accounts account).pendingMint

theorem changes_of_suspend
    {f : List Suspended → GuardiansStorage erc → Option (Suspended × GuardiansStorage erc)}
    (hpending : PendingMinted s) (hmove : a.move = .suspend f) {calls : List Suspended}
    {call : Suspended} (hf : f calls s = some (call, s')) : Changes a s s' ∧ call.Relies s' := by
  cases a <;> cases hmove
  case call.refl =>
    cases hf
    exact ⟨rfl, trivial⟩
  case mint.refl =>
    obtain ⟨⟨id, s₁⟩, hmint, hr⟩ := Option.map_eq_some_iff.mp
      (nonReentrant_eq_some.mp (sentBy_eq_some.mp hf).2).2
    cases hr
    obtain ⟨rfl, hfound, accounts, base, epoch, hupdates, rfl⟩ :=
      mint_eq_ok (toOption_eq_some.mp hmint)
    exact ⟨Effect.mint hfound hupdates, _, List.mem_cons_self, rfl⟩
  case rerequestBirth.refl sender tokenId payment =>
    obtain ⟨_, hrequest, hr⟩ := Option.map_eq_some_iff.mp
      (nonReentrant_eq_some.mp (sentBy_eq_some.mp hf).2).2
    cases hr
    obtain ⟨_, hguard, -⟩ := bind_eq_ok.mp (toOption_eq_some.mp hrequest)
    have hguard := throwIf_eq_ok.mp hguard
    simp only [not_or, not_not] at hguard
    obtain ⟨m, hm, he⟩ := hpending sender (hguard.2 ▸ hguard.1)
    exact ⟨rfl, m, hm, he.trans hguard.2⟩
  case safeTransferFrom.refl =>
    obtain ⟨hsender, hf⟩ := sentBy_eq_some.mp hf
    obtain ⟨s₁, htransfer, hr⟩ := Option.map_eq_some_iff.mp hf
    cases hr
    exact ⟨effect_of_transferFrom hsender (toOption_eq_some.mp htransfer), trivial⟩

theorem changes_of_resume {f : Suspended → GuardiansStorage erc → Option (GuardiansStorage erc)}
    (hmove : a.move = .resume f) {call : Suspended} (hok : call.Relies s)
    (hf : f call s = some s') : Changes a s s' := by
  cases a <;> cases hmove
  case return.refl =>
    cases call <;> cases hf
    · exact rfl
    · exact rfl
  case mintRequested.refl =>
    cases call with
    | mint code id =>
      obtain ⟨hne, hfresh, hlt, rfl⟩ := requestBirth_eq_ok.mp (toOption_eq_some.mp hf)
      exact Effect.request hok hne hfresh hlt
    | rerequestBirth | safeTransferFrom | other => exact nomatch hf
  case birthRerequested.refl =>
    cases call with
    | rerequestBirth code id =>
      obtain ⟨hne, hfresh, hlt, rfl⟩ := requestBirth_eq_ok.mp (toOption_eq_some.mp hf)
      exact Effect.request hok hne hfresh hlt
    | mint | safeTransferFrom | other => exact nomatch hf

end Changes

/-- **What every effect preserves, the collection preserves.** Mints are not forgotten, and a
pending mint is of a minted token; the rest of a suspended call relies on that. -/
theorem disciplined {inv : GuardiansStorage erc → Prop}
    {R : GuardiansStorage erc → GuardiansStorage erc → Prop} (hrefl : ∀ s, R s s)
    (htrans : ∀ a b c, R a b → R b c → R a c)
    (hmints : ∀ s s', R s s' → ∀ m ∈ s.mints, m ∈ s'.mints)
    (hpending : ∀ s, inv s → PendingMinted s)
    (heffect : ∀ s kind s', inv s → Effect hashes s kind s' → inv s' ∧ R s s') :
    Disciplined (@Action.move erc hashes) inv R Suspended.Relies := by
  have hchanges {a : Action erc hashes} {s s' : GuardiansStorage erc} (hinv : inv s)
      (h : Changes a s s') : inv s' ∧ R s s' := by
    unfold Changes at h
    split at h
    · subst h
      exact ⟨hinv, hrefl _⟩
    · exact heffect _ _ _ hinv h
  exact
    { refl := hrefl
      trans := htrans
      mono := fun call s s' hR hok => by
        cases call with
        | mint | rerequestBirth =>
          obtain ⟨m, hm, he⟩ := hok
          exact ⟨m, hmints _ _ hR m hm, he⟩
        | safeTransferFrom | other => trivial
      run := fun _ _ hmove _ _ _ hinv hf => hchanges hinv (changes_of_run hmove hf)
      suspend := fun _ _ hmove _ s _ _ hinv hf => by
        obtain ⟨hchange, hrelies⟩ := changes_of_suspend (hpending s hinv) hmove hf
        exact ⟨(hchanges hinv hchange).1, (hchanges hinv hchange).2, hrelies⟩
      resume := fun _ _ hmove _ _ _ hinv hok hf => hchanges hinv (changes_of_resume hmove hok hf) }

/-- **A step that is no failure makes the change of its action.** -/
theorem changes_of_step {inv : GuardiansStorage erc → Prop}
    {R : GuardiansStorage erc → GuardiansStorage erc → Prop}
    (hd : Disciplined (@Action.move erc hashes) inv R Suspended.Relies)
    (hinit : ∀ s, Deployed s → inv s) (hpending : ∀ s, inv s → PendingMinted s)
    {m m' : Nested (GuardiansStorage erc) Suspended} {a : Action erc hashes}
    (hr : (guardians erc hashes).Reachable m) (ha : a ≠ .fail) (h : m.perform a.move = some m') :
    Changes a m.storage m'.storage := by
  have hsound := hd.sound hinit hr
  have hinv := Disciplined.inv_of_sound hsound
  cases hmove : a.move with
  | run f =>
    rw [hmove] at h
    obtain ⟨s, hs, rfl⟩ := Option.map_eq_some_iff.mp h
    exact changes_of_run hmove hs
  | suspend f =>
    rw [hmove] at h
    obtain ⟨⟨call, s⟩, hs, rfl⟩ := Option.map_eq_some_iff.mp h
    exact (changes_of_suspend (hpending _ hinv) hmove hs).1
  | resume f =>
    rw [hmove] at h
    obtain ⟨frame, frames, s, hframes, hs, rfl⟩ := Nested.perform_resume_eq_some.mp h
    rw [hframes] at hsound
    exact changes_of_resume hmove hsound.2.2.1 hs
  | rollback =>
    cases a <;> cases hmove
    exact absurd rfl ha

end Mapae.Guardians
