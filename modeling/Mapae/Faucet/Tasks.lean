import Mapae.Faucet.Books

/-!
# The faucet, its node and the chain

Any number of claims and reconcile passes go on in any order over one ledger, and the process may
end at any time. Only one task at a time is inside the mutex.

The chain mines the faucet's transactions one nonce after the other and forgets none of them. A
transaction may be mined whether this node saw it or not; one that the node rejected is never
mined. `honest` is what the node's answers keep to:

* it rejects only bytes that it does not hold, so none that are mined
* a receipt it shows is of a transaction that is mined, and so is the one a wait ends with, which
  may be of another transaction with that nonce
* the mined nonce it reports may be old, and a task that was told of a mined nonce above a
  transaction's is then shown that transaction's receipt, if it is mined

Every answer may be lost, and an answer of no receipt or of a pending nonce may be out of date.

While a task waits, others write. What it was told before still holds when it goes on, since claims are
signed once and the chain forgets nothing.

* `Phase.Knows` is what a task knows whatever the others write, `Phase.Reserves` what it knows because it
  is inside the mutex
* `Settles` is a stretch that leaves the mutex and holds no claim, `Advanced` is all that a stretch can
  come to
* `Phase.advanced`: from what a task knows, with answers that are honest, it writes only what the books
  allow, and knows what its next phase needs
-/

namespace Mapae.Faucet

open Mapae.Infra Mapae.Store

/-- The ledger, the tasks over it, and the chain. -/
structure World where
  books : Books
  tasks : Nat → Option Phase
  /-- The task inside the mutex. -/
  lock : Option Nat
  next : Nat
  chain : Chain

/-- What the answer to a task keeps to. A random UUID names no earlier claim. -/
def honest (hashes : TransactionHashes) (w : World) (moment : Moment) : Phase → Answer → Bool
  | .claim (.eligibility _), _ => w.books.claims.all fun claim => claim.id ≠ moment.uuid
  | .claim (.sign _ _ transaction), .signed raw =>
    hashes.nonceOf (hashes.hashOf raw) = transaction.nonce
  | .claim (.send _ raw), .sent .rejected => w.chain.includes (hashes.hashOf raw) = false
  | .claim (.wait _ raw), .receipt (some status) =>
    w.chain.mined.any fun tx =>
      hashes.nonceOf tx.1 = hashes.nonceOf (hashes.hashOf raw) ∧ tx.2 = status
  | .reconcile (.receipt _ _ signed), .receipt (some status) =>
    (signed.txHash, status) ∈ w.chain.mined
  | .reconcile (.latest ..), .nonce mined => mined ≤ w.chain.minedNonce
  | .reconcile (.landed _ _ signed), .receipt (some status) =>
    (signed.txHash, status) ∈ w.chain.mined
  | .reconcile (.landed sweep _ signed), .receipt none =>
    sweep.mined.all fun mined =>
      hashes.nonceOf signed.txHash < mined → w.chain.includes signed.txHash = false
  | .reconcile (.resend _ _ signed), .sent .rejected =>
    w.chain.includes (hashes.hashOf signed.rawTx) = false
  | .reconcile (.late _ _ signed), .receipt (some status) =>
    (signed.txHash, status) ∈ w.chain.mined
  | .reconcile (.sign _ nonce), .signed raw => hashes.nonceOf (hashes.hashOf raw) = nonce
  | .reconcile (.send _ _ raw), .sent .rejected => w.chain.includes (hashes.hashOf raw) = false
  | _, _ => true

/-- The bytes that the node rejects with an answer. -/
def rejectedBytes : Phase → Answer → Option String
  | .claim (.send _ raw), .sent .rejected => some raw
  | .reconcile (.resend _ _ signed), .sent .rejected => some signed.rawTx
  | .reconcile (.send _ _ raw), .sent .rejected => some raw
  | _, _ => none

def Chain.reject (hashes : TransactionHashes) (chain : Chain) (raw : Option String) : Chain :=
  { chain with refused := (raw.map hashes.hashOf).toList ++ chain.refused }

inductive Action where
  | claim (request : ClaimRequest) (moment : Moment)
  | reconcile (now : Int)
  /-- An await of a task ends. -/
  | advance (number : Nat) (answer : Answer) (moment : Moment)
  /-- The transaction of the next nonce is mined. -/
  | mine (hash : String) (status : ReceiptStatus)
  /-- The process ends, wherever its tasks are, and another one starts over the ledger. -/
  | crash

namespace World

variable (config : FaucetConfig) (hashes : TransactionHashes)

/-- The task goes on to a phase. -/
def enter (w : World) (number : Nat) (stretch : Stretch) : World :=
  { w with
    books := stretch.2
    tasks := Function.update w.tasks number (some stretch.1)
    lock :=
      if stretch.1.critical then some number
      else if w.lock = some number then none
      else w.lock }

/-- A new task. -/
def spawn (w : World) (stretch : Stretch) : World :=
  { w.enter w.next stretch with next := w.next + 1 }

/-- What an action does; `none` where it is not possible. -/
def act (w : World) : Action → Option World
  | .claim request moment => some (w.spawn (decideClaim config w.books moment request))
  | .reconcile now => some (w.spawn (Faucet.reconcile w.books now))
  | .advance number answer moment => do
    let phase ← w.tasks number
    let stretch ← advance config hashes w.books moment phase answer
    -- A task enters the mutex when nobody is inside.
    if honest hashes w moment phase answer = true ∧
        (stretch.1.critical = true → phase.critical = false → w.lock = none) then
      some
        { w.enter number stretch with
          chain := w.chain.reject hashes (rejectedBytes phase answer) }
    else none
  | .mine hash status =>
    if hashes.nonceOf hash = w.chain.minedNonce ∧ hash ∉ w.chain.refused then
      some
        { w with
          chain :=
            { w.chain with
              minedNonce := w.chain.minedNonce + 1
              mined := (hash, status) :: w.chain.mined } }
    else none
  | .crash => some { w with tasks := fun _ => none, lock := none }

end World

/-- A ledger without rows, over a chain that was used before. -/
structure World.Opened (hashes : TransactionHashes) (w : World) : Prop where
  rows : w.books.rows = Table.empty
  pruned : w.books.pruned = []
  history : w.books.history = []
  tasks : ∀ number, w.tasks number = none
  lock : w.lock = none
  chain : w.chain.Grown hashes

/-- The interleavings of a faucet. -/
def faucet (config : FaucetConfig) (hashes : TransactionHashes) : System World :=
  System.ofAct (World.Opened hashes) (World.act config hashes)

/-! ## What a task knows -/

variable {config : FaucetConfig} {hashes : TransactionHashes} {chain chain' : Chain} {b b' : Books}

/-- The claim is in the ledger and was never signed. -/
structure Books.Unsigned (b : Books) (id : String) : Prop where
  known : ∃ claim ∈ b.claims, claim.id = id
  never : ∀ signed, .signed id signed ∉ b.history

/-- The claim was signed, and these are the bytes. -/
def Books.SignedAs (hashes : TransactionHashes) (b : Books) (id raw : String) : Prop :=
  ∃ signed, .signed id signed ∈ b.history ∧ toLowerCase raw = signed.rawTx ∧
    hashes.hashOf raw = signed.txHash

/-- A row of a snapshot that was signed, and still is what it was signed as. -/
structure Books.SignedRow (b : Books) (row : FaucetClaimRow) : Prop where
  state : row.state ≠ .reserved
  signed : ∀ signed, row.signed = some signed → .signed row.id signed ∈ b.history

/-- The nonces of the claims in flight. -/
def Books.HeldBy (b : Books) (held : List Int) : Prop :=
  ∀ row ∈ b.rows, row.state.inflight = true → ∀ signed, row.signed = some signed → signed.nonce ∈ held

/-- What a pass knows of the rest of its snapshot. -/
structure Sweep.Knows (chain : Chain) (b : Books) (sweep : Sweep) : Prop where
  rest : ∀ row ∈ sweep.rest, b.SignedRow row
  mined : ∀ n, sweep.mined = some n → n ≤ chain.minedNonce

/-- The claim that a task has reserved and not signed yet. -/
def ClaimPhase.owned : ClaimPhase → Option String
  | .plan id _ _ | .queued id _ _ _ | .funds id _ _ _ | .pending id _ _ _ | .sign id _ _ => some id
  | _ => none

def Phase.owned : Phase → Option String
  | .claim phase => phase.owned
  | .reconcile _ => none

/-- The claim that a task has signed, and the bytes. -/
def ClaimPhase.sent : ClaimPhase → Option (String × String)
  | .persisted id raw | .send id raw | .wait id raw => some (id, raw)
  | _ => none

/-- The signed claim that a pass is at. -/
def ReconcilePhase.row : ReconcilePhase → Option (Sweep × FaucetClaimRow × SignedTransaction)
  | .receipt sweep row signed | .latest sweep row signed | .landed sweep row signed
  | .resend sweep row signed | .late sweep row signed => some (sweep, row, signed)
  | _ => none

/-- What a pass knows of the transaction that it is at. -/
def ReconcilePhase.Told (chain : Chain) : ReconcilePhase → Prop
  | .landed sweep _ signed => ∃ n, sweep.mined = some n ∧ signed.nonce < n
  | .late _ _ signed => signed.txHash ∈ chain.refused
  | _ => True

/-- What a task knows whatever the others write. -/
inductive Phase.Knows (hashes : TransactionHashes) (chain : Chain) (b : Books) : Phase → Prop
  | claim {phase : ClaimPhase} (howned : ∀ id, phase.owned = some id → b.Unsigned id)
      (hsent : ∀ sent, phase.sent = some sent → b.SignedAs hashes sent.1 sent.2) :
      Phase.Knows hashes chain b (.claim phase)
  | reconcile {phase : ReconcilePhase}
      (hrow : ∀ x, phase.row = some x → x.1.Knows chain b ∧ .signed x.2.1.id x.2.2 ∈ b.history)
      (htold : phase.Told chain) :
      Phase.Knows hashes chain b (.reconcile phase)

/-- What a task knows because it is inside the mutex. -/
def Phase.Reserves (b : Books) : Phase → Prop
  | .claim (.sign _ _ transaction) =>
    ∀ row ∈ b.rows, row.state.holdsNonce = true → ∀ held, row.signed = some held →
      held.nonce < transaction.nonce
  | .reconcile (.pending held) => b.HeldBy held
  | .reconcile (.sign held nonce) | .reconcile (.send held nonce _) => b.HeldBy held ∧ nonce ∉ held
  | _ => True

/-! ## What stays known -/

/-- What other tasks may do: they sign no claim but this one. -/
structure Persists (but : Option String) (b b' : Books) : Prop where
  history : ∀ event ∈ b.history, event ∈ b'.history
  signed : ∀ id signed, .signed id signed ∈ b'.history → .signed id signed ∈ b.history ∨ but = some id
  known : ∀ claim ∈ b.claims, ∃ claim' ∈ b'.claims, claim'.id = claim.id

theorem Keeps.persists (h : Keeps b b') : Persists none b b' where
  history := h.history
  signed id signed hsigned := Or.inl (h.signed id signed hsigned)
  known := h.known

theorem Signs.persists {id : String} {signed : SignedTransaction} (h : Signs b id signed b') :
    Persists (some id) b b' := by
  cases h with
  | @intro row now amount hrow hid hstate =>
  refine ⟨fun event hevent => List.mem_cons_of_mem _ hevent, fun id' signed' hmem => ?_,
    fun claim hclaim => ?_⟩
  · rcases List.mem_cons.mp hmem with heq | hmem
    · cases heq
      exact Or.inr rfl
    · exact Or.inl hmem
  · have hmem : claim.id ∈ (Books.claims ⟨moved b.rows id .signed now ⟨some amount, some signed⟩,
        b.pruned, .signed id signed :: b.history⟩).map FaucetClaimRow.id := by
      simp only [Books.claims, List.map_append, map_id_moved]
      rw [← List.map_append]
      exact List.mem_map_of_mem hclaim
    obtain ⟨claim', hclaim', hid'⟩ := List.mem_map.mp hmem
    exact ⟨claim', hclaim', hid'⟩

section Persists

variable {but : Option String}

theorem Books.Unsigned.persists {id : String} (h : b.Unsigned id) (hb : Persists but b b')
    (hbut : but ≠ some id) : b'.Unsigned id where
  known := by
    obtain ⟨claim, hclaim, rfl⟩ := h.known
    exact hb.known claim hclaim
  never signed hmem := by
    rcases hb.signed id signed hmem with hmem | heq
    · exact h.never signed hmem
    · exact hbut heq

theorem Books.SignedAs.persists {id raw : String} (h : b.SignedAs hashes id raw)
    (hb : Persists but b b') : b'.SignedAs hashes id raw := by
  obtain ⟨signed, hmem, h⟩ := h
  exact ⟨signed, hb.history _ hmem, h⟩

theorem Books.SignedRow.persists {row : FaucetClaimRow} (h : b.SignedRow row) (hb : Persists but b b') :
    b'.SignedRow row :=
  ⟨h.state, fun signed hsigned => hb.history _ (h.signed signed hsigned)⟩

theorem Sweep.Knows.persists {sweep : Sweep} (h : sweep.Knows chain b) (hb : Persists but b b')
    (hle : chain.minedNonce ≤ chain'.minedNonce) : sweep.Knows chain' b' :=
  ⟨fun row hrow => (h.rest row hrow).persists hb, fun n hn => Int.le_trans (h.mined n hn) hle⟩

theorem ReconcilePhase.Told.later {phase : ReconcilePhase} (h : phase.Told chain)
    (hlater : Chain.Later hashes chain chain') : phase.Told chain' := by
  cases phase with
  | late sweep row signed => exact hlater.refused _ h
  | landed sweep row signed => exact h
  | _ => exact True.intro

/-- **What a task knows outlives what the others write.** -/
theorem Phase.Knows.persists {phase : Phase} (h : phase.Knows hashes chain b)
    (hb : Persists but b b') (hlater : Chain.Later hashes chain chain')
    (howned : ∀ id, phase.owned = some id → but ≠ some id) : phase.Knows hashes chain' b' := by
  cases h with
  | claim hunsigned hsent =>
    exact .claim (fun id hid => (hunsigned id hid).persists hb (howned id hid))
      fun sent heq => (hsent sent heq).persists hb
  | reconcile hrow htold =>
    exact .reconcile
      (fun x hx => ⟨(hrow x hx).1.persists hb hlater.minedNonce_le, hb.history _ (hrow x hx).2⟩)
      (htold.later hlater)

end Persists

theorem Books.HeldBy.keeps {held : List Int} (h : b.HeldBy held) (hk : Keeps b b') : b'.HeldBy held := by
  intro row hrow hin signed hsigned
  obtain ⟨row', hrow', hin', hsigned'⟩ := hk.inflight row hrow hin signed hsigned
  exact h row' hrow' hin' signed hsigned'

theorem Phase.Reserves.keeps {phase : Phase} (h : phase.Reserves b) (hk : Keeps b b') :
    phase.Reserves b' := by
  cases phase with
  | claim phase =>
    cases phase with
    | sign id amount transaction =>
      intro row hrow hheld signed hsigned
      obtain ⟨row', hrow', hheld', hsigned'⟩ := hk.held row hrow hheld signed hsigned
      exact h row' hrow' hheld' signed hsigned'
    | _ => exact True.intro
  | reconcile phase =>
    cases phase with
    | pending held => exact Books.HeldBy.keeps h hk
    | sign held nonce => exact ⟨Books.HeldBy.keeps h.1 hk, h.2⟩
    | send held nonce raw => exact ⟨Books.HeldBy.keeps h.1 hk, h.2⟩
    | _ => exact True.intro

theorem Phase.reserves_of_not_critical {phase : Phase} (h : phase.critical = false) :
    phase.Reserves b := by
  cases phase with
  | claim phase =>
    cases phase with
    | sign id amount transaction => cases h
    | _ => exact True.intro
  | reconcile phase =>
    cases phase with
    | pending held => cases h
    | sign held nonce => cases h
    | send held nonce raw => cases h
    | _ => exact True.intro

/-! ## What a stretch comes to -/

/-- A stretch that signs nothing, leaves the mutex and holds no claim that is not signed. -/
structure Settles (hashes : TransactionHashes) (chain : Chain) (b : Books) (stretch : Stretch) : Prop where
  writes : BookWrites hashes chain b stretch.2
  knows : stretch.1.Knows hashes chain stretch.2
  critical : stretch.1.critical = false
  owned : stretch.1.owned = none

/-- All that a stretch writes. -/
inductive Wrote (hashes : TransactionHashes) (chain : Chain) (phase : Phase) (b : Books) : Books → Prop
  | writes {b' : Books} (h : BookWrites hashes chain b b') : Wrote hashes chain phase b b'
  | signs {id : String} {signed : SignedTransaction} {b' : Books} (hcritical : phase.critical = true)
      (howned : phase.owned = some id) (h : Signs b id signed b') (hcolumns : signed.Consistent hashes)
      (habove : ∀ row ∈ b.rows, row.state.holdsNonce = true → ∀ held, row.signed = some held →
        held.nonce < signed.nonce) : Wrote hashes chain phase b b'

/-- All that a stretch of a task can come to. -/
structure Advanced (hashes : TransactionHashes) (chain : Chain) (b : Books) (phase : Phase)
    (stretch : Stretch) : Prop where
  wrote : Wrote hashes chain phase b stretch.2
  knows : stretch.1.Knows hashes chain stretch.2
  reserves : stretch.1.Reserves stretch.2
  /-- The claim it holds is the one it held, or a new one. -/
  owned : ∀ id, stretch.1.owned = some id →
    phase.owned = some id ∨ ∀ claim ∈ b.claims, claim.id ≠ id

theorem Settles.advanced {phase : Phase} {stretch : Stretch} (h : Settles hashes chain b stretch) :
    Advanced hashes chain b phase stretch where
  wrote := .writes h.writes
  knows := h.knows
  reserves := Phase.reserves_of_not_critical h.critical
  owned id hid := by
    rw [h.owned] at hid
    cases hid

theorem Settles.after {stretch : Stretch} (hw : BookWrites hashes chain b b')
    (h : Settles hashes chain b' stretch) : Settles hashes chain b stretch :=
  ⟨hw.trans h.writes, h.knows, h.critical, h.owned⟩

/-- Nothing is written, and the next phase needs nothing. -/
theorem settles_claim {phase : ClaimPhase} (howned : phase.owned = none) (hsent : phase.sent = none)
    (hcritical : (Phase.claim phase).critical = false) : Settles hashes chain b (.claim phase, b) where
  writes := .refl
  knows := by
    refine .claim (fun id h => ?_) fun sent h => ?_
    · rw [howned] at h
      cases h
    · rw [hsent] at h
      cases h
  critical := hcritical
  owned := howned

theorem settles_answered (outcome : ClaimOutcome) (b : Books) :
    Settles hashes chain b (.claim (.answered outcome), b) := settles_claim rfl rfl rfl

/-- Nothing is written, and the task still holds its claim. -/
theorem advanced_owned {phase phase' : ClaimPhase} {id : String} (howned : phase.owned = some id)
    (howned' : phase'.owned = some id) (hsent : phase'.sent = none) (h : b.Unsigned id)
    (hreserves : (Phase.claim phase').Reserves b) :
    Advanced hashes chain b (.claim phase) (.claim phase', b) where
  wrote := .writes .refl
  knows := by
    refine .claim (fun id' h' => ?_) fun sent h' => ?_
    · rw [howned'] at h'
      cases h'
      exact h
    · rw [hsent] at h'
      cases h'
  reserves := hreserves
  owned id' h' := by
    rw [show Phase.owned (.claim phase') = some id from howned'] at h'
    cases h'
    exact Or.inl howned

/-! ## The statements -/

section Statements

variable {id : String} {now : Int}

/-- A transition moves a row or writes nothing. -/
theorem writes_transition {source : List FaucetClaimState} {target : FaucetClaimState}
    {columns : SetColumns} (hcolumns : columns.signed = none)
    (hmay : ∀ row ∈ b.rows, row.id = id → row.state ∈ source → MayMove hashes chain row target) :
    BookWrites hashes chain b (b.exec (transition id source target now columns)) := by
  unfold Books.exec after
  cases hrun : (transition id source target now columns).run b.rows with
  | error e rows' => exact absurd hrun transition_ne_error
  | ok changed rows' =>
    rcases transition_eq_ok.mp hrun with ⟨-, rfl, -⟩ | ⟨-, rfl, row, hget, hin⟩
    · exact .refl
    · obtain ⟨hrow, rfl⟩ := Table.get?_eq_some.mp hget
      exact .single (.moved hrow (hmay row hrow rfl hin) hcolumns)

theorem writes_markSent : BookWrites hashes chain b (b.exec (markSent id now)) :=
  writes_transition rfl fun _ _ _ hin => .sent (broadcasting_of_mem hin)

theorem writes_markConfirmed : BookWrites hashes chain b (b.exec (markConfirmed id now)) :=
  writes_transition rfl fun _ _ _ hin => .confirmed (broadcasting_of_mem hin)

theorem writes_markSkipped : BookWrites hashes chain b (b.exec (markSkipped id now)) :=
  writes_transition rfl fun _ _ _ hin => .skipped (List.mem_singleton.mp hin)

/-- A claim is failed when what it was signed as is dead. -/
theorem writes_markFailed (hinv : BooksInvariant hashes chain b)
    (hdead : ∀ signed, .signed id signed ∈ b.history → Dead hashes chain signed.txHash) :
    BookWrites hashes chain b (b.exec (markFailed id now)) := by
  refine writes_transition rfl fun row hrow hid hin => .failed (inflight_of_mem hin) ?_
  intro signed hsigned
  exact hdead signed ((hinv.signedEvents id signed).mpr ⟨row, List.mem_append_left _ hrow, hid, hsigned⟩)

theorem Books.Unsigned.writes_markFailed (h : b.Unsigned id) (hinv : BooksInvariant hashes chain b) :
    BookWrites hashes chain b (b.exec (markFailed id now)) :=
  Faucet.writes_markFailed hinv fun signed hsigned => absurd hsigned (h.never signed)

/-- A claim was signed as one transaction. -/
theorem BooksInvariant.signed_inj (hinv : BooksInvariant hashes chain b) {signed signed' : SignedTransaction}
    (h : .signed id signed ∈ b.history) (h' : .signed id signed' ∈ b.history) : signed = signed' := by
  obtain ⟨claim, hclaim, rfl, hsigned⟩ := (hinv.signedEvents _ _).mp h
  exact Option.some.inj (hsigned.symm.trans (hinv.signed_eq hclaim h'))

theorem BooksInvariant.consistent (hinv : BooksInvariant hashes chain b) {signed : SignedTransaction}
    (h : .signed id signed ∈ b.history) : signed.Consistent hashes := by
  obtain ⟨claim, hclaim, -, hsigned⟩ := (hinv.signedEvents _ _).mp h
  exact hinv.columns claim hclaim signed hsigned

theorem writes_markFailed_of_dead (hinv : BooksInvariant hashes chain b) {signed : SignedTransaction}
    (h : .signed id signed ∈ b.history) (hdead : Dead hashes chain signed.txHash) :
    BookWrites hashes chain b (b.exec (markFailed id now)) := by
  refine writes_markFailed hinv fun signed' hsigned' => ?_
  rw [← hinv.signed_inj h hsigned']
  exact hdead

end Statements

/-! ## A claim -/

section Claims

variable {moment : Moment} {id raw : String} {kind : FaucetClaimKind} {recipient : String} {amount : Int}

theorem settles_caught (hinv : BooksInvariant hashes chain b) (moment : Moment) (id : String) :
    Settles hashes chain b (caught b moment id) := by
  have hw : BookWrites hashes chain b
      (if b.state? id = some .reserved then b.exec (markFailed id moment.now) else b) := by
    split
    · next hreserved =>
      obtain ⟨row, hget, hstate⟩ := Option.map_eq_some_iff.mp hreserved
      obtain ⟨hrow, rfl⟩ := Table.get?_eq_some.mp hget
      have hclaim : row ∈ b.claims := List.mem_append_left _ hrow
      have hnone : row.signed = none := hinv.unsigned row hclaim (Or.inl hstate)
      exact writes_markFailed hinv fun signed hsigned =>
        absurd hsigned (hinv.not_signed hclaim hnone signed)
    · exact .refl
  unfold caught
  dsimp only
  generalize (if b.state? id = some .reserved then b.exec (markFailed id moment.now) else b) = b' at hw ⊢
  split
  · exact (settles_answered _ b').after hw
  · exact (settles_answered _ b').after hw

theorem settles_checkAdmission (request : ClaimRequest) :
    Settles hashes chain b (checkAdmission config b moment request recipient) := by
  unfold checkAdmission
  dsimp only
  split
  · exact settles_answered _ b
  · split
    · exact settles_answered _ b
    · exact settles_answered _ b
    · exact settles_claim rfl rfl rfl

theorem settles_decideClaim (request : ClaimRequest) :
    Settles hashes chain b (decideClaim config b moment request) := by
  unfold decideClaim
  split
  · exact settles_answered _ b
  · split
    · exact settles_answered _ b
    · split
      · exact settles_claim rfl rfl rfl
      · exact settles_checkAdmission request

/-- A random UUID names the new claim. -/
theorem advanced_reserveClaim (hinv : BooksInvariant hashes chain b) (input : FaucetReserveInput)
    (hfresh : ∀ claim ∈ b.claims, claim.id ≠ moment.uuid) {phase : Phase} :
    Advanced hashes chain b phase (reserveClaim config b moment input) := by
  unfold reserveClaim
  dsimp only [Books.exec]
  unfold answer after
  cases hrun : (reserve moment.uuid input moment.now (limitsOf config.ethDailyWei input.kind)).run
      b.rows with
  | error e rows' =>
    rw [reserve_eq_error hrun]
    exact (settles_answered _ b).advanced
  | ok result rows' =>
    rcases reserve_eq_ok hrun with ⟨rfl, hne⟩ | ⟨-, -, hinsert, rfl⟩
    · cases result with
      | refused refusal => exact (settles_answered _ b).advanced
      | ok claim created =>
        cases created with
        | true => exact absurd rfl (hne claim)
        | false => exact (settles_answered _ b).advanced
    · exact {
        wrote := .writes (.single (.reserved hfresh rfl rfl hinsert))
        knows := by
          refine .claim (fun id hid => ?_) fun sent h => by cases h
          cases hid
          refine ⟨⟨_, List.mem_append_left _ ((Table.mem_insert? hinsert).mpr (Or.inr rfl)), rfl⟩, ?_⟩
          intro signed hsigned
          obtain ⟨claim, hclaim, hid, -⟩ := (hinv.signedEvents _ _).mp hsigned
          exact hfresh claim hclaim hid
        reserves := True.intro
        owned := by
          intro id hid
          cases hid
          exact Or.inr hfresh }

theorem advanced_planned (hinv : BooksInvariant hashes chain b) (h : b.Unsigned id) (balance : Int) :
    Advanced hashes chain b (.claim (.plan id kind recipient))
      (planned b moment id kind recipient balance) := by
  unfold planned
  split
  · exact (settles_caught hinv moment id).advanced
  · split
    · exact ((settles_answered _ _).after writes_markSkipped).advanced
    · exact advanced_owned rfl rfl rfl h True.intro

theorem advanced_funded (hinv : BooksInvariant hashes chain b) (h : b.Unsigned id) (balance : Int)
    (baseFee : Option Int) :
    Advanced hashes chain b (.claim (.funds id kind recipient amount))
      (funded config b moment id kind recipient amount balance baseFee) := by
  unfold funded
  split
  · exact ((settles_answered _ _).after (h.writes_markFailed hinv)).advanced
  · exact advanced_owned rfl rfl rfl h True.intro

/-- The nonce is above all that are held. -/
theorem advanced_numbered (h : b.Unsigned id) (count : Int) :
    Advanced hashes chain b (.claim (.pending id kind recipient amount))
      (numbered b id kind recipient amount count) := by
  refine advanced_owned rfl rfl rfl h fun row hrow hheld held hsigned => ?_
  have hnonce : (claimTransaction kind recipient amount (max count (nextNonce b.rows))).nonce =
      max count (nextNonce b.rows) := by
    cases kind <;> rfl
  rw [hnonce]
  exact Int.lt_of_lt_of_le (lt_nextNonce hrow hheld hsigned) (Int.le_max_right _ _)

theorem consistent_signedColumns {transaction : FaucetTransaction}
    (h : hashes.nonceOf (hashes.hashOf raw) = transaction.nonce) :
    (signedColumns hashes transaction raw).Consistent hashes :=
  ⟨h, hashes.keccak256_toLowerCase raw, toLowerCase_toLowerCase raw⟩

/-- **The signature reaches the disk**, or nothing is sent. -/
theorem advanced_persist (hinv : BooksInvariant hashes chain b) {transaction : FaucetTransaction}
    (habove : (Phase.claim (.sign id amount transaction)).Reserves b)
    (hraw : hashes.nonceOf (hashes.hashOf raw) = transaction.nonce) :
    Advanced hashes chain b (.claim (.sign id amount transaction))
      (persist hashes b moment id amount transaction raw) := by
  unfold persist
  dsimp only [Books.exec]
  unfold answer after
  cases hrun : (markSigned id ⟨signedColumns hashes transaction raw, amount⟩ moment.now).run b.rows with
  | error e rows' =>
    rw [markSigned_eq_error hrun]
    exact (settles_caught hinv moment id).advanced
  | ok changed rows' =>
    obtain ⟨-, -, htransition⟩ := markSigned_eq_ok hrun
    rcases transition_eq_ok.mp htransition with ⟨rfl, rfl, -⟩ | ⟨rfl, rfl, row, hget, hin⟩
    · exact (settles_answered _ b).advanced
    · obtain ⟨hrow, rfl⟩ := Table.get?_eq_some.mp hget
      exact {
        wrote := .signs rfl rfl (.intro hrow rfl (List.mem_singleton.mp hin))
          (consistent_signedColumns hraw) habove
        knows := by
          refine .claim (fun _ h => by cases h) fun sent h => ?_
          cases h
          exact ⟨_, List.mem_cons_self, rfl, rfl⟩
        reserves := True.intro
        owned := fun _ h => by cases h }

/-- The claim waits for its receipt. -/
theorem settles_wait (h : b.SignedAs hashes id raw) :
    Settles hashes chain b (.claim (.wait id raw), b) where
  writes := .refl
  knows := by
    refine .claim (fun _ h => by cases h) fun sent heq => ?_
    cases heq
    exact h
  critical := rfl
  owned := rfl

theorem Books.SignedAs.writes_markFailed (h : b.SignedAs hashes id raw)
    (hinv : BooksInvariant hashes chain b) (hdead : Dead hashes chain (hashes.hashOf raw)) {now : Int} :
    BookWrites hashes chain b (b.exec (markFailed id now)) := by
  obtain ⟨signed, hmem, -, hhash⟩ := h
  exact writes_markFailed_of_dead hinv hmem (hhash ▸ hdead)

theorem settles_broadcasted (hinv : BooksInvariant hashes chain b) (hgrown : chain.Grown hashes)
    (h : b.SignedAs hashes id raw) {result : BroadcastResult}
    (hresult : result = .rejected → hashes.hashOf raw ∈ chain.refused) :
    Settles hashes chain b (broadcasted b moment id raw result) := by
  cases result with
  | accepted =>
    have hw : BookWrites hashes chain b (b.exec (markSent id moment.now)) := writes_markSent
    exact (settles_wait (h.persists (hinv.writes hw).2.persists)).after hw
  | rejected =>
    have hw : BookWrites hashes chain b (b.exec (markFailed id moment.now)) :=
      h.writes_markFailed hinv (dead_of_refused hgrown (hresult rfl))
    exact (settles_caught (hinv.writes hw).1 moment id).after hw

theorem settles_recordReceipt (hinv : BooksInvariant hashes chain b) (hgrown : chain.Grown hashes)
    (h : b.SignedAs hashes id raw) {status : Option ReceiptStatus}
    (hstatus : ∀ s, status = some s → ∃ tx ∈ chain.mined,
      hashes.nonceOf tx.1 = hashes.nonceOf (hashes.hashOf raw) ∧ tx.2 = s) :
    Settles hashes chain b (answerView (recordReceipt b moment id status) id) := by
  refine (settles_answered _ _).after ?_
  rcases status with - | - | -
  · exact .refl
  · exact writes_markConfirmed
  · obtain ⟨⟨hash, status⟩, htx, hnonce, rfl⟩ := hstatus _ rfl
    exact h.writes_markFailed hinv (dead_of_reverted hgrown htx hnonce)

end Claims

/-! ## The reconciler -/

section Reconciler

variable {sweep : Sweep} {row : FaucetClaimRow} {signed : SignedTransaction} {now : Int}
  {rows : List FaucetClaimRow}

/-- Nothing is written, and the next phase is at no claim. -/
theorem settles_reconcilePhase {phase : ReconcilePhase} (hrow : phase.row = none)
    (htold : phase.Told chain) (hcritical : (Phase.reconcile phase).critical = false) :
    Settles hashes chain b (.reconcile phase, b) where
  writes := .refl
  knows := by
    refine .reconcile (fun x h => ?_) htold
    rw [hrow] at h
    cases h
  critical := hcritical
  owned := rfl

theorem settles_finished : Settles hashes chain b (.reconcile .finished, b) :=
  settles_reconcilePhase rfl True.intro rfl

/-- Nothing is written, and the next phase is at a claim that was signed. -/
theorem settles_row {phase : ReconcilePhase} (hphase : phase.row = some (sweep, row, signed))
    (hsweep : sweep.Knows chain b) (hrow : .signed row.id signed ∈ b.history) (htold : phase.Told chain)
    (hcritical : (Phase.reconcile phase).critical = false) :
    Settles hashes chain b (.reconcile phase, b) where
  writes := .refl
  knows := by
    refine .reconcile (fun x h => ?_) htold
    rw [hphase] at h
    cases h
    exact ⟨hsweep, hrow⟩
  critical := hcritical
  owned := rfl

/-- Rows that were signed take an await each. -/
theorem settles_sweepRows (h : ∀ row ∈ rows, b.SignedRow row)
    (hmined : ∀ n, sweep.mined = some n → n ≤ chain.minedNonce) :
    Settles hashes chain b (sweepRows now sweep rows b) := by
  induction rows with
  | nil => exact settles_reconcilePhase rfl True.intro rfl
  | cons row rest ih =>
    obtain ⟨hrow, hrest⟩ := List.forall_mem_cons.mp h
    rw [sweepRows, if_neg hrow.state]
    split
    · next signed hsigned =>
      exact settles_row rfl ⟨hrest, hmined⟩ (hrow.signed signed hsigned) True.intro rfl
    · exact ih hrest

theorem Sweep.Knows.settles_continue (h : sweep.Knows chain b) :
    Settles hashes chain b (sweep.continue b now) := settles_sweepRows h.rest h.mined

/-- The last word on a claim fails it only if its transaction is dead. -/
theorem settles_settle (hinv : BooksInvariant hashes chain b) (hsweep : sweep.Knows chain b)
    (hrow : .signed row.id signed ∈ b.history) {status : Option ReceiptStatus}
    (hdead : status ≠ some .success → Dead hashes chain signed.txHash) :
    Settles hashes chain b (settle b now sweep row status) := by
  have hcontinue : ∀ {b' : Books}, BookWrites hashes chain b b' →
      Settles hashes chain b (sweep.continue b' now) := by
    intro b' hw
    have hsweep' := hsweep.persists (hinv.writes hw).2.persists (Int.le_refl chain.minedNonce)
    exact hsweep'.settles_continue.after hw
  rcases status with - | - | -
  · exact hcontinue (writes_markFailed_of_dead hinv hrow (hdead fun h => by cases h))
  · exact hcontinue writes_markConfirmed
  · exact hcontinue (writes_markFailed_of_dead hinv hrow (hdead fun h => by cases h))

/-- A claim that is not mined yet is looked up again, sent again, or left alone. -/
theorem settles_unmined (hinv : BooksInvariant hashes chain b) (hsweep : sweep.Knows chain b)
    (hrow : .signed row.id signed ∈ b.history) {mined : Int} (hmined : sweep.mined = some mined) :
    Settles hashes chain b (unmined b now mined sweep row signed) := by
  unfold unmined
  split
  · next hlt => exact settles_row rfl hsweep hrow ⟨mined, hmined, hlt⟩ rfl
  · split
    · exact hsweep.settles_continue
    · have hw : BookWrites hashes chain b (b.note (.broadcast row.id signed.rawTx)) :=
        .single (.broadcast hrow (hinv.consistent hrow).lower)
      have hpersists := (hinv.writes hw).2.persists
      have hsettles : Settles hashes chain (b.note (.broadcast row.id signed.rawTx))
          (.reconcile (.resend sweep row signed), b.note (.broadcast row.id signed.rawTx)) :=
        settles_row rfl (hsweep.persists hpersists (Int.le_refl chain.minedNonce))
          (hpersists.history _ hrow) True.intro rfl
      exact hsettles.after hw

/-- **The stale rule fails no claim that was signed.** -/
theorem writes_stale (hinv : BooksInvariant hashes chain b) (h : b.Unsigned row.id)
    (hfailed : answer (markFailed row.id now) b.rows = .ok true) :
    BookWrites hashes chain b ((b.exec (markFailed row.id now)).note (.stale row.id)) := by
  refine .tail (h.writes_markFailed hinv) (.stale ?_)
  rcases transition_eq_ok.mp (answer_eq_ok.mp hfailed) with ⟨hfalse, -⟩ | ⟨-, hrows, found, hget, -⟩
  · cases hfalse
  · obtain ⟨hfound, hid⟩ := Table.get?_eq_some.mp hget
    have hnone : found.signed = none := by
      cases hsigned : found.signed with
      | none => rfl
      | some signed =>
        exact absurd ((hinv.signedEvents _ _).mpr ⟨found, List.mem_append_left _ hfound, hid, hsigned⟩)
          (h.never signed)
    refine ⟨found.move .failed now .none, List.mem_append_left _ ?_, hid, rfl, hnone⟩
    show _ ∈ after (markFailed row.id now) b.rows
    rw [show after (markFailed row.id now) b.rows = moved b.rows row.id .failed now .none from hrows]
    exact mem_moved.mpr ⟨found, hfound, (if_pos hid).symm⟩

/-- The loop from the start of its snapshot: the reserved rows come first. -/
theorem settles_snapshot (hinv : BooksInvariant hashes chain b)
    (hsorted : rows.Pairwise fun a b => a.signed ≠ none → b.signed ≠ none)
    (hreserved : ∀ row ∈ rows, row.state = .reserved → row.signed = none ∧ b.Unsigned row.id)
    (hsigned : ∀ row ∈ rows, row.state ≠ .reserved → row.signed ≠ none ∧ b.SignedRow row)
    (hmined : sweep.mined = none) : Settles hashes chain b (sweepRows now sweep rows b) := by
  have hnone : ∀ n, sweep.mined = some n → n ≤ chain.minedNonce := fun n hn => by
    rw [hmined] at hn
    cases hn
  induction rows generalizing b with
  | nil => exact settles_reconcilePhase rfl True.intro rfl
  | cons row rest ih =>
    obtain ⟨hrow, hrest⟩ := List.pairwise_cons.mp hsorted
    by_cases hstate : row.state = .reserved
    · rw [sweepRows, if_pos hstate]
      obtain ⟨-, hunsigned⟩ := hreserved row List.mem_cons_self hstate
      split
      · next hstale =>
        have hw := writes_stale hinv hunsigned hstale.2
        obtain ⟨hinv', hkeeps⟩ := hinv.writes hw
        refine (ih hinv' hrest (fun other hother hstate => ?_) fun other hother hstate => ?_).after hw
        · obtain ⟨hnone', hother⟩ := hreserved other (List.mem_cons_of_mem row hother) hstate
          exact ⟨hnone', hother.persists hkeeps.persists fun h => by cases h⟩
        · obtain ⟨hsome, hother⟩ := hsigned other (List.mem_cons_of_mem row hother) hstate
          exact ⟨hsome, hother.persists hkeeps.persists⟩
      · exact ih hinv hrest (fun other hother => hreserved other (List.mem_cons_of_mem row hother))
          fun other hother => hsigned other (List.mem_cons_of_mem row hother)
    · -- A signed row: so are those after it.
      obtain ⟨hsome, hsignedRow⟩ := hsigned row List.mem_cons_self hstate
      refine settles_sweepRows (List.forall_mem_cons.mpr ⟨hsignedRow, fun other hother => ?_⟩) hnone
      have hne : other.state ≠ .reserved := fun heq =>
        hrow other hother hsome (hreserved other (List.mem_cons_of_mem row hother) heq).1
      exact (hsigned other (List.mem_cons_of_mem row hother) hne).2

/-- A pass over the ledger as it is. -/
theorem settles_unsettled (hinv : BooksInvariant hashes chain b) :
    Settles hashes chain b
      (if (unsettled b.rows).isEmpty then (.reconcile .finished, b)
        else sweepRows now ⟨now, unsettled b.rows, none⟩ (unsettled b.rows) b) := by
  split
  · exact settles_finished
  · refine settles_snapshot hinv unsettled_sorted (fun row hrow hstate => ?_)
      (fun row hrow hstate => ?_) rfl
    · have hclaim : row ∈ b.claims := List.mem_append_left _ (mem_unsettled.mp hrow).1
      have hnone := hinv.unsigned row hclaim (Or.inl hstate)
      exact ⟨hnone, ⟨row, hclaim, rfl⟩, hinv.not_signed hclaim hnone⟩
    · obtain ⟨hmem, hin⟩ := mem_unsettled.mp hrow
      have hclaim : row ∈ b.claims := List.mem_append_left _ hmem
      obtain ⟨signed, hsigned⟩ := Option.isSome_iff_exists.mp
        (hinv.checked row hclaim (FaucetClaimState.active_of_inflight hin) hstate)
      refine ⟨by simp [hsigned], hstate, fun signed' hsigned' => ?_⟩
      exact (hinv.signedEvents _ _).mpr ⟨row, hclaim, rfl, hsigned'⟩

theorem settles_reconcile (hinv : BooksInvariant hashes chain b) :
    Settles hashes chain b (reconcile b now) := by
  have hw : BookWrites hashes chain b
      ⟨after (prune (now - ledgerRetentionMs)) b.rows,
        b.rows.rows.filter (FaucetClaimRow.prunable (now - ledgerRetentionMs)) ++ b.pruned, b.history⟩ :=
    .single (.pruned (now - ledgerRetentionMs))
  exact (settles_unsettled (hinv.writes hw).1).after hw

/-! ### Gaps -/

theorem not_mem_of_nextGap {held : List Int} {nonce gap : Int} (h : nextGap held nonce = some gap) :
    gap ∉ held := by
  unfold nextGap at h
  split at h
  · cases h
  · simpa using List.find?_some h

theorem advanced_fillFrom {held : List Int} (h : b.HeldBy held) (nonce : Int) (phase : Phase) :
    Advanced hashes chain b phase (fillFrom b held nonce) := by
  unfold fillFrom
  split
  · exact settles_finished.advanced
  · next gap hgap =>
    exact {
      wrote := .writes .refl
      knows := .reconcile (fun _ h => by cases h) True.intro
      reserves := ⟨h, not_mem_of_nextGap hgap⟩
      owned := fun _ h => by cases h }

theorem advanced_fillGaps (hinv : BooksInvariant hashes chain b) (phase : Phase) :
    Advanced hashes chain b phase (fillGaps b) := by
  unfold fillGaps
  dsimp only
  split
  · exact settles_finished.advanced
  · refine ⟨.writes .refl, .reconcile (fun _ h => by cases h) True.intro, ?_, fun _ h => by cases h⟩
    intro row hrow hin signed hsigned
    refine List.mem_filterMap.mpr ⟨row, mem_unsettled.mpr ⟨hrow, hin⟩, ?_⟩
    have hne : row.state ≠ .reserved := fun hreserved => by
      rw [hinv.unsigned row (List.mem_append_left _ hrow) (Or.inl hreserved)] at hsigned
      cases hsigned
    rw [if_neg hne, hsigned]
    rfl

end Reconciler

/-! ## A stretch of a task -/

section Advance

variable {w : World} {moment : Moment} {answer : Answer} {stretch : Stretch}

/-- The node rejects nothing that is mined. -/
theorem includes_of_rejected {phase : Phase} (hhonest : honest hashes w moment phase answer = true)
    {raw : String} (h : rejectedBytes phase answer = some raw) :
    w.chain.includes (hashes.hashOf raw) = false := by
  unfold rejectedBytes at h
  split at h <;> cases h <;> exact of_decide_eq_true hhonest

theorem grown_reject {rejected : Option String} (hgrown : chain.Grown hashes)
    (h : ∀ raw, rejected = some raw → chain.includes (hashes.hashOf raw) = false) :
    (chain.reject hashes rejected).Grown hashes where
  below := hgrown.below
  distinct := hgrown.distinct
  refused tx htx hmem := by
    cases rejected with
    | none => exact hgrown.refused tx htx hmem
    | some raw =>
      rcases List.mem_cons.mp hmem with heq | hmem
      · have hin : hashes.hashOf raw ∈ chain.mined.map Prod.fst := heq ▸ List.mem_map_of_mem htx
        have hout := h raw rfl
        rw [Chain.includes, List.contains_eq_mem, decide_eq_false_iff_not] at hout
        exact hout hin
      · exact hgrown.refused tx htx hmem

theorem later_reject (rejected : Option String) :
    Chain.Later hashes chain (chain.reject hashes rejected) := by
  have hmem : ∀ hash ∈ chain.refused, hash ∈ (chain.reject hashes rejected).refused :=
    fun hash hhash => List.mem_append_right _ hhash
  exact ⟨Int.le_refl _, hmem, fun hash hdead => ⟨hdead.1, hdead.2.imp_left (hmem hash)⟩⟩

theorem advanced_eligible (hinv : BooksInvariant hashes chain b) {input : FaucetReserveInput}
    (hfresh : ∀ claim ∈ b.claims, claim.id ≠ moment.uuid)
    (h : eligible config b moment input answer = some stretch) {phase : Phase} :
    Advanced hashes chain b phase stretch := by
  have hreserve : Advanced hashes chain b phase (reserveClaim config b moment input) :=
    advanced_reserveClaim hinv input hfresh
  unfold eligible at h
  split at h
  · split at h <;> cases h
    exact hreserve
  · split at h <;> cases h
    exact (settles_answered _ b).advanced
  · split at h <;> cases h
    split
    · exact hreserve
    · exact (settles_answered _ b).advanced
  · cases h

/-- **One stretch of a claim.** -/
theorem ClaimPhase.advanced {phase : ClaimPhase}
    (hgrown : (w.chain.reject hashes (rejectedBytes (.claim phase) answer)).Grown hashes)
    (hinv : BooksInvariant hashes (w.chain.reject hashes (rejectedBytes (.claim phase) answer)) w.books)
    (howned : ∀ id, phase.owned = some id → w.books.Unsigned id)
    (hsent : ∀ sent, phase.sent = some sent → w.books.SignedAs hashes sent.1 sent.2)
    (hreserves : (Phase.claim phase).Reserves w.books)
    (hhonest : honest hashes w moment (.claim phase) answer = true)
    (h : phase.advance config hashes w.books moment answer = some stretch) :
    Advanced hashes (w.chain.reject hashes (rejectedBytes (.claim phase) answer)) w.books
      (.claim phase) stretch := by
  cases phase with
  | payer request =>
    cases answer with
    | address recipient => cases h; exact (settles_checkAdmission request).advanced
    | lost => cases h; exact (settles_answered _ _).advanced
    | _ => cases h
  | eligibility input =>
    refine advanced_eligible hinv (fun claim hclaim => ?_) h
    exact of_decide_eq_true (List.all_eq_true.mp hhonest claim hclaim)
  | plan id kind recipient =>
    cases answer with
    | balance wei => cases h; exact advanced_planned hinv (howned id rfl) wei
    | lost => cases h; exact (settles_caught hinv moment id).advanced
    | _ => cases h
  | queued id kind recipient amount =>
    cases answer with
    | turn => cases h; exact advanced_owned rfl rfl rfl (howned id rfl) True.intro
    | _ => cases h
  | funds id kind recipient amount =>
    cases answer with
    | funds balance baseFee => cases h; exact advanced_funded hinv (howned id rfl) balance baseFee
    | lost => cases h; exact (settles_caught hinv moment id).advanced
    | _ => cases h
  | pending id kind recipient amount =>
    cases answer with
    | nonce count => cases h; exact advanced_numbered (howned id rfl) count
    | lost => cases h; exact (settles_caught hinv moment id).advanced
    | _ => cases h
  | sign id amount transaction =>
    cases answer with
    | signed raw => cases h; exact advanced_persist hinv hreserves (of_decide_eq_true hhonest)
    | lost => cases h; exact (settles_caught hinv moment id).advanced
    | _ => cases h
  | persisted id raw =>
    cases answer with
    | turn =>
      cases h
      obtain ⟨signed, hmem, hraw, hhash⟩ := hsent (id, raw) rfl
      refine ⟨.writes (.single (.broadcast hmem hraw)), ?_, True.intro, fun _ h => by cases h⟩
      refine .claim (fun _ h => by cases h) fun sent heq => ?_
      cases heq
      exact ⟨signed, List.mem_cons_of_mem _ hmem, hraw, hhash⟩
    | _ => cases h
  | send id raw =>
    cases answer with
    | sent result =>
      cases h
      refine (settles_broadcasted hinv hgrown (hsent (id, raw) rfl) fun hresult => ?_).advanced
      subst hresult
      exact List.mem_cons_self
    | lost => cases h; exact (settles_wait (hsent (id, raw) rfl)).advanced
    | _ => cases h
  | wait id raw =>
    cases answer with
    | receipt status =>
      cases h
      refine (settles_recordReceipt hinv hgrown (hsent (id, raw) rfl) fun s hs => ?_).advanced
      subst hs
      obtain ⟨tx, htx, hok⟩ := List.any_eq_true.mp hhonest
      exact ⟨tx, htx, of_decide_eq_true hok⟩
    | lost => cases h; exact (settles_answered _ _).advanced
    | _ => cases h
  | answered outcome => cases answer <;> cases h

/-- **One stretch of a reconcile pass.** -/
theorem ReconcilePhase.advanced {phase : ReconcilePhase}
    (hgrown : (w.chain.reject hashes (rejectedBytes (.reconcile phase) answer)).Grown hashes)
    (hinv : BooksInvariant hashes (w.chain.reject hashes (rejectedBytes (.reconcile phase) answer))
      w.books)
    (hrow : ∀ x, phase.row = some x →
      x.1.Knows (w.chain.reject hashes (rejectedBytes (.reconcile phase) answer)) w.books ∧
        .signed x.2.1.id x.2.2 ∈ w.books.history)
    (htold : phase.Told (w.chain.reject hashes (rejectedBytes (.reconcile phase) answer)))
    (hreserves : (Phase.reconcile phase).Reserves w.books)
    (hhonest : honest hashes w moment (.reconcile phase) answer = true)
    (h : phase.advance w.books moment.now answer = some stretch) :
    Advanced hashes (w.chain.reject hashes (rejectedBytes (.reconcile phase) answer)) w.books
      (.reconcile phase) stretch := by
  cases phase with
  | receipt sweep row signed =>
    obtain ⟨hsweep, hsigned⟩ := hrow _ rfl
    cases answer with
    | receipt status =>
      rcases status with - | status
      · cases hmined : sweep.mined with
        | none =>
          simp only [ReconcilePhase.advance, hmined, Option.some.injEq] at h
          subst h
          have hsettles : Settles hashes (w.chain.reject hashes none) w.books
              (.reconcile (.latest sweep row signed), w.books) :=
            settles_row rfl hsweep hsigned True.intro rfl
          exact hsettles.advanced
        | some mined =>
          simp only [ReconcilePhase.advance, hmined, Option.some.injEq] at h
          subst h
          exact (settles_unmined hinv hsweep hsigned hmined).advanced
      · cases h
        refine (settles_settle hinv hsweep hsigned fun hne => ?_).advanced
        cases status with
        | success => exact absurd rfl hne
        | reverted => exact dead_of_reverted hgrown (of_decide_eq_true hhonest) rfl
    | lost => cases h; exact hsweep.settles_continue.advanced
    | _ => cases h
  | latest sweep row signed =>
    obtain ⟨hsweep, hsigned⟩ := hrow _ rfl
    cases answer with
    | nonce mined =>
      cases h
      have hsweep' : Sweep.Knows (w.chain.reject hashes none) w.books { sweep with mined := some mined } :=
        ⟨hsweep.rest, fun n hn => Option.some.inj hn ▸ of_decide_eq_true hhonest⟩
      exact (settles_unmined hinv hsweep' hsigned rfl).advanced
    | lost => cases h; exact hsweep.settles_continue.advanced
    | _ => cases h
  | landed sweep row signed =>
    obtain ⟨hsweep, hsigned⟩ := hrow _ rfl
    cases answer with
    | receipt status =>
      cases h
      refine (settles_settle hinv hsweep hsigned fun hne => ?_).advanced
      rcases status with - | - | -
      · -- The node reported a mined nonce above this one and shows no receipt.
        obtain ⟨n, hn, hlt⟩ := htold
        have hnonce : hashes.nonceOf signed.txHash < n := (hinv.consistent hsigned).nonce ▸ hlt
        have hout : w.chain.includes signed.txHash = false := by
          simp only [honest, hn, Option.all_some, decide_eq_true_eq] at hhonest
          exact hhonest hnonce
        exact ⟨Chain.not_succeeded hout, Or.inr (Int.lt_of_lt_of_le hnonce (hsweep.mined n hn))⟩
      · exact absurd rfl hne
      · exact dead_of_reverted hgrown (of_decide_eq_true hhonest) rfl
    | lost => cases h; exact hsweep.settles_continue.advanced
    | _ => cases h
  | resend sweep row signed =>
    obtain ⟨hsweep, hsigned⟩ := hrow _ rfl
    cases answer with
    | sent result =>
      cases result with
      | accepted =>
        cases h
        have hw : BookWrites hashes (w.chain.reject hashes none) w.books
            (w.books.exec (markSent row.id moment.now)) := writes_markSent
        have hsweep' := hsweep.persists (hinv.writes hw).2.persists (Int.le_refl w.chain.minedNonce)
        exact (hsweep'.settles_continue.after hw).advanced
      | rejected =>
        cases h
        refine (settles_row rfl hsweep hsigned ?_ rfl).advanced
        show signed.txHash ∈ _
        rw [← (hinv.consistent hsigned).hash]
        exact List.mem_cons_self
    | lost => cases h; exact hsweep.settles_continue.advanced
    | _ => cases h
  | late sweep row signed =>
    obtain ⟨hsweep, hsigned⟩ := hrow _ rfl
    cases answer with
    | receipt status =>
      cases h
      exact (settles_settle hinv hsweep hsigned fun _ => dead_of_refused hgrown htold).advanced
    | lost => cases h; exact hsweep.settles_continue.advanced
    | _ => cases h
  | queued =>
    cases answer with
    | turn => cases h; exact advanced_fillGaps hinv _
    | _ => cases h
  | pending held =>
    cases answer with
    | nonce count => cases h; exact advanced_fillFrom hreserves count _
    | lost => cases h; exact settles_finished.advanced
    | _ => cases h
  | sign held nonce =>
    cases answer with
    | signed raw =>
      cases h
      exact ⟨.writes .refl, .reconcile (fun _ h => by cases h) True.intro, hreserves,
        fun _ h => by cases h⟩
    | lost => cases h; exact settles_finished.advanced
    | _ => cases h
  | send held nonce raw =>
    cases answer with
    | sent result =>
      cases result with
      | accepted => cases h; exact advanced_fillFrom hreserves.1 _ _
      | rejected => cases h; exact settles_finished.advanced
    | lost => cases h; exact settles_finished.advanced
    | _ => cases h
  | finished => cases answer <;> cases h

/-- **One stretch of a task.** -/
theorem Phase.advanced {phase : Phase}
    (hgrown : (w.chain.reject hashes (rejectedBytes phase answer)).Grown hashes)
    (hinv : BooksInvariant hashes (w.chain.reject hashes (rejectedBytes phase answer)) w.books)
    (hknows : phase.Knows hashes (w.chain.reject hashes (rejectedBytes phase answer)) w.books)
    (hreserves : phase.Reserves w.books) (hhonest : honest hashes w moment phase answer = true)
    (h : advance config hashes w.books moment phase answer = some stretch) :
    Advanced hashes (w.chain.reject hashes (rejectedBytes phase answer)) w.books phase stretch := by
  cases hknows with
  | claim howned hsent => exact ClaimPhase.advanced hgrown hinv howned hsent hreserves hhonest h
  | reconcile hrow htold => exact ReconcilePhase.advanced hgrown hinv hrow htold hreserves hhonest h

end Advance

end Mapae.Faucet
