import Mapae.Faucet.Tasks

/-!
# The faucet never pays twice and never forgets a payment

Claims and reconcile passes go on in any order, answers are lost or late, and the process may end at any
point.

* `WorldOk` is what holds in every state; `WorldOk.enter` is its step for a stretch of a task and
  `WorldOk.act` for everything that can happen
* `faucet_payments_held`: a payment that succeeds is never recorded as anything but made, a claim is
  broadcast only as what was persisted, and no nonce is used twice
-/

namespace Mapae.Faucet

open Mapae.Infra Mapae.Store

variable {config : FaucetConfig} {hashes : TransactionHashes} {w w' : World}

/-- What holds in every state. -/
structure WorldOk (hashes : TransactionHashes) (w : World) : Prop where
  grown : w.chain.Grown hashes
  books : BooksInvariant hashes w.chain w.books
  knows : ∀ number phase, w.tasks number = some phase → phase.Knows hashes w.chain w.books
  reserves : ∀ number phase, w.tasks number = some phase → phase.Reserves w.books
  locked : ∀ number phase, w.tasks number = some phase → phase.critical = true → w.lock = some number
  /-- A claim that is not signed is held by one task. -/
  owners : ∀ number number' phase phase' id, w.tasks number = some phase →
    w.tasks number' = some phase' → phase.owned = some id → phase'.owned = some id → number = number'

theorem Phase.Knows.unsigned {chain : Chain} {b : Books} {phase : Phase} {id : String}
    (h : phase.Knows hashes chain b) (hid : phase.owned = some id) : b.Unsigned id := by
  cases h with
  | claim howned hsent => exact howned id hid
  | reconcile hrow htold => cases hid

/-! ## One stretch -/

section Enter

variable {chain' : Chain} {number : Nat} {phase : Phase} {stretch : Stretch}

/-- **What a stretch writes leaves to the other tasks what they know.** -/
theorem WorldOk.others (hok : WorldOk hashes w) (hlater : Chain.Later hashes w.chain chain')
    (hphase : w.tasks number = some phase ∨ phase.critical = false) {b' : Books}
    (h : Wrote hashes chain' phase w.books b') :
    BooksInvariant hashes chain' b' ∧ ∀ other phase', other ≠ number → w.tasks other = some phase' →
      phase'.Knows hashes chain' b' ∧ phase'.Reserves b' := by
  have hinv := hok.books.later hlater
  cases h with
  | writes h =>
    obtain ⟨hinv', hkeeps⟩ := hinv.writes h
    refine ⟨hinv', fun other phase' _ hother => ⟨?_, (hok.reserves other phase' hother).keeps hkeeps⟩⟩
    exact (hok.knows other phase' hother).persists hkeeps.persists hlater fun _ _ h => by cases h
  | @signs id _ _ hcritical howned h hcolumns habove =>
    refine ⟨hinv.signs h hcolumns habove, fun other phase' hne hother => ⟨?_, ?_⟩⟩
    · -- The claim that is signed is held by no other task.
      refine (hok.knows other phase' hother).persists h.persists hlater fun id' hid' heq => ?_
      cases heq
      rcases hphase with hphase | hout
      · exact hne (hok.owners other number phase' phase id hother hphase hid' howned)
      · rw [hcritical] at hout
        cases hout
    · -- No other task is inside the mutex.
      refine Phase.reserves_of_not_critical (Bool.eq_false_iff.mpr fun hin => ?_)
      rcases hphase with hphase | hout
      · have hlock := hok.locked other phase' hother hin
        rw [hok.locked number phase hphase hcritical] at hlock
        exact hne (Option.some.inj hlock).symm
      · rw [hcritical] at hout
        cases hout

/-- **A task goes on.** -/
theorem WorldOk.enter (hok : WorldOk hashes w) (hgrown : chain'.Grown hashes)
    (hlater : Chain.Later hashes w.chain chain')
    (hphase : w.tasks number = some phase ∨ phase.critical = false ∧ phase.owned = none)
    (hadvanced : Advanced hashes chain' w.books phase stretch)
    (hlock : stretch.1.critical = true → phase.critical = false → w.lock = none) :
    WorldOk hashes { w.enter number stretch with chain := chain' } := by
  obtain ⟨hinv, hothers⟩ := hok.others hlater (hphase.imp_right And.left) hadvanced.wrote
  -- A task is the one that goes on, or another one.
  have htask : ∀ other phase', (w.enter number stretch).tasks other = some phase' →
      (other = number ∧ phase' = stretch.1) ∨ (other ≠ number ∧ w.tasks other = some phase') := by
    intro other phase' hother
    by_cases hne : other = number
    · subst hne
      dsimp only [World.enter] at hother
      rw [Function.update_self] at hother
      exact Or.inl ⟨rfl, (Option.some.inj hother).symm⟩
    · dsimp only [World.enter] at hother
      rw [Function.update_of_ne hne] at hother
      exact Or.inr ⟨hne, hother⟩
  -- The claim of the task is held by no other one.
  have howner : ∀ other phase' id, other ≠ number → w.tasks other = some phase' →
      phase'.owned = some id → stretch.1.owned ≠ some id := by
    intro other phase' id hne hother hid hid'
    rcases hadvanced.owned id hid' with howned | hfresh
    · rcases hphase with hphase | ⟨-, hnone⟩
      · exact hne (hok.owners other number phase' phase id hother hphase hid howned)
      · rw [hnone] at howned
        cases howned
    · obtain ⟨claim, hclaim, heq⟩ := ((hok.knows other phase' hother).unsigned hid).known
      exact hfresh claim hclaim heq
  exact {
    grown := hgrown
    books := hinv
    knows := by
      intro other phase' hother
      rcases htask other phase' hother with ⟨-, rfl⟩ | ⟨hne, hother⟩
      · exact hadvanced.knows
      · exact (hothers other phase' hne hother).1
    reserves := by
      intro other phase' hother
      rcases htask other phase' hother with ⟨-, rfl⟩ | ⟨hne, hother⟩
      · exact hadvanced.reserves
      · exact (hothers other phase' hne hother).2
    locked := by
      intro other phase' hother hcritical
      rcases htask other phase' hother with ⟨rfl, rfl⟩ | ⟨hne, hother⟩
      · exact if_pos hcritical
      · have hother' := hok.locked other phase' hother hcritical
        have hout : stretch.1.critical = false := by
          by_contra hin
          rw [Bool.not_eq_false] at hin
          by_cases hbefore : phase.critical = true
          · rcases hphase with hphase | ⟨hout, -⟩
            · rw [hok.locked number phase hphase hbefore] at hother'
              exact hne (Option.some.inj hother').symm
            · rw [hbefore] at hout
              cases hout
          · rw [hlock hin (Bool.eq_false_iff.mpr hbefore)] at hother'
            cases hother'
        show (if stretch.1.critical = true then some number
          else if w.lock = some number then none else w.lock) = some other
        rw [hout, if_neg Bool.false_ne_true, if_neg, hother']
        rw [hother']
        exact fun heq => hne (Option.some.inj heq)
    owners := by
      intro one two phase₁ phase₂ id h₁ h₂ hid₁ hid₂
      rcases htask one phase₁ h₁ with ⟨rfl, rfl⟩ | ⟨hne₁, hone⟩ <;>
        rcases htask two phase₂ h₂ with ⟨rfl, rfl⟩ | ⟨hne₂, htwo⟩
      · rfl
      · exact absurd hid₁ (howner two phase₂ id hne₂ htwo hid₂)
      · exact absurd hid₂ (howner one phase₁ id hne₁ hone hid₁)
      · exact hok.owners one two phase₁ phase₂ id hone htwo hid₁ hid₂ }

/-- A new task. -/
theorem WorldOk.spawn (hok : WorldOk hashes w) (h : Settles hashes w.chain w.books stretch) :
    WorldOk hashes (w.spawn stretch) := by
  have hadvanced : Advanced hashes w.chain w.books (.reconcile .finished) stretch := h.advanced
  have hentered : WorldOk hashes { w.enter w.next stretch with chain := w.chain } := by
    refine hok.enter hok.grown (Chain.Later.refl w.chain) (Or.inr ⟨rfl, rfl⟩) hadvanced fun hcritical => ?_
    rw [h.critical] at hcritical
    cases hcritical
  exact ⟨hentered.grown, hentered.books, hentered.knows, hentered.reserves, hentered.locked,
    hentered.owners⟩

end Enter

/-! ## Everything that can happen -/

/-- The next transaction is mined. -/
theorem grown_mine {chain : Chain} (hgrown : chain.Grown hashes) {hash : String} {status : ReceiptStatus}
    (hnonce : hashes.nonceOf hash = chain.minedNonce) (hout : hash ∉ chain.refused) :
    Chain.Grown hashes ⟨chain.minedNonce + 1, (hash, status) :: chain.mined, chain.refused⟩ where
  below tx htx := by
    rcases List.mem_cons.mp htx with rfl | htx
    · exact Int.lt_add_one_of_le (Int.le_of_eq hnonce)
    · exact Int.lt_trans (hgrown.below tx htx) (Int.lt_succ _)
  distinct := by
    rw [List.map_cons, List.nodup_cons]
    refine ⟨fun hmem => ?_, hgrown.distinct⟩
    obtain ⟨tx, htx, heq⟩ := List.mem_map.mp hmem
    exact Int.ne_of_lt (hgrown.below tx htx) (heq.trans hnonce)
  refused tx htx := by
    rcases List.mem_cons.mp htx with rfl | htx
    · exact hout
    · exact hgrown.refused tx htx

theorem later_mine {chain : Chain} {hash : String} {status : ReceiptStatus}
    (hnonce : hashes.nonceOf hash = chain.minedNonce) (hout : hash ∉ chain.refused) :
    Chain.Later hashes chain ⟨chain.minedNonce + 1, (hash, status) :: chain.mined, chain.refused⟩ where
  minedNonce_le := Int.le_of_lt (Int.lt_succ _)
  refused _ := id
  dead dead hdead := by
    refine ⟨fun hmined => ?_, hdead.2.imp_right fun hlt => Int.lt_trans hlt (Int.lt_succ _)⟩
    rcases List.mem_cons.mp hmined with heq | hmined
    · cases heq
      rcases hdead.2 with hrefused | hlt
      · exact hout hrefused
      · exact Int.ne_of_lt hlt hnonce
    · exact hdead.1 hmined

/-- **Everything that can happen keeps the invariant.** -/
theorem WorldOk.act {a : Action} (hok : WorldOk hashes w) (h : w.act config hashes a = some w') :
    WorldOk hashes w' := by
  cases a with
  | claim request moment =>
    cases h
    exact hok.spawn (settles_decideClaim request)
  | reconcile now =>
    cases h
    exact hok.spawn (settles_reconcile hok.books)
  | advance number answer moment =>
    simp only [World.act, Option.bind_eq_bind, Option.bind_eq_some_iff] at h
    obtain ⟨phase, hphase, stretch, hstretch, h⟩ := h
    split at h
    · next hcan =>
      obtain ⟨hhonest, hlock⟩ := hcan
      cases h
      have hlater : Chain.Later hashes w.chain (w.chain.reject hashes (rejectedBytes phase answer)) :=
        later_reject _
      have hgrown := grown_reject hok.grown fun raw hraw => includes_of_rejected hhonest hraw
      have hknows := (hok.knows number phase hphase).persists (Keeps.refl w.books).persists hlater
        fun _ _ heq => by cases heq
      exact hok.enter hgrown hlater (Or.inl hphase)
        (Phase.advanced hgrown (hok.books.later hlater) hknows (hok.reserves number phase hphase) hhonest
          hstretch) hlock
    · cases h
  | mine hash status =>
    simp only [World.act] at h
    split at h
    · next hcan =>
      cases h
      have hlater : Chain.Later hashes w.chain
          ⟨w.chain.minedNonce + 1, (hash, status) :: w.chain.mined, w.chain.refused⟩ :=
        later_mine hcan.1 hcan.2
      exact {
        grown := grown_mine hok.grown hcan.1 hcan.2
        books := hok.books.later hlater
        knows := fun number phase hphase => (hok.knows number phase hphase).persists
          (Keeps.refl w.books).persists hlater fun _ _ heq => by cases heq
        reserves := hok.reserves
        locked := hok.locked
        owners := hok.owners }
    · cases h
  | crash =>
    cases h
    exact {
      grown := hok.grown
      books := hok.books
      knows := fun _ _ h => by cases h
      reserves := fun _ _ h => by cases h
      locked := fun _ _ h => by cases h
      owners := fun _ _ _ _ _ h => by cases h }

/-- **The invariant holds in every reachable state.** -/
theorem WorldOk.of_reachable (hr : (faucet config hashes).Reachable w) : WorldOk hashes w := by
  refine System.Reachable.invariant (fun w hopen => ?_) (fun w w' _ hok hstep => ?_) hr
  · have hclaims : w.books.claims = [] := by
      rw [Books.claims, hopen.rows, hopen.pruned]
      rfl
    exact {
      grown := hopen.chain
      books := {
        ids := by simp [hclaims]
        unsigned := by simp [hclaims]
        checked := by simp [hclaims]
        pruned := by simp [hopen.pruned]
        failed := by simp [hclaims]
        columns := by simp [hclaims]
        nonces := by
          rw [hopen.rows]
          exact fun _ h => absurd h Table.not_mem_empty
        signedEvents := by simp [hclaims, hopen.history]
        staleEvents := by simp [hopen.history]
        justified := by
          rw [hopen.history]
          exact True.intro }
      knows := by simp [hopen.tasks]
      reserves := by simp [hopen.tasks]
      locked := by simp [hopen.tasks]
      owners := by simp [hopen.tasks] }
  · obtain ⟨a, ha⟩ := hstep
    exact hok.act ha

/-! ## What was paid -/

/-- The faucet's books are true to its chain. -/
structure FaucetPaymentsHeld (w : World) : Prop where
  /-- A claim whose transaction succeeded is neither failed nor skipped. -/
  paid : ∀ claim ∈ w.books.claims, ∀ signed, claim.signed = some signed →
    w.chain.succeeded signed.txHash → claim.state ≠ .failed ∧ claim.state ≠ .skipped
  /-- A broadcast was persisted before it, and the claim keeps those bytes. -/
  broadcast : ∀ later id raw before, w.books.history = later ++ .broadcast id raw :: before →
    ∃ signed, .signed id signed ∈ before ∧ signed.rawTx = toLowerCase raw ∧
      ∀ claim ∈ w.books.claims, claim.id = id → claim.signed = some signed
  /-- What the stale rule failed was never signed. -/
  stale : ∀ id, .stale id ∈ w.books.history → ∀ signed, .signed id signed ∉ w.books.history
  /-- No claim in flight has the nonce of a gap that is filled. -/
  gap : ∀ number held nonce,
    (w.tasks number = some (.reconcile (.sign held nonce)) ∨
      ∃ raw, w.tasks number = some (.reconcile (.send held nonce raw))) →
    ∀ claim ∈ w.books.rows, claim.state.inflight = true → ∀ signed, claim.signed = some signed →
      signed.nonce ≠ nonce
  /-- Signed, sent and confirmed claims that the table still has, have nonces of their own. -/
  nonce : ∀ claim ∈ w.books.rows, ∀ claim' ∈ w.books.rows, claim.state.holdsNonce = true →
    claim'.state.holdsNonce = true → ∀ signed signed', claim.signed = some signed →
      claim'.signed = some signed' → signed.nonce = signed'.nonce → claim = claim'

/-- **The faucet never pays twice and never forgets a payment.** -/
theorem faucet_payments_held (hr : (faucet config hashes).Reachable w) : FaucetPaymentsHeld w := by
  have hok := WorldOk.of_reachable hr
  have hinv := hok.books
  exact {
    paid := by
      intro claim hclaim signed hsigned hsucceeded
      refine ⟨fun hfailed => ?_, fun hskipped => ?_⟩
      · exact (hinv.failed claim hclaim hfailed signed hsigned).1 hsucceeded
      · rw [hinv.unsigned claim hclaim (Or.inr hskipped)] at hsigned
        cases hsigned
    broadcast := by
      intro later id raw before hhistory
      have hjustified := hinv.justified
      rw [hhistory] at hjustified
      obtain ⟨signed, hbefore, hraw⟩ := hjustified.at
      have hmem : .signed id signed ∈ w.books.history := by
        rw [hhistory]
        exact List.mem_append_right _ (List.mem_cons_of_mem _ hbefore)
      refine ⟨signed, hbefore, hraw.symm, ?_⟩
      rintro claim hclaim rfl
      exact hinv.signed_eq hclaim hmem
    stale := by
      intro id hstale
      obtain ⟨claim, hclaim, rfl, -, hnone⟩ := hinv.staleEvents id hstale
      exact hinv.not_signed hclaim hnone
    gap := by
      intro number held nonce htask claim hclaim hin signed hsigned heq
      have hheld : w.books.HeldBy held ∧ nonce ∉ held := by
        rcases htask with htask | ⟨raw, htask⟩
        · exact hok.reserves number _ htask
        · exact hok.reserves number _ htask
      exact hheld.2 (heq ▸ hheld.1 claim hclaim hin signed hsigned)
    nonce := hinv.nonces }

/-- Transactions that are told apart by their bytes; the one of `0x…cc` has nonce 0. -/
def bytesAsHash : TransactionHashes where
  keccak256 raw := raw
  nonceOf hash :=
    if hash = "0x00000000000000000000000000000000000000000000000000000000000000cc" then 0 else 1
  keccak256_toLowerCase := toLowerCase_toLowerCase

/-- An ETH grant is signed and sent, and the process ends before the node answers. The transaction is
mined, and the next process finds its receipt. -/
def lostAnswer : List Action :=
  let moment : Moment := ⟨0, "a"⟩
  [.claim ⟨.eth, "0x0000000000000000000000000000000000000000",
      "00000000000000000000000000000000000000000000000000000000000000aa",
      "00000000000000000000000000000000000000000000000000000000000000bb", ["follow"]⟩ moment,
    .advance 0 (.code none) moment, .advance 0 (.balance 0) moment, .advance 0 .turn moment,
    .advance 0 (.funds 1000000000000000000 (some 0)) moment, .advance 0 (.nonce 0) moment,
    .advance 0 (.signed "0x00000000000000000000000000000000000000000000000000000000000000cc") moment,
    .advance 0 .turn moment, .crash,
    .mine "0x00000000000000000000000000000000000000000000000000000000000000cc" .success,
    .reconcile 200000, .advance 1 (.receipt (some .success)) ⟨200000, "b"⟩]

/-- The claim is recorded as paid. -/
theorem faucet_payments_held_lost :
    ∃ w, System.performAll (World.act ⟨true, ["follow"], 500000000000000, 0⟩ bytesAsHash)
      ⟨⟨Table.empty, [], []⟩, fun _ => none, none, 0, ⟨0, [], []⟩⟩ lostAnswer = some w ∧
      w.books.claims.map FaucetClaimRow.state = [.confirmed] ∧ FaucetPaymentsHeld w := by
  have hrun : (System.performAll (World.act ⟨true, ["follow"], 500000000000000, 0⟩ bytesAsHash)
      ⟨⟨Table.empty, [], []⟩, fun _ => none, none, 0, ⟨0, [], []⟩⟩ lostAnswer).map
        (fun w => w.books.claims.map FaucetClaimRow.state) = some [.confirmed] := by
    decide +kernel
  obtain ⟨w, hw, hstates⟩ := Option.map_eq_some_iff.mp hrun
  refine ⟨w, hw, hstates, faucet_payments_held (System.reachable_of_performAll (.init ?_) hw)⟩
  exact ⟨rfl, rfl, rfl, fun _ => rfl, rfl, ⟨by simp, by simp, by simp⟩⟩

end Mapae.Faucet
