import Mapae.Faucet.Claims

/-!
# What tasks write to the books

The claims and the reconciler write to one ledger. Whatever they do there is a row of these writes,
given what is known of the chain when they do it.

* `BookWrite` is one write of a task that signs nothing, `Signs` is the write that signs
* `BooksInvariant` is what holds of the books whatever the tasks do; `BooksInvariant.writes` and
  `BooksInvariant.signs` are its step lemmas
* `Keeps` is what the writes of other tasks leave as it is
* `Dead` is a transaction that has not succeeded and never will; the chain only grows (`Chain.Later`),
  so it stays dead
-/

namespace Mapae.Faucet

open Mapae.Infra Mapae.Store

/-- The faucet's transactions on the chain. -/
structure Chain where
  /-- How many were mined, as the next nonce. -/
  minedNonce : Int
  /-- The hashes that were mined, and how each went. -/
  mined : List (String × ReceiptStatus)
  /-- The hashes that the node rejected. -/
  refused : List String

namespace Chain

/-- The transaction is mined, one way or the other. -/
def includes (chain : Chain) (hash : String) : Bool := (chain.mined.map Prod.fst).contains hash

/-- The transaction is mined and did what it says. -/
def succeeded (chain : Chain) (hash : String) : Prop := (hash, ReceiptStatus.success) ∈ chain.mined

theorem not_succeeded {chain : Chain} {hash : String} (h : chain.includes hash = false) :
    ¬ chain.succeeded hash := by
  intro hmined
  have hmem : hash ∈ chain.mined.map Prod.fst := List.mem_map_of_mem hmined
  rw [includes, List.contains_eq_mem, decide_eq_false_iff_not] at h
  exact h hmem

end Chain

variable {hashes : TransactionHashes} {chain chain' : Chain} {b b' : Books}

/-! ## Transactions that never succeed -/

/-- Each transaction that was mined has a nonce of its own below the next one, and was not rejected. -/
structure Chain.Grown (hashes : TransactionHashes) (chain : Chain) : Prop where
  below : ∀ tx ∈ chain.mined, hashes.nonceOf tx.1 < chain.minedNonce
  distinct : (chain.mined.map fun tx => hashes.nonceOf tx.1).Nodup
  refused : ∀ tx ∈ chain.mined, tx.1 ∉ chain.refused

/-- The transaction has not succeeded and never will. -/
def Dead (hashes : TransactionHashes) (chain : Chain) (hash : String) : Prop :=
  ¬ chain.succeeded hash ∧ (hash ∈ chain.refused ∨ hashes.nonceOf hash < chain.minedNonce)

theorem dead_of_refused (hgrown : chain.Grown hashes) {hash : String} (h : hash ∈ chain.refused) :
    Dead hashes chain hash :=
  ⟨fun hmined => hgrown.refused _ hmined h, Or.inl h⟩

/-- A receipt that says `reverted`, of the transaction or of another one with its nonce. -/
theorem dead_of_reverted (hgrown : chain.Grown hashes) {hash hash' : String}
    (h : (hash', ReceiptStatus.reverted) ∈ chain.mined)
    (hnonce : hashes.nonceOf hash' = hashes.nonceOf hash) : Dead hashes chain hash := by
  refine ⟨fun hmined => ?_, Or.inr ?_⟩
  · have heq := List.inj_on_of_nodup_map hgrown.distinct h hmined hnonce
    cases heq
  · rw [← hnonce]
    exact hgrown.below _ h

/-- What a chain may become. -/
structure Chain.Later (hashes : TransactionHashes) (chain chain' : Chain) : Prop where
  minedNonce_le : chain.minedNonce ≤ chain'.minedNonce
  refused : ∀ hash ∈ chain.refused, hash ∈ chain'.refused
  dead : ∀ hash, Dead hashes chain hash → Dead hashes chain' hash

theorem Chain.Later.refl (chain : Chain) : Chain.Later hashes chain chain :=
  ⟨Int.le_refl _, fun _ => id, fun _ => id⟩

/-! ## The writes -/

/-- The states a row may be moved to, and what has to be known for it. -/
inductive MayMove (hashes : TransactionHashes) (chain : Chain) (row : FaucetClaimRow) :
    FaucetClaimState → Prop
  | sent (h : row.state.broadcasting = true) : MayMove hashes chain row .sent
  | confirmed (h : row.state.broadcasting = true) : MayMove hashes chain row .confirmed
  | failed (hin : row.state.inflight = true)
      (h : ∀ signed, row.signed = some signed → Dead hashes chain signed.txHash) :
      MayMove hashes chain row .failed
  | skipped (h : row.state = .reserved) : MayMove hashes chain row .skipped

/-- One write of a task that signs nothing. -/
inductive BookWrite (hashes : TransactionHashes) (chain : Chain) (b : Books) : Books → Prop
  | reserved {row : FaucetClaimRow} {rows' : ClaimTable}
      (hfresh : ∀ claim ∈ b.claims, claim.id ≠ row.id) (hstate : row.state = .reserved)
      (hsigned : row.signed = none) (hinsert : b.rows.insert? row = some rows') :
      BookWrite hashes chain b ⟨rows', b.pruned, b.history⟩
  | moved {row : FaucetClaimRow} {target : FaucetClaimState} {now : Int} {columns : SetColumns}
      (hrow : row ∈ b.rows) (hmay : MayMove hashes chain row target)
      (hcolumns : columns.signed = none) :
      BookWrite hashes chain b ⟨moved b.rows row.id target now columns, b.pruned, b.history⟩
  | stale {id : String} (h : ∃ claim ∈ b.claims, claim.id = id ∧ claim.state = .failed ∧
        claim.signed = none) :
      BookWrite hashes chain b (b.note (.stale id))
  | broadcast {id raw : String} {signed : SignedTransaction}
      (hsigned : .signed id signed ∈ b.history) (hraw : toLowerCase raw = signed.rawTx) :
      BookWrite hashes chain b (b.note (.broadcast id raw))
  | pruned (before : Int) :
      BookWrite hashes chain b
        ⟨b.rows.filter fun row => !row.prunable before,
          b.rows.rows.filter (FaucetClaimRow.prunable before) ++ b.pruned, b.history⟩

/-- Writes one after the other. -/
abbrev BookWrites (hashes : TransactionHashes) (chain : Chain) : Books → Books → Prop :=
  Relation.ReflTransGen (BookWrite hashes chain)

/-- The write that signs the claim `id`. -/
inductive Signs (b : Books) (id : String) (signed : SignedTransaction) : Books → Prop
  | intro {row : FaucetClaimRow} {now amount : Int} (hrow : row ∈ b.rows) (hid : row.id = id)
      (hstate : row.state = .reserved) :
      Signs b id signed
        ⟨moved b.rows id .signed now ⟨some amount, some signed⟩, b.pruned,
          .signed id signed :: b.history⟩

/-- When an event is in order, given the ones before it. -/
def eventOk (before : List Event) : Event → Prop
  | .signed id _ => ∀ signed, .signed id signed ∉ before
  | .broadcast id raw => ∃ signed, .signed id signed ∈ before ∧ toLowerCase raw = signed.rawTx
  | .stale id => ∀ signed, .signed id signed ∉ before

/-- The columns of a signature belong together. -/
structure SignedTransaction.Consistent (hashes : TransactionHashes) (signed : SignedTransaction) : Prop where
  nonce : hashes.nonceOf signed.txHash = signed.nonce
  hash : hashes.hashOf signed.rawTx = signed.txHash
  lower : toLowerCase signed.rawTx = signed.rawTx

/-- What holds of the books, whatever the tasks do. -/
structure BooksInvariant (hashes : TransactionHashes) (chain : Chain) (b : Books) : Prop where
  ids : (b.claims.map FaucetClaimRow.id).Nodup
  unsigned : ∀ claim ∈ b.claims, claim.state = .reserved ∨ claim.state = .skipped →
    claim.signed = none
  checked : ∀ claim ∈ b.claims, claim.Checked
  pruned : ∀ claim ∈ b.pruned, claim.state.inflight = false
  /-- What is recorded as failed is dead. -/
  failed : ∀ claim ∈ b.claims, claim.state = .failed → ∀ signed, claim.signed = some signed →
    Dead hashes chain signed.txHash
  columns : ∀ claim ∈ b.claims, ∀ signed, claim.signed = some signed → signed.Consistent hashes
  /-- A nonce is held by one claim. -/
  nonces : ∀ claim ∈ b.rows, ∀ claim' ∈ b.rows, claim.state.holdsNonce = true →
    claim'.state.holdsNonce = true → ∀ signed signed', claim.signed = some signed →
      claim'.signed = some signed' → signed.nonce = signed'.nonce → claim = claim'
  /-- The history says which claims were signed, and what as. -/
  signedEvents : ∀ id signed, .signed id signed ∈ b.history ↔
    ∃ claim ∈ b.claims, claim.id = id ∧ claim.signed = some signed
  staleEvents : ∀ id, .stale id ∈ b.history →
    ∃ claim ∈ b.claims, claim.id = id ∧ claim.state = .failed ∧ claim.signed = none
  justified : Justified eventOk b.history

/-- What a write that signs nothing leaves as it is. -/
structure Keeps (b b' : Books) : Prop where
  history : ∀ event ∈ b.history, event ∈ b'.history
  signed : ∀ id signed, .signed id signed ∈ b'.history → .signed id signed ∈ b.history
  known : ∀ claim ∈ b.claims, ∃ claim' ∈ b'.claims, claim'.id = claim.id
  held : ∀ claim' ∈ b'.rows, claim'.state.holdsNonce = true → ∀ signed, claim'.signed = some signed →
    ∃ claim ∈ b.rows, claim.state.holdsNonce = true ∧ claim.signed = some signed
  inflight : ∀ claim' ∈ b'.rows, claim'.state.inflight = true → ∀ signed,
    claim'.signed = some signed →
      ∃ claim ∈ b.rows, claim.state.inflight = true ∧ claim.signed = some signed

theorem Keeps.refl (b : Books) : Keeps b b where
  history _ := id
  signed _ _ := id
  known claim hclaim := ⟨claim, hclaim, rfl⟩
  held claim hclaim hheld _ hsigned := ⟨claim, hclaim, hheld, hsigned⟩
  inflight claim hclaim hin _ hsigned := ⟨claim, hclaim, hin, hsigned⟩

theorem Keeps.trans {c : Books} (hab : Keeps b b') (hbc : Keeps b' c) : Keeps b c where
  history event hevent := hbc.history event (hab.history event hevent)
  signed id signed hsigned := hab.signed id signed (hbc.signed id signed hsigned)
  known claim hclaim := by
    obtain ⟨claim', hclaim', hid⟩ := hab.known claim hclaim
    obtain ⟨claim'', hclaim'', hid'⟩ := hbc.known claim' hclaim'
    exact ⟨claim'', hclaim'', hid'.trans hid⟩
  held claim'' hclaim'' hheld signed hsigned := by
    obtain ⟨claim', hclaim', hheld', hsigned'⟩ := hbc.held claim'' hclaim'' hheld signed hsigned
    exact hab.held claim' hclaim' hheld' signed hsigned'
  inflight claim'' hclaim'' hin signed hsigned := by
    obtain ⟨claim', hclaim', hin', hsigned'⟩ := hbc.inflight claim'' hclaim'' hin signed hsigned
    exact hab.inflight claim' hclaim' hin' signed hsigned'

/-! ## A claim after a write -/

/-- A claim before and after a write that signs nothing. -/
structure Aged (hashes : TransactionHashes) (chain : Chain) (row row' : FaucetClaimRow) : Prop where
  id_eq : row'.id = row.id
  signed_eq : row'.signed = row.signed
  inflight : row'.state.inflight = true → row.state.inflight = true
  held : row'.state.holdsNonce = true → row.state.holdsNonce = true
  reserved : row'.state = .reserved ∨ row'.state = .skipped →
    row.state = .reserved ∨ row.state = .skipped
  failed : row'.state = .failed → row.state = .failed ∨
    ∀ signed, row.signed = some signed → Dead hashes chain signed.txHash
  checked : row.Checked → row'.Checked

theorem Aged.refl (row : FaucetClaimRow) : Aged hashes chain row row :=
  ⟨rfl, rfl, id, id, id, Or.inl, id⟩

theorem holdsNonce_of_broadcasting {state : FaucetClaimState} (h : state.broadcasting = true) :
    state.holdsNonce = true := by
  cases state <;> first | rfl | cases h

theorem inflight_of_broadcasting {state : FaucetClaimState} (h : state.broadcasting = true) :
    state.inflight = true := by
  cases state <;> first | rfl | cases h

theorem broadcasting_of_mem {state : FaucetClaimState}
    (h : state ∈ [FaucetClaimState.signed, .sent]) : state.broadcasting = true := by
  cases state <;> first | rfl | simp at h

theorem inflight_of_mem {state : FaucetClaimState}
    (h : state ∈ [FaucetClaimState.reserved, .signed, .sent]) : state.inflight = true := by
  cases state <;> first | rfl | simp at h

/-- What has failed stays so. -/
theorem Aged.state_of_failed {row row' : FaucetClaimRow} (h : Aged hashes chain row row')
    (hfailed : row.state = .failed) : row'.state = .failed := by
  have hin := h.inflight
  have hheld := h.held
  have hreserved := h.reserved
  rw [hfailed] at hin hheld hreserved
  cases hstate : row'.state with
  | reserved => simp [hstate] at hreserved
  | signed => simp [hstate, FaucetClaimState.inflight] at hin
  | sent => simp [hstate, FaucetClaimState.inflight] at hin
  | confirmed => simp [hstate, FaucetClaimState.holdsNonce] at hheld
  | failed => rfl
  | skipped => simp [hstate] at hreserved

theorem MayMove.inflight {row : FaucetClaimRow} {target : FaucetClaimState}
    (h : MayMove hashes chain row target) : row.state.inflight = true := by
  cases h with
  | sent h => exact inflight_of_broadcasting h
  | confirmed h => exact inflight_of_broadcasting h
  | failed hin h => exact hin
  | skipped h => rw [h]; rfl

theorem MayMove.aged {row : FaucetClaimRow} {target : FaucetClaimState} {now : Int}
    {columns : SetColumns} (h : MayMove hashes chain row target) (hcolumns : columns.signed = none) :
    Aged hashes chain row (row.move target now columns) where
  id_eq := rfl
  signed_eq := by rw [FaucetClaimRow.move, hcolumns, Option.none_or]
  inflight _ := h.inflight
  held hheld := by
    cases h with
    | sent h => exact holdsNonce_of_broadcasting h
    | confirmed h => exact holdsNonce_of_broadcasting h
    | failed hin h => cases hheld
    | skipped h => cases hheld
  reserved hstate := by
    cases h with
    | sent h => exact absurd hstate (by rintro (h | h) <;> cases h)
    | confirmed h => exact absurd hstate (by rintro (h | h) <;> cases h)
    | failed hin h => exact absurd hstate (by rintro (h | h) <;> cases h)
    | skipped h => exact Or.inl h
  failed hstate := by
    cases h with
    | sent h => cases hstate
    | confirmed h => cases hstate
    | failed hin h => exact Or.inr h
    | skipped h => cases hstate
  checked hchecked hactive hne := by
    show (columns.signed.or row.signed).isSome = true
    rw [hcolumns, Option.none_or]
    have hbroadcasting : row.state.broadcasting = true := by
      cases h with
      | sent h => exact h
      | confirmed h => exact h
      | failed hin h => cases hactive
      | skipped h => cases hactive
    refine hchecked (FaucetClaimState.active_of_inflight h.inflight) fun hreserved => ?_
    rw [hreserved] at hbroadcasting
    cases hbroadcasting

section Moved

variable {row : FaucetClaimRow} {target : FaucetClaimState} {now : Int} {columns : SetColumns}
  {rows : ClaimTable}

/-- Moving one row ages its claim and leaves the others. -/
theorem aged_of_moved (hrow : row ∈ rows) (haged : Aged hashes chain row (row.move target now columns)) :
    ∀ row' ∈ moved rows row.id target now columns, ∃ before ∈ rows, Aged hashes chain before row' := by
  intro row' hrow'
  obtain ⟨before, hbefore, rfl⟩ := mem_moved.mp hrow'
  refine ⟨before, hbefore, ?_⟩
  split
  · next hid => exact Table.eq_of_key hbefore hrow hid ▸ haged
  · exact Aged.refl before

/-- Each claim is still there. -/
theorem moved_of_aged (hrow : row ∈ rows) (haged : Aged hashes chain row (row.move target now columns)) :
    ∀ before ∈ rows, ∃ row' ∈ moved rows row.id target now columns, Aged hashes chain before row' := by
  intro before hbefore
  refine ⟨_, mem_moved.mpr ⟨before, hbefore, rfl⟩, ?_⟩
  split
  · next hid => exact Table.eq_of_key hbefore hrow hid ▸ haged
  · exact Aged.refl before

end Moved

/-- The claims of the books before and after a write that signs nothing and adds no claim. -/
structure Ages (hashes : TransactionHashes) (chain : Chain) (b b' : Books) : Prop where
  rows : ∀ row' ∈ b'.rows, ∃ row ∈ b.rows, Aged hashes chain row row'
  claims : ∀ claim' ∈ b'.claims, ∃ claim ∈ b.claims, Aged hashes chain claim claim'
  onward : ∀ claim ∈ b.claims, ∃ claim' ∈ b'.claims, Aged hashes chain claim claim'
  ids : (b'.claims.map FaucetClaimRow.id).Perm (b.claims.map FaucetClaimRow.id)
  pruned : ∀ claim ∈ b'.pruned, claim.state.inflight = false
  history : b'.history = b.history

theorem Ages.keeps (h : Ages hashes chain b b') : Keeps b b' where
  history event hevent := h.history ▸ hevent
  signed id signed hsigned := h.history ▸ hsigned
  known claim hclaim := by
    obtain ⟨claim', hclaim', haged⟩ := h.onward claim hclaim
    exact ⟨claim', hclaim', haged.id_eq⟩
  held claim' hclaim' hheld signed hsigned := by
    obtain ⟨claim, hclaim, haged⟩ := h.rows claim' hclaim'
    exact ⟨claim, hclaim, haged.held hheld, haged.signed_eq ▸ hsigned⟩
  inflight claim' hclaim' hin signed hsigned := by
    obtain ⟨claim, hclaim, haged⟩ := h.rows claim' hclaim'
    exact ⟨claim, hclaim, haged.inflight hin, haged.signed_eq ▸ hsigned⟩

/-- **What ages keeps the invariant.** -/
theorem BooksInvariant.ages (hinv : BooksInvariant hashes chain b) (h : Ages hashes chain b b') :
    BooksInvariant hashes chain b' where
  ids := h.ids.nodup_iff.mpr hinv.ids
  unsigned claim' hclaim' hstate := by
    obtain ⟨claim, hclaim, haged⟩ := h.claims claim' hclaim'
    rw [haged.signed_eq]
    exact hinv.unsigned claim hclaim (haged.reserved hstate)
  checked claim' hclaim' := by
    obtain ⟨claim, hclaim, haged⟩ := h.claims claim' hclaim'
    exact haged.checked (hinv.checked claim hclaim)
  pruned := h.pruned
  failed claim' hclaim' hfailed signed hsigned := by
    obtain ⟨claim, hclaim, haged⟩ := h.claims claim' hclaim'
    rw [haged.signed_eq] at hsigned
    rcases haged.failed hfailed with hbefore | hdead
    · exact hinv.failed claim hclaim hbefore signed hsigned
    · exact hdead signed hsigned
  columns claim' hclaim' signed hsigned := by
    obtain ⟨claim, hclaim, haged⟩ := h.claims claim' hclaim'
    exact hinv.columns claim hclaim signed (haged.signed_eq ▸ hsigned)
  nonces row₁' hrow₁' row₂' hrow₂' hheld₁ hheld₂ signed₁ signed₂ hsigned₁ hsigned₂ hnonce := by
    obtain ⟨row₁, hrow₁, haged₁⟩ := h.rows row₁' hrow₁'
    obtain ⟨row₂, hrow₂, haged₂⟩ := h.rows row₂' hrow₂'
    have heq : row₁ = row₂ := hinv.nonces row₁ hrow₁ row₂ hrow₂ (haged₁.held hheld₁)
      (haged₂.held hheld₂) signed₁ signed₂ (haged₁.signed_eq ▸ hsigned₁) (haged₂.signed_eq ▸ hsigned₂)
      hnonce
    refine Table.eq_of_key hrow₁' hrow₂' ?_
    rw [haged₁.id_eq, haged₂.id_eq, heq]
  signedEvents id signed := by
    rw [h.history, hinv.signedEvents]
    constructor
    · rintro ⟨claim, hclaim, hid, hsigned⟩
      obtain ⟨claim', hclaim', haged⟩ := h.onward claim hclaim
      exact ⟨claim', hclaim', haged.id_eq.trans hid, haged.signed_eq.trans hsigned⟩
    · rintro ⟨claim', hclaim', hid, hsigned⟩
      obtain ⟨claim, hclaim, haged⟩ := h.claims claim' hclaim'
      exact ⟨claim, hclaim, haged.id_eq ▸ hid, haged.signed_eq ▸ hsigned⟩
  staleEvents id hstale := by
    rw [h.history] at hstale
    obtain ⟨claim, hclaim, hid, hfailed, hsigned⟩ := hinv.staleEvents id hstale
    obtain ⟨claim', hclaim', haged⟩ := h.onward claim hclaim
    exact ⟨claim', hclaim', haged.id_eq.trans hid, haged.state_of_failed hfailed,
      haged.signed_eq.trans hsigned⟩
  justified := by
    rw [h.history]
    exact hinv.justified

/-! ## One write -/

theorem ages_moved (hinv : BooksInvariant hashes chain b) {row : FaucetClaimRow}
    {target : FaucetClaimState} (now : Int) {columns : SetColumns} (hrow : row ∈ b.rows)
    (hmay : MayMove hashes chain row target) (hcolumns : columns.signed = none) :
    Ages hashes chain b ⟨moved b.rows row.id target now columns, b.pruned, b.history⟩ where
  rows := aged_of_moved hrow (hmay.aged hcolumns)
  claims claim' hclaim' := by
    rcases List.mem_append.mp hclaim' with hclaim' | hclaim'
    · obtain ⟨claim, hclaim, haged⟩ := aged_of_moved hrow (hmay.aged hcolumns) claim' hclaim'
      exact ⟨claim, List.mem_append_left _ hclaim, haged⟩
    · exact ⟨claim', List.mem_append_right _ hclaim', Aged.refl claim'⟩
  onward claim hclaim := by
    rcases List.mem_append.mp hclaim with hclaim | hclaim
    · obtain ⟨claim', hclaim', haged⟩ := moved_of_aged hrow (hmay.aged hcolumns) claim hclaim
      exact ⟨claim', List.mem_append_left _ hclaim', haged⟩
    · exact ⟨claim, List.mem_append_right _ hclaim, Aged.refl claim⟩
  ids := by
    simp only [Books.claims, List.map_append, map_id_moved]
    exact List.Perm.refl _
  pruned := hinv.pruned
  history := rfl

theorem ages_pruned (hinv : BooksInvariant hashes chain b) (before : Int) :
    Ages hashes chain b
      ⟨b.rows.filter fun row => !row.prunable before,
        b.rows.rows.filter (FaucetClaimRow.prunable before) ++ b.pruned, b.history⟩ := by
  have hperm : List.Perm
      (Books.claims ⟨b.rows.filter fun row => !row.prunable before,
        b.rows.rows.filter (FaucetClaimRow.prunable before) ++ b.pruned, b.history⟩) b.claims := by
    unfold Books.claims
    rw [← List.append_assoc]
    refine List.Perm.append_right _ (List.perm_append_comm.trans ?_)
    exact List.filter_append_perm (FaucetClaimRow.prunable before) b.rows.rows
  exact {
    rows := fun row hrow => ⟨row, (Table.mem_filter.mp hrow).1, Aged.refl row⟩
    claims := fun claim hclaim => ⟨claim, hperm.mem_iff.mp hclaim, Aged.refl claim⟩
    onward := fun claim hclaim => ⟨claim, hperm.mem_iff.mpr hclaim, Aged.refl claim⟩
    ids := hperm.map FaucetClaimRow.id
    pruned := by
      intro claim hclaim
      rcases List.mem_append.mp hclaim with hclaim | hclaim
      · exact (of_decide_eq_true (List.mem_filter.mp hclaim).2).2
      · exact hinv.pruned claim hclaim
    history := rfl }

/-- An event that signs nothing is noted. -/
theorem BooksInvariant.note (hinv : BooksInvariant hashes chain b) {event : Event}
    (hevent : eventOk b.history event) (hsigned : ∀ id signed, event ≠ .signed id signed)
    (hstale : ∀ id, event = .stale id →
      ∃ claim ∈ b.claims, claim.id = id ∧ claim.state = .failed ∧ claim.signed = none) :
    BooksInvariant hashes chain (b.note event) where
  ids := hinv.ids
  unsigned := hinv.unsigned
  checked := hinv.checked
  pruned := hinv.pruned
  failed := hinv.failed
  columns := hinv.columns
  nonces := hinv.nonces
  signedEvents id signed := by
    refine Iff.trans ?_ (hinv.signedEvents id signed)
    refine List.mem_cons.trans (or_iff_right fun heq => ?_)
    exact hsigned id signed heq.symm
  staleEvents id hmem := by
    rcases List.mem_cons.mp hmem with heq | hmem
    · exact hstale id heq.symm
    · exact hinv.staleEvents id hmem
  justified := ⟨hevent, hinv.justified⟩

theorem keeps_note {event : Event} (hsigned : ∀ id signed, event ≠ .signed id signed) :
    Keeps b (b.note event) where
  history _ := List.mem_cons_of_mem event
  signed id signed hmem := by
    rcases List.mem_cons.mp hmem with heq | hmem
    · exact absurd heq.symm (hsigned id signed)
    · exact hmem
  known claim hclaim := ⟨claim, hclaim, rfl⟩
  held claim hclaim hheld _ hsigned := ⟨claim, hclaim, hheld, hsigned⟩
  inflight claim hclaim hin _ hsigned := ⟨claim, hclaim, hin, hsigned⟩

/-- A claim that was never signed has no such event. -/
theorem BooksInvariant.not_signed (hinv : BooksInvariant hashes chain b) {claim : FaucetClaimRow}
    (hclaim : claim ∈ b.claims) (hsigned : claim.signed = none) (signed : SignedTransaction) :
    .signed claim.id signed ∉ b.history := by
  intro hmem
  obtain ⟨claim', hclaim', hid, hsigned'⟩ := (hinv.signedEvents _ _).mp hmem
  rw [List.inj_on_of_nodup_map hinv.ids hclaim' hclaim hid, hsigned] at hsigned'
  cases hsigned'

/-- What a claim was signed as. -/
theorem BooksInvariant.signed_eq (hinv : BooksInvariant hashes chain b) {claim : FaucetClaimRow}
    (hclaim : claim ∈ b.claims) {signed : SignedTransaction}
    (hmem : .signed claim.id signed ∈ b.history) : claim.signed = some signed := by
  obtain ⟨claim', hclaim', hid, hsigned⟩ := (hinv.signedEvents _ _).mp hmem
  rw [← List.inj_on_of_nodup_map hinv.ids hclaim' hclaim hid]
  exact hsigned

theorem BooksInvariant.reserved (hinv : BooksInvariant hashes chain b) {row : FaucetClaimRow}
    {rows' : ClaimTable} (hfresh : ∀ claim ∈ b.claims, claim.id ≠ row.id)
    (hstate : row.state = .reserved) (hsigned : row.signed = none)
    (hinsert : b.rows.insert? row = some rows') :
    BooksInvariant hashes chain ⟨rows', b.pruned, b.history⟩ ∧
      Keeps b ⟨rows', b.pruned, b.history⟩ := by
  have hrows : rows'.rows = b.rows.rows ++ [row] := (Table.insert?_eq_some.mp hinsert).2
  have hperm : List.Perm (Books.claims ⟨rows', b.pruned, b.history⟩) (row :: b.claims) := by
    unfold Books.claims
    rw [hrows, List.append_assoc]
    exact List.perm_middle
  have hmem : ∀ claim ∈ Books.claims ⟨rows', b.pruned, b.history⟩, claim = row ∨ claim ∈ b.claims :=
    fun claim hclaim => List.mem_cons.mp (hperm.mem_iff.mp hclaim)
  have hold : ∀ claim ∈ b.claims, claim ∈ Books.claims ⟨rows', b.pruned, b.history⟩ :=
    fun claim hclaim => hperm.mem_iff.mpr (List.mem_cons_of_mem row hclaim)
  have hheld : ∀ claim ∈ rows', ∀ signed, claim.signed = some signed → claim ∈ b.rows := by
    intro claim hclaim signed hclaimed
    rcases (Table.mem_insert? hinsert).mp hclaim with hclaim | rfl
    · exact hclaim
    · rw [hsigned] at hclaimed
      cases hclaimed
  constructor
  · exact {
      ids := by
        rw [(hperm.map FaucetClaimRow.id).nodup_iff, List.map_cons, List.nodup_cons]
        refine ⟨fun hid => ?_, hinv.ids⟩
        obtain ⟨claim, hclaim, hid⟩ := List.mem_map.mp hid
        exact hfresh claim hclaim hid
      unsigned := by
        intro claim hclaim hreserved
        rcases hmem claim hclaim with rfl | hclaim
        · exact hsigned
        · exact hinv.unsigned claim hclaim hreserved
      checked := by
        intro claim hclaim
        rcases hmem claim hclaim with rfl | hclaim
        · exact fun _ hne => absurd hstate hne
        · exact hinv.checked claim hclaim
      pruned := hinv.pruned
      failed := by
        intro claim hclaim hfailed
        rcases hmem claim hclaim with rfl | hclaim
        · rw [hstate] at hfailed
          cases hfailed
        · exact hinv.failed claim hclaim hfailed
      columns := by
        intro claim hclaim signed hclaimed
        rcases hmem claim hclaim with rfl | hclaim
        · rw [hsigned] at hclaimed
          cases hclaimed
        · exact hinv.columns claim hclaim signed hclaimed
      nonces := by
        intro claim hclaim claim' hclaim' hheld₁ hheld₂ signed signed' hclaimed hclaimed' hnonce
        exact hinv.nonces claim (hheld claim hclaim signed hclaimed) claim'
          (hheld claim' hclaim' signed' hclaimed') hheld₁ hheld₂ signed signed' hclaimed hclaimed' hnonce
      signedEvents := by
        intro id signed
        refine (hinv.signedEvents id signed).trans ⟨?_, ?_⟩
        · rintro ⟨claim, hclaim, h⟩
          exact ⟨claim, hold claim hclaim, h⟩
        · rintro ⟨claim, hclaim, hid, hclaimed⟩
          rcases hmem claim hclaim with rfl | hclaim
          · rw [hsigned] at hclaimed
            cases hclaimed
          · exact ⟨claim, hclaim, hid, hclaimed⟩
      staleEvents := by
        intro id hstale
        obtain ⟨claim, hclaim, h⟩ := hinv.staleEvents id hstale
        exact ⟨claim, hold claim hclaim, h⟩
      justified := hinv.justified }
  · exact {
      history := fun _ => id
      signed := fun _ _ => id
      known := fun claim hclaim => ⟨claim, hold claim hclaim, rfl⟩
      held := fun claim hclaim hheld' signed hclaimed =>
        ⟨claim, hheld claim hclaim signed hclaimed, hheld', hclaimed⟩
      inflight := fun claim hclaim hin signed hclaimed =>
        ⟨claim, hheld claim hclaim signed hclaimed, hin, hclaimed⟩ }

/-- **One write that signs nothing keeps the invariant**, and what other tasks know. -/
theorem BooksInvariant.write (hinv : BooksInvariant hashes chain b) (h : BookWrite hashes chain b b') :
    BooksInvariant hashes chain b' ∧ Keeps b b' := by
  cases h with
  | reserved hfresh hstate hsigned hinsert => exact hinv.reserved hfresh hstate hsigned hinsert
  | @moved _ _ now _ hrow hmay hcolumns =>
    have hages := ages_moved hinv now hrow hmay hcolumns
    exact ⟨hinv.ages hages, hages.keeps⟩
  | @stale id h =>
    obtain ⟨claim, hclaim, rfl, hfailed, hsigned⟩ := h
    refine ⟨hinv.note (hinv.not_signed hclaim hsigned) (fun _ _ h => by cases h) ?_,
      keeps_note fun _ _ h => by cases h⟩
    intro id heq
    cases heq
    exact ⟨claim, hclaim, rfl, hfailed, hsigned⟩
  | broadcast hsigned hraw =>
    exact ⟨hinv.note ⟨_, hsigned, hraw⟩ (fun _ _ h => by cases h) (fun _ h => by cases h),
      keeps_note fun _ _ h => by cases h⟩
  | pruned before =>
    have hages := ages_pruned hinv before
    exact ⟨hinv.ages hages, hages.keeps⟩

/-- **Writes keep the invariant.** -/
theorem BooksInvariant.writes (hinv : BooksInvariant hashes chain b) (h : BookWrites hashes chain b b') :
    BooksInvariant hashes chain b' ∧ Keeps b b' := by
  induction h with
  | refl => exact ⟨hinv, Keeps.refl b⟩
  | tail _ hstep ih =>
    obtain ⟨hinv', hkeeps⟩ := ih
    obtain ⟨hinv'', hkeeps'⟩ := hinv'.write hstep
    exact ⟨hinv'', hkeeps.trans hkeeps'⟩

/-- **The write that signs keeps the invariant**, when the nonce is above those that are held. -/
theorem BooksInvariant.signs (hinv : BooksInvariant hashes chain b) {id : String}
    {signed : SignedTransaction} (h : Signs b id signed b') (hcolumns : signed.Consistent hashes)
    (habove : ∀ row ∈ b.rows, row.state.holdsNonce = true → ∀ held, row.signed = some held →
      held.nonce < signed.nonce) : BooksInvariant hashes chain b' := by
  cases h with
  | @intro row now amount hrow hid hstate =>
  subst hid
  have hclaim : row ∈ b.claims := List.mem_append_left _ hrow
  have hnone : row.signed = none := hinv.unsigned row hclaim (Or.inl hstate)
  -- A claim is the one that is signed, or as it was.
  have hcases : ∀ claim' ∈ moved b.rows row.id .signed now ⟨some amount, some signed⟩,
      (claim'.id = row.id ∧ claim'.state = .signed ∧ claim'.signed = some signed) ∨
        (claim' ∈ b.rows ∧ claim'.id ≠ row.id) := by
    intro claim' hclaim'
    obtain ⟨before, hbefore, rfl⟩ := mem_moved.mp hclaim'
    split
    · next hid => exact Or.inl ⟨hid, rfl, rfl⟩
    · next hid => exact Or.inr ⟨hbefore, hid⟩
  have hother : ∀ claim ∈ b.claims, claim.id ≠ row.id →
      claim ∈ Books.claims ⟨moved b.rows row.id .signed now ⟨some amount, some signed⟩, b.pruned,
        .signed row.id signed :: b.history⟩ := by
    intro claim hclaim hne
    rcases List.mem_append.mp hclaim with hclaim | hclaim
    · exact List.mem_append_left _ (mem_moved.mpr ⟨claim, hclaim, (if_neg hne).symm⟩)
    · exact List.mem_append_right _ hclaim
  have hall : ∀ claim' ∈ Books.claims ⟨moved b.rows row.id .signed now ⟨some amount, some signed⟩,
      b.pruned, .signed row.id signed :: b.history⟩,
      (claim'.id = row.id ∧ claim'.state = .signed ∧ claim'.signed = some signed) ∨
        claim' ∈ b.claims := by
    intro claim' hclaim'
    rcases List.mem_append.mp hclaim' with hclaim' | hclaim'
    · rcases hcases claim' hclaim' with h | h
      · exact Or.inl h
      · exact Or.inr (List.mem_append_left _ h.1)
    · exact Or.inr (List.mem_append_right _ hclaim')
  exact {
    ids := by
      have hids := hinv.ids
      simp only [Books.claims, List.map_append, map_id_moved] at hids ⊢
      exact hids
    unsigned := by
      intro claim' hclaim' hreserved
      rcases hall claim' hclaim' with ⟨-, hsigned, -⟩ | hclaim'
      · rw [hsigned] at hreserved
        rcases hreserved with h | h <;> cases h
      · exact hinv.unsigned claim' hclaim' hreserved
    checked := by
      intro claim' hclaim'
      rcases hall claim' hclaim' with ⟨-, -, hsigned⟩ | hclaim'
      · intro _ _
        rw [hsigned]
        rfl
      · exact hinv.checked claim' hclaim'
    pruned := hinv.pruned
    failed := by
      intro claim' hclaim' hfailed
      rcases hall claim' hclaim' with ⟨-, hsigned, -⟩ | hclaim'
      · rw [hsigned] at hfailed
        cases hfailed
      · exact hinv.failed claim' hclaim' hfailed
    columns := by
      intro claim' hclaim' signed' hsigned'
      rcases hall claim' hclaim' with ⟨-, -, hsigned⟩ | hclaim'
      · rw [hsigned] at hsigned'
        cases hsigned'
        exact hcolumns
      · exact hinv.columns claim' hclaim' signed' hsigned'
    nonces := by
      intro claim hclaim claim' hclaim' hheld hheld' held held' hsigned hsigned' hnonce
      rcases hcases claim hclaim with ⟨hid, -, hnew⟩ | ⟨hrow₁, -⟩ <;>
        rcases hcases claim' hclaim' with ⟨hid', -, hnew'⟩ | ⟨hrow₂, -⟩
      · exact Table.eq_of_key hclaim hclaim' (hid.trans hid'.symm)
      · rw [hnew] at hsigned
        cases hsigned
        exact absurd hnonce.symm (Int.ne_of_lt (habove claim' hrow₂ hheld' held' hsigned'))
      · rw [hnew'] at hsigned'
        cases hsigned'
        exact absurd hnonce (Int.ne_of_lt (habove claim hrow₁ hheld held hsigned))
      · exact hinv.nonces claim hrow₁ claim' hrow₂ hheld hheld' held held' hsigned hsigned' hnonce
    signedEvents := by
      intro id' signed'
      constructor
      · intro hmem
        rcases List.mem_cons.mp hmem with heq | hmem
        · cases heq
          exact ⟨_, List.mem_append_left _ (mem_moved.mpr ⟨row, hrow, (if_pos rfl).symm⟩), rfl, rfl⟩
        · obtain ⟨claim, hclaim', hid, hsigned⟩ := (hinv.signedEvents id' signed').mp hmem
          refine ⟨claim, hother claim hclaim' fun hsame => ?_, hid, hsigned⟩
          rw [List.inj_on_of_nodup_map hinv.ids hclaim' hclaim hsame, hnone] at hsigned
          cases hsigned
      · rintro ⟨claim', hclaim', hid, hsigned⟩
        rcases hall claim' hclaim' with ⟨hsame, -, hnew⟩ | hold
        · rw [hnew] at hsigned
          cases hsigned
          exact List.mem_cons.mpr (Or.inl (by rw [← hid, hsame]))
        · exact List.mem_cons_of_mem _ ((hinv.signedEvents id' signed').mpr ⟨claim', hold, hid, hsigned⟩)
    staleEvents := by
      intro id' hstale
      rcases List.mem_cons.mp hstale with heq | hstale
      · cases heq
      · obtain ⟨claim, hclaim', hid, hfailed, hsigned⟩ := hinv.staleEvents id' hstale
        refine ⟨claim, hother claim hclaim' fun hsame => ?_, hid, hfailed, hsigned⟩
        rw [List.inj_on_of_nodup_map hinv.ids hclaim' hclaim hsame, hstate] at hfailed
        cases hfailed
    justified := ⟨hinv.not_signed hclaim hnone, hinv.justified⟩ }

/-- The invariant of an earlier chain. -/
theorem BooksInvariant.later (hinv : BooksInvariant hashes chain b)
    (h : Chain.Later hashes chain chain') : BooksInvariant hashes chain' b :=
  { hinv with
    failed := fun claim hclaim hfailed signed hsigned =>
      h.dead _ (hinv.failed claim hclaim hfailed signed hsigned) }

end Mapae.Faucet
