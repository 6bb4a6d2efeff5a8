import Mapae.Seller.Paywall

/-!
# Requests over one store

Any number of requests, to any paywalls, over one table of identifiers. Each is somewhere
between two of its awaits, and they go on in any order; the operator prunes the table, and the
process may end at any time.

* `advance` is what a request does when its await ends
* `Advanced` is all that it can do (`advance_advanced`)
* `World` is the table and the requests, with the history of what was sent to `/settle` and of
  what was answered
-/

namespace Mapae.Seller

open Mapae.Infra Mapae.Shared Mapae.Store Mapae.Delegation

variable {Wire : Type}

/-- How an await ended. -/
inductive Input where
  | kind (kind : Option FacilitatorKind)
  | answer (answer : FetchResult)
  /-- The callback is over, and the handler served. -/
  | resource (resource : Nat × Option Json)

/-- **One stretch of the paywall**, from the end of one await to the next. -/
def advance (lib : Libraries Wire) (paywall : Paywall) (request : PaywallRequest Wire)
    (moment : Moment) (rows : IdentifierTable) : Phase Wire → Input → Option (Stretch Wire)
  | .kind presented, .kind kind =>
    some (quote lib paywall request moment rows presented kind)
  | .verify attempt, .answer answer =>
    some (verified lib paywall request attempt answer, rows)
  | .settle attempt, .answer answer =>
    some (settled lib paywall request moment rows attempt answer)
  | .deliver _ receipt, .resource resource =>
    some (.answered (serve lib receipt resource), rows)
  | _, _ => none

/-- The payment a request is about, once it was priced. -/
def Phase.attempt? : Phase Wire → Option Attempt
  | .verify attempt => some attempt
  | .settle attempt => some attempt
  | .deliver attempt _ => some attempt
  | .kind _ => none
  | .answered _ => none

/-! ## What a stretch did -/

/-- The identifier of the payment, if it has that one, is on file for this payment. -/
def BoundTo (id : String) (rows : IdentifierTable) (attempt : Attempt) : Prop :=
  attempt.presented.identifier = some id →
    ∃ row, rows.get? id = some row ∧ row.pair = attempt.pair

/-- All that a stretch can do. -/
inductive Advanced (rows : IdentifierTable) : Phase Wire → Stretch Wire → Prop
  /-- The request is refused. -/
  | refused {phase : Phase Wire} {response : HttpResponse Wire}
      (hstatus : response.status ≠ 200) : Advanced rows phase (.answered response, rows)
  /-- The payment is priced, and its identifier on file for it. -/
  | bound {presented : PresentedPayment} {phase : Phase Wire} {rows' : IdentifierTable}
      {attempt : Attempt} (hwrite : IdentifierOp.Write rows rows')
      (hattempt : phase.attempt? = some attempt) (hsettle : phase ≠ .settle attempt)
      (hbound : ∀ id, BoundTo id rows' attempt) :
      Advanced rows (.kind (some presented)) (phase, rows')
  | verified {attempt : Attempt} : Advanced rows (.verify attempt) (.settle attempt, rows)
  | settled {attempt : Attempt} {receipt : SettlementReceipt} {rows' : IdentifierTable}
      (hwrite : IdentifierOp.Write rows rows') :
      Advanced rows (.settle attempt) (.deliver attempt receipt, rows')
  | served {attempt : Attempt} {receipt : SettlementReceipt} {response : HttpResponse Wire} :
      Advanced rows (.deliver attempt receipt) (.answered response, rows)

section Stretches

variable {lib : Libraries Wire} {paywall : Paywall} {request : PaywallRequest Wire}
  {moment : Moment} {rows : IdentifierTable} {attempt : Attempt}

/-- A request that has arrived waits for the facilitator's kind, or is refused. -/
theorem begin_cases (lib : Libraries Wire) (paywall : Paywall) (request : PaywallRequest Wire) :
    (∃ presented, begin lib paywall request = .kind presented) ∨
      ∃ response, begin lib paywall request = .answered response ∧ response.status ≠ 200 := by
  unfold begin
  by_cases hlast : request.lastRoute = true
  · rw [if_pos hlast]
    exact Or.inr ⟨_, rfl, fun h => nomatch h⟩
  rw [if_neg hlast]
  cases request.header with
  | none => exact Or.inl ⟨_, rfl⟩
  | some header =>
    dsimp only
    split
    · exact Or.inr ⟨_, rfl, fun h => nomatch h⟩
    cases readDelegatedPayment lib.viem lib.codec header with
    | error detail => exact Or.inr ⟨_, rfl, fun h => nomatch h⟩
    | ok payment =>
      dsimp only
      split
      · cases readPaymentIdentifier payment.document with
        | malformed => exact Or.inr ⟨_, rfl, fun h => nomatch h⟩
        | present id => exact Or.inl ⟨_, rfl⟩
        | absent => exact Or.inl ⟨_, rfl⟩
      · exact Or.inl ⟨_, rfl⟩

/-- An identifier that is on file for another payment: the request is refused. -/
theorem bindIdentifier_of_pair_ne (lib : Libraries Wire) (paywall : Paywall) (moment : Moment)
    {id : String} {row : PaymentIdentifierRow} (hget : rows.get? id = some row) (hpair : row.pair ≠ attempt.pair) :
    ∃ response : HttpResponse Wire,
      bindIdentifier lib paywall moment rows attempt id = (.answered response, rows) ∧
        ((response = serverError ∧ (moment.disk = false ∨ ∃ e, answer (PaymentIdentifiers.bind id
            attempt.fingerprint attempt.intent moment.now) rows = .error e)) ∨
          ∃ reason, response = conflictAnswer lib attempt reason (settledHalf row)) := by
  unfold bindIdentifier
  by_cases hdisk : moment.disk = true
  · rw [if_pos hdisk]
    cases hbind :
        (PaymentIdentifiers.bind id attempt.fingerprint attempt.intent moment.now).run rows with
    | error e rows' =>
      obtain rfl := PaymentIdentifiers.bind_eq_error hbind
      refine ⟨serverError, rfl, Or.inl ⟨rfl, Or.inr ⟨e, ?_⟩⟩⟩
      unfold answer
      rw [hbind]
    | ok result rows' =>
      rcases PaymentIdentifiers.bind_eq_ok hbind with ⟨-, hinsert⟩ | ⟨row', hget', rfl, rfl⟩
      · exact nomatch hget.symm.trans (Table.insert?_eq_some.mp hinsert).1
      · obtain rfl := Option.some.inj (hget.symm.trans hget')
        obtain ⟨reason, hjudge⟩ := PaymentIdentifiers.judge_of_pair_ne hpair
        rw [hjudge]
        exact ⟨_, rfl, Or.inr ⟨reason, rfl⟩⟩
  · rw [if_neg hdisk]
    exact ⟨serverError, rfl, Or.inl ⟨rfl, Or.inl (Bool.not_eq_true _ ▸ hdisk)⟩⟩

/-- An identifier that is bound is on file for the payment it was bound for. -/
theorem bindIdentifier_advanced {presented : PresentedPayment} {id : String}
    (hid : attempt.presented.identifier = some id) :
    Advanced rows (.kind (some presented)) (bindIdentifier lib paywall moment rows attempt id) := by
  have hbound : ∀ {rows' : IdentifierTable} {row : PaymentIdentifierRow},
      rows'.get? id = some row → row.pair = attempt.pair → ∀ id', BoundTo id' rows' attempt := by
    intro rows' row hget hpair id' hid'
    obtain rfl := Option.some.inj (hid.symm.trans hid')
    exact ⟨row, hget, hpair⟩
  unfold bindIdentifier
  by_cases hdisk : moment.disk = true
  · rw [if_pos hdisk]
    cases hbind :
        (PaymentIdentifiers.bind id attempt.fingerprint attempt.intent moment.now).run rows with
    | error e rows' =>
      obtain rfl := PaymentIdentifiers.bind_eq_error hbind
      exact .refused fun h => nomatch h
    | ok result rows' =>
      rcases PaymentIdentifiers.bind_eq_ok hbind with ⟨rfl, hinsert⟩ | ⟨row, hget, rfl, rfl⟩
      · have hget := (Table.get?_insert? hinsert id).trans (if_pos rfl)
        exact .bound (.bound hinsert) rfl (fun h => nomatch h) (hbound hget rfl)
      · by_cases hpair : row.pair = attempt.pair
        · rcases PaymentIdentifiers.judge_of_pair_eq hpair with ⟨-, hjudge⟩ | ⟨_, -, hjudge⟩
          · rw [hjudge]
            exact .bound .nothing rfl (fun h => nomatch h) (hbound hget hpair)
          · rw [hjudge]
            exact .bound .nothing rfl (fun h => nomatch h) (hbound hget hpair)
        · obtain ⟨reason, hjudge⟩ := PaymentIdentifiers.judge_of_pair_ne hpair
          rw [hjudge]
          exact .refused fun h => nomatch h
  · rw [if_neg hdisk]
    exact .refused fun h => nomatch h

theorem presented_of_priced {presented : PresentedPayment} {kind : FacilitatorKind}
    (h : priced lib paywall request presented kind = some attempt) :
    attempt.presented = presented := by
  obtain ⟨intent, -, h⟩ := Option.bind_eq_some_iff.mp h
  exact Option.some.inj h ▸ rfl

theorem quote_advanced (presented : Option PresentedPayment) (kind : Option FacilitatorKind) :
    Advanced rows (.kind presented) (quote lib paywall request moment rows presented kind) := by
  unfold quote
  cases kind with
  | none => exact .refused fun h => nomatch h
  | some kind =>
    cases presented with
    | none => exact .refused fun h => nomatch h
    | some presented =>
      dsimp only
      cases hpriced : priced lib paywall request presented kind with
      | none => exact .refused fun h => nomatch h
      | some attempt =>
        have hpresented := presented_of_priced hpriced
        dsimp only
        cases hid : presented.identifier with
        | none =>
          refine .bound .nothing rfl (fun h => nomatch h) fun id hsome => ?_
          rw [hpresented, hid] at hsome
          exact nomatch hsome
        | some id => exact bindIdentifier_advanced (by rw [hpresented, hid])

/-- The record of a settlement writes at most one row. -/
theorem recordSettlement_write (transaction : Option String) :
    IdentifierOp.Write rows (recordSettlement moment rows attempt transaction) := by
  unfold recordSettlement
  cases attempt.presented.identifier with
  | none => exact .nothing
  | some id =>
    by_cases hdisk : moment.disk = true
    · simp only [if_pos hdisk]
      exact IdentifierOp.exec_write rows
        (.record id attempt.presented.payer transaction moment.now)
    · simp only [if_neg hdisk]
      exact .nothing

/-- **A stretch does one of these things.** -/
theorem advance_advanced {phase : Phase Wire} {input : Input} {stretch : Stretch Wire}
    (h : advance lib paywall request moment rows phase input = some stretch) :
    Advanced rows phase stretch := by
  unfold advance at h
  split at h
  · exact Option.some.inj h ▸ quote_advanced _ _
  · next attempt answer =>
    obtain rfl := Option.some.inj h
    unfold verified
    dsimp only
    cases hanswer : verificationAnswer lib.codec (offerBody paywall request attempt.requirements)
        attempt.presented.payer (decideVerification lib.viem (FacilitatorClient.call answer)
          attempt.presented.payer) with
    | none => exact .verified
    | some response => exact .refused (verificationAnswer_status hanswer)
  · next attempt answer =>
    obtain rfl := Option.some.inj h
    unfold settled
    dsimp only
    cases hanswer : settlementRefusal lib.codec (offerBody paywall request attempt.requirements)
        attempt.presented.payer (decideSettlement lib.viem (FacilitatorClient.call answer)
          attempt.presented.payer) with
    | none => exact .settled (recordSettlement_write _)
    | some response => exact .refused (settlementRefusal_status hanswer)
  · exact Option.some.inj h ▸ .served
  · cases h

end Stretches

/-! ## The requests together -/

/-- A request, and where it is. -/
structure InFlight (Wire : Type) where
  paywall : Paywall
  request : PaywallRequest Wire
  phase : Phase Wire

/-- What happened, for the history. -/
inductive Event (Wire : Type) where
  /-- The payment was sent to `/settle`. -/
  | settle (attempt : Attempt)
  /-- A request was answered, for this payment if it got so far. -/
  | answered (attempt : Option Attempt) (response : HttpResponse Wire)

/-- The table, and the process over it. -/
structure World (Wire : Type) where
  rows : IdentifierTable
  requests : Nat → Option (InFlight Wire)
  next : Nat
  history : List (Event Wire)

/-- A process that has just started over a file. -/
def World.boot (rows : IdentifierTable) (next : Nat) (history : List (Event Wire)) :
    World Wire where
  rows := rows
  requests _ := none
  next := next
  history := history

inductive Action (Wire : Type) where
  | request (paywall : Paywall) (request : PaywallRequest Wire)
  /-- An await of a request ends. -/
  | advance (number : Nat) (input : Input) (moment : Moment)
  | prune (unsettledBefore keepUnsettled : Int)
  /-- The process ends, wherever it is, and another one starts over the file. -/
  | restart

/-- What the history notes of a request that came to a phase. -/
def Phase.noted (before : Option Attempt) : Phase Wire → List (Event Wire)
  | .settle attempt => [.settle attempt]
  | .answered response => [.answered before response]
  | .kind _ => []
  | .verify _ => []
  | .deliver _ _ => []

theorem settle_mem_noted {before : Option Attempt} {phase : Phase Wire} {attempt : Attempt}
    (h : .settle attempt ∈ phase.noted before) : phase = .settle attempt := by
  cases phase with
  | settle _ =>
    cases List.mem_singleton.mp h
    rfl
  | answered _ => exact nomatch List.mem_singleton.mp h
  | kind _ => exact nomatch h
  | verify _ => exact nomatch h
  | deliver _ _ => exact nomatch h

theorem answered_mem_noted {before attempt? : Option Attempt} {phase : Phase Wire}
    {response : HttpResponse Wire} (h : .answered attempt? response ∈ phase.noted before) :
    phase = .answered response ∧ attempt? = before := by
  cases phase with
  | answered _ =>
    cases List.mem_singleton.mp h
    exact ⟨rfl, rfl⟩
  | settle _ => exact nomatch List.mem_singleton.mp h
  | kind _ => exact nomatch h
  | verify _ => exact nomatch h
  | deliver _ _ => exact nomatch h

namespace World

/-- What an action does; `none` where it is not possible. -/
def act (lib : Libraries Wire) (w : World Wire) : Action Wire → Option (World Wire)
  | .request paywall request =>
    let phase := begin lib paywall request
    some
      { w with
        requests := Function.update w.requests w.next (some ⟨paywall, request, phase⟩)
        next := w.next + 1
        history := phase.noted none ++ w.history }
  | .advance number input moment => do
    let flight ← w.requests number
    let (phase, rows) ← advance lib flight.paywall flight.request moment w.rows flight.phase input
    some
      { w with
        rows := rows
        requests := Function.update w.requests number (some { flight with phase := phase })
        history := phase.noted flight.phase.attempt? ++ w.history }
  | .prune before keep => some { w with rows := IdentifierOp.exec w.rows (.prune before keep) }
  | .restart => some (boot w.rows w.next w.history)

end World

/-- The paywalls over a file, whatever it holds. -/
def paywallSystem (lib : Libraries Wire) : System (World Wire) :=
  .ofAct (fun w => ∃ rows, w = World.boot rows 0 []) (World.act lib)

end Mapae.Seller
