import Mapae.Seller.PaywallRun

/-!
# One identifier, one payment

For every interleaving of requests over one table of identifiers, as long as the row of an
identifier is not pruned: one pair of a request and a payment is all that goes to `/settle`, or
is answered with the resource, under that identifier, and any other pair is refused.

For every sequence of operations on the table: what is settled stays as it is.
-/

namespace Mapae.Seller

open Mapae.Infra Mapae.Shared Mapae.Store Mapae.Delegation

variable {Wire : Type} {lib : Libraries Wire} {id : String} {w w' : World Wire}

/-! ## The table -/

/-- What holds of a table, whatever is done to it later. -/
structure IdentifiersKept (rows : IdentifierTable) : Prop where
  /-- A settled row is never altered or removed. -/
  settled_forever : ∀ row ∈ rows, row.settled ≠ none →
    ∀ later, row ∈ run IdentifierOp.exec rows later
  never_new : ∀ row ∈ rows, row.settled ≠ none → ∀ later fingerprint paymentIntentId atMs,
    answer (PaymentIdentifiers.bind row.id fingerprint paymentIntentId atMs)
      (run IdentifierOp.exec rows later) ≠ .ok .new
  /-- Nothing is recorded for an identifier that is not bound, or is settled. -/
  record_throws : ∀ id, (∀ row ∈ rows, row.id = id → row.settled ≠ none) →
    ∀ payer txHash atMs, ∃ e,
      (PaymentIdentifiers.record id payer txHash atMs).run rows = .error e rows

theorem mem_run_of_settled {rows : IdentifierTable} (later : List IdentifierOp)
    {row : PaymentIdentifierRow} (hr : row ∈ rows) (hsettled : row.settled ≠ none) :
    row ∈ run IdentifierOp.exec rows later :=
  run_invariant (P := fun rows => row ∈ rows)
    (fun rows op hr => (IdentifierOp.exec_write rows op).mem_of_settled hr hsettled) later rows hr

/-- An identifier that is settled is not new to `bind`. -/
theorem bind_ne_new {rows : IdentifierTable} {row : PaymentIdentifierRow} (hr : row ∈ rows)
    (hsettled : row.settled ≠ none) (fingerprint paymentIntentId : String) (atMs : Int) :
    answer (PaymentIdentifiers.bind row.id fingerprint paymentIntentId atMs) rows ≠ .ok .new := by
  intro h
  have hget := Table.get?_of_mem hr
  rcases PaymentIdentifiers.bind_eq_ok (answer_eq_ok.mp h) with
    ⟨-, hinsert⟩ | ⟨row', hget', -, hjudge⟩
  · exact nomatch hget.symm.trans (Table.insert?_eq_some.mp hinsert).1
  · obtain rfl := Option.some.inj (hget.symm.trans hget')
    by_cases hpair : row.pair = (fingerprint, paymentIntentId)
    · rcases PaymentIdentifiers.judge_of_pair_eq hpair with ⟨hnone, -⟩ | ⟨_, -, hsome⟩
      · exact hsettled hnone
      · exact nomatch hjudge.trans hsome
    · obtain ⟨reason, hconflict⟩ := PaymentIdentifiers.judge_of_pair_ne hpair
      exact nomatch hjudge.trans hconflict

theorem record_throws {rows : IdentifierTable}
    (h : ∀ row ∈ rows, row.id = id → row.settled ≠ none) (payer : String)
    (txHash : Option String) (atMs : Int) :
    ∃ e, (PaymentIdentifiers.record id payer txHash atMs).run rows = .error e rows := by
  cases hrun : (PaymentIdentifiers.record id payer txHash atMs).run rows with
  | ok u rows' =>
    obtain ⟨row, hget, hopen, -⟩ := PaymentIdentifiers.record_eq_ok hrun
    obtain ⟨hr, hid⟩ := Table.get?_eq_some.mp hget
    exact absurd hopen (h row hr hid)
  | error e rows' =>
    obtain rfl := PaymentIdentifiers.record_eq_error hrun
    exact ⟨e, rfl⟩

theorem identifiersKept (rows : IdentifierTable) : IdentifiersKept rows where
  settled_forever _ hr hsettled later := mem_run_of_settled later hr hsettled
  never_new _ hr hsettled later fingerprint paymentIntentId atMs :=
    bind_ne_new (mem_run_of_settled later hr hsettled) hsettled fingerprint paymentIntentId atMs
  record_throws _ h payer txHash atMs := record_throws h payer txHash atMs

/-! ## The requests -/

/-- The row of the identifier is still there after the step. -/
def KeepsRow (id : String) (w w' : World Wire) : Prop :=
  ∀ row, w.rows.get? id = some row → ∃ row', w'.rows.get? id = some row'

/-- Every payment under the identifier that got past its binding is the one that is bound. -/
structure WorldBound (id : String) (w : World Wire) : Prop where
  flight : ∀ number flight attempt, w.requests number = some flight →
    flight.phase.attempt? = some attempt → BoundTo id w.rows attempt
  settle : ∀ attempt, .settle attempt ∈ w.history → BoundTo id w.rows attempt
  answered : ∀ attempt? response, .answered attempt? response ∈ w.history →
    response.status = 200 → ∃ attempt, attempt? = some attempt ∧ BoundTo id w.rows attempt

/-- A binding outlives every write that keeps the row. -/
theorem BoundTo.mono {rows rows' : IdentifierTable} {attempt : Attempt}
    (h : BoundTo id rows attempt) (hwrite : IdentifierOp.Write rows rows')
    (hkeeps : ∀ row, rows.get? id = some row → ∃ row', rows'.get? id = some row') :
    BoundTo id rows' attempt := by
  intro hid
  obtain ⟨row, hget, hpair⟩ := h hid
  obtain ⟨row', hget'⟩ := hkeeps row hget
  exact ⟨row', hget', (hwrite.pair_eq hget hget').trans hpair⟩

namespace WorldBound

theorem boot (id : String) (rows : IdentifierTable) :
    WorldBound id (World.boot rows 0 [] : World Wire) where
  flight _ _ _ h := nomatch h
  settle _ h := nomatch h
  answered _ _ h := nomatch h

/-- The history and the flights go on over a table that keeps the row. -/
theorem withRows (h : WorldBound id w) {rows : IdentifierTable}
    (hwrite : IdentifierOp.Write w.rows rows)
    (hkeeps : ∀ row, w.rows.get? id = some row → ∃ row', rows.get? id = some row') :
    WorldBound id { w with rows := rows } where
  flight number flight attempt hflight hattempt :=
    (h.flight number flight attempt hflight hattempt).mono hwrite hkeeps
  settle attempt hsent := (h.settle attempt hsent).mono hwrite hkeeps
  answered attempt? response hanswered hstatus := by
    obtain ⟨attempt, hattempt, hbound⟩ := h.answered attempt? response hanswered hstatus
    exact ⟨attempt, hattempt, hbound.mono hwrite hkeeps⟩

/-- A request comes to a phase that is bound, and what the history notes of it is bound. -/
theorem withPhase (h : WorldBound id w) {number next : Nat} {flight : InFlight Wire}
    {before : Option Attempt}
    (hattempt : ∀ attempt, flight.phase.attempt? = some attempt → BoundTo id w.rows attempt)
    (hanswered : ∀ response, flight.phase = .answered response → response.status = 200 →
      ∃ attempt, before = some attempt ∧ BoundTo id w.rows attempt) :
    WorldBound id
      { w with
        requests := Function.update w.requests number (some flight)
        next := next
        history := flight.phase.noted before ++ w.history } where
  flight number' flight' attempt hflight := by
    change Function.update w.requests number (some flight) number' = some flight' at hflight
    by_cases hnumber : number' = number
    · subst hnumber
      rw [Function.update_self] at hflight
      exact Option.some.inj hflight ▸ hattempt attempt
    · rw [Function.update_of_ne hnumber] at hflight
      exact h.flight number' flight' attempt hflight
  settle attempt hsent := by
    rcases List.mem_append.mp hsent with hnoted | hsent
    · exact hattempt attempt (by rw [settle_mem_noted hnoted]; rfl)
    · exact h.settle attempt hsent
  answered attempt? response hmem hstatus := by
    rcases List.mem_append.mp hmem with hnoted | hmem
    · obtain ⟨hphase, rfl⟩ := answered_mem_noted hnoted
      exact hanswered response hphase hstatus
    · exact h.answered attempt? response hmem hstatus

/-- **A stretch of a request keeps the identifier with the payment it is bound to.** -/
theorem advanced (h : WorldBound id w) {number : Nat} {flight : InFlight Wire}
    {stretch : Stretch Wire} (hflight : w.requests number = some flight)
    (hstretch : Advanced w.rows flight.phase stretch)
    (hkeeps : ∀ row, w.rows.get? id = some row → ∃ row', stretch.2.get? id = some row') :
    WorldBound id
      { w with
        rows := stretch.2
        requests := Function.update w.requests number (some { flight with phase := stretch.1 })
        history := stretch.1.noted flight.phase.attempt? ++ w.history } := by
  have hown := h.flight number flight
  generalize hphase : flight.phase = phase at hstretch hown
  cases hstretch with
  | refused hstatus =>
    refine (h.withRows .nothing hkeeps).withPhase (fun _ hnone => nomatch hnone) ?_
    intro response hresponse hok
    cases hresponse
    exact absurd hok hstatus
  | bound hwrite hattempt hsettle hbound =>
    refine (h.withRows hwrite hkeeps).withPhase ?_ ?_
    · intro attempt hsome
      obtain rfl := Option.some.inj (hattempt.symm.trans hsome)
      exact hbound id
    · intro response hresponse
      exact nomatch hattempt.symm.trans (congrArg Phase.attempt? hresponse)
  | verified =>
    refine (h.withRows .nothing hkeeps).withPhase ?_ (fun _ hresponse => nomatch hresponse)
    intro attempt hsome
    exact Option.some.inj hsome ▸ hown _ hflight rfl
  | settled hwrite =>
    refine (h.withRows hwrite hkeeps).withPhase ?_ (fun _ hresponse => nomatch hresponse)
    intro attempt hsome
    exact Option.some.inj hsome ▸ (hown _ hflight rfl).mono hwrite hkeeps
  | served =>
    refine (h.withRows .nothing hkeeps).withPhase (fun _ hnone => nomatch hnone) ?_
    exact fun _ _ _ => ⟨_, rfl, hown _ hflight rfl⟩

/-- **Every action that keeps the row keeps the identifier with the payment it is bound to.** -/
theorem act (h : WorldBound id w) {action : Action Wire} (hact : w.act lib action = some w')
    (hkeeps : KeepsRow id w w') : WorldBound id w' := by
  cases action with
  | request paywall request =>
    obtain rfl := Option.some.inj hact
    refine h.withPhase (fun attempt hattempt => ?_) fun response hresponse hok => ?_
    · rcases begin_cases lib paywall request with ⟨_, hphase⟩ | ⟨_, hphase, -⟩
      · exact nomatch hattempt.symm.trans (congrArg Phase.attempt? hphase)
      · exact nomatch hattempt.symm.trans (congrArg Phase.attempt? hphase)
    · rcases begin_cases lib paywall request with ⟨_, hphase⟩ | ⟨_, hphase, hstatus⟩
      · exact nomatch hresponse.symm.trans hphase
      · obtain rfl := Phase.answered.inj (hresponse.symm.trans hphase)
        exact absurd hok hstatus
  | advance number input moment =>
    obtain ⟨flight, hflight, hact⟩ := Option.bind_eq_some_iff.mp hact
    obtain ⟨stretch, hstretch, hact⟩ := Option.bind_eq_some_iff.mp hact
    obtain rfl := Option.some.inj hact
    exact h.advanced hflight (advance_advanced hstretch) hkeeps
  | prune before keep =>
    obtain rfl := Option.some.inj hact
    exact h.withRows (IdentifierOp.exec_write _ _) hkeeps
  | restart =>
    obtain rfl := Option.some.inj hact
    exact
      { flight := fun _ _ _ hnone => nomatch hnone
        settle := h.settle
        answered := h.answered }

/-- In every run whose steps keep the row, the identifier stays with its payment. -/
theorem of_reachable (h : ((paywallSystem lib).restrict (KeepsRow id)).Reachable w) :
    WorldBound id w := by
  refine h.invariant ?_ ?_
  · rintro _ ⟨rows, rfl⟩
    exact boot id rows
  · rintro w w' - hbound ⟨⟨action, hact⟩, hkeeps⟩
    exact hbound.act hact hkeeps

end WorldBound

/-! ## One payment -/

/-- The payment went to `/settle`, or was answered with the resource. -/
def Paid (w : World Wire) (attempt : Attempt) : Prop :=
  .settle attempt ∈ w.history ∨
    ∃ response, .answered (some attempt) response ∈ w.history ∧ response.status = 200

/-- What holds of the requests, as long as the row of the identifier is not pruned. -/
structure IdentifierBound (lib : Libraries Wire) (id : String) (w : World Wire) : Prop where
  /-- One request and one payment, however many times they were sent. -/
  one_pair : ∀ a b, Paid w a → Paid w b → a.presented.identifier = some id →
    b.presented.identifier = some id → a.pair = b.pair
  /-- Only a priced payment is answered with the resource. -/
  priced_of_served : ∀ attempt? response, .answered attempt? response ∈ w.history →
    response.status = 200 → attempt? ≠ none
  on_file : ∀ attempt, Paid w attempt → BoundTo id w.rows attempt
  /-- A request that is on its way to `/verify`, `/settle` or the handler is the bound one. -/
  flight_on_file : ∀ number flight attempt, w.requests number = some flight →
    flight.phase.attempt? = some attempt → BoundTo id w.rows attempt
  /-- A request that comes with another payment, or for another resource, is refused: with the
  conflict, unless its binding throws. -/
  others_refused : ∀ row, w.rows.get? id = some row →
    ∀ number flight presented kind attempt moment, w.requests number = some flight →
      flight.phase = .kind (some presented) → presented.identifier = some id →
        priced lib flight.paywall flight.request presented kind = some attempt →
          row.pair ≠ attempt.pair → ∃ response,
            advance lib flight.paywall flight.request moment w.rows flight.phase
              (.kind (some kind)) = some (.answered response, w.rows) ∧
            ((response = serverError ∧ (moment.disk = false ∨
                ∃ e, answer (PaymentIdentifiers.bind id attempt.fingerprint attempt.intent
                  moment.now) w.rows = .error e)) ∨
              ∃ reason, response.status = 409 ∧
                response = conflictAnswer lib attempt reason (settledHalf row))

/-- What was paid under the identifier is what it is bound to. -/
theorem WorldBound.of_paid (h : WorldBound id w) {attempt : Attempt} (hpaid : Paid w attempt) :
    BoundTo id w.rows attempt := by
  rcases hpaid with hsent | ⟨response, hserved, hstatus⟩
  · exact h.settle attempt hsent
  · obtain ⟨_, hattempt, hbound⟩ := h.answered _ response hserved hstatus
    exact Option.some.inj hattempt ▸ hbound

/--
**A payment identifier stands for one payment.**

For every interleaving of requests in which its row is not pruned, and for every sequence of
operations on the table.
-/
theorem payment_identifiers_kept (lib : Libraries Wire) :
    (∀ id w, ((paywallSystem lib).restrict (KeepsRow id)).Reachable w →
      IdentifierBound lib id w) ∧
    ∀ ops, IdentifiersKept (run IdentifierOp.exec Table.empty ops) := by
  refine ⟨fun id w hw => ?_, fun ops => identifiersKept _⟩
  have hbound := WorldBound.of_reachable hw
  refine
    { one_pair := ?one_pair
      priced_of_served := ?priced_of_served
      on_file := fun attempt hpaid => hbound.of_paid hpaid
      flight_on_file := hbound.flight
      others_refused := ?others_refused }
  case one_pair =>
    intro a b ha hb haid hbid
    obtain ⟨row, hget, hpair⟩ := hbound.of_paid ha haid
    obtain ⟨row', hget', hpair'⟩ := hbound.of_paid hb hbid
    rw [← hpair, ← hpair', Option.some.inj (hget.symm.trans hget')]
  case priced_of_served =>
    intro attempt? response hserved hstatus hnone
    obtain ⟨attempt, hattempt, -⟩ := hbound.answered attempt? response hserved hstatus
    exact nomatch hnone.symm.trans hattempt
  case others_refused =>
    intro row hget number flight presented kind attempt moment hflight hphase hid hpriced hother
    obtain ⟨response, hrefused, hwhy⟩ :=
      bindIdentifier_of_pair_ne lib flight.paywall moment hget hother
    refine ⟨response, ?_, ?_⟩
    · have hadvance : advance lib flight.paywall flight.request moment w.rows flight.phase
          (.kind (some kind)) =
            some (quote lib flight.paywall flight.request moment w.rows (some presented)
              (some kind)) := by
        rw [hphase]
        rfl
      rw [hadvance]
      simp only [quote, hpriced, hid, hrefused]
    · rcases hwhy with hthrew | ⟨reason, rfl⟩
      · exact Or.inl hthrew
      · exact Or.inr ⟨reason, rfl, rfl⟩

end Mapae.Seller
