import Mapae.Infra.Table
import Mapae.Infra.Transaction
import Mapae.Store.Values

/-!
# The arcade's admissions

`arcade_admissions`: one row for each ticket of the arcade. An admission starts `pending`, gets
the intent of its payment, and becomes `ready` once that payment settled; a run then consumes it.
A payment whose outcome is not known makes it `unknown`, and one that was refused `rejected`.

* `reserve` and `consume` are transactions, the others write in one statement
* `Write` is everything that one operation can do to the table (`exec_write`)

The table of the model calls is left out: no admission is decided by it.
-/

namespace Mapae.Store.Arcade

open Mapae.Infra

inductive ArcadeGame where
  | stamp
  | race
  | shop
  deriving DecidableEq

/-- The game of a text that `["stamp", "race", "shop"]` includes. -/
def ArcadeGame.parse : String → Option ArcadeGame
  | "stamp" => some .stamp
  | "race" => some .race
  | "shop" => some .shop
  | _ => none

inductive AdmissionStatus where
  | pending
  | unknown
  | rejected
  | ready
  | consumed
  deriving DecidableEq

namespace AdmissionStatus

/-- `status IN ('pending','unknown')`. -/
def isOpen : AdmissionStatus → Bool
  | pending | unknown => true
  | rejected | ready | consumed => false

/-- The states that an admission never leaves. -/
def isTerminal : AdmissionStatus → Bool
  | consumed | rejected => true
  | pending | unknown | ready => false

end AdmissionStatus

structure Admission where
  id : String
  requestId : String
  game : ArcadeGame
  status : AdmissionStatus
  intent : Option String
  runId : Option String
  error : Option String
  createdAt : Int

inductive ArcadeError where
  /-- `AdmissionError`. -/
  | admission (code : String)
  /-- SQLite refused a row: the constraint that fired. -/
  | constraint (name : String)

abbrev AdmissionTable := Table Admission.id

abbrev Statement := EStateM ArcadeError AdmissionTable

/-! ## Ids and intents -/

/-- `x` stands for a hexadecimal digit and `y` for the variant of the UUID. -/
def uuidPattern : List Char := "xxxxxxxx-xxxx-4xxx-yxxx-xxxxxxxxxxxx".toList

def matchesPattern : List Char → List Char → Bool
  | [], [] => true
  | p :: pattern, c :: text =>
    (if p = 'x' then isHexDigit c else if p = 'y' then "89ab".toList.contains c.toLower else p == c) &&
      matchesPattern pattern text
  | _, _ => false

/-- `/^[0-9a-f]{8}-[0-9a-f]{4}-4[0-9a-f]{3}-[89ab][0-9a-f]{3}-[0-9a-f]{12}$/i`. -/
def isUuid (value : String) : Bool := matchesPattern uuidPattern value.toList

def uuid (value : String) : Except ArcadeError String :=
  if isUuid value then .ok (toLowerCase value) else .error (.admission "invalid_id")

/-- `/^0x[0-9a-f]{64}$/i`. -/
def isIntent (value : String) : Bool :=
  match value.toList with
  | '0' :: x :: digits => x.toLower == 'x' && digits.length == 64 && digits.all isHexDigit
  | _ => false

def hash (value : String) : Except ArcadeError String :=
  if isIntent value then .ok (toLowerCase value) else .error (.admission "invalid_intent")

/-- What `crypto.randomUUID()` answers: a UUID in lower case. -/
structure Uuid where
  text : String
  isUuid : Arcade.isUuid text = true
  lower : toLowerCase text = text

/-! ## The operations -/

/-- `SET intent = ?`. -/
def Admission.bind (intent : String) (a : Admission) : Admission := { a with intent := some intent }

/-- `SET status = 'ready', error = NULL`. -/
def Admission.markReady (a : Admission) : Admission := { a with status := .ready, error := none }

/-- The outcomes that `fail` records. -/
inductive FailStatus where
  | unknown
  | rejected

def FailStatus.status : FailStatus → AdmissionStatus
  | .unknown => .unknown
  | .rejected => .rejected

/-- `SET status = ?, error = ?`. -/
def Admission.markFailed (status : FailStatus) (code : String) (a : Admission) : Admission :=
  { a with status := status.status, error := some code }

/-- `SET status = 'consumed', runId = ?`. -/
def Admission.consume (runId : String) (a : Admission) : Admission :=
  { a with status := .consumed, runId := some runId }

theorem Admission.bind_id (intent : String) (a : Admission) : (a.bind intent).id = a.id := rfl

theorem Admission.markReady_id (a : Admission) : a.markReady.id = a.id := rfl

theorem Admission.markFailed_id (status : FailStatus) (code : String) (a : Admission) :
    (a.markFailed status code).id = a.id := rfl

theorem Admission.consume_id (runId : String) (a : Admission) : (a.consume runId).id = a.id := rfl

def newAdmission (id : Uuid) (requestId : String) (game : ArcadeGame) (now : Int) : Admission :=
  { id := id.text, requestId := requestId, game := game, status := .pending
    intent := none, runId := none, error := none, createdAt := now }

/-- `INSERT INTO arcade_admissions`. -/
def insertAdmission (a : Admission) : Statement Unit := do
  let rows ← get
  throwIf (rows.free Admission.requestId a.requestId = false)
    (ArcadeError.constraint "arcade_admissions.requestId")
  match rows.insert? a with
  | none => throw (.constraint "arcade_admissions.id")
  | some inserted => set inserted

/-- The transaction of `reserve`: the admission, and whether it is new. -/
def reserveRequest (id : Uuid) (requestId game : String) (now : Int) :
    Statement (Admission × Bool) := do
  let _ ← uuid requestId
  match ArcadeGame.parse game with
  | none => throw (.admission "invalid_game")
  | some game =>
    let rows ← get
    match rows.rows.find? fun a => a.requestId = requestId with
    | some existing =>
      throwIf (existing.game ≠ game) (ArcadeError.admission "request_conflict")
      pure (existing, false)
    | none =>
      throwIf (rows.rows.any (fun a => a.status.isOpen) = true)
        (ArcadeError.admission "unresolved_payment")
      insertAdmission (newAdmission id requestId game now)
      pure (newAdmission id requestId game now, true)

/-- `reserve`: `id` is the random UUID of a new row. -/
def reserve (id : Uuid) (requestId game : String) (now : Int) : Statement (Admission × Bool) := do
  let requestId ← uuid requestId
  transaction (reserveRequest id requestId game now)

def bindIntent (id intent : String) : Statement Unit := do
  let intent ← hash intent
  let id ← uuid id
  let rows ← get
  match (rows.get? id).filter fun a =>
      a.status = .pending ∧ (a.intent = none ∨ a.intent = some intent) with
  | none => throw (.admission "intent_conflict")
  | some _ =>
    throwIf (rows.rows.any (fun a => a.id ≠ id ∧ a.intent = some intent) = true)
      (ArcadeError.constraint "arcade_admissions.intent")
    set (rows.update id (Admission.bind intent) (Admission.bind_id intent))

/-- `ready`. The row is read under the id in lower case, and written under the id as it is. -/
def ready (id intent : String) : Statement (Option Admission) := do
  let lower ← uuid id
  let rows ← get
  match rows.get? lower with
  | none => throw (.admission "intent_conflict")
  | some ticket =>
    let intent ← hash intent
    throwIf (ticket.intent ≠ some intent) (ArcadeError.admission "intent_conflict")
    match ticket.status with
    | .ready | .consumed => pure (some ticket)
    | .rejected => throw (.admission "ticket_not_ready")
    | .pending | .unknown =>
      set (rows.update id Admission.markReady Admission.markReady_id)
      pure ((rows.update id Admission.markReady Admission.markReady_id).get? id)

/-- `/^[A-Z_]{1,64}$/`. -/
def isErrorCode (code : String) : Bool :=
  1 ≤ code.toList.length && code.toList.length ≤ 64 &&
    code.toList.all fun c => c.isUpper || c == '_'

def fail (id : String) (status : FailStatus) (code : String) : Statement Unit := do
  throwIf (isErrorCode code = false) (ArcadeError.admission "invalid_error_code")
  let id ← uuid id
  let rows ← get
  match (rows.get? id).filter fun a => a.status.isOpen = true with
  | none => pure ⟨⟩
  | some _ => set (rows.update id (Admission.markFailed status code) (Admission.markFailed_id status code))

/-- The transaction of `consume`. -/
def consumeTicket (id runId : String) : Statement Admission := do
  let rows ← get
  let lower ← uuid id
  let _ ← uuid runId
  match rows.get? lower with
  | none => throw (.admission "ticket_not_found")
  | some ticket =>
    match ticket.status with
    | .consumed =>
      throwIf (ticket.runId ≠ some runId) (ArcadeError.admission "ticket_already_consumed")
      pure ticket
    | .ready =>
      throwIf (rows.rows.any (fun a => a.runId = some runId) = true)
        (ArcadeError.admission "run_conflict")
      set (rows.update id (Admission.consume runId) (Admission.consume_id runId))
      pure (ticket.consume runId)
    | .pending | .unknown | .rejected => throw (.admission "ticket_not_ready")

def consume (id runId : String) : Statement Admission := do
  let id ← uuid id
  let runId ← uuid runId
  transaction (consumeTicket id runId)

/-! ## Runs -/

/-- A call of the store. -/
inductive ArcadeOp where
  | reserve (newId : Uuid) (requestId game : String) (now : Int)
  | bindIntent (id intent : String)
  | ready (id intent : String)
  | fail (id : String) (status : FailStatus) (code : String)
  | consume (id runId : String)

/-- The table that a call leaves behind. -/
def exec (t : AdmissionTable) : ArcadeOp → AdmissionTable
  | .reserve newId requestId game now => after (reserve newId requestId game now) t
  | .bindIntent id intent => after (bindIntent id intent) t
  | .ready id intent => after (ready id intent) t
  | .fail id status code => after (fail id status code) t
  | .consume id runId => after (consume id runId) t

/-- What a call may make of the row `a` of `t`. -/
inductive Move (t : AdmissionTable) : ArcadeOp → Admission → Admission → Prop
  | bind {a : Admission} {id text intent : String} (hpending : a.status = .pending)
      (hsame : a.intent = none ∨ a.intent = some intent)
      (hfree : ∀ x ∈ t, x.intent = some intent → x.id = a.id) :
      Move t (.bindIntent id text) a (a.bind intent)
  | ready {a : Admission} {intent : String} (hopen : a.status.isOpen = true)
      (hbound : a.intent = some (toLowerCase intent)) : Move t (.ready a.id intent) a a.markReady
  | fail {a : Admission} {id : String} {status : FailStatus} {code : String}
      (hopen : a.status.isOpen = true) :
      Move t (.fail id status code) a (a.markFailed status code)
  | consume {a : Admission} {id runId : String} (hready : a.status = .ready)
      (hfree : ∀ x ∈ t, x.runId ≠ some (toLowerCase runId)) :
      Move t (.consume id runId) a (a.consume (toLowerCase runId))

/-- What a call may do to the table. -/
inductive Write (t : AdmissionTable) (op : ArcadeOp) : AdmissionTable → Prop
  | nothing : Write t op t
  | reserved {id : Uuid} {requestId : String} {game : ArcadeGame} {now : Int} {t' : AdmissionTable}
      (hclosed : ∀ x ∈ t, x.status.isOpen = false)
      (hinsert : t.insert? (newAdmission id requestId game now) = some t') : Write t op t'
  | moved {a : Admission} {f : Admission → Admission} (hf : ∀ r, (f r).id = r.id) (ha : a ∈ t)
      (hmove : Move t op a (f a)) : Write t op (t.update a.id f hf)

/-! ### What each operation did -/

section Spec

variable {t t' : AdmissionTable} {op : ArcadeOp} {a : Admission} {id intent runId : String}

theorem uuid_eq_ok {value v : String} :
    uuid value = .ok v ↔ isUuid value = true ∧ v = toLowerCase value := by
  unfold uuid
  split
  · next h => simp [h, eq_comm]
  · next h => simp [h]

theorem hash_eq_ok {value v : String} :
    hash value = .ok v ↔ isIntent value = true ∧ v = toLowerCase value := by
  unfold hash
  split
  · next h => simp [h, eq_comm]
  · next h => simp [h]

/-- A row is inserted only when its request and its id are free. -/
theorem insertAdmission_eq_ok {b : Unit} (h : (insertAdmission a).run t = .ok b t') :
    t.insert? a = some t' := by
  simp only [insertAdmission, run_bind_eq_ok, run_lift_eq_ok, run_get_eq_ok, exists_and_left,
    exists_eq_left, and_assoc] at h
  obtain ⟨-, -, h⟩ := h
  cases hinsert : t.insert? a with
  | none => simp only [hinsert, run_throw_ne_ok] at h
  | some inserted =>
    rw [hinsert] at h
    rw [run_set_eq_ok.mp h]

theorem reserve_write {newId : Uuid} {requestId game : String} {now : Int} {b : Admission × Bool}
    (h : (reserve newId requestId game now).run t = .ok b t') :
    Write t (.reserve newId requestId game now) t' := by
  simp only [reserve, reserveRequest, run_bind_eq_ok, run_lift_eq_ok, run_transaction_eq_ok,
    exists_and_left, exists_eq_left, and_assoc] at h
  obtain ⟨lower, -, _, -, h⟩ := h
  cases hgame : ArcadeGame.parse game with
  | none =>
    rw [hgame] at h
    exact absurd h run_throw_ne_ok
  | some game =>
    simp only [hgame, run_bind_eq_ok, run_get_eq_ok, and_assoc] at h
    cases hfind : t.rows.find? (fun a => a.requestId = lower) with
    | some existing =>
      simp only [hfind, run_bind_eq_ok, run_lift_eq_ok, run_pure_eq_ok, throwIf_eq_ok,
        exists_and_left, exists_eq_left, and_assoc] at h
      obtain ⟨-, -, -, rfl⟩ := h
      exact .nothing
    | none =>
      simp only [hfind, run_bind_eq_ok, run_lift_eq_ok, run_pure_eq_ok, throwIf_eq_ok,
        exists_and_left, exists_eq_left, and_assoc] at h
      obtain ⟨hclosed, _, _, inserted, hinsert, -, rfl⟩ := h
      refine .reserved (fun x hx => ?_) (insertAdmission_eq_ok hinsert)
      cases hx' : x.status.isOpen with
      | false => rfl
      | true => exact absurd (List.any_eq_true.mpr ⟨x, hx, hx'⟩) hclosed

/-- A statement `UPDATE ... WHERE id = ?` writes the row that was read under that id. -/
theorem moved_of_get? {f : Admission → Admission} (hf : ∀ r, (f r).id = r.id)
    (hget : t.get? id = some a) (hmove : Move t op a (f a)) : Write t op (t.update id f hf) := by
  obtain ⟨ha, rfl⟩ := Table.get?_eq_some.mp hget
  exact .moved hf ha hmove

theorem bindIntent_write {b : Unit} (h : (bindIntent id intent).run t = .ok b t') :
    Write t (.bindIntent id intent) t' := by
  simp only [bindIntent, run_bind_eq_ok, run_lift_eq_ok, run_get_eq_ok, exists_and_left,
    exists_eq_left, and_assoc] at h
  obtain ⟨bound, -, lower, -, h⟩ := h
  cases hget : (t.get? lower).filter fun a =>
      a.status = .pending ∧ (a.intent = none ∨ a.intent = some bound) with
  | none =>
    rw [hget] at h
    exact absurd h run_throw_ne_ok
  | some a =>
    simp only [hget, run_bind_eq_ok, run_lift_eq_ok, run_set_eq_ok, throwIf_eq_ok,
      exists_and_left, exists_eq_left, and_assoc] at h
    obtain ⟨hfree, -, rfl⟩ := h
    obtain ⟨hget, hbound⟩ := Option.filter_eq_some_iff.mp hget
    obtain ⟨hpending, hsame⟩ := of_decide_eq_true hbound
    refine moved_of_get? _ hget (.bind hpending hsame fun x hx hintent => ?_)
    rw [Table.key_of_get? hget]
    by_contra hne
    exact hfree (List.any_eq_true.mpr ⟨x, hx, decide_eq_true ⟨hne, hintent⟩⟩)

/-- Ids are stored in lower case, so an id that names a row at all names it in lower case. -/
theorem get?_of_lower {ticket : Admission} (hlower : ∀ x ∈ t, toLowerCase x.id = x.id)
    (hget : t.get? (toLowerCase id) = some ticket) : t.get? id = none ∨ t.get? id = some ticket := by
  cases hraw : t.get? id with
  | none => exact Or.inl rfl
  | some a =>
    obtain ⟨ha, rfl⟩ := Table.get?_eq_some.mp hraw
    rw [hlower a ha, hraw] at hget
    exact Or.inr hget

/-- **`ready` needs the intent that was bound.** It writes nothing where the id is not in lower
case: no row has such an id. -/
theorem ready_eq_ok {b : Option Admission} (hlower : ∀ x ∈ t, toLowerCase x.id = x.id)
    (h : (ready id intent).run t = .ok b t') :
    t' = t ∨ ∃ a, t.get? id = some a ∧ a.status.isOpen = true ∧
      a.intent = some (toLowerCase intent) ∧ t' = t.update id Admission.markReady Admission.markReady_id := by
  simp only [ready, run_bind_eq_ok, run_lift_eq_ok, run_get_eq_ok, exists_and_left,
    exists_eq_left, and_assoc, uuid_eq_ok] at h
  obtain ⟨-, h⟩ := h
  cases hget : t.get? (toLowerCase id) with
  | none =>
    rw [hget] at h
    exact absurd h run_throw_ne_ok
  | some ticket =>
    simp only [hget, run_bind_eq_ok, run_lift_eq_ok, throwIf_eq_ok, hash_eq_ok, exists_and_left,
      exists_eq_left, and_assoc, not_not] at h
    obtain ⟨-, hintent, -, h⟩ := h
    by_cases hopen : ticket.status.isOpen = true
    · have hwrite : t' = t.update id Admission.markReady Admission.markReady_id := by
        split at h
        · next hs => simp [hs, AdmissionStatus.isOpen] at hopen
        · next hs => simp [hs, AdmissionStatus.isOpen] at hopen
        · next hs => simp [hs, AdmissionStatus.isOpen] at hopen
        all_goals
          simp only [run_bind_eq_ok, run_set_eq_ok, run_pure_eq_ok, exists_const,
            exists_eq_left] at h
          exact h.2
      rcases get?_of_lower hlower hget with hraw | hraw
      · exact Or.inl (hwrite.trans (Table.update_of_get?_eq_none _ hraw))
      · exact Or.inr ⟨ticket, hraw, hopen, hintent, hwrite⟩
    · split at h
      · exact Or.inl (run_pure_eq_ok.mp h).2
      · exact Or.inl (run_pure_eq_ok.mp h).2
      · exact absurd h run_throw_ne_ok
      · next hs => simp [hs, AdmissionStatus.isOpen] at hopen
      · next hs => simp [hs, AdmissionStatus.isOpen] at hopen

theorem ready_write {b : Option Admission} (hlower : ∀ x ∈ t, toLowerCase x.id = x.id)
    (h : (ready id intent).run t = .ok b t') : Write t (.ready id intent) t' := by
  rcases ready_eq_ok hlower h with rfl | ⟨a, hget, hopen, hintent, rfl⟩
  · exact .nothing
  · obtain ⟨ha, rfl⟩ := Table.get?_eq_some.mp hget
    exact .moved _ ha (.ready hopen hintent)

theorem fail_write {status : FailStatus} {code : String} {b : Unit}
    (h : (fail id status code).run t = .ok b t') : Write t (.fail id status code) t' := by
  simp only [fail, run_bind_eq_ok, run_lift_eq_ok, run_get_eq_ok, exists_and_left,
    exists_eq_left, and_assoc] at h
  obtain ⟨-, -, lower, -, h⟩ := h
  cases hget : (t.get? lower).filter fun a => a.status.isOpen = true with
  | none =>
    rw [hget] at h
    rw [(run_pure_eq_ok.mp h).2]
    exact .nothing
  | some a =>
    rw [hget] at h
    rw [run_set_eq_ok.mp h]
    obtain ⟨hget, hopen⟩ := Option.filter_eq_some_iff.mp hget
    exact moved_of_get? _ hget (.fail (of_decide_eq_true hopen))

/-- **`consume` answers with a ticket that its run consumed**, now or before. -/
theorem consume_eq_ok {b : Admission} (h : (consume id runId).run t = .ok b t') :
    (t' = t ∧ t.get? (toLowerCase id) = some b ∧ b.status = .consumed ∧
        b.runId = some (toLowerCase runId)) ∨
      ∃ a, t.get? (toLowerCase id) = some a ∧ a.status = .ready ∧
        (∀ x ∈ t, x.runId ≠ some (toLowerCase runId)) ∧ b = a.consume (toLowerCase runId) ∧
        t' = t.update (toLowerCase id) (Admission.consume (toLowerCase runId))
          (Admission.consume_id _) := by
  simp only [consume, consumeTicket, run_bind_eq_ok, run_lift_eq_ok, run_get_eq_ok,
    run_transaction_eq_ok, exists_and_left, exists_eq_left, and_assoc, uuid_eq_ok,
    toLowerCase_toLowerCase] at h
  obtain ⟨-, -, -, -, h⟩ := h
  cases hget : t.get? (toLowerCase id) with
  | none =>
    rw [hget] at h
    exact absurd h run_throw_ne_ok
  | some ticket =>
    rw [hget] at h
    simp only at h
    split at h
    · next hconsumed =>
      simp only [run_bind_eq_ok, run_lift_eq_ok, run_pure_eq_ok, throwIf_eq_ok, exists_const,
        exists_and_left, exists_eq_left, and_assoc, not_not] at h
      obtain ⟨hrun, rfl, rfl⟩ := h
      exact Or.inl ⟨rfl, rfl, hconsumed, hrun⟩
    · next hready =>
      simp only [run_bind_eq_ok, run_lift_eq_ok, run_pure_eq_ok, run_set_eq_ok, throwIf_eq_ok,
        exists_const, exists_and_left, exists_eq_left, and_assoc] at h
      obtain ⟨hfree, rfl, rfl⟩ := h
      refine Or.inr ⟨ticket, rfl, hready, fun x hx hrun => ?_, rfl, rfl⟩
      exact hfree (List.any_eq_true.mpr ⟨x, hx, decide_eq_true hrun⟩)
    all_goals exact absurd h run_throw_ne_ok

theorem consume_write {b : Admission} (h : (consume id runId).run t = .ok b t') :
    Write t (.consume id runId) t' := by
  rcases consume_eq_ok h with ⟨rfl, -⟩ | ⟨a, hget, hready, hfree, -, rfl⟩
  · exact .nothing
  · exact moved_of_get? _ hget (.consume hready hfree)

/-! ### A call that throws writes nothing -/

theorem reserve_checksFirst (newId : Uuid) (requestId game : String) (now : Int) :
    ChecksFirst (reserve newId requestId game now) :=
  (readsOnly_lift _).bind fun _ => checksFirst_transaction _

theorem bindIntent_checksFirst (id intent : String) : ChecksFirst (bindIntent id intent) := by
  refine (readsOnly_lift _).bind fun _ => (readsOnly_lift _).bind fun _ =>
    readsOnly_get.bind fun _ => ?_
  split
  · exact checksFirst_throw _
  · exact (readsOnly_lift _).bind fun _ => checksFirst_set _

theorem ready_checksFirst (id intent : String) : ChecksFirst (ready id intent) := by
  refine (readsOnly_lift _).bind fun _ => readsOnly_get.bind fun rows => ?_
  split
  · exact checksFirst_throw _
  · refine (readsOnly_lift _).bind fun _ => (readsOnly_lift _).bind fun _ => ?_
    have hwrite (t : AdmissionTable) (b : Option Admission) :
        ChecksFirst (do set t; pure b : Statement (Option Admission)) := by
      intro s e s' h
      rcases run_bind_eq_error.mp h with h | ⟨_, _, -, h⟩
      · exact absurd h run_set_ne_error
      · exact absurd h run_pure_ne_error
    split
    · exact checksFirst_pure _
    · exact checksFirst_pure _
    · exact checksFirst_throw _
    · exact hwrite _ _
    · exact hwrite _ _

theorem fail_checksFirst (id : String) (status : FailStatus) (code : String) :
    ChecksFirst (fail id status code) := by
  refine (readsOnly_lift _).bind fun _ => (readsOnly_lift _).bind fun _ =>
    readsOnly_get.bind fun _ => ?_
  split
  · exact checksFirst_pure _
  · exact checksFirst_set _

theorem consume_checksFirst (id runId : String) : ChecksFirst (consume id runId) :=
  (readsOnly_lift _).bind fun _ => (readsOnly_lift _).bind fun _ => checksFirst_transaction _

end Spec

/-- **Whatever a call answers, it does to the table what `Write` says.** -/
theorem exec_write {t : AdmissionTable} (hlower : ∀ x ∈ t, toLowerCase x.id = x.id)
    (op : ArcadeOp) : Write t op (exec t op) := by
  have of_after {α : Type} {x : Statement α} (hx : ChecksFirst x)
      (hok : ∀ a t', x.run t = .ok a t' → Write t op t') : Write t op (after x t) := by
    rcases after_eq_or (hx t) with h | ⟨a, h⟩
    · rw [h]
      exact .nothing
    · exact hok a _ h
  cases op with
  | reserve newId requestId game now =>
    exact of_after (reserve_checksFirst _ _ _ _) fun _ _ h => reserve_write h
  | bindIntent id intent => exact of_after (bindIntent_checksFirst _ _) fun _ _ h => bindIntent_write h
  | ready id intent => exact of_after (ready_checksFirst _ _) fun _ _ h => ready_write hlower h
  | fail id status code => exact of_after (fail_checksFirst _ _ _) fun _ _ h => fail_write h
  | consume id runId => exact of_after (consume_checksFirst _ _) fun _ _ h => consume_write h

end Mapae.Store.Arcade
