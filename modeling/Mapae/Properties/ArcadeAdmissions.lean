import Mapae.Infra.Transition
import Mapae.Store.Arcade

/-!
# Arcade admissions are exclusive and one way

Over every run of `reserve`, `bindIntent`, `ready`, `fail` and `consume`:

* at most one admission is pending or unknown, and no two share an intent or a run
* a consumed or rejected admission never changes again, and a bound intent is never replaced
* an admission becomes ready only by `ready` with the intent that was bound to it
* a ticket answers the run that consumed it the same for ever, and refuses every other run

`Exclusive` is what every call preserves, `Later` what it may do to a row.
-/

namespace Mapae.Store.Arcade

open Mapae.Infra

variable {t t' : AdmissionTable} {op : ArcadeOp} {a b : Admission} {id runId : String}

/-- What holds of the table between two calls. -/
structure Exclusive (t : AdmissionTable) : Prop where
  lower : ∀ a ∈ t, toLowerCase a.id = a.id
  open_unique : ∀ a ∈ t, ∀ b ∈ t, a.status.isOpen = true → b.status.isOpen = true → a = b
  intent_unique : ∀ a ∈ t, ∀ b ∈ t, ∀ i, a.intent = some i → b.intent = some i → a = b
  run_unique : ∀ a ∈ t, ∀ b ∈ t, ∀ r, a.runId = some r → b.runId = some r → a = b
  bound : ∀ a ∈ t, a.status = .ready ∨ a.status = .consumed → a.intent.isSome
  run_iff : ∀ a ∈ t, a.runId.isSome ↔ a.status = .consumed

theorem Exclusive.empty : Exclusive Table.empty where
  lower := fun _ h => absurd h Table.not_mem_empty
  open_unique := fun _ h => absurd h Table.not_mem_empty
  intent_unique := fun _ h => absurd h Table.not_mem_empty
  run_unique := fun _ h => absurd h Table.not_mem_empty
  bound := fun _ h => absurd h Table.not_mem_empty
  run_iff := fun _ h => absurd h Table.not_mem_empty

/-! ## The rows after a write -/

/-- The rewritten table holds the rewritten row, and the others as they were. -/
theorem mem_moved {f : Admission → Admission} (hf : ∀ r, (f r).id = r.id) (ha : a ∈ t) :
    b ∈ t.update a.id f hf ↔ b = f a ∨ (b ∈ t ∧ b.id ≠ a.id) := by
  rw [Table.mem_update]
  constructor
  · rintro ⟨r, hr, rfl⟩
    by_cases hid : r.id = a.id
    · rw [if_pos hid, Table.eq_of_key hr ha hid]
      exact Or.inl rfl
    · rw [if_neg hid]
      exact Or.inr ⟨hr, hid⟩
  · rintro (rfl | ⟨hb, hid⟩)
    · exact ⟨a, ha, (if_pos rfl).symm⟩
    · exact ⟨b, hb, (if_neg hid).symm⟩

/-- A column of which no two rows share a value stays so, if the rewritten row keeps its value or
takes one that no other row has. -/
theorem unique_moved {α : Type} {g : Admission → Option α} {f : Admission → Admission}
    (hf : ∀ r, (f r).id = r.id) (ha : a ∈ t)
    (h : ∀ a ∈ t, ∀ b ∈ t, ∀ v, g a = some v → g b = some v → a = b)
    (hkeep : ∀ v, g (f a) = some v → ∀ x ∈ t, g x = some v → x.id = a.id) :
    ∀ x ∈ t.update a.id f hf, ∀ y ∈ t.update a.id f hf, ∀ v, g x = some v → g y = some v →
      x = y := by
  intro x hx y hy v hxv hyv
  rcases (mem_moved hf ha).mp hx with rfl | ⟨hx, hxid⟩
  · rcases (mem_moved hf ha).mp hy with rfl | ⟨hy, hyid⟩
    · rfl
    · exact absurd (hkeep v hxv y hy hyv) hyid
  · rcases (mem_moved hf ha).mp hy with rfl | ⟨hy, hyid⟩
    · exact absurd (hkeep v hyv x hx hxv) hxid
    · exact h x hx y hy v hxv hyv

/-! ## One call -/

/-- A move leaves at most as many admissions open as there were. -/
theorem Move.open_before (h : Move t op a b) (hb : b.status.isOpen = true) :
    a.status.isOpen = true := by
  cases h with
  | bind => exact hb
  | ready => cases hb
  | fail hopen => exact hopen
  | consume => cases hb

theorem Move.bound_after (h : Move t op a b) (hrow : a.status = .ready ∨ a.status = .consumed →
    a.intent.isSome) (hb : b.status = .ready ∨ b.status = .consumed) : b.intent.isSome := by
  cases h with
  | bind => rfl
  | ready _ hbound => exact Option.isSome_of_eq_some hbound
  | @fail _ _ status _ _ => cases status <;> simp [Admission.markFailed, FailStatus.status] at hb
  | consume hready => exact hrow (Or.inl hready)

theorem Move.run_after (h : Move t op a b) (hrow : a.runId.isSome ↔ a.status = .consumed) :
    b.runId.isSome ↔ b.status = .consumed := by
  have hnone (hopen : a.status.isOpen = true) : ¬ a.runId.isSome := by
    intro hrun
    rw [hrow.mp hrun] at hopen
    cases hopen
  cases h with
  | bind => exact hrow
  | ready hopen => simp [Admission.markReady, hnone hopen]
  | @fail _ _ status _ hopen =>
    cases status <;> simp [Admission.markFailed, FailStatus.status, hnone hopen]
  | consume => simp [Admission.consume]

/-- No other row has the intent that a move leaves. -/
theorem Move.intent_free (h : Move t op a b) (ha : a ∈ t)
    (hunique : ∀ a ∈ t, ∀ b ∈ t, ∀ i, a.intent = some i → b.intent = some i → a = b) :
    ∀ i, b.intent = some i → ∀ x ∈ t, x.intent = some i → x.id = a.id := by
  intro i hi x hx hxi
  cases h with
  | bind _ _ hfree => exact hfree x hx (hxi.trans hi.symm)
  | ready => rw [hunique x hx a ha i hxi hi]
  | fail => rw [hunique x hx a ha i hxi hi]
  | consume => rw [hunique x hx a ha i hxi hi]

theorem Move.run_free (h : Move t op a b) (ha : a ∈ t)
    (hunique : ∀ a ∈ t, ∀ b ∈ t, ∀ r, a.runId = some r → b.runId = some r → a = b) :
    ∀ r, b.runId = some r → ∀ x ∈ t, x.runId = some r → x.id = a.id := by
  intro r hr x hx hxr
  cases h with
  | bind => rw [hunique x hx a ha r hxr hr]
  | ready => rw [hunique x hx a ha r hxr hr]
  | fail => rw [hunique x hx a ha r hxr hr]
  | consume _ hfree => exact absurd (hxr.trans hr.symm) (hfree x hx)

theorem Exclusive.reserved {newId : Uuid} {requestId : String} {game : ArcadeGame} {now : Int}
    (h : Exclusive t) (hclosed : ∀ x ∈ t, x.status.isOpen = false)
    (hinsert : t.insert? (newAdmission newId requestId game now) = some t') : Exclusive t' where
  lower a ha := by
    rcases (Table.mem_insert? hinsert).mp ha with ha | rfl
    · exact h.lower a ha
    · exact newId.lower
  open_unique a ha b hb hao hbo := by
    rcases (Table.mem_insert? hinsert).mp ha with ha | rfl
    · exact absurd hao (by rw [hclosed a ha]; decide)
    · rcases (Table.mem_insert? hinsert).mp hb with hb | rfl
      · exact absurd hbo (by rw [hclosed b hb]; decide)
      · rfl
  intent_unique a ha b hb i hai hbi := by
    rcases (Table.mem_insert? hinsert).mp ha with ha | rfl
    · rcases (Table.mem_insert? hinsert).mp hb with hb | rfl
      · exact h.intent_unique a ha b hb i hai hbi
      · cases hbi
    · cases hai
  run_unique a ha b hb r har hbr := by
    rcases (Table.mem_insert? hinsert).mp ha with ha | rfl
    · rcases (Table.mem_insert? hinsert).mp hb with hb | rfl
      · exact h.run_unique a ha b hb r har hbr
      · cases hbr
    · cases har
  bound a ha hs := by
    rcases (Table.mem_insert? hinsert).mp ha with ha | rfl
    · exact h.bound a ha hs
    · simp [newAdmission] at hs
  run_iff a ha := by
    rcases (Table.mem_insert? hinsert).mp ha with ha | rfl
    · exact h.run_iff a ha
    · simp [newAdmission]

theorem Exclusive.moved {f : Admission → Admission} (hf : ∀ r, (f r).id = r.id) (h : Exclusive t)
    (ha : a ∈ t) (hmove : Move t op a (f a)) : Exclusive (t.update a.id f hf) where
  lower b hb := by
    rcases (mem_moved hf ha).mp hb with rfl | ⟨hb, -⟩
    · rw [hf]
      exact h.lower a ha
    · exact h.lower b hb
  open_unique x hx y hy hxo hyo := by
    rcases (mem_moved hf ha).mp hx with rfl | ⟨hx, hxid⟩
    · rcases (mem_moved hf ha).mp hy with rfl | ⟨hy, hyid⟩
      · rfl
      · exact absurd (congrArg Admission.id (h.open_unique y hy a ha hyo (hmove.open_before hxo)))
          hyid
    · rcases (mem_moved hf ha).mp hy with rfl | ⟨hy, -⟩
      · exact absurd (congrArg Admission.id (h.open_unique x hx a ha hxo (hmove.open_before hyo)))
          hxid
      · exact h.open_unique x hx y hy hxo hyo
  intent_unique := unique_moved hf ha h.intent_unique (hmove.intent_free ha h.intent_unique)
  run_unique := unique_moved hf ha h.run_unique (hmove.run_free ha h.run_unique)
  bound b hb := by
    rcases (mem_moved hf ha).mp hb with rfl | ⟨hb, -⟩
    · exact hmove.bound_after (h.bound a ha)
    · exact h.bound b hb
  run_iff b hb := by
    rcases (mem_moved hf ha).mp hb with rfl | ⟨hb, -⟩
    · exact hmove.run_after (h.run_iff a ha)
    · exact h.run_iff b hb

theorem Exclusive.write (h : Exclusive t) (hwrite : Write t op t') : Exclusive t' := by
  cases hwrite with
  | nothing => exact h
  | reserved hclosed hinsert => exact h.reserved hclosed hinsert
  | moved hf ha hmove => exact h.moved hf ha hmove

/-- **Every run keeps the table exclusive.** -/
theorem exclusive_run (h : Exclusive t) (ops : List ArcadeOp) : Exclusive (run exec t ops) :=
  run_invariant (P := Exclusive) (fun _ op h => h.write (exec_write h.lower op)) ops t h

/-! ## What becomes of a row -/

/-- `b` is what has become of `a`: a terminal row has not changed, and an intent is still bound. -/
structure Admission.Later (a b : Admission) : Prop where
  id_eq : b.id = a.id
  terminal : a.status.isTerminal = true → b = a
  intent : ∀ i, a.intent = some i → b.intent = some i

theorem Admission.Later.refl (a : Admission) : a.Later a := ⟨rfl, fun _ => rfl, fun _ h => h⟩

theorem Admission.Later.trans {c : Admission} (h : a.Later b) (h' : b.Later c) : a.Later c where
  id_eq := h'.id_eq.trans h.id_eq
  terminal hterminal := by
    have hb := h.terminal hterminal
    rw [h'.terminal (hb ▸ hterminal), hb]
  intent i hi := h'.intent i (h.intent i hi)

theorem Move.later (h : Move t op a b) : a.Later b := by
  cases h with
  | bind hpending hsame =>
    refine ⟨rfl, fun ht => ?_, fun i hi => ?_⟩
    · rw [hpending] at ht
      cases ht
    · rcases hsame with hnone | hsome
      · rw [hnone] at hi
        cases hi
      · exact hsome.symm.trans hi
  | ready hopen =>
    refine ⟨rfl, fun ht => ?_, fun i hi => hi⟩
    cases hs : a.status <;> simp [hs, AdmissionStatus.isOpen, AdmissionStatus.isTerminal] at hopen ht
  | fail hopen =>
    refine ⟨rfl, fun ht => ?_, fun i hi => hi⟩
    cases hs : a.status <;> simp [hs, AdmissionStatus.isOpen, AdmissionStatus.isTerminal] at hopen ht
  | consume hready =>
    refine ⟨rfl, fun ht => ?_, fun i hi => hi⟩
    rw [hready] at ht
    cases ht

/-- Every row is still there, and became what `Later` allows. -/
def RowsLater (t t' : AdmissionTable) : Prop := ∀ a ∈ t, ∃ b ∈ t', a.Later b

theorem rowsLater_write (hwrite : Write t op t') : RowsLater t t' := by
  intro a ha
  cases hwrite with
  | nothing => exact ⟨a, ha, .refl a⟩
  | reserved _ hinsert => exact ⟨a, (Table.mem_insert? hinsert).mpr (Or.inl ha), .refl a⟩
  | @moved c f hf hc hmove =>
    by_cases hid : a.id = c.id
    · rw [Table.eq_of_key ha hc hid]
      exact ⟨f c, (mem_moved hf hc).mpr (Or.inl rfl), hmove.later⟩
    · exact ⟨a, (mem_moved hf hc).mpr (Or.inr ⟨ha, hid⟩), .refl a⟩

theorem rowsLater_run (h : Exclusive t) (ops : List ArcadeOp) : RowsLater t (run exec t ops) := by
  refine run_relation (P := Exclusive) (R := RowsLater)
    (fun s op hs => hs.write (exec_write hs.lower op)) ?_ ?_
    (fun s op hs => rowsLater_write (exec_write hs.lower op)) ops t h
  · intro s a ha
    exact ⟨a, ha, .refl a⟩
  · intro s₁ s₂ s₃ h₁ h₂ a ha
    obtain ⟨b, hb, hab⟩ := h₁ a ha
    obtain ⟨c, hc, hbc⟩ := h₂ b hb
    exact ⟨c, hc, hab.trans hbc⟩

/-! ## Becoming ready -/

/-- **A row is ready because it was, or because `ready` named it with its bound intent.** -/
theorem ready_of_write (hwrite : Write t op t') (hb : b ∈ t') (hready : b.status = .ready) :
    b ∈ t ∨ ∃ a ∈ t, ∃ intent, op = .ready a.id intent ∧ a.status.isOpen = true ∧
      a.intent = some (toLowerCase intent) ∧ b = a.markReady := by
  cases hwrite with
  | nothing => exact Or.inl hb
  | reserved _ hinsert =>
    rcases (Table.mem_insert? hinsert).mp hb with hb | rfl
    · exact Or.inl hb
    · cases hready
  | @moved a f hf ha hmove =>
    rcases (mem_moved hf ha).mp hb with rfl | ⟨hb, -⟩
    · generalize f a = b at hmove hready
      cases hmove with
      | bind hpending => 
        rw [Admission.bind, hpending] at hready
        cases hready
      | ready hopen hbound => exact Or.inr ⟨a, ha, _, rfl, hopen, hbound, rfl⟩
      | @fail _ _ status _ _ => cases status <;> cases hready
      | consume => cases hready
    · exact Or.inl hb

/-! ## Consuming -/

/-- **A consumed ticket answers its run with the row as it is.** -/
theorem consume_again {c : Admission} {t₁ t₂ : AdmissionTable}
    (h : (consume id runId).run t = .ok b t₁) (hget : t₂.get? (toLowerCase id) = some c)
    (hconsumed : c.status = .consumed) (hrun : c.runId = some (toLowerCase runId)) :
    (consume id runId).run t₂ = .ok c t₂ := by
  simp only [consume, consumeTicket, run_bind_eq_ok, run_lift_eq_ok, run_get_eq_ok,
    run_transaction_eq_ok, exists_and_left, exists_eq_left, and_assoc, uuid_eq_ok,
    toLowerCase_toLowerCase] at h ⊢
  obtain ⟨hid, hrunId, hid', hrunId', -⟩ := h
  refine ⟨hid, hrunId, hid', hrunId', ?_⟩
  simp only [hget, hconsumed, run_bind_eq_ok, run_lift_eq_ok, run_pure_eq_ok, throwIf_eq_ok,
    exists_const, not_not]
  exact ⟨t₂, ⟨hrun, rfl⟩, trivial, rfl⟩

/-- What a successful `consume` leaves in the table. -/
theorem consume_leaves (h : (consume id runId).run t = .ok b t') :
    t'.get? (toLowerCase id) = some b ∧ b.status = .consumed ∧
      b.runId = some (toLowerCase runId) := by
  rcases consume_eq_ok h with ⟨rfl, hget, hconsumed, hrun⟩ | ⟨a, hget, -, -, rfl, rfl⟩
  · exact ⟨hget, hconsumed, hrun⟩
  · refine ⟨?_, rfl, rfl⟩
    rw [Table.get?_update, if_pos rfl, hget]
    rfl

/-- **A consumed ticket is consumed by that run for ever.** -/
theorem consume_for_ever (ht : Exclusive t) (h : (consume id runId).run t = .ok b t')
    (later : List ArcadeOp) :
    (consume id runId).run (run exec t' later) = .ok b (run exec t' later) ∧
      ∀ runId' c u, (consume id runId').run (run exec t' later) = .ok c u →
        toLowerCase runId' = toLowerCase runId := by
  obtain ⟨hget, hconsumed, hrun⟩ := consume_leaves h
  obtain ⟨hb, hid⟩ := Table.get?_eq_some.mp hget
  have ht' : Exclusive t' := ht.write (consume_write h)
  obtain ⟨c, hc, hlater⟩ := rowsLater_run ht' later b hb
  obtain rfl := hlater.terminal (by rw [hconsumed]; rfl)
  have hget : (run exec t' later).get? (toLowerCase id) = some c := Table.get?_eq_some.mpr ⟨hc, hid⟩
  refine ⟨consume_again h hget hconsumed hrun, fun runId' d u hd => ?_⟩
  rcases consume_eq_ok hd with ⟨-, hget', -, hrun'⟩ | ⟨a, hget', hready, -⟩
  · obtain rfl := Option.some.inj (hget.symm.trans hget')
    exact Option.some.inj (hrun'.symm.trans hrun)
  · obtain rfl := Option.some.inj (hget.symm.trans hget')
    rw [hconsumed] at hready
    cases hready

/-! ## Every run -/

/--
**Arcade admissions are exclusive and one way.**

`t` is the table after any calls, and `later` are the calls after it: rows that share an open
state, an intent or a run are one row; `consume` answers for a row of its run, which every later
`consume` of that run answers again and no other run gets; terminal rows stay as they are; only
`ready` makes a row ready, and only under the intent that the row keeps for ever.
-/
theorem arcade_admissions_held (ops later : List ArcadeOp) :
    let t := run exec .empty ops
    (∀ a ∈ t, ∀ b ∈ t, a.status.isOpen = true → b.status.isOpen = true → a = b) ∧
    (∀ a ∈ t, ∀ b ∈ t, ∀ i, a.intent = some i → b.intent = some i → a = b) ∧
    (∀ a ∈ t, ∀ b ∈ t, ∀ r, a.runId = some r → b.runId = some r → a = b) ∧
    (∀ a ∈ t, a.status = .consumed ↔ a.runId.isSome) ∧
    (∀ id runId b t', (consume id runId).run t = .ok b t' →
      (t'.get? (toLowerCase id) = some b ∧ b.status = .consumed ∧
        b.runId = some (toLowerCase runId)) ∧
      answer (consume id runId) (run exec t' later) = .ok b ∧
      ∀ runId', toLowerCase runId' ≠ toLowerCase runId →
        ∀ c, answer (consume id runId') (run exec t' later) ≠ .ok c) ∧
    (∀ a ∈ t, a.status = .consumed ∨ a.status = .rejected → a ∈ run exec t later) ∧
    (∀ op, ∀ b ∈ exec t op, b.status = .ready → b ∈ t ∨
      ∃ a ∈ t, ∃ intent, op = .ready a.id intent ∧ a.status.isOpen = true ∧
        a.intent = some (toLowerCase intent) ∧ b = a.markReady) ∧
    (∀ a ∈ t, ∀ i, a.intent = some i →
      ∃ b ∈ run exec t later, b.id = a.id ∧ b.intent = some i) := by
  intro t
  have ht : Exclusive t := exclusive_run .empty ops
  refine ⟨ht.open_unique, ht.intent_unique, ht.run_unique, fun a ha => (ht.run_iff a ha).symm,
    ?_, ?_, ?_, ?_⟩
  · intro id runId b t' h
    obtain ⟨hagain, hother⟩ := consume_for_ever ht h later
    refine ⟨consume_leaves h, ?_, fun runId' hne c hc => ?_⟩
    · simp only [answer, hagain]
    · exact hne (hother runId' c _ (answer_eq_ok.mp hc))
  · intro a ha hterminal
    obtain ⟨b, hb, hlater⟩ := rowsLater_run ht later a ha
    have hsame : b = a := hlater.terminal (by rcases hterminal with hs | hs <;> rw [hs] <;> rfl)
    exact hsame ▸ hb
  · intro op b hb hready
    exact ready_of_write (exec_write ht.lower op) hb hready
  · intro a ha i hi
    obtain ⟨b, hb, hlater⟩ := rowsLater_run ht later a ha
    exact ⟨b, hb, hlater.id_eq, hlater.intent i hi⟩

end Mapae.Store.Arcade
