import Mapae.Store.JournalRun

/-!
# Conservation of the settlement budget

After any run of the journal the figures filed for a day are the sum of what the intents of
that day weigh: the actual cost of those that have a verdict, the reservation of the others.

* no finish drives a figure below zero, so none is refused for that reason
* a claim is admitted only within both limits, so a day exceeds its limit by no more than
  what its finished intents cost beyond their reservations
* a finish charges the day of the claim, whenever it happens

`budget_conserved` is the result; the sections before it prove its parts from
`JournalInvariant`.
-/

namespace Mapae.Store

open Mapae.Infra SettlementJournal

/-- What a record weighs: its actual cost once it is terminal, and until then its reservation. -/
def SettlementRecord.charge (r : SettlementRecord) : Int :=
  if r.terminal.isSome then r.actualCost.getD 0 else r.reservedWei

/-- How much more than its reservation a terminal record cost. -/
def SettlementRecord.overrun (r : SettlementRecord) : Int :=
  if r.terminal.isSome then max 0 (r.actualCost.getD 0 - r.reservedWei) else 0

/-- The sum of `f` over the records of one day that satisfy `p`. -/
def JournalDb.sumOn (db : JournalDb) (day : String) (p : SettlementRecord → Bool)
    (f : SettlementRecord → Int) : Int :=
  db.intents.table.sum fun r =>
    if r.budgetDay = day ∧ p (db.record r) then f (db.record r) else 0

variable {db db' : JournalDb} {input : SettlementInput} {limits : SettlementLimits}
  {result : SettlementOutcomeInput} {row : IntentRow} {record : SettlementRecord} {day : String}
  {id : String}

namespace JournalInvariant

/-! ## Records and rows -/

theorem charge_record (hinv : JournalInvariant db) (hr : row ∈ db.intents.table) :
    (db.record row).charge = row.charge := by
  have hcost := (hinv.row row hr).cost_iff
  unfold SettlementRecord.charge IntentRow.charge
  rw [hinv.terminal_isSome hr]
  show (if _ then row.actualCost.getD 0 else row.reservedWei) = _
  cases h : row.actualCost with
  | none => simp [← hcost, h]
  | some cost => simp [← hcost, h]

theorem sumOn_charge (hinv : JournalInvariant db) (p : SettlementRecord → Bool) :
    db.sumOn day p SettlementRecord.charge =
      db.intents.charged day (fun r => p (db.record r)) := by
  refine Table.sum_congr fun r hr => ?_
  rw [hinv.charge_record hr]

theorem load_total (hinv : JournalInvariant db) (day : String) :
    db.load totalScope day = db.sumOn day (fun _ => true) SettlementRecord.charge := by
  rw [hinv.sumOn_charge, hinv.total]

theorem load_payer (hinv : JournalInvariant db) (payer day : String) :
    db.load (payerScope payer) day =
      db.sumOn day (fun r => r.payer = payer) SettlementRecord.charge := by
  rw [hinv.sumOn_charge, hinv.payer]
  rfl

/-! ## No figure becomes negative -/

theorem charge_nonneg (hinv : JournalInvariant db) (hr : row ∈ db.intents.table) :
    0 ≤ row.charge := by
  have hwf := hinv.row row hr
  unfold IntentRow.charge
  cases h : row.actualCost with
  | none => exact hwf.reserved_nonneg
  | some cost => exact hwf.cost_nonneg cost h

/-- An intent weighs no more than its day does. -/
theorem charge_le_charged (hinv : JournalInvariant db) (hr : row ∈ db.intents.table)
    {p : IntentRow → Bool} (hp : p row = true) :
    row.charge ≤ db.intents.charged row.budgetDay p := by
  have hle := Table.le_sum (t := db.intents.table)
    (g := fun r => if r.budgetDay = row.budgetDay ∧ p r then r.charge else 0)
    (fun r hr' => by
      split
      · exact hinv.charge_nonneg hr'
      · exact Int.le_refl 0) hr
  simpa [hp, IntentTable.charged] using hle

/-- **Releasing a reservation never goes below zero.** -/
theorem chargeable (hinv : JournalInvariant db) (hr : row ∈ db.intents.table)
    (hopen : row.terminalEventId = none) {cost : Int} (hcost : 0 ≤ cost) :
    Chargeable db row cost := by
  have hcharge := hinv.charge_of_open hr hopen
  have htotal := hinv.charge_le_charged hr (p := fun _ => true) rfl
  have hpayer := hinv.charge_le_charged hr (p := fun r => r.payer = row.payer) (by simp)
  rw [← hinv.total] at htotal
  rw [← hinv.payer] at hpayer
  unfold Chargeable
  omega

/-- **A finish of an open intent with a readable result succeeds.** -/
theorem finish_ok (hinv : JournalInvariant db) (hread : db.read id = .ok (some record))
    (hopen : record.terminal = none) (hcost : 0 ≤ result.actualCost) (hgas : 0 ≤ result.gasUsed)
    (hat : isSafeInteger result.atMs = true ∧ 0 ≤ result.atMs) :
    ∃ record' db', (finish id result).run db = .ok record' db' := by
  obtain ⟨hid, row, hget, hr, rfl⟩ := row_of_read hread
  have hrecordable : Ledger.Recordable (eventOf row result) :=
    ⟨hat, (hinv.row row hr).amountBase_nonneg, fun gas hg => Option.some.inj hg ▸ hgas⟩
  have hfinished : Finished db row result
      { intents := db.intents.setTerminal row.paymentIntentId db.events.nextId result.actualCost
        budget := Budget.book db.budget row.payer row.budgetDay
          (result.actualCost - row.reservedWei)
        events := db.events.insertNext (fun id => { eventOf row result with id := id })
          (fun _ => rfl) } :=
    ⟨hcost, hrecordable, rfl, Table.insert?_nextId _ _ (fun _ => rfl), rfl⟩
  exact ⟨_, _, finish_eq_ok.mpr ⟨hid, row, hget, Or.inr ⟨by rw [hopen]; rfl,
    hinv.chargeable hr ((hinv.terminal_eq_none hr).mp hopen) hcost, hfinished, rfl⟩⟩⟩

/-! ## The limits -/

/-- What the intents of a day cost beyond their reservations, of those that satisfy `p`. -/
def overran (t : IntentTable) (day : String) (p : IntentRow → Bool) : Int :=
  t.table.sum fun r =>
    if r.budgetDay = day ∧ p r then max 0 (r.charge - r.reservedWei) else 0

theorem sumOn_overrun (hinv : JournalInvariant db) (p : SettlementRecord → Bool) :
    db.sumOn day p SettlementRecord.overrun =
      overran db.intents day (fun r => p (db.record r)) := by
  refine Table.sum_congr fun r hr => ?_
  have hcost := (hinv.row r hr).cost_iff
  have hover : (db.record r).overrun = max 0 (r.charge - r.reservedWei) := by
    unfold SettlementRecord.overrun IntentRow.charge
    rw [hinv.terminal_isSome hr]
    show (if _ then max 0 (r.actualCost.getD 0 - r.reservedWei) else 0) = _
    cases h : r.actualCost with
    | none => simp [← hcost, h]
    | some cost => simp [← hcost, h]
  rw [hover]

/-- A series stays within `limit`, up to the overruns of the intents in it. -/
def Within (db : JournalDb) (scope day : String) (p : IntentRow → Bool) (limit : Int) : Prop :=
  db.load scope day ≤ limit + overran db.intents day p

theorem overran_admitted (h : Admitted db input limits row db') (p : IntentRow → Bool) :
    overran db'.intents day p = overran db.intents day p := by
  have hzero : row.charge - row.reservedWei = 0 := by
    rw [h.row_eq]
    exact Int.sub_self _
  unfold overran
  rw [Table.sum_insert? (IntentTable.insert_eq_ok h.inserted), hzero]
  simp

theorem overran_finished (h : Finished db row result db') (hr : row ∈ db.intents.table)
    (hcharge : row.charge = row.reservedWei) {p : IntentRow → Bool}
    (hp : p (row.withVerdict db.events.nextId result.actualCost) = p row) :
    overran db'.intents day p = overran db.intents day p +
      if row.budgetDay = day ∧ p row then max 0 (result.actualCost - row.reservedWei) else 0 := by
  have hsum := IntentTable.sum_setTerminal db.events.nextId result.actualCost hr
    (fun r => if r.budgetDay = day ∧ p r then max 0 (r.charge - r.reservedWei) else 0)
  have hnew : (row.withVerdict db.events.nextId result.actualCost).charge -
      (row.withVerdict db.events.nextId result.actualCost).reservedWei =
        result.actualCost - row.reservedWei := rfl
  have hday : (row.withVerdict db.events.nextId result.actualCost).budgetDay = row.budgetDay := rfl
  have hzero : row.charge - row.reservedWei = 0 := by omega
  rw [hnew, hday, hp, hzero] at hsum
  rw [h.intents]
  unfold overran
  by_cases hd : row.budgetDay = day ∧ p row = true
  · rw [if_pos hd, if_pos hd] at hsum
    rw [if_pos hd]
    omega
  · rw [if_neg hd, if_neg hd] at hsum
    rw [if_neg hd]
    omega

/--
One operation keeps a series within its limit.

A claim that counts towards the series is admitted within the limit `hclaim`; a finish that
counts adds its own overrun.
-/
theorem within_write {op : JournalOp} {scope : String} {p : IntentRow → Bool} {limit : Int}
    (hinv : JournalInvariant db) (hw : JournalOp.Write db op db')
    (hload : ∀ db : JournalDb, JournalInvariant db → db.load scope day = db.intents.charged day p)
    (hp : ∀ (r : IntentRow) id cost, p (r.withVerdict id cost) = p r)
    (hclaim : ∀ input limits row db', op = .claim input limits →
      Admitted db input limits row db' → row.budgetDay = day → p row = true →
        db.load scope day + row.reservedWei ≤ limit)
    (h : Within db scope day p limit) : Within db' scope day p limit := by
  have hinv' := hinv.write hw
  unfold Within at h ⊢
  rw [hload db' hinv']
  rw [hload db hinv] at h
  cases hw with
  | nothing => exact h
  | @admitted input limits row _ hadm =>
    rw [overran_admitted hadm, charged_admitted hadm]
    have hnonneg : 0 ≤ overran db.intents day p := by
      refine Table.sum_nonneg fun r _ => ?_
      split
      · exact Int.le_max_left ..
      · exact Int.le_refl 0
    split
    · next hd =>
      have := hclaim input limits row _ rfl hadm hd.1 hd.2
      rw [hload db hinv] at this
      omega
    · omega
  | @finished _ result row _ hget hterminal _ hfin =>
    have hr := (Table.get?_eq_some.mp hget).1
    rw [Option.isSome_eq_false_iff, Option.isNone_iff_eq_none] at hterminal
    have hcharge := hinv.charge_of_open hr ((hinv.terminal_eq_none hr).mp hterminal)
    rw [overran_finished hfin hr hcharge (hp ..), charged_finished hfin hr hcharge day (hp ..)]
    split
    · omega
    · omega
  | pruned _ => exact h
  | rejected _ => exact h

/-- What `within_write` says of each operation, a run adds up. -/
theorem within_run {scope : String} {p : IntentRow → Bool} {limit : Int} {ops : List JournalOp}
    (hload : ∀ db : JournalDb, JournalInvariant db → db.load scope day = db.intents.charged day p)
    (hp : ∀ (r : IntentRow) id cost, p (r.withVerdict id cost) = p r)
    (hclaim : ∀ db input limits row db', .claim input limits ∈ ops →
      Admitted db input limits row db' → row.budgetDay = day → p row = true →
        db.load scope day + row.reservedWei ≤ limit)
    (hlimit : 0 ≤ limit) :
    Within (run JournalOp.exec JournalDb.empty ops) scope day p limit := by
  have hstep : ∀ (db : JournalDb) (op : JournalOp), op ∈ ops →
      JournalInvariant db ∧ Within db scope day p limit →
        JournalInvariant (JournalOp.exec db op) ∧
          Within (JournalOp.exec db op) scope day p limit := by
    intro db op hop h
    have hw := JournalOp.exec_write db op
    refine ⟨h.1.write hw, h.1.within_write hw hload hp ?_ h.2⟩
    rintro input limits row db' rfl
    exact hclaim db input limits row db' hop
  refine (run_invariant_of_forall hstep ops _ (fun _ h => h) ⟨JournalInvariant.empty, ?_⟩).2
  unfold Within
  rw [hload _ JournalInvariant.empty]
  exact Int.le_trans hlimit (by simp [overran, JournalDb.empty, IntentTable.empty])

end JournalInvariant

/-! ## The result -/

/-- What holds of the budget in a store that the operations `ops` led to. -/
structure BudgetConserved (ops : List JournalOp) (db : JournalDb) : Prop where
  /-- The day's total is the sum over the day's intents. -/
  total : ∀ day, db.load totalScope day = db.sumOn day (fun _ => true) SettlementRecord.charge
  /-- A payer's share is the sum over that payer's intents of the day. -/
  payer : ∀ payer day, db.load (payerScope payer) day =
    db.sumOn day (fun r => r.payer = payer) SettlementRecord.charge
  /-- The total is the sum of the shares. -/
  shares : ∀ day, db.load totalScope day = Budget.shares db.budget day
  scopes : Budget.Scoped db.budget
  /-- What `finish` is about to store for an open intent is not negative. -/
  finish_nonneg : ∀ id record cost, db.read id = .ok (some record) → record.terminal = none →
    0 ≤ cost →
      0 ≤ db.load totalScope record.budgetDay - record.reservedWei + cost ∧
        0 ≤ db.load (payerScope record.payer) record.budgetDay - record.reservedWei + cost
  /-- So `finish` succeeds whenever what it is told is readable. -/
  finish_ok : ∀ id record result, db.read id = .ok (some record) → record.terminal = none →
    0 ≤ result.actualCost → 0 ≤ result.gasUsed →
    isSafeInteger result.atMs = true ∧ 0 ≤ result.atMs →
      ∃ record' db', (finish id result).run db = .ok record' db'
  /-- A finish charges the intent's own day, and no other. -/
  finish_day : ∀ id record result record' db', db.read id = .ok (some record) →
    record.terminal = none → (finish id result).run db = .ok record' db' →
      record'.budgetDay = record.budgetDay ∧
      (∀ day, db'.load totalScope day = db.load totalScope day +
        if record.budgetDay = day then result.actualCost - record.reservedWei else 0) ∧
      ∀ payer day, db'.load (payerScope payer) day = db.load (payerScope payer) day +
        if record.payer = payer ∧ record.budgetDay = day
        then result.actualCost - record.reservedWei else 0
  /-- That day is the one the claim was made on. -/
  claim_day : ∀ id record, db.read id = .ok (some record) →
    utcDay record.createdAt = .ok record.budgetDay
  /-- A claim that writes a row fits both limits, and adds its reservation to both figures. -/
  claim_within : ∀ input limits record db', db.read input.paymentIntentId = .ok none →
    (claim input limits).run db = .ok record db' →
      db.load totalScope record.budgetDay + record.reservedWei ≤ limits.total ∧
      db.load (payerScope record.payer) record.budgetDay + record.reservedWei ≤ limits.payer ∧
      db'.load totalScope record.budgetDay =
        db.load totalScope record.budgetDay + record.reservedWei ∧
      db'.load (payerScope record.payer) record.budgetDay =
        db.load (payerScope record.payer) record.budgetDay + record.reservedWei
  /-- A day's spend exceeds its limit by no more than its intents' overruns. -/
  overrun_total : ∀ day limit, 0 ≤ limit →
    (∀ input limits, .claim input limits ∈ ops → utcDay input.createdAt = .ok day →
      limits.total ≤ limit) →
    db.load totalScope day ≤ limit + db.sumOn day (fun _ => true) SettlementRecord.overrun
  /-- So does each payer's. -/
  overrun_payer : ∀ payer day limit, 0 ≤ limit →
    (∀ input limits, .claim input limits ∈ ops → utcDay input.createdAt = .ok day →
      toLowerCase input.payer = payer → limits.payer ≤ limit) →
    db.load (payerScope payer) day ≤
      limit + db.sumOn day (fun r => r.payer = payer) SettlementRecord.overrun

/-- **The budget is conserved by every run of the journal.** -/
theorem budget_conserved (ops : List JournalOp) :
    BudgetConserved ops (run JournalOp.exec JournalDb.empty ops) := by
  have hinv := run_invariant_journal ops
  refine
    { total := hinv.load_total
      payer := hinv.load_payer
      shares := hinv.shares
      scopes := hinv.scopes
      finish_nonneg := ?finish_nonneg
      finish_ok := fun _ _ _ => hinv.finish_ok
      finish_day := ?finish_day
      claim_day := ?claim_day
      claim_within := ?claim_within
      overrun_total := ?overrun_total
      overrun_payer := ?overrun_payer }
  case finish_nonneg =>
    intro id record cost hread hopen hcost
    obtain ⟨-, row, -, hr, rfl⟩ := JournalInvariant.row_of_read hread
    exact hinv.chargeable hr ((hinv.terminal_eq_none hr).mp hopen) hcost
  case finish_day =>
    intro id record result record' db' hread hopen h
    obtain ⟨-, row, hget, -, rfl⟩ := JournalInvariant.row_of_read hread
    obtain ⟨-, row', hget', h⟩ := finish_eq_ok.mp h
    obtain rfl := Option.some.inj (hget.symm.trans hget')
    rcases h with ⟨hterminal, -⟩ | ⟨-, -, hfinished, rfl⟩
    · rw [hopen] at hterminal
      cases hterminal
    · refine ⟨rfl, fun day => ?_, fun payer day => ?_⟩
      · rw [JournalDb.load, hfinished.budget, Budget.load_book_total]
        rfl
      · rw [JournalDb.load, hfinished.budget, Budget.load_book_payer]
        rfl
  case claim_day =>
    intro id record hread
    obtain ⟨-, row, -, hr, rfl⟩ := JournalInvariant.row_of_read hread
    exact (hinv.row row hr).day
  case claim_within =>
    intro input limits record db' hread h
    obtain ⟨-, hnone⟩ := read_eq_ok.mp hread
    rcases (claim_eq_ok h).2 with ⟨-, row, hget, -⟩ | ⟨row, hadm, rfl⟩
    · rw [hget] at hnone
      cases hnone
    · refine ⟨hadm.within_total, hadm.within_payer, ?_, ?_⟩
      · rw [JournalDb.load, hadm.budget]
        show Budget.load _ totalScope row.budgetDay = _
        rw [Budget.load_book_total, if_pos rfl]
        rfl
      · rw [JournalDb.load, hadm.budget]
        show Budget.load _ (payerScope row.payer) row.budgetDay = _
        rw [Budget.load_book_payer, if_pos ⟨rfl, rfl⟩]
        rfl
  case overrun_total =>
    intro day limit hlimit hle
    rw [hinv.sumOn_overrun]
    refine JournalInvariant.within_run (fun _ h => h.total day) (fun _ _ _ => rfl) ?_ hlimit
    intro db input limits row db' hop hadm hday _
    have := hle input limits hop (hday ▸ hadm.day)
    have := hadm.within_total
    rw [hday] at this
    omega
  case overrun_payer =>
    intro payer day limit hlimit hle
    rw [hinv.sumOn_overrun]
    refine JournalInvariant.within_run (p := fun r => r.payer = payer) (fun _ h => h.payer payer day)
      (fun _ _ _ => rfl) ?_ hlimit
    intro db input limits row db' hop hadm hday hpayer
    have hpayer : row.payer = payer := by simpa using hpayer
    have hlower : toLowerCase input.payer = payer := by
      rw [← hpayer, hadm.row_eq]
      rfl
    have := hle input limits hop (hday ▸ hadm.day) hlower
    have := hadm.within_payer
    rw [hday, hpayer] at this
    omega

end Mapae.Store
