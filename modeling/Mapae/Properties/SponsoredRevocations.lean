import Mapae.Delegation.BudgetRoom
import Mapae.Delegation.SponsoredStretch
import Mapae.Properties.RelayerPrices

/-!
# What a sponsor spends on revocations

The sponsored submitter works on many requests at once, answers of the chain come in any order, and it may be
restarted over its store. Whatever the chain answers:

* no two requests of one sender are past the gate at once, and each makes one deposit at most
* a deposit comes after the checks, each in its turn, and is what the EntryPoint is short of
* the deposits of a day stay within its budget, if a send that threw deposited nothing
* a request that is refused has spent nothing, and success is what the receipt of its own transaction says

`sponsored_revocations_held` is the result.
-/

namespace Mapae.Delegation

open Mapae.Infra Mapae.Store Mapae.Facilitator Calendar

/-! ## What the process keeps -/

section Process

variable {D : Type} {setting : SubmitterSetting D} {s s' : Submitter D} {id hold : Nat} {task task' : RevocationTask D}
  {deposit : Deposit D}

variable (setting s) in
/-- What is known of a deposit. -/
structure Funded (hold : Nat) (deposit : Deposit D) : Prop where
  task_lt : deposit.task < s.next
  checked : DepositChecked setting.config deposit.submission deposit.reads deposit.heard
  row : ∃ row, s.books.holds.get? hold = some row ∧
    row.hold.amount = reservation setting.config deposit.submission deposit.reads ∧
    (deposit.returned = false → ∀ charged, row.charged = some charged →
      (prefundShortfall deposit.submission deposit.reads : Int) ≤ charged)
  owner : ∀ task, s.tasks deposit.task = some task →
    task.submission = deposit.submission ∧ task.phase.mayHaveSpent = true

variable (s) in
/-- The hold is open, for the deposit of a task. -/
def HasHold (id : Nat) (reads : ChainReads) (hold : Nat) : Prop :=
  ∃ deposit row, s.deposits hold = some deposit ∧ deposit.task = id ∧ deposit.reads = reads ∧
    s.books.holds.get? hold = some row ∧ row.IsOpen s.books.process

variable (setting s) in
/-- What is known of a submission. -/
structure Underway (id : Nat) (task : RevocationTask D) : Prop where
  id_lt : id < s.next
  accepted : ∃ input,
    validateRevocationSubmission setting.viem setting.kit input setting.policy = .ok task.submission
  heard : Heard setting.config task.submission task.phase task.heard
  openHold : ∀ reads hold, task.phase.openHold = some (reads, hold) → HasHold s id reads hold

/-- Who is in flight: one submission for each sender, which is inside. -/
structure Gate (tasks : Nat → Option (RevocationTask D)) (senders : List String) : Prop where
  alone : ∀ id id' task task', tasks id = some task → tasks id' = some task' → task.phase.inside = true →
    task'.phase.inside = true → task.submission.sender = task'.submission.sender → id = id'
  mem_iff : ∀ sender, sender ∈ senders ↔ ∃ id task, tasks id = some task ∧ task.phase.inside = true ∧
    task.submission.sender = sender

variable (setting s) in
structure SubmitterInv : Prop where
  books : BudgetCapped setting.config.dailyBudget s.books
  deposits : ∀ hold deposit, s.deposits hold = some deposit → Funded setting s hold deposit
  tasks : ∀ id task, s.tasks id = some task → Underway setting s id task
  once : ∀ hold hold' deposit deposit', s.deposits hold = some deposit → s.deposits hold' = some deposit' →
    deposit.task = deposit'.task → hold = hold'
  gate : Gate s.tasks s.inFlightSenders

/-! ### What other steps leave -/

theorem Funded.frame (h : Funded setting s hold deposit) (hnext : s.next ≤ s'.next)
    (hrow : s'.books.holds.get? hold = s.books.holds.get? hold)
    (howner : ∀ task, s'.tasks deposit.task = some task →
      task.submission = deposit.submission ∧ task.phase.mayHaveSpent = true) :
    Funded setting s' hold deposit where
  task_lt := h.task_lt.trans_le hnext
  checked := h.checked
  row := hrow ▸ h.row
  owner := howner

theorem Underway.frame (h : Underway setting s id task) (hnext : s.next ≤ s'.next)
    (hhold : ∀ reads hold, task.phase.openHold = some (reads, hold) → HasHold s id reads hold →
      HasHold s' id reads hold) : Underway setting s' id task where
  id_lt := h.id_lt.trans_le hnext
  accepted := h.accepted
  heard := h.heard
  openHold reads hold ho := hhold reads hold ho (h.openHold reads hold ho)

/-- What is in a map after it was written. -/
theorem of_update {α : Type} {map : Nat → Option α} {k k' : Nat} {a b : α}
    (h : Function.update map k (some a) k' = some b) : k' = k ∧ b = a ∨ k' ≠ k ∧ map k' = some b := by
  rw [Function.update_apply] at h
  split at h
  · next heq => exact .inl ⟨heq, (Option.some.inj h).symm⟩
  · next hne => exact .inr ⟨hne, h⟩

/-- A task that goes on inside, or outside, leaves the gate as it is. -/
theorem Gate.update {tasks : Nat → Option (RevocationTask D)} {senders : List String} (h : Gate tasks senders)
    (hget : tasks id = some task) (hsubmission : task'.submission = task.submission)
    (hinside : task'.phase.inside = task.phase.inside) :
    Gate (Function.update tasks id (some task')) senders := by
  -- The tasks inside are those that were.
  have hbefore : ∀ {k t}, Function.update tasks id (some task') k = some t → t.phase.inside = true →
      ∃ u, tasks k = some u ∧ u.phase.inside = true ∧ u.submission.sender = t.submission.sender := by
    intro k t hk hin
    rcases of_update hk with ⟨rfl, rfl⟩ | ⟨-, hk⟩
    · exact ⟨task, hget, hinside ▸ hin, by rw [hsubmission]⟩
    · exact ⟨t, hk, hin, rfl⟩
  refine ⟨fun id₁ id₂ t₁ t₂ h₁ h₂ hin₁ hin₂ hsender => ?_, fun sender => (h.mem_iff sender).trans ⟨?_, ?_⟩⟩
  · obtain ⟨u₁, hu₁, hin₁, hs₁⟩ := hbefore h₁ hin₁
    obtain ⟨u₂, hu₂, hin₂, hs₂⟩ := hbefore h₂ hin₂
    exact h.alone id₁ id₂ u₁ u₂ hu₁ hu₂ hin₁ hin₂ (hs₁.trans (hsender.trans hs₂.symm))
  · rintro ⟨k, other, hother, hin, rfl⟩
    by_cases hk : k = id
    · subst hk
      cases hget.symm.trans hother
      exact ⟨k, task', Function.update_self .., hinside ▸ hin, by rw [hsubmission]⟩
    · exact ⟨k, other, (Function.update_of_ne hk _ _).trans hother, hin, rfl⟩
  · rintro ⟨k, other, hother, hin, rfl⟩
    obtain ⟨u, hu, hin, hs⟩ := hbefore hother hin
    exact ⟨k, u, hu, hin, hs⟩

/-- A sender comes in. -/
theorem Gate.enter {tasks : Nat → Option (RevocationTask D)} {senders : List String} (h : Gate tasks senders)
    (hget : tasks id = some task) (hsubmission : task'.submission = task.submission)
    (houtside : task.phase.inside = false) (hinside : task'.phase.inside = true)
    (hfree : task.submission.sender ∉ senders) :
    Gate (Function.update tasks id (some task')) (task.submission.sender :: senders) := by
  have hother : ∀ {k t}, tasks k = some t → t.phase.inside = true → t.submission.sender ≠ task.submission.sender := by
    intro k t hk hin heq
    exact hfree ((h.mem_iff _).mpr ⟨k, t, hk, hin, heq⟩)
  refine ⟨fun id₁ id₂ t₁ t₂ h₁ h₂ hin₁ hin₂ hsender => ?_, fun sender => ⟨fun hmem => ?_, ?_⟩⟩
  · rcases of_update h₁ with ⟨rfl, rfl⟩ | ⟨-, hbefore₁⟩ <;> rcases of_update h₂ with ⟨rfl, rfl⟩ | ⟨-, hbefore₂⟩
    · rfl
    · exact absurd (hsender.symm.trans (by rw [hsubmission])) (hother hbefore₂ hin₂)
    · exact absurd (hsender.trans (by rw [hsubmission])) (hother hbefore₁ hin₁)
    · exact h.alone id₁ id₂ t₁ t₂ hbefore₁ hbefore₂ hin₁ hin₂ hsender
  · rcases List.mem_cons.mp hmem with rfl | hmem
    · exact ⟨id, task', Function.update_self .., hinside, by rw [hsubmission]⟩
    · obtain ⟨k, t, hk, hin, rfl⟩ := (h.mem_iff sender).mp hmem
      have hne : k ≠ id := by
        rintro rfl
        cases hget.symm.trans hk
        rw [houtside] at hin
        cases hin
      exact ⟨k, t, (Function.update_of_ne hne _ _).trans hk, hin, rfl⟩
  · rintro ⟨k, t, hk, hin, rfl⟩
    rcases of_update hk with ⟨rfl, rfl⟩ | ⟨-, hk⟩
    · rw [hsubmission]
      exact List.mem_cons_self
    · exact List.mem_cons_of_mem _ ((h.mem_iff _).mpr ⟨k, t, hk, hin, rfl⟩)

/-- A sender goes out. -/
theorem Gate.leave {tasks : Nat → Option (RevocationTask D)} {senders : List String} (h : Gate tasks senders)
    (hget : tasks id = some task) (hinside : task.phase.inside = true) (houtside : task'.phase.inside = false) :
    Gate (Function.update tasks id (some task')) (senders.filter (· ≠ task.submission.sender)) := by
  have hbefore : ∀ {k t}, Function.update tasks id (some task') k = some t → t.phase.inside = true →
      k ≠ id ∧ tasks k = some t := by
    intro k t hk hin
    rcases of_update hk with ⟨rfl, rfl⟩ | ⟨hne, hk⟩
    · rw [houtside] at hin
      cases hin
    · exact ⟨hne, hk⟩
  refine ⟨fun id₁ id₂ t₁ t₂ h₁ h₂ hin₁ hin₂ hsender => ?_, fun sender => ⟨fun hmem => ?_, ?_⟩⟩
  · exact h.alone id₁ id₂ t₁ t₂ (hbefore h₁ hin₁).2 (hbefore h₂ hin₂).2 hin₁ hin₂ hsender
  · obtain ⟨hmem, hne⟩ := List.mem_filter.mp hmem
    obtain ⟨k, t, hk, hin, rfl⟩ := (h.mem_iff sender).mp hmem
    have hk' : k ≠ id := by
      rintro rfl
      cases hget.symm.trans hk
      exact of_decide_eq_true hne rfl
    exact ⟨k, t, (Function.update_of_ne hk' _ _).trans hk, hin, rfl⟩
  · rintro ⟨k, t, hk, hin, rfl⟩
    obtain ⟨hne, hk⟩ := hbefore hk hin
    refine List.mem_filter.mpr ⟨(h.mem_iff _).mpr ⟨k, t, hk, hin, rfl⟩, decide_eq_true fun heq => ?_⟩
    exact hne (h.alone k id t task hk hget hin hinside heq)

/-- **A task that goes on** without a deposit, past the gate or not. -/
theorem SubmitterInv.move (hinv : SubmitterInv setting s) (task' : RevocationTask D) (hget : s.tasks id = some task)
    (hsubmission : task'.submission = task.submission)
    (hheard : Heard setting.config task'.submission task'.phase task'.heard) {senders : List String}
    (hgate : Gate (Function.update s.tasks id (some task')) senders)
    (hhold : task'.phase.openHold = task.phase.openHold)
    (hspent : task.phase.mayHaveSpent = true → task'.phase.mayHaveSpent = true) :
    SubmitterInv setting ({ s with inFlightSenders := senders }.setTask id task') := by
  have htask := hinv.tasks id task hget
  refine ⟨hinv.books, fun hold deposit hdeposit => ?_, fun id' other hother => ?_, hinv.once, hgate⟩
  · have hfunded := hinv.deposits hold deposit hdeposit
    refine hfunded.frame (Nat.le_refl _) rfl fun other hother => ?_
    rcases of_update hother with ⟨heq, rfl⟩ | ⟨-, hother⟩
    · obtain ⟨hsub, hmay⟩ := hfunded.owner task (heq ▸ hget)
      exact ⟨hsubmission.trans hsub, hspent hmay⟩
    · exact hfunded.owner other hother
  · rcases of_update hother with ⟨rfl, rfl⟩ | ⟨-, hother⟩
    · exact
        { id_lt := htask.id_lt
          accepted := hsubmission ▸ htask.accepted
          heard := hheard
          openHold := fun reads hold ho => htask.openHold reads hold (hhold ▸ ho) }
    · exact (hinv.tasks id' other hother).frame (Nat.le_refl _) fun _ _ _ h => h

/-- A task that goes on inside writes nothing but its phase. -/
theorem SubmitterInv.setTask (hinv : SubmitterInv setting s) (hget : s.tasks id = some task)
    (hsubmission : task'.submission = task.submission)
    (hheard : Heard setting.config task'.submission task'.phase task'.heard)
    (hinside : task'.phase.inside = task.phase.inside) (hhold : task'.phase.openHold = task.phase.openHold)
    (hspent : task.phase.mayHaveSpent = true → task'.phase.mayHaveSpent = true) :
    SubmitterInv setting (s.setTask id task') :=
  hinv.move task' hget hsubmission hheard (hinv.gate.update hget hsubmission hinside) hhold hspent

/-! ### A stretch -/

theorem SubmitterInv.aside (hinv : SubmitterInv setting s) {limiter : FixedWindowLimiter} {clock : Instant}
    {bodies : Nat} {flights : String → Option Nat} :
    SubmitterInv setting { s with limiter, clock, bodies, flights } :=
  ⟨hinv.books, fun hold deposit h => (hinv.deposits hold deposit h).frame (Nat.le_refl _) rfl
      (hinv.deposits hold deposit h).owner,
    fun id task h => (hinv.tasks id task h).frame (Nat.le_refl _) fun _ _ _ h => h, hinv.once, hinv.gate⟩

/-- The books may roll over to another day. -/
theorem SubmitterInv.books_only (hinv : SubmitterInv setting s) {books : BudgetRun}
    (hbooks : BudgetCapped setting.config.dailyBudget books) (hprocess : books.process = s.books.process)
    (hholds : books.holds = s.books.holds) : SubmitterInv setting { s with books } := by
  refine ⟨hbooks, fun hold deposit h => ?_, fun id task h => ?_, hinv.once, hinv.gate⟩
  · refine (hinv.deposits hold deposit h).frame (Nat.le_refl _) ?_ (hinv.deposits hold deposit h).owner
    rw [hholds]
  · refine (hinv.tasks id task h).frame (Nat.le_refl _) fun reads hold _ hhas => ?_
    obtain ⟨deposit, row, hdeposit, htask, hreads, hrow, hopen⟩ := hhas
    exact ⟨deposit, row, hdeposit, htask, hreads, by rw [hholds, hrow], hprocess ▸ hopen⟩

/-- **A submission takes a token**, or is refused. -/
theorem SubmitterInv.consume (hinv : SubmitterInv setting s) (hget : s.tasks id = some task) {reads : ChainReads}
    {heard : List Answer} (hphase : task.phase = .signature reads)
    (hheard : ∀ now, Heard setting.config task.submission (.balance reads now) heard) :
    SubmitterInv setting (s.perform setting id { task with heard } (.consume reads)) := by
  have hearly : ∀ answer ∈ heard, answer.early = true := by
    cases hheard s.clock with
    | balance _ _ => simp [firstChecks, Answer.early]
  have hinside : task.phase.inside = true := by
    rw [hphase]
    rfl
  have hhold : task.phase.openHold = none := by
    rw [hphase]
    rfl
  have hspent : task.phase.mayHaveSpent = false := by
    rw [hphase]
    rfl
  obtain ⟨⟨admitted, limiter⟩, hconsumed⟩ :
      ∃ consumed, s.limiter.tryConsume (senderKey task.submission.sender) s.clock.ms = consumed := ⟨_, rfl⟩
  simp only [Submitter.perform, Submitter.tryConsume, hconsumed]
  cases admitted with
  | false =>
    exact hinv.aside.setTask hget rfl (heard_refuse _ _ _ hearly) hinside.symm hhold.symm
      (absurd · (hspent ▸ Bool.false_ne_true))
  | true =>
    exact hinv.aside.setTask hget rfl (hheard _) hinside.symm hhold.symm (absurd · (hspent ▸ Bool.false_ne_true))

theorem get?_issue {r : BudgetRun} {hold : BudgetHold} (k : Nat) :
    (r.issue hold).holds.get? k =
      if r.holds.nextId = k then some ⟨r.holds.nextId, r.process, hold, none⟩ else r.holds.get? k :=
  Table.get?_insert? (Table.insert?_nextId _ _ fun _ => rfl) k

theorem reserve_none {reads : ChainReads} {now : Instant} {amount : Int}
    (hamount : amount = reservation setting.config task.submission reads)
    (h : (s.books.budget.reserve amount now).1 = none) :
    s.reserve setting id task reads now =
      (none, { s with books := { s.books with budget := s.books.budget.roll now } }) := by
  subst hamount
  simp only [Submitter.reserve, h, exec_reserve_none h]

/-- A submission that has no other deposit has still one, whatever becomes of it. -/
theorem SubmitterInv.once_update (hinv : SubmitterInv setting s) {k k' : Nat} {d d' : Deposit D}
    (hd : Function.update s.deposits hold (some deposit) k = some d)
    (hd' : Function.update s.deposits hold (some deposit) k' = some d') (htasks : d.task = d'.task)
    (hown : ∀ k d, s.deposits k = some d → d.task = deposit.task → k = hold) : k = k' := by
  rcases of_update hd with ⟨rfl, rfl⟩ | ⟨-, hbefore⟩ <;> rcases of_update hd' with ⟨rfl, rfl⟩ | ⟨-, hbefore'⟩
  · rfl
  · exact (hown k' d' hbefore' htasks.symm).symm
  · exact hown k d hbefore htasks
  · exact hinv.once k k' d d' hbefore hbefore' htasks

/-- A new hold, for the deposit of a task that has made none. -/
theorem SubmitterInv.sponsor (hinv : SubmitterInv setting s) (hget : s.tasks id = some task) {books : BudgetRun}
    {row : IssuedHold} (hbooks : BudgetCapped setting.config.dailyBudget books)
    (hprocess : books.process = s.books.process) (hfresh : s.books.holds.get? hold = none)
    (hrows : ∀ k, books.holds.get? k = if hold = k then some row else s.books.holds.get? k)
    (hopen : row.IsOpen s.books.process)
    (hamount : row.hold.amount = reservation setting.config task.submission deposit.reads)
    (howner : deposit.task = id ∧ deposit.submission = task.submission)
    (hchecked : DepositChecked setting.config task.submission deposit.reads deposit.heard)
    (hinside : task.phase.inside = true) (hspent : task.phase.mayHaveSpent = false) :
    SubmitterInv setting ({ s with books, deposits := Function.update s.deposits hold (some deposit) }.setTask id
      ⟨task.submission, .sending deposit.reads hold, deposit.heard⟩) := by
  have htask := hinv.tasks id task hget
  obtain ⟨rfl, hsubmission⟩ := howner
  have hnew : books.holds.get? hold = some row := (hrows hold).trans (if_pos rfl)
  have hold_ne : ∀ k d, s.deposits k = some d → hold ≠ k := by
    rintro k d hd rfl
    obtain ⟨row', hrow', -⟩ := (hinv.deposits _ d hd).row
    rw [hfresh] at hrow'
    cases hrow'
  -- The task has no deposit yet, since it has not spent.
  have htask_ne : ∀ k d, s.deposits k = some d → d.task ≠ deposit.task := by
    intro k d hd heq
    have hmay := ((hinv.deposits k d hd).owner task (heq ▸ hget)).2
    rw [hspent] at hmay
    cases hmay
  refine ⟨hbooks, fun k d hd => ?_, fun k other hother => ?_, fun k k' d d' hd hd' htasks => ?_,
    hinv.gate.update hget rfl hinside.symm⟩
  · rcases of_update hd with ⟨rfl, rfl⟩ | ⟨-, hd⟩
    · refine ⟨htask.id_lt, hsubmission ▸ hchecked,
        ⟨row, hnew, hsubmission ▸ hamount, fun _ charged hcharged => ?_⟩, fun other hother => ?_⟩
      · rw [hopen.2] at hcharged
        cases hcharged
      · rcases of_update hother with ⟨-, rfl⟩ | ⟨hne, -⟩
        · exact ⟨hsubmission.symm, rfl⟩
        · exact absurd rfl hne
    · refine (hinv.deposits k d hd).frame (Nat.le_refl _) ((hrows k).trans (if_neg (hold_ne k d hd)))
        fun other hother => ?_
      rcases of_update hother with ⟨heq, -⟩ | ⟨-, hother⟩
      · exact absurd heq (htask_ne k d hd)
      · exact (hinv.deposits k d hd).owner other hother
  · rcases of_update hother with ⟨rfl, rfl⟩ | ⟨-, hother⟩
    · refine ⟨htask.id_lt, htask.accepted, .sending hchecked, ?_⟩
      intro reads k ho
      cases ho
      exact ⟨deposit, row, Function.update_self .., rfl, rfl, hnew, hprocess.symm ▸ hopen⟩
    · refine (hinv.tasks k other hother).frame (Nat.le_refl _) fun reads k' _ hhas => ?_
      obtain ⟨d, row', hd, htask', hreads, hrow', hopen'⟩ := hhas
      have hne := hold_ne k' d hd
      exact ⟨d, row', (Function.update_of_ne (Ne.symm hne) _ _).trans hd, htask', hreads,
        ((hrows k').trans (if_neg hne)).trans hrow', hprocess.symm ▸ hopen'⟩
  · exact hinv.once_update hd hd' htasks fun k d hd heq => absurd heq (htask_ne k d hd)

/-- **A submission reserves its deposit**, or is refused. -/
theorem SubmitterInv.reserve (hinv : SubmitterInv setting s) (hget : s.tasks id = some task) {reads : ChainReads}
    {now : Instant} {heard : List Answer} (hphase : task.phase = .balance reads now)
    (hchecked : DepositChecked setting.config task.submission reads heard) :
    SubmitterInv setting (s.perform setting id { task with heard } (.reserve reads now)) := by
  have hinside : task.phase.inside = true := by
    rw [hphase]
    rfl
  obtain ⟨amount, hamount⟩ : ∃ amount : Int, amount = reservation setting.config task.submission reads := ⟨_, rfl⟩
  have hnonneg : (BudgetOp.reserve amount now).Nonneg := hamount ▸ Int.natCast_nonneg _
  have hbooks := hinv.books.exec _ hnonneg
  cases hreserve : (s.books.budget.reserve amount now).1 with
  | none =>
    have hearly : ∀ answer ∈ heard, answer.early = true := by
      obtain ⟨wei, rfl, -⟩ := hchecked.heard_eq
      simp [firstChecks, Answer.early]
    rw [exec_reserve_none hreserve] at hbooks
    have hnone : s.reserve setting id { task with heard } reads now = _ := reserve_none hamount hreserve
    simp only [Submitter.perform, hnone]
    refine (hinv.books_only hbooks rfl rfl).setTask hget rfl (heard_refuse _ _ _ hearly) hinside.symm ?_ ?_
    · rw [hphase]
      rfl
    · rw [hphase]
      exact (absurd · Bool.false_ne_true)
  | some room =>
    obtain ⟨rfl, -, hexec⟩ := exec_reserve_some hreserve
    let deposit : Deposit D := ⟨id, task.submission, reads, heard, false⟩
    have hspent : task.phase.mayHaveSpent = false := by
      rw [hphase]
      rfl
    have hrows : ∀ k, (s.books.exec (.reserve amount now)).holds.get? k = if s.books.holds.nextId = k then
        some ⟨s.books.holds.nextId, s.books.process, ⟨budgetDay now, amount⟩, none⟩ else s.books.holds.get? k := by
      intro k
      rw [hexec]
      exact get?_issue k
    have hissue := hinv.sponsor hget hbooks (process_exec _ fun _ => BudgetOp.noConfusion) Table.get?_nextId hrows
      ⟨rfl, rfl⟩ hamount (show deposit.task = id ∧ _ from ⟨rfl, rfl⟩) hchecked hinside hspent
    subst hamount
    simp only [Submitter.perform, Submitter.reserve, hreserve]
    exact hissue

theorem get?_record {r : BudgetRun} {actual : Charge} (k : Nat) :
    (r.record hold actual).holds.get? k =
      if k = hold then (r.holds.get? hold).map (IssuedHold.file actual) else r.holds.get? k :=
  Table.get?_update (IssuedHold.file_id actual) k

/-- **A submission settles its deposit.** -/
theorem SubmitterInv.settle (hinv : SubmitterInv setting s) (hget : s.tasks id = some task) {reads : ChainReads}
    {charged : Int} {returned : Bool} {phase : Phase} {heard : List Answer} (hin : task.phase.inside = true)
    (hphase : task.phase.openHold = some (reads, hold)) (hheard : Heard setting.config task.submission phase heard)
    (hinside : phase.inside = true) (hnone : phase.openHold = none) (hspent : phase.mayHaveSpent = true)
    (hnonneg : 0 ≤ charged)
    (hcharged : returned = false → (prefundShortfall task.submission reads : Int) ≤ charged) :
    SubmitterInv setting (s.perform setting id { task with heard } (.settle hold charged returned phase)) := by
  have htask := hinv.tasks id task hget
  obtain ⟨deposit, row, hdeposit, rfl, rfl, hrow, hopen⟩ := htask.openHold reads hold hphase
  have hfunded := hinv.deposits hold deposit hdeposit
  obtain ⟨hsubmission, -⟩ := hfunded.owner task hget
  have hbooks := hinv.books.exec (.settle hold (.bigint charged) s.clock) ⟨charged, rfl, hnonneg⟩
  have hprocess : (s.books.exec (.settle hold (.bigint charged) s.clock)).process = s.books.process :=
    process_exec _ fun _ => BudgetOp.noConfusion
  -- Settling files the charge of this hold and leaves the others alone.
  have hrows : ∀ k, (s.books.exec (.settle hold (.bigint charged) s.clock)).holds.get? k =
      if k = hold then some (row.file (.bigint charged)) else s.books.holds.get? k := by
    intro k
    rw [exec_settle hrow hopen]
    refine (get?_record k).trans ?_
    simp only [hrow, Option.map_some]
  simp only [Submitter.perform, Submitter.settle, hdeposit, Option.map_some]
  refine ⟨hbooks, fun k d hd => ?_, fun k other hother => ?_, fun k k' d d' hd hd' htasks => ?_,
    hinv.gate.update hget rfl (hinside.trans hin.symm)⟩
  · rcases of_update hd with ⟨rfl, rfl⟩ | ⟨hne, hd⟩
    · refine ⟨hfunded.task_lt, hfunded.checked,
        ⟨row.file (.bigint charged), (hrows k).trans (if_pos rfl), ?_, fun hreturned charged' hfile => ?_⟩,
        fun other hother => ?_⟩
      · obtain ⟨row', hrow', hamount, -⟩ := hfunded.row
        cases hrow.symm.trans hrow'
        exact hamount
      · cases hfile
        exact hsubmission ▸ hcharged hreturned
      · rcases of_update hother with ⟨-, rfl⟩ | ⟨hne, -⟩
        · exact ⟨hsubmission, hspent⟩
        · exact absurd rfl hne
    · refine (hinv.deposits k d hd).frame (Nat.le_refl _) ((hrows k).trans (if_neg hne)) fun other hother => ?_
      rcases of_update hother with ⟨heq, rfl⟩ | ⟨-, hother⟩
      · exact ⟨((hinv.deposits k d hd).owner task (heq ▸ hget)).1, hspent⟩
      · exact (hinv.deposits k d hd).owner other hother
  · rcases of_update hother with ⟨rfl, rfl⟩ | ⟨hne, hother⟩
    · refine ⟨htask.id_lt, htask.accepted, hheard, fun reads k ho => ?_⟩
      rw [hnone] at ho
      cases ho
    · refine (hinv.tasks k other hother).frame (Nat.le_refl _) fun reads k' _ hhas => ?_
      obtain ⟨d, row', hd, rfl, hreads, hrow', hopen'⟩ := hhas
      -- The hold that is settled is the task's own.
      have hk : k' ≠ hold := by
        rintro rfl
        cases hdeposit.symm.trans hd
        exact hne rfl
      exact ⟨d, row', (Function.update_of_ne hk _ _).trans hd, rfl, hreads, ((hrows k').trans (if_neg hk)).trans hrow',
        hprocess.symm ▸ hopen'⟩
  · exact hinv.once_update hd hd' htasks fun k d hd => hinv.once k hold d deposit hd hdeposit

/-- **Whatever a submission does with an answer** keeps what the process keeps. -/
theorem SubmitterInv.perform (hinv : SubmitterInv setting s) (hget : s.tasks id = some task) {answer : Answer}
    {act : Act}
    (hact : submitSponsored setting.config task.submission task.phase answer = some act) :
    SubmitterInv setting (s.perform setting id { task with heard := task.heard ++ [answer] } act) := by
  have hin := inside_of_submitSponsored hact
  cases follows_of_submitSponsored (hinv.tasks id task hget).heard hact with
  | go hheard hinside hhold hspent => exact hinv.setTask hget rfl hheard (hinside.trans hin.symm) hhold hspent
  | consume hphase hheard => exact hinv.consume hget hphase hheard
  | reserve hphase hchecked => exact hinv.reserve hget hphase hchecked
  | settle hphase hheard hinside hhold hspent hnonneg hcharged =>
    exact hinv.settle hget hin hphase hheard hinside hhold hspent hnonneg hcharged

/-! ### Every event -/

/-- **A submission starts**, unless one of its sender is in flight. -/
theorem SubmitterInv.start (hinv : SubmitterInv setting s) {reply : SubmitterReply}
    (h : s.respond setting (.start id) = some (s', reply)) : SubmitterInv setting s' := by
  simp only [Submitter.respond] at h
  split at h
  · next submission heard hget =>
    have hheard : heard = [] := by
      cases (hinv.tasks id _ hget).heard
      rfl
    subst hheard
    split at h
    · cases h
      exact hinv.setTask hget rfl (.done (.refused fun _ => List.not_mem_nil.elim)) rfl rfl
        (absurd · Bool.false_ne_true)
    · next hfree =>
      cases h
      exact hinv.move ⟨submission, .revoked, []⟩ hget rfl .revoked (hinv.gate.enter hget rfl rfl rfl hfree) rfl
        (absurd · Bool.false_ne_true)
  · cases h

/-- The `finally` of `submit`. -/
theorem SubmitterInv.leave (hinv : SubmitterInv setting s) {reply : SubmitterReply}
    (h : s.respond setting (.leave id) = some (s', reply)) : SubmitterInv setting s' := by
  simp only [Submitter.respond] at h
  split at h
  · next submission result heard hget =>
    cases h
    have hverdict : Verdict setting.config submission result heard := by
      cases (hinv.tasks id _ hget).heard with
      | leaving hverdict => exact hverdict
    refine hinv.move ⟨submission, .done result, heard⟩ hget rfl (.done hverdict) (hinv.gate.leave hget rfl rfl) rfl
      fun hmay => ?_
    cases result <;> exact hmay
  · cases h

/-- **A new flight.** -/
theorem SubmitterInv.join (hinv : SubmitterInv setting s) {submission : ValidatedRevocationSubmission D} {input : Json}
    (haccepted : validateRevocationSubmission setting.viem setting.kit input setting.policy = .ok submission) :
    SubmitterInv setting (s.join setting submission).1 := by
  have hnew : ∀ {k t}, s.tasks k = some t → k ≠ s.next := by
    rintro k t hk rfl
    exact Nat.lt_irrefl _ (hinv.tasks _ t hk).id_lt
  unfold Submitter.join
  dsimp only
  split
  · exact hinv
  · refine ⟨hinv.books, fun hold deposit hdeposit => ?_, fun k other hother => ?_, hinv.once,
      ⟨fun id₁ id₂ t₁ t₂ h₁ h₂ hin₁ hin₂ hsender => ?_, fun sender => (hinv.gate.mem_iff sender).trans ⟨?_, ?_⟩⟩⟩
    · have hfunded := hinv.deposits hold deposit hdeposit
      refine hfunded.frame (Nat.le_succ _) rfl fun other hother => ?_
      rcases of_update hother with ⟨heq, -⟩ | ⟨-, hother⟩
      · exact absurd hfunded.task_lt (heq ▸ Nat.lt_irrefl _)
      · exact hfunded.owner other hother
    · rcases of_update hother with ⟨rfl, rfl⟩ | ⟨-, hother⟩
      · exact ⟨Nat.lt_succ_self _, ⟨input, haccepted⟩, .registered, by rintro _ _ ⟨⟩⟩
      · exact (hinv.tasks k other hother).frame (Nat.le_succ _) fun _ _ _ h => h
    · rcases of_update h₁ with ⟨rfl, rfl⟩ | ⟨-, h₁⟩
      · cases hin₁
      · rcases of_update h₂ with ⟨rfl, rfl⟩ | ⟨-, h₂⟩
        · cases hin₂
        · exact hinv.gate.alone id₁ id₂ t₁ t₂ h₁ h₂ hin₁ hin₂ hsender
    · rintro ⟨k, t, hk, hin, rfl⟩
      exact ⟨k, t, (Function.update_of_ne (hnew hk) _ _).trans hk, hin, rfl⟩
    · rintro ⟨k, t, hk, hin, rfl⟩
      rcases of_update hk with ⟨rfl, rfl⟩ | ⟨-, hk⟩
      · cases hin
      · exact ⟨k, t, hk, hin, rfl⟩

/-- **A restart** keeps the books and the deposits, and loses the rest. -/
theorem SubmitterInv.restart (hinv : SubmitterInv setting s) (now : Instant) (limiter : FixedWindowLimiter) :
    SubmitterInv setting (Submitter.fresh (s.books.exec (.restart now)) s.deposits s.next now limiter) := by
  have hbooks := hinv.books.exec (.restart now) trivial
  have hlimit : ¬ s.books.budget.dailyLimitWei ≤ 0 := by
    have hpos := hinv.books.invariant.limit_pos
    have heq := hinv.books.invariant.limit_eq
    omega
  obtain ⟨budget, hexec⟩ : ∃ budget, s.books.exec (.restart now) = ⟨budget, s.books.process + 1, s.books.holds⟩ := by
    simp only [BudgetRun.exec, SpendBudget.create, if_neg hlimit]
    exact ⟨_, rfl⟩
  rw [hexec] at hbooks ⊢
  refine ⟨hbooks, fun hold deposit hdeposit => ?_, by rintro _ _ ⟨⟩, hinv.once,
    ⟨by rintro _ _ _ _ ⟨⟩, fun sender => ⟨fun h => (List.not_mem_nil h).elim, ?_⟩⟩⟩
  · have hfunded := hinv.deposits hold deposit hdeposit
    exact ⟨hfunded.task_lt, hfunded.checked, hfunded.row, by rintro _ ⟨⟩⟩
  · rintro ⟨_, _, h, -⟩
    cases h

/-- **Every event keeps what the process keeps.** -/
theorem SubmitterInv.respond (hinv : SubmitterInv setting s) {event : SubmitterEvent} {reply : SubmitterReply}
    (h : s.respond setting event = some (s', reply)) : SubmitterInv setting s' := by
  cases event with
  | tick now =>
    simp only [Submitter.respond] at h
    split at h
    · cases h
      exact hinv.aside
    · cases h
  | request requester =>
    simp only [Submitter.respond] at h
    split at h <;> next heq =>
      have hstate := congrArg Prod.snd heq
      simp only [Submitter.tryConsume, Submitter.sweep] at hstate
      subst hstate
      cases h
      exact hinv.aside
  | body input =>
    have hread : SubmitterInv setting { s with bodies := s.bodies - 1 } := hinv.aside
    simp only [Submitter.respond] at h
    split at h
    · cases h
    · split at h
      · next submission haccepted =>
        obtain ⟨body, -, haccepted⟩ := Option.map_eq_some_iff.mp haccepted
        obtain ⟨rfl, -⟩ := Prod.mk.inj (Option.some.inj h)
        exact hread.join haccepted
      · cases h
        exact hread
  | start id => exact hinv.start h
  | answer id answer =>
    simp only [Submitter.respond, Option.bind_eq_bind, Option.bind_eq_some_iff, Option.pure_def, Option.some.injEq,
      Prod.mk.injEq] at h
    obtain ⟨task, hget, act, hact, rfl, -⟩ := h
    exact hinv.perform hget hact
  | leave id => exact hinv.leave h
  | deliver id =>
    simp only [Submitter.respond] at h
    split at h
    · cases h
      exact hinv.aside
    · cases h
  | health =>
    cases h
    exact hinv.aside.books_only ((hinv.books.exec (.remaining s.clock) trivial).exec (.spentToday s.clock) trivial)
      rfl rfl
  | restart now =>
    simp only [Submitter.respond] at h
    split at h
    · split at h
      · cases h
      · next limiter _ =>
        cases h
        exact hinv.restart now limiter
    · cases h

theorem submitterInv_boot {now : Instant} (h : Submitter.boot setting now = .ok s) : SubmitterInv setting s := by
  simp only [Submitter.boot, bind_eq_ok, pure_eq_ok] at h
  obtain ⟨limiter, -, budget, hbudget, rfl⟩ := h
  have hinvariant := budgetInvariant_start hbudget
  refine ⟨⟨hinvariant, fun _ h => absurd h Table.not_mem_empty, fun _ h => absurd h Table.not_mem_empty, fun day => ?_⟩,
    by rintro _ _ ⟨⟩, by rintro _ _ ⟨⟩, by rintro _ _ _ _ ⟨⟩,
    ⟨by rintro _ _ _ _ ⟨⟩, fun sender => ⟨fun h => (List.not_mem_nil h).elim, ?_⟩⟩⟩
  · exact Int.le_of_lt hinvariant.limit_pos
  · rintro ⟨_, _, h, -⟩
    cases h

/-- **What the process keeps** holds in every state of every run. -/
theorem submitterInv_of_reachable (hr : (submitterSystem setting).Reachable s) : SubmitterInv setting s := by
  refine hr.invariant (fun s ⟨now, h⟩ => submitterInv_boot h) fun s s' _ hinv hstep => ?_
  obtain ⟨event, h⟩ := hstep
  obtain ⟨⟨s'', reply⟩, hrespond, rfl⟩ := Option.map_eq_some_iff.mp h
  exact hinv.respond hrespond

/-! ## The result -/

/-- What the deposit of a hold may have moved to the EntryPoint. A send that threw is taken to have moved
nothing, as the process takes it, and so is a deposit that reverted. -/
def atStake (s : Submitter D) (hold : Nat) : Int :=
  match s.deposits hold with
  | some deposit => if deposit.returned then 0 else prefundShortfall deposit.submission deposit.reads
  | none => 0

/-- What the deposits that `day` admitted may have moved, but for those whose hold was lost in a restart. -/
def deposited (s : Submitter D) (day : String) : Int :=
  s.books.holds.sum fun row =>
    if row.hold.day = day ∧ (row.charged.isSome = true ∨ row.process = s.books.process) then atStake s row.id else 0

variable (setting s) in
/-- What holds of the sponsored submitter in a state. -/
structure SponsoredRevocationsHeld : Prop where
  /-- One submission of a sender is past the gate. -/
  alone : ∀ id id' task task', s.tasks id = some task → s.tasks id' = some task' → task.phase.inside = true →
    task'.phase.inside = true → task.submission.sender = task'.submission.sender → id = id'
  /-- A submission makes one deposit. -/
  once : ∀ hold hold' deposit deposit', s.deposits hold = some deposit → s.deposits hold' = some deposit' →
    deposit.task = deposit'.task → hold = hold'
  /-- All the checks came before it, in their order. -/
  checked : ∀ hold deposit, s.deposits hold = some deposit →
    DepositChecked setting.config deposit.submission deposit.reads deposit.heard
  /-- What is refused has spent nothing. -/
  unspent : ∀ hold deposit task refusal, s.deposits hold = some deposit → s.tasks deposit.task = some task →
    task.phase ≠ .done (.refused refusal)
  /-- Neither the deposits of a day exceed its budget, where a send that threw deposited nothing, nor what they
  were charged up to their reservations. -/
  budget : ∀ day, deposited s day ≤ setting.config.dailyBudget ∧ s.books.cappedOn day ≤ setting.config.dailyBudget
  /-- A result is that of an accepted submission, and is what it was answered. -/
  answered : ∀ id task result, s.tasks id = some task → task.phase = .done result →
    (∃ input, validateRevocationSubmission setting.viem setting.kit input setting.policy = .ok task.submission) ∧
      Verdict setting.config task.submission result task.heard

/-- What is at stake is part of what the hold takes of the room of its day. -/
theorem SubmitterInv.deposited_le (hinv : SubmitterInv setting s) (day : String) :
    deposited s day ≤ s.books.cappedOn day := by
  refine Table.sum_le_sum fun row hmem => ?_
  have hget : s.books.holds.get? row.id = some row := Table.get?_of_mem hmem
  have hamount := hinv.books.amounts row hmem
  have hcharges := hinv.books.charges row hmem
  have hstake : atStake s row.id ≤ row.hold.amount ∧
      ∀ charged, row.charged = some charged → atStake s row.id ≤ charged := by
    cases hdeposit : s.deposits row.id with
    | none =>
      simp only [atStake, hdeposit]
      exact ⟨hamount, hcharges⟩
    | some deposit =>
      obtain ⟨row', hrow', hreserved, hcharged⟩ := (hinv.deposits row.id deposit hdeposit).row
      cases hget.symm.trans hrow'
      simp only [atStake, hdeposit]
      split
      · exact ⟨hamount, hcharges⟩
      · next hkept =>
        refine ⟨?_, hcharged (Bool.eq_false_of_not_eq_true hkept)⟩
        simp only [reservation] at hreserved
        omega
  unfold IssuedHold.cappedOn
  by_cases hday : row.hold.day = day
  · simp only [hday, true_and, if_true]
    cases hcharged : row.charged with
    | some charged => simpa using ⟨hstake.2 charged hcharged, hstake.1⟩
    | none =>
      by_cases hprocess : row.process = s.books.process
      · simpa [hprocess] using hstake.1
      · simp [hprocess]
  · simp [hday]

/-- **What a sponsor spends on revocations**, in every state of every run. -/
theorem sponsored_revocations_held (hr : (submitterSystem setting).Reachable s) :
    SponsoredRevocationsHeld setting s := by
  have hinv := submitterInv_of_reachable hr
  refine ⟨hinv.gate.alone, hinv.once, fun hold deposit h => (hinv.deposits hold deposit h).checked,
    fun hold deposit task refusal hdeposit htask hphase => ?_,
    fun day => ⟨(hinv.deposited_le day).trans (hinv.books.capped day), hinv.books.capped day⟩,
    fun id task result htask hphase => ⟨(hinv.tasks id task htask).accepted, ?_⟩⟩
  · have hmay := ((hinv.deposits hold deposit hdeposit).owner task htask).2
    rw [hphase] at hmay
    cases hmay
  · have hheard := (hinv.tasks id task htask).heard
    rw [hphase] at hheard
    cases hheard with
    | done hverdict => exact hverdict

end Process

def oneSponsor : SubmitterSetting Nat where
  viem := Viem.plain
  kit := unaryKit
  policy := lowFloorConfig.policy
  config := ⟨60000, 50000000, 1000000, 1000000000000, 700000000000000, 2⟩
  submissionKey op := String.intercalate "," [op.sender, toString op.nonce, op.initCode, op.callData,
    op.accountGasLimits, toString op.preVerificationGas, op.gasFees, op.paymasterAndData, op.signature]

def dayOne : Instant := ⟨0, by decide⟩

def oneHeard : List Answer :=
  [.revoked false, .nonce 7, .reads ⟨0, some 267, 7000000000000⟩, .signature true, .balance 100000000000000,
    .sent "0xd0", .mined ⟨true, 44000, 1000267, .absent⟩, .simulated, .written "0xe0", .carried ⟨true, [true]⟩]

/-- A revocation that the sponsor deposits for, up to its answer. -/
def oneRevocation : List SubmitterEvent :=
  [.request none, .body (some (revocationSubmissionBody "0x01" payerAddress lowTipOperation)), .start 0] ++
    oneHeard.map (.answer 0) ++ [.leave 0]

theorem sponsored_revocations_held_one : ∃ s, SponsoredRevocationsHeld oneSponsor s ∧
    s.books.budget.spent = 7044011748000 ∧ s.books.budget.reserved = 0 ∧
    (s.tasks 0).map RevocationTask.heard = some oneHeard := by
  have hrun : ((Submitter.boot oneSponsor dayOne).toOption.bind fun s =>
      System.performAll (Submitter.act oneSponsor) s oneRevocation).map (fun s =>
        (s.books.budget.spent, s.books.budget.reserved, (s.tasks 0).map RevocationTask.heard)) =
      some (7044011748000, 0, some oneHeard) := by decide +kernel
  cases hboot : Submitter.boot oneSponsor dayOne with
  | error _ =>
    rw [hboot] at hrun
    cases hrun
  | ok s₀ =>
    rw [hboot] at hrun
    obtain ⟨s, hs, hfields⟩ := Option.map_eq_some_iff.mp hrun
    simp only [Prod.mk.injEq] at hfields
    have hr : (submitterSystem oneSponsor).Reachable s :=
      System.reachable_of_performAll (.init ⟨dayOne, hboot⟩) hs
    exact ⟨s, sponsored_revocations_held hr, hfields⟩

end Mapae.Delegation
