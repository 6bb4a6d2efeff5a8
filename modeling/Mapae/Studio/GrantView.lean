import Mapae.Studio.GrantLibrary

/-!
# What a tab and the store know of one context

The calls treat the contexts independently of each other. For one context a tab knows whether it
lists a grant, and whether it owes the store an addition or a removal; of the store only matters
whether it holds a grant. This is a machine of a few bits.

* `Slot.step` says what a call does to the bits
* `GrantLedger.add_slot` and the lemmas beside it show that the library does just that
-/

namespace Mapae.Studio

open Mapae.Infra

/-- What a tab knows of one context. -/
structure Slot where
  listed : Bool
  unpersisted : Bool
  unremoved : Bool

/-- What a call of the tab is to the context. -/
inductive SlotOp where
  | hydrate
  | add
  | forget
  | other
  deriving DecidableEq

namespace Slot

/-- The slot and whether the store holds the context, after a call. -/
def step (reads writes stored : Bool) : SlotOp → Slot → Slot × Bool
  | .hydrate, x => ({ x with listed := reads && stored }, stored)
  | .add, _ =>
    if reads && writes then (⟨true, false, false⟩, true) else (⟨true, true, false⟩, stored)
  | .forget, x =>
    if reads && writes then (⟨false, false, false⟩, false)
    else if x.unpersisted then ({ x with listed := false, unpersisted := false }, stored)
    else ({ x with listed := false, unremoved := true }, stored)
  | .other, x =>
    if reads && writes then
      let held := !x.unremoved && ((x.unpersisted && x.listed) || stored)
      (⟨held, false, false⟩, held)
    else (x, stored)

variable {x : Slot} {op : SlotOp} (reads writes stored : Bool)

/-! ## Additions stay -/

/-- A context that nobody forgets is not dropped from the store. -/
theorem step_not_forget (hop : op ≠ .forget) (hremoved : x.unremoved = false) :
    (x.step reads writes stored op).1.unremoved = false ∧
      (stored = true → (x.step reads writes stored op).2 = true) := by
  cases op <;> cases reads <;> cases writes <;> simp_all [step]

/-- **A listed context stays listed**, and a call that the store answers leaves it in the store. -/
theorem step_kept (hop : op = .other) (hremoved : x.unremoved = false) (hlisted : x.listed = true)
    (howed : x.unpersisted = true ∨ stored = true) :
    (x.step reads writes stored op).1.listed = true ∧
      ((x.step reads writes stored op).1.unpersisted = true ∨
        (x.step reads writes stored op).2 = true) ∧
      ((reads && writes) = true → (x.step reads writes stored op).2 = true) := by
  subst hop
  cases reads <;> cases writes <;> simp_all [step]

/-- What is owed is listed and is not to be removed. Only a fresh tab reads the store again. -/
theorem step_owed (h : x.unpersisted = true → x.listed = true ∧ x.unremoved = false)
    (hfresh : op = .hydrate → x.unpersisted = false) :
    (x.step reads writes stored op).1.unpersisted = true →
      (x.step reads writes stored op).1.listed = true ∧
        (x.step reads writes stored op).1.unremoved = false := by
  cases op <;> cases reads <;> cases writes <;> cases howed : x.unpersisted <;> simp_all [step]

/-! ## Removals stay -/

/-- A context that nobody adds does not get into the store. -/
theorem step_not_add (hop : op ≠ .add) (hpersisted : x.unpersisted = false) :
    (x.step reads writes stored op).1.unpersisted = false ∧
      (stored = false → (x.step reads writes stored op).2 = false) := by
  cases op <;> cases reads <;> cases writes <;> simp_all [step]

/-- A removal is seen at once. -/
theorem step_forget : (x.step reads writes stored .forget).1.listed = false ∧
    (x.step reads writes stored .forget).1.unpersisted = false := by
  cases reads <;> cases writes <;> cases howed : x.unpersisted <;> simp_all [step]

/-- **A forgotten context stays away**, and a call that the store answers leaves it out of the store. -/
theorem step_gone (hop : op = .other ∨ op = .forget) (hpersisted : x.unpersisted = false)
    (hlisted : x.listed = false) (howed : x.unremoved = true ∨ stored = false) :
    (x.step reads writes stored op).1.listed = false ∧
      ((x.step reads writes stored op).1.unremoved = true ∨
        (x.step reads writes stored op).2 = false) ∧
      ((reads && writes) = true → (x.step reads writes stored op).2 = false) := by
  rcases hop with rfl | rfl <;> rcases howed with howed | howed <;> cases reads <;> cases writes <;>
    simp_all [step]

end Slot

/-! ## The library is this machine -/

/-- What an operation is to a context. -/
def LedgerOp.about (context : String) : LedgerOp → SlotOp
  | .hydrate => .hydrate
  | .add grant => if grant.context = context then .add else .other
  | .forget other => if other = context then .forget else .other

variable {op : LedgerOp} {c : String}

theorem about_eq_hydrate : op.about c = .hydrate ↔ op = .hydrate := by
  cases op with
  | hydrate => simp [LedgerOp.about]
  | add grant =>
    by_cases hc : grant.context = c <;> simp [LedgerOp.about, hc]
  | forget context =>
    by_cases hc : context = c <;> simp [LedgerOp.about, hc]

theorem context_ne_of_other (h : op.about c = .other) :
    (∀ new, op = .add new → c ≠ new.context) ∧ ∀ e, op = .forget e → c ≠ e := by
  refine ⟨?_, ?_⟩
  · rintro new rfl rfl
    simp [LedgerOp.about] at h
  · rintro e rfl rfl
    simp [LedgerOp.about] at h

namespace GrantLedger

/-- What the tab knows of a context. -/
def slot (l : GrantLedger) (context : String) : Slot where
  listed := context ∈ contexts l.grants
  unpersisted := context ∈ l.unpersisted
  unremoved := context ∈ l.unremoved

variable {l : GrantLedger} {c context : String}

theorem mem_contexts_owed :
    c ∈ contexts (l.owed context) ↔ c ≠ context ∧ c ∈ l.unpersisted ∧ c ∈ contexts l.grants := by
  simp only [mem_contexts, owed, List.mem_filter, decide_eq_true_eq]
  constructor
  · rintro ⟨grant, ⟨hgrant, howed, hne⟩, rfl⟩
    exact ⟨hne, howed, grant, hgrant, rfl⟩
  · rintro ⟨hne, howed, grant, hgrant, rfl⟩
    exact ⟨grant, ⟨hgrant, howed, hne⟩, rfl⟩

theorem mem_owedRemovals : c ∈ l.owedRemovals context ↔ c ≠ context ∧ c ∈ l.unremoved := by
  rw [owedRemovals, List.mem_filter, decide_eq_true_eq, and_comm]

section Calls

variable {Delegation Wire : Type} (kit : DelegationKit Delegation) (document : HeaderCodec Wire)

/-- Whether the store holds a grant of the context. -/
def holds (item : Option Wire) (context : String) : Bool :=
  context ∈ contexts (storedGrants kit document item)

variable {kit document} {K : Finset String} {reads writes : Bool} {item : Option Wire}
  {grant : SessionGrant}

theorem distinct_owed (h : Distinct kit K l.grants) (context : String) :
    Distinct kit K (l.owed context) := h.of_subset (List.filter_sublist ..)

/-- What an answered write leaves in the store. -/
theorem storedGrants_written (hK : K.card ≤ MAX_GRANTS) {add : List SessionGrant}
    {remove : List String} (hadd : Distinct kit K add)
    (hstore : Distinct kit K (storedGrants kit document item)) :
    Distinct kit K (storedGrants kit document (some (serializeGrants document
        (nextGrants add remove (storedGrants kit document item))))) ∧
      ∀ c, holds kit document (some (serializeGrants document
        (nextGrants add remove (storedGrants kit document item)))) c =
          decide (c ∉ remove ∧ (c ∈ contexts add ∨ holds kit document item c = true)) := by
  have hnext : Distinct kit K (nextGrants add remove (storedGrants kit document item)) :=
    hadd.nextGrants hstore
  rw [storedGrants_serializeGrants hK hnext]
  refine ⟨hnext.stripped, fun c => decide_eq_decide.mpr ?_⟩
  rw [storedGrants_serializeGrants hK hnext, contexts_stripped, mem_contexts_nextGrants, holds,
    decide_eq_true_eq]

/-- **Reading the store once.** -/
theorem hydrate_slot (l : GrantLedger) (c : String) :
    ((l.hydrate kit document reads item).slot c, holds kit document item c) =
      (l.slot c).step reads writes (holds kit document item c) .hydrate := by
  cases reads
  · rfl
  · rfl

/-! ### The two outcomes of a call -/

theorem add_unanswered (h : (reads && writes) = false) :
    l.add kit document grant reads writes item =
      ({ grants := grant :: without l.grants grant.context
         unpersisted := l.unpersisted.insert grant.context
         unremoved := l.unremoved.filter (· ≠ grant.context) }, item) := by
  rw [add, writeGrants_unanswered h]

theorem add_answered (h : (reads && writes) = true) :
    l.add kit document grant reads writes item =
      (⟨mergeGrants l.grants (nextGrants (grant :: l.owed grant.context)
          (l.owedRemovals grant.context) (storedGrants kit document item)) (some grant), [], []⟩,
        some (serializeGrants document (nextGrants (grant :: l.owed grant.context)
          (l.owedRemovals grant.context) (storedGrants kit document item)))) := by
  rw [add, writeGrants_answered h]

theorem forget_unanswered (h : (reads && writes) = false) :
    l.forget kit document context reads writes item =
      (if context ∈ l.unpersisted then
        { l with
          grants := without l.grants context
          unpersisted := l.unpersisted.filter (· ≠ context) }
      else
        { l with
          grants := without l.grants context
          unremoved := l.unremoved.insert context }, item) := by
  rw [forget, writeGrants_unanswered h]

theorem forget_answered (h : (reads && writes) = true) :
    l.forget kit document context reads writes item =
      (⟨mergeGrants l.grants (nextGrants (l.owed context) (context :: l.owedRemovals context)
          (storedGrants kit document item)) none, [], []⟩,
        some (serializeGrants document (nextGrants (l.owed context)
          (context :: l.owedRemovals context) (storedGrants kit document item)))) := by
  rw [forget, writeGrants_answered h]

/-- The added grant and what is owed. -/
theorem Distinct.added (hl : Distinct kit K l.grants) (hreadable : Readable kit grant)
    (hknown : grant.context ∈ K) : Distinct kit K (grant :: l.owed grant.context) :=
  (distinct_owed hl _).cons hreadable hknown fun h => (mem_contexts_owed.mp h).1 rfl

theorem mem_contexts_added (l : GrantLedger) (grant : SessionGrant) (stored : List SessionGrant) :
    ∀ new ∈ some grant, new.context ∈ contexts (nextGrants (grant :: l.owed grant.context)
      (l.owedRemovals grant.context) stored) := by
  rintro _ ⟨⟩
  exact mem_contexts_nextGrants.mpr ⟨fun h => (mem_owedRemovals.mp h).1 rfl,
    Or.inl (mem_contexts_cons.mpr (Or.inl rfl))⟩

variable (reads writes) in
/-- **What an addition does to each context.** -/
theorem add_slot (hK : K.card ≤ MAX_GRANTS) (hl : Distinct kit K l.grants)
    (hstore : Distinct kit K (storedGrants kit document item)) (hreadable : Readable kit grant)
    (hknown : grant.context ∈ K) (c : String) :
    ((l.add kit document grant reads writes item).1.slot c,
        holds kit document (l.add kit document grant reads writes item).2 c) =
      (l.slot c).step reads writes (holds kit document item c) ((LedgerOp.add grant).about c) := by
  cases hanswer : (reads && writes)
  · rw [add_unanswered hanswer]
    by_cases hc : grant.context = c
    · simp [slot, Slot.step, LedgerOp.about, hanswer, hc, mem_contexts_cons]
    · simp [slot, Slot.step, LedgerOp.about, hanswer, hc, mem_contexts_cons, mem_contexts_without,
        Ne.symm hc]
  · have hnew := mem_contexts_added l grant (storedGrants kit document item)
    rw [add_answered hanswer, (storedGrants_written hK (Distinct.added hl hreadable hknown) hstore).2]
    by_cases hc : grant.context = c
    · subst hc
      simp [slot, Slot.step, LedgerOp.about, hanswer, mem_contexts_mergeGrants hnew,
        mem_contexts_nextGrants, mem_contexts_cons, mem_owedRemovals]
    · simp [slot, Slot.step, LedgerOp.about, hanswer, hc, mem_contexts_mergeGrants hnew,
        mem_contexts_nextGrants, mem_contexts_cons, mem_owedRemovals, mem_contexts_owed, holds,
        Ne.symm hc]

variable (context reads writes) in
/-- **What a removal does to each context.** -/
theorem forget_slot (hK : K.card ≤ MAX_GRANTS) (hl : Distinct kit K l.grants)
    (hstore : Distinct kit K (storedGrants kit document item)) (c : String) :
    ((l.forget kit document context reads writes item).1.slot c,
        holds kit document (l.forget kit document context reads writes item).2 c) =
      (l.slot c).step reads writes (holds kit document item c)
        ((LedgerOp.forget context).about c) := by
  cases hanswer : (reads && writes)
  · rw [forget_unanswered hanswer]
    by_cases hc : context = c
    · by_cases howed : c ∈ l.unpersisted
      · simp [slot, Slot.step, LedgerOp.about, hanswer, hc, howed, mem_contexts_without]
      · simp [slot, Slot.step, LedgerOp.about, hanswer, hc, howed, mem_contexts_without]
    · by_cases howed : context ∈ l.unpersisted
      · simp [slot, Slot.step, LedgerOp.about, hanswer, hc, howed, mem_contexts_without, Ne.symm hc]
      · simp [slot, Slot.step, LedgerOp.about, hanswer, hc, howed, mem_contexts_without, Ne.symm hc]
  · rw [forget_answered hanswer, (storedGrants_written hK (distinct_owed hl context) hstore).2]
    by_cases hc : context = c
    · simp [slot, Slot.step, LedgerOp.about, hanswer, hc, mem_contexts_mergeGrants,
        mem_contexts_nextGrants]
    · simp [slot, Slot.step, LedgerOp.about, hanswer, hc, mem_contexts_mergeGrants,
        mem_contexts_nextGrants, mem_owedRemovals, mem_contexts_owed, holds, Ne.symm hc]

/-! ### What a call does -/

variable (kit document K) in
/-- What a call does to a tab's ledger and to the item of the store. -/
structure Effect (call : LedgerCall) (l : GrantLedger) (item : Option Wire)
    (next : GrantLedger × Option Wire) : Prop where
  slot : ∀ c, (next.1.slot c, holds kit document next.2 c) =
    (l.slot c).step call.reads call.writes (holds kit document item c) (call.op.about c)
  grants : Distinct kit K next.1.grants
  stored : Distinct kit K (storedGrants kit document next.2)
  /-- A grant that stays listed stays the same object, unless it is added again. -/
  sole : ∀ grant, Sole l.grants grant → call.op.about grant.context = .other →
    grant.context ∈ contexts next.1.grants → Sole next.1.grants grant
  added : ∀ grant, call.op = .add grant → Sole next.1.grants grant

theorem hydrate_effect (tab : Tab) (reads writes : Bool) (hl : l.grants = [])
    (hstore : Distinct kit K (storedGrants kit document item)) :
    Effect kit document K ⟨tab, .hydrate, reads, writes⟩ l item
      (l.hydrate kit document reads item, item) where
  slot := hydrate_slot l
  grants := by
    cases reads
    · exact Distinct.nil
    · exact hstore
  stored := hstore
  sole grant hsole := by
    rw [hl] at hsole
    exact (List.not_mem_nil hsole.1).elim
  added _ h := nomatch h

theorem add_effect (tab : Tab) (reads writes : Bool) (hK : K.card ≤ MAX_GRANTS)
    (hl : Distinct kit K l.grants) (hstore : Distinct kit K (storedGrants kit document item))
    (hreadable : Readable kit grant) (hknown : grant.context ∈ K) :
    Effect kit document K ⟨tab, .add grant, reads, writes⟩ l item
      (l.add kit document grant reads writes item) := by
  have hslot := add_slot reads writes hK hl hstore hreadable hknown
  have hother {held : SessionGrant} (h : (LedgerOp.add grant).about held.context = .other) :
      held.context ≠ grant.context := (context_ne_of_other h).1 grant rfl
  cases hanswer : (reads && writes)
  · rw [add_unanswered hanswer] at hslot ⊢
    have hnot : grant.context ∉ contexts (without l.grants grant.context) := fun h =>
      (mem_contexts_without.mp h).1 rfl
    refine ⟨hslot, (hl.without grant.context).cons hreadable hknown hnot, hstore, ?_, ?_⟩
    · intro held hsole habout _
      exact (hsole.without (hother habout)).cons (hother habout)
    · rintro _ ⟨⟩
      exact sole_cons hnot
  · rw [add_answered hanswer] at hslot ⊢
    have hadd := Distinct.added hl hreadable hknown
    have hnew := mem_contexts_added l grant (storedGrants kit document item)
    have hincoming : ∀ new ∈ some grant, Readable kit new ∧ new.context ∈ K := by
      rintro _ ⟨⟩
      exact ⟨hreadable, hknown⟩
    refine ⟨hslot, ?_, (storedGrants_written hK hadd hstore).1, ?_, ?_⟩
    · dsimp only
      exact hl.mergeGrants (hadd.nextGrants hstore) hincoming
    · intro held hsole habout hmem
      dsimp only at hmem ⊢
      refine hsole.mergeGrants ((mem_contexts_mergeGrants hnew).mp hmem) ?_
      rintro _ ⟨⟩
      exact hother habout
    · rintro _ ⟨⟩
      exact sole_mergeGrants _ _ _

theorem forget_effect (tab : Tab) (reads writes : Bool) (hK : K.card ≤ MAX_GRANTS)
    (hl : Distinct kit K l.grants) (hstore : Distinct kit K (storedGrants kit document item)) :
    Effect kit document K ⟨tab, .forget context, reads, writes⟩ l item
      (l.forget kit document context reads writes item) := by
  have hslot := forget_slot context reads writes hK hl hstore
  cases hanswer : (reads && writes)
  · rw [forget_unanswered hanswer] at hslot ⊢
    have hgrants : ∀ {p : Prop} [Decidable p] {unpersisted unremoved : List String},
        (if p then { l with grants := without l.grants context, unpersisted := unpersisted }
        else { l with grants := without l.grants context, unremoved := unremoved }).grants =
          without l.grants context := by
      intro p _ _ _
      split <;> rfl
    refine ⟨hslot, ?_, hstore, ?_, fun _ h => nomatch h⟩
    · rw [hgrants]
      exact hl.without context
    · intro held hsole habout _
      rw [hgrants]
      exact hsole.without ((context_ne_of_other habout).2 context rfl)
  · rw [forget_answered hanswer] at hslot ⊢
    have howed := distinct_owed hl context
    refine ⟨hslot, ?_, (storedGrants_written hK howed hstore).1, ?_, by simp⟩
    · dsimp only
      exact hl.mergeGrants (howed.nextGrants hstore) (by simp)
    · intro held hsole _ hmem
      dsimp only at hmem ⊢
      rw [mem_contexts_mergeGrants (by simp)] at hmem
      exact hsole.mergeGrants hmem (by simp)

end Calls

end GrantLedger

end Mapae.Studio
