import Mapae.Properties.ReadableGrants
import Mapae.Studio.GrantView

/-!
# The library neither loses nor resurrects a grant

Two tabs share one store, which may answer a read or a write or not.

* a grant that is added and forgotten by no tab stays in the list of its tab as the object last
  added, and is in the store from the tab's next answered call on
* a grant that is forgotten stays away until it is added again, if and only if the removal was
  clean: the tab must not mistake a stored grant for one that was never written
  (`readded_grant_returns`), and no other tab may still owe its addition
-/

namespace Mapae.Studio

open Mapae.Infra

section Ledger

variable {Delegation Wire : Type} (kit : DelegationKit Delegation) (document : HeaderCodec Wire)
  (K : Finset String)

/-- The grants that are added are readable, and of known contexts. -/
def LedgerCall.Accepted (call : LedgerCall) : Prop :=
  ∀ grant, call.op = .add grant → Readable kit grant ∧ grant.context ∈ K

/-- Whether the store answers the call. -/
def LedgerCall.answered (call : LedgerCall) : Bool := call.reads && call.writes

namespace BrowserState

/-- What a tab knows of a context. -/
def slot (s : BrowserState Wire) (tab : Tab) (c : String) : Slot := (s.tabs tab).ledger.slot c

/-- Whether the store holds a context. -/
def holds (s : BrowserState Wire) (c : String) : Bool := GrantLedger.holds kit document s.item c

/-- What holds in every state. -/
structure Sound (s : BrowserState Wire) : Prop where
  stored : Distinct kit K (storedGrants kit document s.item)
  grants : ∀ tab, Distinct kit K (s.tabs tab).ledger.grants
  fresh : ∀ tab, (s.tabs tab).hydrated = false → (s.tabs tab).ledger = .empty
  /-- What a tab still owes it also lists, and it does not owe its removal. -/
  owed : ∀ tab c, (s.slot tab c).unpersisted = true →
    (s.slot tab c).listed = true ∧ (s.slot tab c).unremoved = false

variable {kit document K} {s s' : BrowserState Wire} {call : LedgerCall}

variable (kit document K) in
/-- What a call does to the state. -/
structure Stepped (s s' : BrowserState Wire) (call : LedgerCall) : Prop where
  effect : GrantLedger.Effect kit document K call (s.tabs call.tab).ledger s.item
    ((s'.tabs call.tab).ledger, s'.item)
  others : ∀ tab, tab ≠ call.tab → s'.tabs tab = s.tabs tab
  hydrated : (s'.tabs call.tab).hydrated = true
  once : call.op = .hydrate ↔ (s.tabs call.tab).hydrated = false

@[simp] theorem put_tabs_self (s : BrowserState Wire) (tab : Tab)
    (next : GrantLedger × Option Wire) : (s.put tab next).tabs tab = ⟨true, next.1⟩ :=
  Function.update_self ..

theorem put_tabs_of_ne (s : BrowserState Wire) {tab other : Tab} (h : other ≠ tab)
    (next : GrantLedger × Option Wire) : (s.put tab next).tabs other = s.tabs other :=
  Function.update_of_ne h ..

/-- A change of one tab's ledger and of the item is a step, if it has the effect of the call. -/
theorem stepped_put {next : GrantLedger × Option Wire}
    (h : GrantLedger.Effect kit document K call (s.tabs call.tab).ledger s.item next)
    (honce : call.op = .hydrate ↔ (s.tabs call.tab).hydrated = false) :
    Stepped kit document K s (s.put call.tab next) call where
  effect := by
    rw [put_tabs_self]
    exact h
  others tab hne := put_tabs_of_ne s hne next
  hydrated := by rw [put_tabs_self]
  once := honce

/-- **What an accepted call does.** -/
theorem stepped_of_act (hK : K.card ≤ MAX_GRANTS) (hs : Sound kit document K s)
    (hcall : call.Accepted kit K) (h : act kit document s call = some s') :
    Stepped kit document K s s' call := by
  obtain ⟨tab, op, reads, writes⟩ := call
  cases op with
  | hydrate =>
    simp only [act] at h
    split at h
    · cases h
    · next hfresh =>
      cases h
      have hfresh : (s.tabs tab).hydrated = false := by simpa using hfresh
      have hempty : (s.tabs tab).ledger.grants = [] := by
        rw [hs.fresh tab hfresh]
        rfl
      exact stepped_put (GrantLedger.hydrate_effect tab reads writes hempty hs.stored) (by simp [hfresh])
  | add grant =>
    obtain ⟨hreadable, hknown⟩ := hcall grant rfl
    simp only [act, Option.ite_none_right_eq_some] at h
    obtain ⟨hhydrated, h⟩ := h
    cases h
    exact stepped_put (GrantLedger.add_effect tab reads writes hK (hs.grants tab) hs.stored hreadable
      hknown) (by simp [hhydrated])
  | forget context =>
    simp only [act, Option.ite_none_right_eq_some] at h
    obtain ⟨hhydrated, h⟩ := h
    cases h
    exact stepped_put (GrantLedger.forget_effect tab reads writes hK (hs.grants tab) hs.stored)
      (by simp [hhydrated])

namespace Stepped

variable (h : Stepped kit document K s s' call)

include h

/-- The bits of the calling tab. -/
theorem slot_self (c : String) : s'.slot call.tab c =
    ((s.slot call.tab c).step call.reads call.writes (s.holds kit document c) (call.op.about c)).1 :=
  congrArg Prod.fst (h.effect.slot c)

theorem holds_step (c : String) : s'.holds kit document c =
    ((s.slot call.tab c).step call.reads call.writes (s.holds kit document c) (call.op.about c)).2 :=
  congrArg Prod.snd (h.effect.slot c)

theorem slot_other {tab : Tab} (hne : tab ≠ call.tab) (c : String) : s'.slot tab c = s.slot tab c := by
  rw [slot, h.others tab hne, slot]

end Stepped

/-- **Every call keeps the state sound.** -/
theorem Sound.step (hs : Sound kit document K s)
    (h : Stepped kit document K s s' call) : Sound kit document K s' where
  stored := h.effect.stored
  grants tab := by
    by_cases htab : tab = call.tab
    · exact htab ▸ h.effect.grants
    · rw [h.others tab htab]
      exact hs.grants tab
  fresh tab hfresh := by
    by_cases htab : tab = call.tab
    · rw [htab, h.hydrated] at hfresh
      cases hfresh
    · rw [h.others tab htab] at hfresh ⊢
      exact hs.fresh tab hfresh
  owed tab c := by
    by_cases htab : tab = call.tab
    · subst htab
      rw [h.slot_self c]
      refine Slot.step_owed _ _ _ (hs.owed call.tab c) fun hop => ?_
      rw [slot, hs.fresh call.tab (h.once.mp (about_eq_hydrate.mp hop))]
      rfl
    · rw [h.slot_other htab]
      exact hs.owed tab c

/-! ### A grant that is kept -/

variable {grant : SessionGrant} {c : String}

/-- Nobody owes the store a removal of the context. -/
def Unremoved (c : String) (s : BrowserState Wire) : Prop :=
  ∀ tab, (s.slot tab c).unremoved = false

theorem Stepped.unremoved (h : Stepped kit document K s s' call) (hs : Unremoved c s)
    (hop : call.op.about c ≠ .forget) : Unremoved c s' ∧
      (s.holds kit document c = true → s'.holds kit document c = true) := by
  obtain ⟨hslot, hholds⟩ := Slot.step_not_forget call.reads call.writes
    (s.holds kit document c) hop (hs call.tab)
  refine ⟨fun tab => ?_, ?_⟩
  · by_cases htab : tab = call.tab
    · rw [htab, h.slot_self]
      exact hslot
    · rw [h.slot_other htab]
      exact hs tab
  · rw [h.holds_step]
    exact hholds

variable (kit document) in
/-- The tab has the grant, nobody owes its removal, and the store has it or is owed it. -/
structure Kept (tab : Tab) (grant : SessionGrant) (s : BrowserState Wire) : Prop where
  hydrated : (s.tabs tab).hydrated = true
  sole : Sole (s.tabs tab).ledger.grants grant
  unremoved : Unremoved grant.context s
  held : (s.slot tab grant.context).unpersisted = true ∨ s.holds kit document grant.context = true

theorem listed_of_sole {tab : Tab} (h : Sole (s.tabs tab).ledger.grants grant) :
    (s.slot tab grant.context).listed = true :=
  decide_eq_true (mem_contexts.mpr ⟨grant, h.1, rfl⟩)

/-- **An added grant is kept**, and is in the store if the store answered. -/
theorem Stepped.kept_of_add (h : Stepped kit document K s s' call) (hop : call.op = .add grant)
    (hs : Unremoved grant.context s) : Kept kit document call.tab grant s' ∧
      (call.answered = true → s'.holds kit document grant.context = true) := by
  have habout : call.op.about grant.context = .add := by
    rw [hop]
    exact if_pos rfl
  have hslot := h.slot_self grant.context
  have hholds := h.holds_step grant.context
  rw [habout] at hslot hholds
  have hunremoved := (h.unremoved hs (by rw [habout]; decide)).1
  cases hanswer : call.answered
  · rw [LedgerCall.answered] at hanswer
    refine ⟨⟨h.hydrated, h.effect.added grant hop, hunremoved, Or.inl ?_⟩, nofun⟩
    rw [hslot]
    simp [Slot.step, hanswer]
  · rw [LedgerCall.answered] at hanswer
    have hheld : s'.holds kit document grant.context = true := by
      rw [hholds]
      simp [Slot.step, hanswer]
    exact ⟨⟨h.hydrated, h.effect.added grant hop, hunremoved, Or.inr hheld⟩, fun _ => hheld⟩

/-- **A kept grant stays kept**, and gets into the store with the tab's next answered call. -/
theorem Stepped.kept (h : Stepped kit document K s s' call) {tab : Tab}
    (hs : Kept kit document tab grant s) (hforget : call.op.about grant.context ≠ .forget)
    (hadd : call.tab = tab → call.op.about grant.context ≠ .add) :
    Kept kit document tab grant s' ∧
      (s.holds kit document grant.context = true → s'.holds kit document grant.context = true) ∧
      (call.tab = tab → call.answered = true → s'.holds kit document grant.context = true) := by
  obtain ⟨hunremoved, hmono⟩ := h.unremoved hs.unremoved hforget
  by_cases htab : call.tab = tab
  · subst htab
    have hother : call.op.about grant.context = .other := by
      cases habout : call.op.about grant.context with
      | hydrate =>
        have hfresh := h.once.mp (about_eq_hydrate.mp habout)
        rw [hs.hydrated] at hfresh
        cases hfresh
      | add => exact absurd habout (hadd rfl)
      | forget => exact absurd habout hforget
      | other => rfl
    obtain ⟨hlisted, howed, hanswered⟩ := Slot.step_kept call.reads
      call.writes _ hother (hs.unremoved call.tab) (listed_of_sole hs.sole) hs.held
    rw [← h.slot_self] at hlisted howed
    rw [← h.holds_step] at howed hanswered
    exact ⟨⟨h.hydrated, h.effect.sole grant hs.sole hother (of_decide_eq_true hlisted), hunremoved,
      howed⟩, hmono, fun _ => hanswered⟩
  · have hsame := h.others tab (Ne.symm htab)
    refine ⟨⟨hsame ▸ hs.hydrated, hsame ▸ hs.sole, hunremoved, ?_⟩, hmono, fun h => absurd h htab⟩
    rw [h.slot_other (Ne.symm htab)]
    exact hs.held.imp_right hmono

/-! ### A grant that is gone -/

variable (kit document) in
/-- The tab does not list the context, nobody owes its addition, and the store does not have it or
is owed its removal. -/
structure Gone (tab : Tab) (c : String) (s : BrowserState Wire) : Prop where
  hydrated : (s.tabs tab).hydrated = true
  unlisted : (s.slot tab c).listed = false
  unpersisted : ∀ other, (s.slot other c).unpersisted = false
  held : (s.slot tab c).unremoved = true ∨ s.holds kit document c = false

/-- **A context that is gone stays away**, and leaves the store with the tab's next answered call. -/
theorem Stepped.gone (h : Stepped kit document K s s' call) {tab : Tab}
    (hs : Gone kit document tab c s) (hadd : call.op.about c ≠ .add) :
    Gone kit document tab c s' ∧
      (s.holds kit document c = false → s'.holds kit document c = false) ∧
      (call.tab = tab → call.answered = true → s'.holds kit document c = false) := by
  obtain ⟨hslot, hmono⟩ := Slot.step_not_add call.reads call.writes
    (s.holds kit document c) hadd (hs.unpersisted call.tab)
  rw [← h.slot_self] at hslot
  rw [← h.holds_step] at hmono
  have hunpersisted (other : Tab) : (s'.slot other c).unpersisted = false := by
    by_cases htab : other = call.tab
    · rw [htab]
      exact hslot
    · rw [h.slot_other htab]
      exact hs.unpersisted other
  by_cases htab : call.tab = tab
  · subst htab
    have hop : call.op.about c = .other ∨ call.op.about c = .forget := by
      cases habout : call.op.about c with
      | hydrate =>
        have hfresh := h.once.mp (about_eq_hydrate.mp habout)
        rw [hs.hydrated] at hfresh
        cases hfresh
      | add => exact absurd habout hadd
      | forget => exact Or.inr rfl
      | other => exact Or.inl rfl
    obtain ⟨hlisted, howed, hanswered⟩ := Slot.step_gone call.reads
      call.writes _ hop (hs.unpersisted call.tab) hs.unlisted hs.held
    rw [← h.slot_self] at hlisted howed
    rw [← h.holds_step] at howed hanswered
    exact ⟨⟨h.hydrated, hlisted, hunpersisted, howed⟩, hmono, fun _ => hanswered⟩
  · have hsame := h.others tab (Ne.symm htab)
    refine ⟨⟨hsame ▸ hs.hydrated, ?_, hunpersisted, ?_⟩, hmono, fun h => absurd h htab⟩
    · rw [h.slot_other (Ne.symm htab)]
      exact hs.unlisted
    · rw [h.slot_other (Ne.symm htab)]
      exact hs.held.imp_right hmono

variable (kit document) in
/--
A removal that is clean. The tab must not believe that the store never held the grant when it does,
and no other tab may owe its addition.
-/
structure CleanForget (tab : Tab) (c : String) (answered : Bool) (s : BrowserState Wire) : Prop where
  known : answered = false → c ∈ (s.tabs tab).ledger.unpersisted →
    c ∉ contexts (storedGrants kit document s.item)
  unowed : ∀ other, other ≠ tab → c ∉ (s.tabs other).ledger.unpersisted

theorem about_forget (c : String) : (LedgerOp.forget c).about c = .forget := if_pos rfl

/-- **A context is gone after a clean removal.** -/
theorem Stepped.gone_of_forget (h : Stepped kit document K s s' call) (hop : call.op = .forget c)
    (hclean : CleanForget kit document call.tab c call.answered s) :
    Gone kit document call.tab c s' ∧
      (call.answered = true → s'.holds kit document c = false) := by
  have hslot := h.slot_self c
  have hholds := h.holds_step c
  rw [hop, about_forget] at hslot hholds
  have hself : (s'.slot call.tab c).listed = false ∧ (s'.slot call.tab c).unpersisted = false := by
    rw [hslot]
    exact Slot.step_forget _ _ _
  have hothers (other : Tab) : (s'.slot other c).unpersisted = false := by
    by_cases htab : other = call.tab
    · rw [htab]
      exact hself.2
    · rw [h.slot_other htab]
      exact decide_eq_false (hclean.unowed other htab)
  have hanswered : call.answered = true → s'.holds kit document c = false := by
    intro hanswer
    rw [LedgerCall.answered] at hanswer
    rw [hholds]
    simp [Slot.step, hanswer]
  refine ⟨⟨h.hydrated, hself.1, hothers, ?_⟩, hanswered⟩
  cases hanswer : call.answered
  · rw [hslot, hholds]
    have hknown := hclean.known hanswer
    rw [LedgerCall.answered] at hanswer
    by_cases howed : c ∈ (s.tabs call.tab).ledger.unpersisted
    · right
      simp [Slot.step, hanswer, slot, GrantLedger.slot, howed, holds, GrantLedger.holds, hknown howed]
    · left
      simp [Slot.step, hanswer, slot, GrantLedger.slot, howed]
  · exact Or.inr (hanswered hanswer)

/-! ### A grant that returns -/

/-- There is another context. -/
theorem exists_context_ne (c : String) : ∃ d : String, d ≠ c := by
  by_cases h : c = ""
  · exact ⟨"0", by rw [h]; decide⟩
  · exact ⟨"", Ne.symm h⟩

/-- **An answered call of a tab lists what the store holds and the tab does not remove.** -/
theorem Stepped.listed_of_answered (h : Stepped kit document K s s' call)
    (hop : call.op.about c = .other) (hanswer : call.answered = true)
    (hunremoved : (s.slot call.tab c).unremoved = false)
    (hheld : s.holds kit document c = true ∨
      (s.slot call.tab c).unpersisted = true ∧ (s.slot call.tab c).listed = true) :
    (s'.slot call.tab c).listed = true ∧ s'.holds kit document c = true := by
  rw [h.slot_self, h.holds_step, hop]
  rw [LedgerCall.answered] at hanswer
  rcases hheld with hheld | ⟨howed, hlisted⟩
  · simp [Slot.step, hanswer, hunremoved, hheld]
  · simp [Slot.step, hanswer, hunremoved, howed, hlisted]

/-! ### Runs -/

/-- The initial state is sound. -/
theorem sound_start {item : Option Wire} (hitem : Distinct kit K (storedGrants kit document item)) :
    Sound kit document K (start item) where
  stored := hitem
  grants _ := Distinct.nil
  fresh _ _ := rfl
  owed _ _ h := nomatch h

theorem sound_run (hK : K.card ≤ MAX_GRANTS) {calls : List LedgerCall}
    (hcalls : ∀ call ∈ calls, call.Accepted kit K) (hs : Sound kit document K s)
    (hrun : System.performAll (act kit document) s calls = some s') : Sound kit document K s' :=
  System.performAll_invariant (fun _ _ _ hcall hs hact => hs.step (stepped_of_act hK hs hcall hact))
    hcalls hs hrun

theorem unremoved_run (hK : K.card ≤ MAX_GRANTS) {calls : List LedgerCall}
    (hcalls : ∀ call ∈ calls, call.Accepted kit K ∧ call.op.about c ≠ .forget)
    (hs : Sound kit document K s) (hunremoved : Unremoved c s)
    (hrun : System.performAll (act kit document) s calls = some s') : Unremoved c s' := by
  refine (System.performAll_invariant (P := fun s => Sound kit document K s ∧ Unremoved c s)
    (fun s call s' hcall hs hact => ?_) hcalls ⟨hs, hunremoved⟩ hrun).2
  have hstep := stepped_of_act hK hs.1 hcall.1 hact
  exact ⟨hs.1.step hstep, (hstep.unremoved hs.2 hcall.2).1⟩

/-- **A kept grant is kept by every run** that neither forgets it nor adds it in its tab. -/
theorem kept_run (hK : K.card ≤ MAX_GRANTS) {tab : Tab} {calls : List LedgerCall}
    (hcalls : ∀ call ∈ calls, call.Accepted kit K ∧ call.op.about grant.context ≠ .forget ∧
      (call.tab = tab → call.op.about grant.context ≠ .add))
    (hs : Sound kit document K s) (hkept : Kept kit document tab grant s)
    (hrun : System.performAll (act kit document) s calls = some s') :
    Kept kit document tab grant s' ∧ ((s.holds kit document grant.context = true ∨
      ∃ call ∈ calls, call.tab = tab ∧ call.answered = true) →
        s'.holds kit document grant.context = true) := by
  obtain ⟨⟨-, hkept⟩, hheld⟩ := System.performAll_latch
    (P := fun s => Sound kit document K s ∧ Kept kit document tab grant s)
    (Q := fun s => s.holds kit document grant.context = true)
    (T := fun call : LedgerCall => call.tab = tab ∧ call.answered = true)
    (fun s call s' hcall hs hact => by
      have hstep := stepped_of_act hK hs.1 hcall.1 hact
      obtain ⟨hkept, hmono, hanswered⟩ := hstep.kept hs.2 hcall.2.1 hcall.2.2
      exact ⟨⟨hs.1.step hstep, hkept⟩, hmono, fun h => hanswered h.1 h.2⟩) hcalls ⟨hs, hkept⟩ hrun
  exact ⟨hkept, hheld⟩

/-- **A context that is gone stays away in every run** that does not add it. -/
theorem gone_run (hK : K.card ≤ MAX_GRANTS) {tab : Tab} {calls : List LedgerCall}
    (hcalls : ∀ call ∈ calls, call.Accepted kit K ∧ call.op.about c ≠ .add)
    (hs : Sound kit document K s) (hgone : Gone kit document tab c s)
    (hrun : System.performAll (act kit document) s calls = some s') :
    Gone kit document tab c s' ∧ ((s.holds kit document c = false ∨
      ∃ call ∈ calls, call.tab = tab ∧ call.answered = true) → s'.holds kit document c = false) := by
  obtain ⟨⟨-, hgone⟩, hheld⟩ := System.performAll_latch
    (P := fun s => Sound kit document K s ∧ Gone kit document tab c s)
    (Q := fun s => s.holds kit document c = false)
    (T := fun call : LedgerCall => call.tab = tab ∧ call.answered = true)
    (fun s call s' hcall hs hact => by
      have hstep := stepped_of_act hK hs.1 hcall.1 hact
      obtain ⟨hgone, hmono, hanswered⟩ := hstep.gone hs.2 hcall.2
      exact ⟨⟨hs.1.step hstep, hgone⟩, hmono, fun h => hanswered h.1 h.2⟩) hcalls ⟨hs, hgone⟩ hrun
  exact ⟨hgone, hheld⟩

variable (kit document K) in
/-- Whatever the tabs do next without adding the context, the tab does not list it, and the store does
not hold it once a call of the tab was answered. -/
def Forgotten (tab : Tab) (c : String) (answered : Bool) (s : BrowserState Wire) : Prop :=
  ∀ post s', (∀ call ∈ post, call.Accepted kit K ∧ call.op.about c ≠ .add) →
    System.performAll (act kit document) s post = some s' →
    c ∉ contexts (s'.tabs tab).ledger.grants ∧
      ((answered = true ∨ ∃ call ∈ post, call.tab = tab ∧ call.answered = true) →
        c ∉ contexts (storedGrants kit document s'.item))

theorem Gone.forgotten (hK : K.card ≤ MAX_GRANTS) {tab : Tab} {answered : Bool}
    (hs : Sound kit document K s) (hgone : Gone kit document tab c s)
    (hanswered : answered = true → s.holds kit document c = false) :
    Forgotten kit document K tab c answered s := by
  intro post s' hpost hrun
  obtain ⟨hgone', hheld⟩ := gone_run hK hpost hs hgone hrun
  exact ⟨of_decide_eq_false hgone'.unlisted, fun h =>
    of_decide_eq_false (hheld (h.imp_left hanswered))⟩

/-- A hydrated tab can always remove something else, and the store may answer. -/
theorem exists_forget (hK : K.card ≤ MAX_GRANTS) (hs : Sound kit document K s) {tab : Tab}
    (hhydrated : (s.tabs tab).hydrated = true) (c : String) :
    ∃ call s', call.tab = tab ∧ call.answered = true ∧ call.op.about c = .other ∧
      call.Accepted kit K ∧ act kit document s call = some s' ∧ Stepped kit document K s s' call := by
  obtain ⟨d, hd⟩ := exists_context_ne c
  have hcall : LedgerCall.Accepted kit K ⟨tab, .forget d, true, true⟩ := fun _ h => nomatch h
  have hact : act kit document s ⟨tab, .forget d, true, true⟩ =
      some (s.put tab ((s.tabs tab).ledger.forget kit document d true true s.item)) := by
    rw [act]
    exact if_pos hhydrated
  exact ⟨⟨tab, .forget d, true, true⟩, _, rfl, rfl, if_neg hd, hcall, hact,
    stepped_of_act hK hs hcall hact⟩

/-- **A removal that is not clean can be undone** by calls that do not add the context. -/
theorem clean_of_forgotten (hK : K.card ≤ MAX_GRANTS) (hs : Sound kit document K s)
    (hcall : call.Accepted kit K) (hop : call.op = .forget c)
    (hact : act kit document s call = some s')
    (h : Forgotten kit document K call.tab c call.answered s') :
    CleanForget kit document call.tab c call.answered s := by
  have hstep := stepped_of_act hK hs hcall hact
  have hs' := hs.step hstep
  refine ⟨fun hanswer howed hheld => ?_, fun other hne howed => ?_⟩
  · -- the tab's next answered call finds the grant in the store, and owes no removal
    have hslot := hstep.slot_self c
    have hholds := hstep.holds_step c
    rw [hop, about_forget] at hslot hholds
    obtain ⟨-, hunremoved⟩ := hs.owed call.tab c (decide_eq_true howed)
    have hstored : s.holds kit document c = true := decide_eq_true hheld
    have howed' : (s.slot call.tab c).unpersisted = true := decide_eq_true howed
    rw [LedgerCall.answered] at hanswer
    obtain ⟨next, s₂, htab, hnext, hother, hok, hact₂, hstep₂⟩ := exists_forget hK hs' hstep.hydrated c
    have hback := (hstep₂.listed_of_answered hother hnext (by
      rw [htab, hslot]
      simp [Slot.step, hanswer, howed', hunremoved]) (Or.inl (by
      rw [hholds]
      simp [Slot.step, hanswer, howed', hstored]))).1
    have hgone := (h [next] s₂ (by simp [hok, hother]) (by simp [System.performAll, hact₂])).1
    rw [htab] at hback
    exact hgone (of_decide_eq_true hback)
  · -- the other tab writes what it owes, and the tab reads it
    obtain ⟨next, s₂, htab, hnext, hother, hok, hact₂, hstep₂⟩ := exists_forget hK hs' hstep.hydrated c
    have hs₂ := hs'.step hstep₂
    have hsame : s₂.slot other c = s.slot other c := by
      rw [hstep₂.slot_other (htab ▸ hne), hstep.slot_other hne]
    have hhydrated : (s₂.tabs other).hydrated = true := by
      cases hfresh : (s₂.tabs other).hydrated with
      | true => rfl
      | false =>
        have hempty : (s₂.slot other c).unpersisted = false := by
          rw [slot, hs₂.fresh other hfresh]
          rfl
        rw [hsame] at hempty
        exact absurd howed (of_decide_eq_false hempty)
    obtain ⟨write, s₃, hwtab, hwrite, hwother, hwok, hact₃, hstep₃⟩ := exists_forget hK hs₂ hhydrated c
    have hs₃ := hs₂.step hstep₃
    have howed' : (s.slot other c).unpersisted = true := decide_eq_true howed
    obtain ⟨hlisted, hunremoved⟩ := hs.owed other c howed'
    have hstored := (hstep₃.listed_of_answered hwother hwrite (by rw [hwtab, hsame, hunremoved])
      (Or.inr (by rw [hwtab, hsame]; exact ⟨howed', hlisted⟩))).2
    have hkept : s₃.tabs call.tab = s₂.tabs call.tab := hstep₃.others _ (hwtab ▸ Ne.symm hne)
    have hready : (s₃.tabs call.tab).hydrated = true := by
      rw [hkept, ← htab]
      exact hstep₂.hydrated
    obtain ⟨read, s₄, hrtab, hread, hrother, hrok, hact₄, hstep₄⟩ := exists_forget hK hs₃ hready c
    have hback := (hstep₄.listed_of_answered hrother hread (by
      rw [hrtab, slot, hkept, ← htab]
      have hslot₂ := hstep₂.slot_self c
      rw [hother] at hslot₂
      rw [LedgerCall.answered] at hnext
      rw [slot] at hslot₂
      rw [hslot₂]
      simp [Slot.step, hnext]) (Or.inl hstored)).1
    have hgone := (h [next, write, read] s₄ (by simp [hok, hother, hwok, hwother, hrok, hrother])
      (by simp [System.performAll, hact₂, hact₃, hact₄])).1
    rw [hrtab] at hback
    exact hgone (of_decide_eq_true hback)

/-- **A removal is for good exactly if it is clean.** -/
theorem forgotten_iff (hK : K.card ≤ MAX_GRANTS) (hs : Sound kit document K s)
    (hcall : call.Accepted kit K) (hop : call.op = .forget c)
    (hact : act kit document s call = some s') :
    Forgotten kit document K call.tab c call.answered s' ↔
      CleanForget kit document call.tab c call.answered s := by
  refine ⟨clean_of_forgotten hK hs hcall hop hact, fun hclean => ?_⟩
  have hstep := stepped_of_act hK hs hcall hact
  obtain ⟨hgone, hanswered⟩ := hstep.gone_of_forget hop hclean
  exact hgone.forgotten hK (hs.step hstep) hanswered

/--
**The library neither loses nor resurrects a grant.**

At the end of every run of two tabs that starts from a store the app wrote:

* a grant that a tab added, and that no tab forgot, is in that tab's list as the object the tab last
  added, and in the store once a call of the tab was answered
* a context that a tab forgets now stays out of its list, and out of the store once a call of the tab
  was answered, until it is added again, exactly if the removal is clean
-/
theorem grant_ledger_held (hK : K.card ≤ MAX_GRANTS) {item : Option Wire}
    (hitem : Distinct kit K (storedGrants kit document item)) {calls : List LedgerCall}
    (hcalls : ∀ call ∈ calls, call.Accepted kit K)
    (hrun : System.performAll (act kit document) (start item) calls = some s) :
    (∀ call grant pre post, calls = pre ++ call :: post → call.op = .add grant →
      (∀ other ∈ calls, other.op.about grant.context ≠ .forget) →
      (∀ other ∈ post, other.tab = call.tab → other.op.about grant.context ≠ .add) →
      Sole (s.tabs call.tab).ledger.grants grant ∧
        ((∃ other ∈ call :: post, other.tab = call.tab ∧ other.answered = true) →
          grant.context ∈ contexts (storedGrants kit document s.item))) ∧
    ∀ call c s', call.op = .forget c → act kit document s call = some s' →
      (Forgotten kit document K call.tab c call.answered s' ↔
        CleanForget kit document call.tab c call.answered s) := by
  refine ⟨?_, fun call c s' hop hact => ?_⟩
  · rintro call grant pre post rfl hop hforget hadd
    simp only [List.forall_mem_append, List.forall_mem_cons] at hcalls hforget
    obtain ⟨hpre, hcall, hpost⟩ := hcalls
    obtain ⟨hfpre, -, hfpost⟩ := hforget
    rw [System.performAll_append, Option.bind_eq_some_iff] at hrun
    obtain ⟨s₁, hrun₁, hrun⟩ := hrun
    obtain ⟨s₂, hact, hrun⟩ := Option.bind_eq_some_iff.mp hrun
    have hs₁ := sound_run hK hpre (sound_start hitem) hrun₁
    have hunremoved : Unremoved grant.context s₁ :=
      unremoved_run hK (fun call h => ⟨hpre call h, hfpre call h⟩) (sound_start hitem) (fun _ => rfl) hrun₁
    have hstep := stepped_of_act hK hs₁ hcall hact
    obtain ⟨hkept, hanswered⟩ := hstep.kept_of_add hop hunremoved
    obtain ⟨hkept', hheld⟩ := kept_run hK (fun call h => ⟨hpost call h, hfpost call h, hadd call h⟩)
      (hs₁.step hstep) hkept hrun
    refine ⟨hkept'.sole, ?_⟩
    rintro ⟨other, hmem, htab, hanswer⟩
    refine of_decide_eq_true (hheld ?_)
    rcases List.mem_cons.mp hmem with rfl | hmem
    · exact Or.inl (hanswered hanswer)
    · exact Or.inr ⟨other, hmem, htab, hanswer⟩
  · have haccepted : call.Accepted kit K := by
      intro grant hadd
      rw [hop] at hadd
      cases hadd
    exact forgotten_iff hK (sound_run hK hcalls (sound_start hitem) hrun) haccepted hop hact

end BrowserState

end Ledger

/-! ## Two tabs -/

/-- A grant of the plain kit. -/
def plainGrant : SessionGrant := arcadeGrant (plainArtifact "arcade") "제기 차는 쇠돌이"

/-- A grant of another context. -/
def otherGrant : SessionGrant :=
  arcadeGrant { plainArtifact "arcade" with permissionContext := "0x00" } "제기 차는 쇠돌이"

theorem readable_plainGrant : Readable plainKit plainGrant where
  named := by decide +kernel
  name := by decide +kernel
  created := by decide
  created_safe := by decide
  hex := by decide
  decodes := ⟨(), [], by decide⟩

theorem grant_ledger_held_twoTabs :
    ∃ s, System.performAll (BrowserState.act plainKit .plain) (BrowserState.start none)
      [⟨.first, .hydrate, true, true⟩, ⟨.first, .add plainGrant, true, false⟩,
        ⟨.second, .hydrate, true, true⟩, ⟨.first, .forget "0x", true, true⟩] = some s ∧
      Sole (s.tabs .first).ledger.grants plainGrant ∧
      plainGrant.context ∈ contexts (storedGrants plainKit .plain s.item) := by
  have hcalls : ∀ call ∈ [(⟨.first, .hydrate, true, true⟩ : LedgerCall),
      ⟨.first, .add plainGrant, true, false⟩, ⟨.second, .hydrate, true, true⟩,
      ⟨.first, .forget "0x", true, true⟩], call.Accepted plainKit {"0x0"} := by
    simp [LedgerCall.Accepted, readable_plainGrant]
    rfl
  refine ⟨_, rfl, ?_⟩
  have hitem : Distinct plainKit {"0x0"} (storedGrants plainKit .plain none) := Distinct.nil
  obtain ⟨hsole, hstored⟩ := (BrowserState.grant_ledger_held (by decide) hitem hcalls rfl).1
    ⟨.first, .add plainGrant, true, false⟩ plainGrant [_] [_, _] rfl rfl (by decide) (by decide)
  exact ⟨hsole, hstored ⟨⟨.first, .forget "0x", true, true⟩, by simp, rfl, rfl⟩⟩

/--
**A grant that is added, forgotten, added again and forgotten again comes back.** The store did not
answer the last three of these calls; the tab then believes that the store never held the grant.
-/
theorem readded_grant_returns :
    ∃ s, System.performAll (BrowserState.act plainKit .plain) (BrowserState.start none)
      [⟨.first, .hydrate, true, true⟩, ⟨.first, .add plainGrant, true, true⟩,
        ⟨.first, .forget plainGrant.context, true, false⟩, ⟨.first, .add plainGrant, true, false⟩,
        ⟨.first, .forget plainGrant.context, true, false⟩,
        ⟨.first, .add otherGrant, true, true⟩] = some s ∧
      plainGrant.context ∈ contexts (s.tabs .first).ledger.grants ∧
      plainGrant.context ∈ contexts (storedGrants plainKit .plain s.item) := by
  refine ⟨_, rfl, ?_, ?_⟩
  · decide +kernel
  · decide +kernel

end Mapae.Studio
