import Mapae.Infra.Transition
import Mapae.Studio.GrantStore

/-!
# The grant library

Each tab of the browser keeps a list of grants, and what it still owes the store: grants that were
never written and removals that were never made.

* `GrantLedger.add` and `GrantLedger.forget` are the two changes; the store may answer or not
* `BrowserState.act` is a call of one of two tabs over one store
-/

namespace Mapae.Studio

open Mapae.Infra

/-- The store decides which grants exist, memory which object stands for each. -/
def mergeGrants (current persisted : List SessionGrant) (incoming : Option SessionGrant) :
    List SessionGrant :=
  let kept := (persisted.filter fun record => incoming.all fun grant => record.context ≠ grant.context).map
    fun record => (current.find? fun item => item.context = record.context).getD record
  match incoming with
  | some grant => grant :: kept
  | none => kept

/-- `without`. -/
def without (grants : List SessionGrant) (context : String) : List SessionGrant :=
  grants.filter fun item => item.context ≠ context

/-! ## Merging -/

section Merge

variable {current persisted grants : List SessionGrant} {incoming : Option SessionGrant}
  {grant record new : SessionGrant}

/-- The object that stands for a record of the store. -/
def standIn (current : List SessionGrant) (record : SessionGrant) : SessionGrant :=
  (current.find? fun item => item.context = record.context).getD record

/-- The grant is in the list, and the only one with its context. -/
def Sole (grants : List SessionGrant) (grant : SessionGrant) : Prop :=
  grant ∈ grants ∧ ∀ item ∈ grants, item.context = grant.context → item = grant

theorem standIn_eq_or (current : List SessionGrant) (record : SessionGrant) :
    standIn current record = record ∨
      standIn current record ∈ current ∧ (standIn current record).context = record.context := by
  unfold standIn
  cases hfind : current.find? fun item : SessionGrant => item.context = record.context with
  | none => exact Or.inl rfl
  | some item =>
    exact Or.inr ⟨List.mem_of_find?_eq_some hfind,
      of_decide_eq_true (List.find?_some (p := fun item : SessionGrant =>
        decide (item.context = record.context)) hfind)⟩

theorem context_standIn (current : List SessionGrant) (record : SessionGrant) :
    (standIn current record).context = record.context :=
  (standIn_eq_or current record).elim (congrArg _) And.right

/-- **The object in memory stands for its record.** -/
theorem standIn_of_sole (h : Sole current grant) (hcontext : record.context = grant.context) :
    standIn current record = grant := by
  unfold standIn
  cases hfind : current.find? fun item : SessionGrant => item.context = record.context with
  | none =>
    have hnot := List.find?_eq_none.mp hfind grant h.1
    rw [hcontext] at hnot
    exact absurd (decide_eq_true rfl) hnot
  | some item =>
    have heq := List.find?_some (p := fun item : SessionGrant =>
      decide (item.context = record.context)) hfind
    exact h.2 item (List.mem_of_find?_eq_some hfind) ((of_decide_eq_true heq).trans hcontext)

theorem mergeGrants_none (current persisted : List SessionGrant) :
    mergeGrants current persisted none = persisted.map (standIn current) := by
  have hall : (persisted.filter fun _ => true) = persisted := List.filter_eq_self.mpr fun _ _ => rfl
  exact congrArg (List.map _) hall

theorem mergeGrants_some (current persisted : List SessionGrant) (new : SessionGrant) :
    mergeGrants current persisted (some new) =
      new :: (without persisted new.context).map (standIn current) := rfl

theorem contexts_map_standIn (current persisted : List SessionGrant) :
    contexts (persisted.map (standIn current)) = contexts persisted := by
  rw [contexts, contexts, List.map_map]
  exact List.map_congr_left fun record _ => context_standIn current record

theorem mem_contexts_without {context c : String} :
    c ∈ contexts (without grants context) ↔ c ≠ context ∧ c ∈ contexts grants := by
  simp only [mem_contexts, without, List.mem_filter, decide_eq_true_eq]
  constructor
  · rintro ⟨grant, ⟨hgrant, hne⟩, rfl⟩
    exact ⟨hne, grant, hgrant, rfl⟩
  · rintro ⟨hne, grant, hgrant, rfl⟩
    exact ⟨grant, ⟨hgrant, hne⟩, rfl⟩

theorem mem_contexts_cons {c : String} :
    c ∈ contexts (new :: grants) ↔ c = new.context ∨ c ∈ contexts grants := List.mem_cons

/-- A list keeps its object for a context through a change of another. -/
theorem Sole.without (h : Sole grants grant) {context : String} (hne : grant.context ≠ context) :
    Sole (without grants context) grant :=
  ⟨List.mem_filter.mpr ⟨h.1, decide_eq_true hne⟩, fun item hitem =>
    h.2 item (List.mem_filter.mp hitem).1⟩

theorem Sole.cons (h : Sole grants grant) (hne : grant.context ≠ new.context) :
    Sole (new :: grants) grant := by
  refine ⟨List.mem_cons_of_mem _ h.1, fun item hitem hcontext => ?_⟩
  rcases List.mem_cons.mp hitem with rfl | hitem
  · exact absurd hcontext.symm hne
  · exact h.2 item hitem hcontext

theorem sole_cons (hnot : grant.context ∉ contexts grants) : Sole (grant :: grants) grant := by
  refine ⟨List.mem_cons_self, fun item hitem hcontext => ?_⟩
  rcases List.mem_cons.mp hitem with rfl | hitem
  · rfl
  · exact absurd (mem_contexts.mpr ⟨item, hitem, hcontext⟩) hnot

theorem Sole.map_standIn (h : Sole current grant) (hmem : grant.context ∈ contexts persisted) :
    Sole (persisted.map (standIn current)) grant := by
  obtain ⟨record, hrecord, hcontext⟩ := mem_contexts.mp hmem
  refine ⟨List.mem_map.mpr ⟨record, hrecord, standIn_of_sole h hcontext⟩, fun item hitem heq => ?_⟩
  obtain ⟨other, -, rfl⟩ := List.mem_map.mp hitem
  rw [context_standIn] at heq
  exact standIn_of_sole h heq

/-- What the tab lists after a write that the store answered. -/
theorem mem_contexts_mergeGrants {c : String} (h : ∀ new ∈ incoming, new.context ∈ contexts persisted) :
    c ∈ contexts (mergeGrants current persisted incoming) ↔ c ∈ contexts persisted := by
  cases incoming with
  | none => rw [mergeGrants_none, contexts_map_standIn]
  | some new =>
    rw [mergeGrants_some, mem_contexts_cons, contexts_map_standIn, mem_contexts_without]
    have := h new rfl
    constructor
    · rintro (rfl | ⟨-, hc⟩)
      · exact this
      · exact hc
    · intro hc
      by_cases heq : c = new.context
      · exact Or.inl heq
      · exact Or.inr ⟨heq, hc⟩

theorem sole_mergeGrants (current persisted : List SessionGrant) (new : SessionGrant) :
    Sole (mergeGrants current persisted (some new)) new := by
  refine sole_cons fun h => ?_
  have hwithout : new.context ∈ contexts ((without persisted new.context).map (standIn current)) := h
  rw [contexts_map_standIn] at hwithout
  exact (mem_contexts_without.mp hwithout).1 rfl

theorem Sole.mergeGrants (h : Sole current grant) (hmem : grant.context ∈ contexts persisted)
    (hne : ∀ new ∈ incoming, grant.context ≠ new.context) :
    Sole (mergeGrants current persisted incoming) grant := by
  cases incoming with
  | none =>
    rw [mergeGrants_none]
    exact h.map_standIn hmem
  | some new =>
    rw [mergeGrants_some]
    exact (h.map_standIn (mem_contexts_without.mpr ⟨hne new rfl, hmem⟩)).cons (hne new rfl)

/-! ### Distinct contexts -/

variable {Delegation : Type} {kit : DelegationKit Delegation} {K : Finset String}

theorem Distinct.cons (h : Distinct kit K grants) (hreadable : Readable kit new)
    (hknown : new.context ∈ K) (hnot : new.context ∉ contexts grants) :
    Distinct kit K (new :: grants) where
  nodup := List.nodup_cons.mpr ⟨hnot, h.nodup⟩
  readable := List.forall_mem_cons.mpr ⟨hreadable, h.readable⟩
  known := List.forall_mem_cons.mpr ⟨hknown, h.known⟩

theorem Distinct.map_standIn (hcurrent : Distinct kit K current)
    (hpersisted : Distinct kit K persisted) :
    Distinct kit K (persisted.map (standIn current)) where
  nodup := by
    rw [contexts_map_standIn]
    exact hpersisted.nodup
  readable := by
    intro item hitem
    obtain ⟨record, hrecord, rfl⟩ := List.mem_map.mp hitem
    rcases standIn_eq_or current record with heq | ⟨hmem, -⟩
    · rw [heq]
      exact hpersisted.readable record hrecord
    · exact hcurrent.readable _ hmem
  known := by
    rw [contexts_map_standIn]
    exact hpersisted.known

theorem Distinct.without (h : Distinct kit K grants) (context : String) :
    Distinct kit K (without grants context) := h.of_subset (List.filter_sublist ..)

theorem Distinct.mergeGrants (hcurrent : Distinct kit K current)
    (hpersisted : Distinct kit K persisted)
    (hincoming : ∀ new ∈ incoming, Readable kit new ∧ new.context ∈ K) :
    Distinct kit K (mergeGrants current persisted incoming) := by
  cases incoming with
  | none =>
    rw [mergeGrants_none]
    exact hcurrent.map_standIn hpersisted
  | some new =>
    obtain ⟨hreadable, hknown⟩ := hincoming new rfl
    refine (hcurrent.map_standIn (hpersisted.without new.context)).cons hreadable hknown fun h => ?_
    rw [contexts_map_standIn] at h
    exact (mem_contexts_without.mp h).1 rfl

end Merge

/-! ## One tab -/

/-- The variables of `createGrantLedger`. The two sets are in the order of their insertions. -/
structure GrantLedger where
  grants : List SessionGrant
  unpersisted : List String
  unremoved : List String

namespace GrantLedger

def empty : GrantLedger := ⟨[], [], []⟩

/-- The grants that a failed write left in memory alone, minus the one being changed now. -/
def owed (l : GrantLedger) (except : String) : List SessionGrant :=
  l.grants.filter fun item => item.context ∈ l.unpersisted ∧ item.context ≠ except

/-- The removals that a failed forget still owes the store, minus the one being changed now. -/
def owedRemovals (l : GrantLedger) (except : String) : List String :=
  l.unremoved.filter fun context => context ≠ except

section Calls

variable {Delegation Wire : Type} (kit : DelegationKit Delegation) (document : HeaderCodec Wire)

/-- `hydrate`. -/
def hydrate (reads : Bool) (item : Option Wire) (l : GrantLedger) : GrantLedger :=
  { l with grants := loadGrants kit document reads item }

/-- `add`, with the item of the store afterwards. -/
def add (grant : SessionGrant) (reads writes : Bool) (item : Option Wire) (l : GrantLedger) :
    GrantLedger × Option Wire :=
  let context := grant.context
  match writeGrants kit document (grant :: l.owed context) (l.owedRemovals context) reads writes item with
  | (some persisted, item) => (⟨mergeGrants l.grants persisted (some grant), [], []⟩, item)
  | (none, item) =>
    ({ grants := grant :: without l.grants context
       unpersisted := l.unpersisted.insert context
       unremoved := l.unremoved.filter (· ≠ context) }, item)

/-- `forget`, with the item of the store afterwards. -/
def forget (context : String) (reads writes : Bool) (item : Option Wire) (l : GrantLedger) :
    GrantLedger × Option Wire :=
  match writeGrants kit document (l.owed context) (context :: l.owedRemovals context) reads writes item with
  | (some persisted, item) => (⟨mergeGrants l.grants persisted none, [], []⟩, item)
  | (none, item) =>
    (if context ∈ l.unpersisted then
      { l with
        grants := without l.grants context
        unpersisted := l.unpersisted.filter (· ≠ context) }
    else
      { l with
        grants := without l.grants context
        unremoved := l.unremoved.insert context }, item)

end Calls

end GrantLedger

/-! ## Two tabs -/

inductive Tab where
  | first
  | second
  deriving DecidableEq

structure TabState where
  hydrated : Bool
  ledger : GrantLedger

/-- The item of the store and the two tabs. -/
structure BrowserState (Wire : Type) where
  item : Option Wire
  tabs : Tab → TabState

inductive LedgerOp where
  | hydrate
  | add (grant : SessionGrant)
  | forget (context : String)

/-- A call of a tab, and whether the store answers its read and its write. -/
structure LedgerCall where
  tab : Tab
  op : LedgerOp
  reads : Bool
  writes : Bool

namespace BrowserState

variable {Delegation Wire : Type} (kit : DelegationKit Delegation) (document : HeaderCodec Wire)

def start (item : Option Wire) : BrowserState Wire := ⟨item, fun _ => ⟨false, .empty⟩⟩

/-- The tab's ledger and the item of the store become these. -/
def put (s : BrowserState Wire) (tab : Tab) (next : GrantLedger × Option Wire) : BrowserState Wire where
  item := next.2
  tabs := Function.update s.tabs tab ⟨true, next.1⟩

/-- What a call does. A tab hydrates once, and first. -/
def act (s : BrowserState Wire) (call : LedgerCall) : Option (BrowserState Wire) :=
  let tab := s.tabs call.tab
  match call.op with
  | .hydrate =>
    if tab.hydrated then none
    else some (s.put call.tab (tab.ledger.hydrate kit document call.reads s.item, s.item))
  | .add grant =>
    if tab.hydrated then
      some (s.put call.tab (tab.ledger.add kit document grant call.reads call.writes s.item))
    else none
  | .forget context =>
    if tab.hydrated then
      some (s.put call.tab (tab.ledger.forget kit document context call.reads call.writes s.item))
    else none

end BrowserState

end Mapae.Studio
