import Mapae.Infra.Table
import Mathlib.Data.List.Sort

/-!
# Retention by age and by count

Two tables of the store are pruned in the same way, in one transaction of two deletes: the
candidates older than a cutoff go, and of those that are left all but the newest `keep`.
Rows that are not candidates are never touched.

* `Retention.Ordered` is what the order of a table must be for this to have one answer
* `pruneRows_prunedTo` says which rows are left, `pruneRows_pruneRows` that a second pass
  removes nothing
-/

namespace Mapae.Store

open Mapae.Infra

universe u v

variable {κ : Type u} {ρ : Type v} {key : ρ → κ} [DecidableEq κ]

/-- What a table calls a candidate, how old it is, and which of two is shown first. -/
structure Retention (ρ : Type v) where
  candidate : ρ → Bool
  time : ρ → Int
  newer : ρ → ρ → Bool

/-- `DELETE ... WHERE candidate AND time < before`. -/
def dropBefore (p : Retention ρ) (t : Table key) (before : Int) : Table key :=
  t.filter (fun r => !(p.candidate r && decide (p.time r < before)))

/-- The keys of the newest `keep` candidates. -/
def newestKeys (p : Retention ρ) (t : Table key) (keep : Nat) : List κ :=
  (((t.rows.filter p.candidate).insertionSort (fun a b => p.newer a b)).take keep).map key

/-- `DELETE ... WHERE candidate AND key NOT IN (... ORDER BY newest LIMIT keep)`. -/
def dropBeyond (p : Retention ρ) (t : Table key) (keep : Nat) : Table key :=
  t.filter (fun r => !(p.candidate r && !decide (key r ∈ newestKeys p t keep)))

/-- Both deletes, and how many rows they removed. -/
def pruneRows (p : Retention ρ) (t : Table key) (before : Int) (keep : Nat) : Table key × Nat :=
  let older := dropBefore p t before
  let kept := dropBeyond p older keep
  (kept, (t.rows.length - older.rows.length) + (older.rows.length - kept.rows.length))

variable {p : Retention ρ} {t : Table key} {before : Int} {keep : Nat} {r : ρ}

theorem mem_of_mem_pruneRows (h : r ∈ (pruneRows p t before keep).1) : r ∈ t :=
  (Table.mem_filter.mp (Table.mem_filter.mp h).1).1

/-- **A row that is not a candidate survives.** -/
theorem mem_pruneRows_of_not_candidate (h : r ∈ t) (hc : p.candidate r = false) :
    r ∈ (pruneRows p t before keep).1 := by
  have hold : r ∈ dropBefore p t before := Table.mem_filter.mpr ⟨h, by simp [hc]⟩
  exact Table.mem_filter.mpr ⟨hold, by simp [hc]⟩

/-! ## The newest candidates -/

/-- `newer` lists the rows in one order, and no row before a later one. -/
structure Retention.Ordered (p : Retention ρ) (key : ρ → κ) : Prop where
  total (a b : ρ) : p.newer a b = true ∨ p.newer b a = true
  trans {a b c : ρ} : p.newer a b = true → p.newer b c = true → p.newer a c = true
  antisymm {a b : ρ} : p.newer a b = true → p.newer b a = true → key a = key b
  time_le {a b : ρ} : p.newer a b = true → p.time b ≤ p.time a

/-- How many candidates are shown before the row. -/
def Retention.ahead (p : Retention ρ) (t : Table key) (r : ρ) : Nat :=
  t.rows.countP fun other => p.candidate other && !p.newer r other

/-- In a list in strict order, the first `k` are those with fewer than `k` before them. -/
theorem mem_take_iff_countP {α : Type u} {le : α → α → Bool} {a : α} (hrefl : le a a = true) :
    ∀ {rows : List α} {k : Nat},
    rows.Pairwise (fun x y => le x y = true ∧ le y x = false) → a ∈ rows →
      (a ∈ rows.take k ↔ rows.countP (fun x => !le a x) < k)
  | [], _, _, ha => absurd ha List.not_mem_nil
  | x :: rows, k, hsorted, ha => by
    obtain ⟨hx, hrows⟩ := List.pairwise_cons.mp hsorted
    by_cases hax : a = x
    · subst hax
      have hnone : (a :: rows).countP (fun y => !le a y) = 0 := by
        refine List.countP_eq_zero.mpr fun y hy => ?_
        rcases List.mem_cons.mp hy with rfl | hy
        · simp [hrefl]
        · simp [(hx y hy).1]
      cases k with
      | zero => simp
      | succ k => simp [hnone]
    · have hmem : a ∈ rows := (List.mem_cons.mp ha).resolve_left hax
      have hbefore : le a x = false := (hx a hmem).2
      cases k with
      | zero => simp
      | succ k =>
        have ih := mem_take_iff_countP hrefl (k := k) hrows hmem
        rw [List.take_succ_cons, List.mem_cons, List.countP_cons, ih]
        simp [hax, hbefore]

namespace Retention.Ordered

variable (hp : p.Ordered key)

include hp

omit [DecidableEq κ]

theorem refl (r : ρ) : p.newer r r = true := (hp.total r r).elim id id

/-- Rows with different keys are in strict order. -/
theorem pairwise_sorted {rows : List ρ} (h : (rows.map key).Nodup) :
    (rows.insertionSort fun a b => p.newer a b).Pairwise
      fun a b => p.newer a b = true ∧ p.newer b a = false := by
  let _ : IsTrans ρ fun a b => p.newer a b = true := ⟨fun _ _ _ => hp.trans⟩
  let _ : Std.Total fun a b : ρ => p.newer a b = true := ⟨hp.total⟩
  have hsorted := List.pairwise_insertionSort (fun a b => p.newer a b = true) rows
  have hperm := (List.perm_insertionSort (fun a b => p.newer a b = true) rows).map key
  have hnodup := List.pairwise_map.mp (hperm.nodup_iff.mpr h)
  refine (hsorted.and hnodup).imp ?_
  rintro a b ⟨hab, hne⟩
  refine ⟨hab, Bool.eq_false_iff.mpr fun hba => hne ?_⟩
  exact hp.antisymm hab hba

/-- **The newest `keep` candidates** are those with fewer than `keep` candidates before them. -/
theorem mem_newestKeys (h : r ∈ t) (hc : p.candidate r = true) :
    key r ∈ newestKeys p t keep ↔ p.ahead t r < keep := by
  have hnodup : ((t.rows.filter p.candidate).map key).Nodup :=
    t.nodup_keys.sublist (List.filter_sublist.map key)
  have hperm := List.perm_insertionSort (fun a b => p.newer a b = true) (t.rows.filter p.candidate)
  have hmem : r ∈ (t.rows.filter p.candidate).insertionSort fun a b => p.newer a b :=
    hperm.mem_iff.mpr (List.mem_filter.mpr ⟨h, hc⟩)
  have hplace := mem_take_iff_countP (k := keep) (hp.refl r) (hp.pairwise_sorted hnodup) hmem
  have hcount : ((t.rows.filter p.candidate).insertionSort fun a b => p.newer a b).countP
      (fun other => !p.newer r other) = p.ahead t r := by
    rw [hperm.countP_eq, List.countP_filter]
    exact List.countP_congr fun other _ => by rw [Bool.and_comm]
  rw [hcount] at hplace
  rw [← hplace, newestKeys, List.mem_map]
  constructor
  · rintro ⟨other, hother, hkey⟩
    have hin := (List.mem_filter.mp (hperm.mem_iff.mp (List.mem_of_mem_take hother))).1
    rwa [← Table.eq_of_key (t := t) hin h hkey]
  · exact fun hr => ⟨r, hr, rfl⟩

/-- A row that is not older than the cutoff has the same candidates before it when the older
ones are gone. -/
theorem ahead_dropBefore (ht : before ≤ p.time r) :
    p.ahead (dropBefore p t before) r = p.ahead t r := by
  rw [ahead, dropBefore, Table.filter, List.countP_filter]
  refine List.countP_congr fun other _ => ?_
  by_cases hnewer : p.newer r other = true
  · simp [hnewer]
  · have hle := hp.time_le ((hp.total r other).resolve_left hnewer)
    simp [hnewer, show ¬ p.time other < before by omega]

end Retention.Ordered

/-! ## What is left -/

/-- What retention leaves of a table: of the candidates those that are not older than the cutoff
and among the newest `keep`, and all other rows. `changes` rows are gone. -/
structure PrunedTo (p : Retention ρ) (t : Table key) (before : Int) (keep changes : Nat)
    (t' : Table key) : Prop where
  survivors : ∀ r ∈ t, p.candidate r = true → (r ∈ t' ↔ before ≤ p.time r ∧ p.ahead t r < keep)
  untouched : ∀ r ∈ t, p.candidate r = false → r ∈ t'
  sublist : t'.rows.Sublist t.rows
  count : changes + t'.rows.length = t.rows.length

theorem sublist_pruneRows : (pruneRows p t before keep).1.rows.Sublist t.rows :=
  List.filter_sublist.trans List.filter_sublist

/-- **A candidate survives** if it is not older than the cutoff and among the newest. -/
theorem mem_pruneRows_iff (hp : p.Ordered key) (h : r ∈ t) (hc : p.candidate r = true) :
    r ∈ (pruneRows p t before keep).1 ↔ before ≤ p.time r ∧ p.ahead t r < keep := by
  have hold : r ∈ dropBefore p t before ↔ before ≤ p.time r := by
    simp [dropBefore, Table.mem_filter, h, hc]
  rw [pruneRows, dropBeyond, Table.mem_filter, hold]
  refine and_congr_right fun ht => ?_
  rw [← hp.ahead_dropBefore ht, ← hp.mem_newestKeys (hold.mpr ht) hc]
  simp [hc]

/-- **One pass of retention.** -/
theorem pruneRows_prunedTo (hp : p.Ordered key) (t : Table key) (before : Int) (keep : Nat) :
    PrunedTo p t before keep (pruneRows p t before keep).2 (pruneRows p t before keep).1 where
  survivors _ h hc := mem_pruneRows_iff hp h hc
  untouched _ h hc := mem_pruneRows_of_not_candidate h hc
  sublist := sublist_pruneRows
  count := by
    have hold : (dropBefore p t before).rows.length ≤ t.rows.length := List.length_filter_le ..
    have hkept : (dropBeyond p (dropBefore p t before) keep).rows.length
        ≤ (dropBefore p t before).rows.length := List.length_filter_le ..
    simp only [pruneRows]
    omega

/-- **A second pass removes nothing.** -/
theorem pruneRows_pruneRows (hp : p.Ordered key) (t : Table key) (before : Int) (keep : Nat) :
    pruneRows p (pruneRows p t before keep).1 before keep
      = ((pruneRows p t before keep).1, 0) := by
  have hpass := pruneRows_prunedTo hp t before keep
  have hagain := pruneRows_prunedTo hp (pruneRows p t before keep).1 before keep
  generalize (pruneRows p t before keep).1 = t' at hpass hagain ⊢
  have hall : ∀ r ∈ t'.rows, r ∈ (pruneRows p t' before keep).1.rows := by
    intro r hr
    by_cases hc : p.candidate r = true
    · obtain ⟨ht, hahead⟩ := (hpass.survivors r (hpass.sublist.subset hr) hc).mp hr
      refine (hagain.survivors r hr hc).mpr ⟨ht, lt_of_le_of_lt ?_ hahead⟩
      exact hpass.sublist.countP_le
    · exact hagain.untouched r hr (Bool.not_eq_true _ ▸ hc)
  have hnodup : t'.rows.Nodup := t'.nodup_keys.of_map key
  have hlength : t'.rows.length ≤ (pruneRows p t' before keep).1.rows.length :=
    (List.subperm_of_subset hnodup hall).length_le
  have hrows : (pruneRows p t' before keep).1.rows = t'.rows :=
    hagain.sublist.eq_of_length_le hlength
  have hcount : (pruneRows p t' before keep).2 = 0 := by
    have := hagain.count
    omega
  exact Prod.ext (Table.ext hrows) hcount

end Mapae.Store
