import Mathlib.Data.List.Nodup
import Mathlib.Algebra.Order.BigOperators.Group.List
import Mathlib.Algebra.Order.Ring.Int
import Mathlib.Tactic.Abel

/-!
# Tables with a primary key

A table is a list of rows no two of which have the same key. That is a field of the
structure, so a table with a repeated key cannot be built, and `get?` names at most one row.

* `insert?` refuses a key that is taken (a `PRIMARY KEY` or `UNIQUE` conflict)
* `update` rewrites the row of one key and leaves the key alone
* `upsert` replaces the row of a key or appends it (`ON CONFLICT DO UPDATE`)
* `filter` keeps some of the rows (`DELETE ... WHERE`)

`Table.sum` adds a value up over the rows. `sum_insert?` and `sum_update` say how it moves,
which is what a conservation law over the table needs.
-/

namespace Mapae.Infra

universe u v w

/-- Rows of which no two have the same `key`. -/
@[ext] structure Table {κ : Type u} {ρ : Type v} (key : ρ → κ) where
  rows : List ρ
  nodup_keys : (rows.map key).Nodup

namespace Table

variable {κ : Type u} {ρ : Type v} {key : ρ → κ} {t t' : Table key} {r r' : ρ} {k k' : κ}

instance instMembership : Membership ρ (Table key) where
  mem t r := r ∈ t.rows

theorem mem_def : r ∈ t ↔ r ∈ t.rows := Iff.rfl

/-- The table without rows. -/
def empty : Table key := ⟨[], List.nodup_nil⟩

@[simp] theorem not_mem_empty : ¬ r ∈ (empty : Table key) := List.not_mem_nil

/-- A row is known by its key. -/
theorem eq_of_key (h : r ∈ t) (h' : r' ∈ t) (hk : key r = key r') : r = r' :=
  List.inj_on_of_nodup_map t.nodup_keys h h' hk

/-- The rows that satisfy `p`. -/
def filter (t : Table key) (p : ρ → Bool) : Table key where
  rows := t.rows.filter p
  nodup_keys := t.nodup_keys.sublist (List.filter_sublist.map key)

@[simp] theorem mem_filter {p : ρ → Bool} : r ∈ t.filter p ↔ r ∈ t ∧ p r = true :=
  List.mem_filter

section DecidableKey

variable [DecidableEq κ]

/-- The row of a key. -/
def get? (t : Table key) (k : κ) : Option ρ := t.rows.find? (fun r => key r = k)

theorem get?_eq_some : t.get? k = some r ↔ r ∈ t ∧ key r = k := by
  constructor
  · intro h
    exact ⟨List.mem_of_find?_eq_some h, by simpa using List.find?_some h⟩
  · rintro ⟨hr, rfl⟩
    cases h : t.get? (key r) with
    | some r' =>
      have hk : key r' = key r := by simpa using List.find?_some h
      rw [eq_of_key (List.mem_of_find?_eq_some h) hr hk]
    | none =>
      have hn := List.find?_eq_none.mp h r hr
      simp at hn

theorem get?_eq_none : t.get? k = none ↔ ∀ r ∈ t, key r ≠ k := by
  simp only [get?, List.find?_eq_none, decide_eq_true_eq]
  exact Iff.rfl

theorem get?_of_mem (h : r ∈ t) : t.get? (key r) = some r := get?_eq_some.mpr ⟨h, rfl⟩

theorem mem_of_get? (h : t.get? k = some r) : r ∈ t := (get?_eq_some.mp h).1

theorem key_of_get? (h : t.get? k = some r) : key r = k := (get?_eq_some.mp h).2

@[simp] theorem get?_empty : (empty : Table key).get? k = none := rfl

theorem get?_filter {p : ρ → Bool} : (t.filter p).get? k = (t.get? k).filter p := by
  cases h : t.get? k with
  | none =>
    rw [Option.filter_none]
    exact get?_eq_none.mpr fun r hr => get?_eq_none.mp h r (mem_filter.mp hr).1
  | some r =>
    obtain ⟨hr, hk⟩ := get?_eq_some.mp h
    cases hp : p r with
    | true =>
      rw [Option.filter_some_pos hp]
      exact get?_eq_some.mpr ⟨mem_filter.mpr ⟨hr, hp⟩, hk⟩
    | false =>
      rw [Option.filter_some_neg (by simp [hp])]
      refine get?_eq_none.mpr fun r' hr' hk' => ?_
      obtain ⟨hmem, hp'⟩ := mem_filter.mp hr'
      rw [eq_of_key hmem hr (hk'.trans hk.symm), hp] at hp'
      cases hp'

/-! ## Inserting -/

/-- The table with one more row, if its key is free. -/
def insert? (t : Table key) (r : ρ) : Option (Table key) :=
  if h : key r ∈ t.rows.map key then none
  else some
    { rows := t.rows ++ [r]
      nodup_keys := by
        rw [List.map_append, List.map_singleton]
        exact List.nodup_append.mpr ⟨t.nodup_keys, List.nodup_singleton _, by
          intro a ha b hb hab
          rw [List.mem_singleton] at hb
          exact h (hb ▸ hab ▸ ha)⟩ }

theorem insert?_eq_some : t.insert? r = some t' ↔ t.get? (key r) = none ∧ t'.rows = t.rows ++ [r] := by
  have hfree : t.get? (key r) = none ↔ ¬ key r ∈ t.rows.map key := by
    rw [get?_eq_none, List.mem_map]
    exact ⟨fun h ⟨a, ha, hk⟩ => h a ha hk, fun h a ha hk => h ⟨a, ha, hk⟩⟩
  unfold insert?
  split
  · next h => simp [hfree, h]
  · next h =>
    constructor
    · intro he
      cases he
      exact ⟨hfree.mpr h, rfl⟩
    · rintro ⟨-, hrows⟩
      exact congrArg some (Table.ext hrows.symm)

theorem insert?_eq_none : t.insert? r = none ↔ ∃ r' ∈ t, key r' = key r := by
  unfold insert?
  split
  · next h => simpa [List.mem_map, mem_def] using h
  · next h => simpa [List.mem_map, mem_def] using h

theorem mem_insert? (h : t.insert? r = some t') {x : ρ} : x ∈ t' ↔ x ∈ t ∨ x = r := by
  rw [mem_def, (insert?_eq_some.mp h).2, List.mem_append, List.mem_singleton, mem_def]

theorem get?_insert? (h : t.insert? r = some t') (k : κ) :
    t'.get? k = if key r = k then some r else t.get? k := by
  obtain ⟨hfree, hrows⟩ := insert?_eq_some.mp h
  have happ : t'.get? k = (t.get? k).or (if key r = k then some r else none) := by
    simp only [get?, hrows, List.find?_append, List.find?_singleton, decide_eq_true_eq]
  rw [happ]
  by_cases hk : key r = k
  · rw [if_pos hk, if_pos hk, ← hk, hfree, Option.none_or]
  · rw [if_neg hk, if_neg hk, Option.or_none]

/-! ## Updating -/

/-- Rewrites the row of key `k`. The rewriting keeps the key. -/
def update (t : Table key) (k : κ) (f : ρ → ρ) (hf : ∀ r, key (f r) = key r) : Table key where
  rows := t.rows.map (fun r => if key r = k then f r else r)
  nodup_keys := by
    have : t.rows.map (key ∘ fun r => if key r = k then f r else r) = t.rows.map key := by
      refine List.map_congr_left fun r _ => ?_
      simp only [Function.comp]
      split
      · exact hf r
      · rfl
    rw [List.map_map, this]
    exact t.nodup_keys

theorem mem_update {f : ρ → ρ} (hf : ∀ r, key (f r) = key r) {x : ρ} :
    x ∈ t.update k f hf ↔ ∃ r ∈ t, x = if key r = k then f r else r := by
  rw [mem_def, update, List.mem_map]
  exact ⟨fun ⟨r, hr, he⟩ => ⟨r, hr, he.symm⟩, fun ⟨r, hr, he⟩ => ⟨r, hr, he.symm⟩⟩

theorem get?_update {f : ρ → ρ} (hf : ∀ r, key (f r) = key r) (k' : κ) :
    (t.update k f hf).get? k' = if k' = k then (t.get? k).map f else t.get? k' := by
  simp only [get?, update, List.find?_map]
  have hcomp : ((fun r => decide (key r = k')) ∘ fun r => if key r = k then f r else r) =
      fun r => decide (key r = k') := by
    funext r
    simp only [Function.comp]
    split
    · rw [hf]
    · rfl
  rw [hcomp]
  by_cases hk : k' = k
  · subst hk
    rw [if_pos rfl]
    cases h : t.rows.find? (fun r => key r = k') with
    | none => rfl
    | some r =>
      have hr : key r = k' := by simpa using List.find?_some h
      simp [hr]
  · rw [if_neg hk]
    cases h : t.rows.find? (fun r => key r = k') with
    | none => rfl
    | some r =>
      have hr : key r = k' := by simpa using List.find?_some h
      simp [hr, hk]

theorem length_update {f : ρ → ρ} (hf : ∀ r, key (f r) = key r) :
    (t.update k f hf).rows.length = t.rows.length := List.length_map ..

/-- A rewriting loses no key. -/
theorem exists_key_update {f : ρ → ρ} (hf : ∀ r, key (f r) = key r) {a : κ}
    (h : ∃ r ∈ t, key r = a) : ∃ r ∈ t.update k f hf, key r = a := by
  obtain ⟨r, hr, ha⟩ := h
  refine ⟨_, (mem_update hf).mpr ⟨r, hr, rfl⟩, ?_⟩
  split
  · exact (hf r).trans ha
  · exact ha

/-- A column that the rewriting keeps is the same afterwards. -/
theorem map_update {α : Type w} {f : ρ → ρ} (hf : ∀ r, key (f r) = key r) {g : ρ → α}
    (hg : ∀ r, g (f r) = g r) : (t.update k f hf).rows.map g = t.rows.map g := by
  rw [update, List.map_map]
  refine List.map_congr_left fun r _ => ?_
  simp only [Function.comp]
  split
  · exact hg r
  · rfl

/-- Rewriting a key that is not there changes nothing. -/
theorem update_of_get?_eq_none {f : ρ → ρ} (hf : ∀ r, key (f r) = key r) (h : t.get? k = none) :
    t.update k f hf = t := by
  refine Table.ext ?_
  conv_rhs => rw [← List.map_id t.rows]
  exact List.map_congr_left fun x hx => if_neg (get?_eq_none.mp h x hx)

/-- Rewrites every row. The rewriting keeps the keys. -/
def updateAll (t : Table key) (f : ρ → ρ) (hf : ∀ r, key (f r) = key r) : Table key where
  rows := t.rows.map f
  nodup_keys := by
    have : t.rows.map (key ∘ f) = t.rows.map key := List.map_congr_left fun r _ => hf r
    rw [List.map_map, this]
    exact t.nodup_keys

omit [DecidableEq κ] in
theorem mem_updateAll {f : ρ → ρ} (hf : ∀ r, key (f r) = key r) {x : ρ} :
    x ∈ t.updateAll f hf ↔ ∃ r ∈ t, f r = x := List.mem_map

/-- Keeping some of the rows commutes with a rewriting that keeps their choice. -/
theorem filter_update {f : ρ → ρ} (hf : ∀ r, key (f r) = key r) {p : ρ → Bool}
    (hp : ∀ r, p (f r) = p r) : (t.update k f hf).filter p = (t.filter p).update k f hf := by
  refine Table.ext ?_
  have hsame : (p ∘ fun r => if key r = k then f r else r) = p := by
    funext r
    simp only [Function.comp]
    split
    · exact hp r
    · rfl
  simp only [filter, update, List.filter_map, hsame]

/-- The row replaces the one with its key, or is appended. -/
def upsert (t : Table key) (r : ρ) : Table key :=
  match h : t.insert? r with
  | some t' => t'
  | none =>
    { rows := t.rows.map (fun x => if key x = key r then r else x)
      nodup_keys := by
        have : t.rows.map (key ∘ fun x => if key x = key r then r else x) = t.rows.map key := by
          refine List.map_congr_left fun x _ => ?_
          simp only [Function.comp]
          split
          · next hx => exact hx.symm
          · rfl
        rw [List.map_map, this]
        exact t.nodup_keys }

theorem get?_upsert (t : Table key) (r : ρ) (k : κ) :
    (t.upsert r).get? k = if key r = k then some r else t.get? k := by
  unfold upsert
  split
  · next t' h => exact get?_insert? h k
  · next h =>
    obtain ⟨x, hx, hkx⟩ := insert?_eq_none.mp h
    simp only [get?, List.find?_map]
    have hcomp : ((fun x => decide (key x = k)) ∘ fun x => if key x = key r then r else x) =
        fun x => decide (key x = k) := by
      funext y
      simp only [Function.comp]
      split
      · next hy => rw [hy]
      · rfl
    rw [hcomp]
    by_cases hk : key r = k
    · have hx' : t.rows.find? (fun y => key y = k) = some x :=
        get?_eq_some.mpr ⟨hx, hkx.trans hk⟩
      rw [if_pos hk, hx', Option.map_some, if_pos hkx]
    · rw [if_neg hk]
      cases hf : t.rows.find? (fun y => key y = k) with
      | none => rfl
      | some y =>
        have hy : key y = k := by simpa using List.find?_some hf
        simp [hy, Ne.symm hk]

/-- A key that is free is appended. -/
theorem rows_upsert (h : t.get? (key r) = none) : (t.upsert r).rows = t.rows ++ [r] := by
  unfold upsert
  split
  · next t' hi => exact (insert?_eq_some.mp hi).2
  · next hi =>
    obtain ⟨x, hx, hk⟩ := insert?_eq_none.mp hi
    exact absurd hk (get?_eq_none.mp h x hx)

theorem mem_upsert {x : ρ} : x ∈ t.upsert r ↔ x = r ∨ (x ∈ t ∧ key x ≠ key r) := by
  have h : x ∈ t.upsert r ↔ (t.upsert r).get? (key x) = some x :=
    ⟨get?_of_mem, mem_of_get?⟩
  rw [h, get?_upsert]
  by_cases hk : key r = key x
  · rw [if_pos hk]
    simp only [Option.some.injEq, hk, ne_eq, not_true_eq_false, and_false, or_false]
    exact eq_comm
  · rw [if_neg hk]
    constructor
    · intro hx
      exact Or.inr ⟨mem_of_get? hx, Ne.symm hk⟩
    · rintro (rfl | ⟨hx, -⟩)
      · exact absurd rfl hk
      · exact get?_of_mem hx

end DecidableKey

/-! ## Further unique columns -/

section Unique

variable {α : Type w} {f : ρ → α}

/-- No two rows agree on `f`: a `UNIQUE` constraint beside the primary key. -/
def Unique (t : Table key) (f : ρ → α) : Prop := ∀ r ∈ t, ∀ r' ∈ t, f r = f r' → r = r'

/-- No row has the value `a` yet. -/
def free [DecidableEq α] (t : Table key) (f : ρ → α) (a : α) : Bool := t.rows.all (fun r => f r ≠ a)

theorem free_iff [DecidableEq α] {a : α} : t.free f a = true ↔ ∀ r ∈ t, f r ≠ a := by
  simp only [free, List.all_eq_true, decide_eq_true_eq]
  exact Iff.rfl

theorem unique_empty : (empty : Table key).Unique f := fun _ h => absurd h not_mem_empty

theorem Unique.insert? [DecidableEq κ] [DecidableEq α] (h : t.Unique f) (hi : t.insert? r = some t')
    (hfree : t.free f (f r) = true) : t'.Unique f := by
  intro x hx y hy he
  rcases (mem_insert? hi).mp hx with hx | rfl
  · rcases (mem_insert? hi).mp hy with hy | rfl
    · exact h x hx y hy he
    · exact absurd he (free_iff.mp hfree x hx)
  · rcases (mem_insert? hi).mp hy with hy | rfl
    · exact absurd he.symm (free_iff.mp hfree y hy)
    · rfl

theorem Unique.update [DecidableEq κ] (h : t.Unique f) {g : ρ → ρ} {hg : ∀ r, key (g r) = key r}
    (hf : ∀ r, f (g r) = f r) : (t.update k g hg).Unique f := by
  have hsame : ∀ r, f (if key r = k then g r else r) = f r := by
    intro r
    split
    · exact hf r
    · rfl
  intro x hx y hy he
  obtain ⟨a, ha, rfl⟩ := (mem_update hg).mp hx
  obtain ⟨b, hb, rfl⟩ := (mem_update hg).mp hy
  rw [hsame, hsame] at he
  rw [h a ha b hb he]

end Unique

/-! ## Row numbers -/

section NextId

variable {id : ρ → Nat} {n : Table id}

/-- The id SQLite gives a new row of an `INTEGER PRIMARY KEY` table. -/
def nextId (n : Table id) : Nat := (n.rows.map id).foldr max 0 + 1

theorem lt_nextId (h : r ∈ n) : id r < n.nextId := by
  have key : ∀ l : List Nat, ∀ a ∈ l, a ≤ l.foldr max 0 := by
    intro l
    induction l with
    | nil => intro a ha; cases ha
    | cons b l ih =>
      intro a ha
      rcases List.mem_cons.mp ha with rfl | ha
      · exact Nat.le_max_left ..
      · exact Nat.le_trans (ih a ha) (Nat.le_max_right ..)
  exact Nat.lt_succ_of_le (key _ _ (List.mem_map_of_mem h))

theorem get?_nextId : n.get? n.nextId = none :=
  get?_eq_none.mpr fun _ hr he => absurd (he ▸ lt_nextId hr) (Nat.lt_irrefl _)

/-- Appends a row under the next id. -/
def insertNext (n : Table id) (row : Nat → ρ) (h : ∀ i, id (row i) = i) : Table id where
  rows := n.rows ++ [row n.nextId]
  nodup_keys := by
    rw [List.map_append, List.map_singleton, h]
    refine List.nodup_append.mpr ⟨n.nodup_keys, List.nodup_singleton _, ?_⟩
    intro a ha b hb hab
    obtain ⟨r, hr, rfl⟩ := List.mem_map.mp ha
    rw [List.mem_singleton] at hb
    exact absurd (hab.trans hb) (Nat.ne_of_lt (lt_nextId hr))

/-- Inserting under the next id never conflicts. -/
theorem insert?_nextId (n : Table id) (row : Nat → ρ) (h : ∀ i, id (row i) = i) :
    n.insert? (row n.nextId) = some (n.insertNext row h) :=
  insert?_eq_some.mpr ⟨by rw [h]; exact get?_nextId, rfl⟩

end NextId

/-! ## Sums over the rows -/

section Sum

variable {M : Type w} [AddCommMonoid M]

/-- The total of `g` over the rows. -/
def sum (t : Table key) (g : ρ → M) : M := (t.rows.map g).sum

@[simp] theorem sum_empty (g : ρ → M) : (empty : Table key).sum g = 0 := rfl

theorem sum_congr {g g' : ρ → M} (h : ∀ r ∈ t, g r = g' r) : t.sum g = t.sum g' := by
  unfold sum
  rw [List.map_congr_left h]

theorem sum_add (g g' : ρ → M) : t.sum (fun r => g r + g' r) = t.sum g + t.sum g' := by
  unfold sum
  exact List.sum_map_add

variable [DecidableEq κ]

theorem sum_insert? (h : t.insert? r = some t') (g : ρ → M) : t'.sum g = t.sum g + g r := by
  unfold sum
  rw [(insert?_eq_some.mp h).2, List.map_append, List.sum_append, List.map_singleton,
    List.sum_singleton]

/-- Rewriting one row exchanges its share of the sum. -/
theorem sum_update {f : ρ → ρ} (hf : ∀ r, key (f r) = key r) (h : t.get? k = some r) (g : ρ → M) :
    (t.update k f hf).sum g + g r = t.sum g + g (f r) := by
  have hother : ∀ l : List ρ, (∀ x ∈ l, key x ≠ k) →
      (l.map (fun x => if key x = k then f x else x)) = l := by
    intro l hl
    conv_rhs => rw [← List.map_id l]
    exact List.map_congr_left fun x hx => if_neg (hl x hx)
  obtain ⟨hr, hk⟩ := get?_eq_some.mp h
  obtain ⟨pre, post, hrows⟩ := List.append_of_mem (mem_def.mp hr)
  have hnd := t.nodup_keys
  rw [hrows, List.map_append, List.map_cons, List.nodup_append] at hnd
  obtain ⟨-, hpost, hdis⟩ := hnd
  have hpre : ∀ x ∈ pre, key x ≠ k := by
    intro x hx he
    exact hdis (key x) (List.mem_map_of_mem hx) (key r) List.mem_cons_self (he.trans hk.symm)
  have hpost : ∀ x ∈ post, key x ≠ k := by
    intro x hx he
    exact (List.nodup_cons.mp hpost).1 (List.mem_map.mpr ⟨x, hx, he.trans hk.symm⟩)
  simp only [sum, update, hrows, List.map_append, List.map_cons, hother pre hpre,
    hother post hpost, if_pos hk, List.sum_append, List.sum_cons]
  abel

theorem sum_upsert (t : Table key) (r : ρ) (g : ρ → M) :
    (t.upsert r).sum g + ((t.get? (key r)).map g).getD 0 = t.sum g + g r := by
  unfold upsert
  split
  · next t' h =>
    rw [(insert?_eq_some.mp h).1, sum_insert? h]
    simp
  · next h =>
    obtain ⟨x, hx, hk⟩ := insert?_eq_none.mp h
    have hget : t.get? (key r) = some x := get?_eq_some.mpr ⟨hx, hk⟩
    have hu := sum_update (f := fun y => if key y = key r then r else y)
      (fun y => by
        by_cases hy : key y = key r
        · rw [if_pos hy, hy]
        · rw [if_neg hy]) hget g
    rw [hget, if_pos hk] at *
    simp only [sum, update, Option.map_some, Option.getD_some] at hu ⊢
    rw [← hu]
    congr 3
    refine List.map_congr_left fun y _ => ?_
    by_cases hy : key y = key r <;> simp [hy]

end Sum

section OrderedSum

theorem sum_nonneg {g : ρ → Int} (h : ∀ r ∈ t, 0 ≤ g r) : 0 ≤ t.sum g :=
  List.sum_nonneg fun x hx => by
    obtain ⟨r, hr, rfl⟩ := List.mem_map.mp hx
    exact h r hr

/-- One row's share of a sum of nonnegative shares is at most the sum. -/
theorem le_sum {g : ρ → Int} (h : ∀ r ∈ t, 0 ≤ g r) (hr : r ∈ t) : g r ≤ t.sum g :=
  List.single_le_sum (fun x hx => by
    obtain ⟨r, hr, rfl⟩ := List.mem_map.mp hx
    exact h r hr) _ (List.mem_map_of_mem hr)

theorem sum_le_sum {g g' : ρ → Int} (h : ∀ r ∈ t, g r ≤ g' r) : t.sum g ≤ t.sum g' :=
  List.sum_le_sum h

end OrderedSum

end Table

end Mapae.Infra
