import Mapae.Infra.Window

/-!
# Lists of rows with distinct keys

Code that keeps such a list and looks rows up by their keys does not depend on the order of the rows.

* `Reordered`: two lists of the same rows, of which no two have one key
* `Reordered.find?_eq`, `Reordered.filter_key_eq` and `Reordered.orderBy_eq`: what is found by a key, and
  what is sorted, is the same in both
* `updateKey` changes the row of a key
* `foldl_read_own`: steps that change one row each, one after the other
* `countP_balance`, `countP_split` and `countP_or_le` compare counts of one list, and
  `countP_flatMap_toNat` counts in a list of reports, of which each element gives at most one
-/

namespace Mapae.Infra

universe u v w

variable {α : Type u} {β : Type v} {κ : Type w}

/-- The same rows in two orders, with distinct keys. -/
structure Reordered (key : α → κ) (l l' : List α) : Prop where
  perm : l.Perm l'
  nodup : (l.map key).Nodup

namespace Reordered

variable {key : α → κ} {l l' : List α}

theorem refl (h : (l.map key).Nodup) : Reordered key l l := ⟨.refl l, h⟩

theorem symm (h : Reordered key l l') : Reordered key l' l :=
  ⟨h.perm.symm, (h.perm.map key).nodup_iff.mp h.nodup⟩

theorem mem_iff (h : Reordered key l l') {a : α} : a ∈ l ↔ a ∈ l' := h.perm.mem_iff

theorem any_eq (h : Reordered key l l') (p : α → Bool) : l.any p = l'.any p := h.perm.any_eq

theorem filter (h : Reordered key l l') (p : α → Bool) : Reordered key (l.filter p) (l'.filter p) :=
  ⟨h.perm.filter p, h.nodup.sublist (List.filter_sublist.map key)⟩

theorem map (h : Reordered key l l') {f : α → α} (hf : ∀ a, key (f a) = key a) :
    Reordered key (l.map f) (l'.map f) := by
  refine ⟨h.perm.map f, ?_⟩
  have hkeys : (l.map f).map key = l.map key := by
    rw [List.map_map]
    exact List.map_congr_left fun a _ => hf a
  rw [hkeys]
  exact h.nodup

/-- Rows made of some of the rows, each with the key of its own. -/
theorem filterMap (h : Reordered key l l') {key' : β → κ} {f : α → Option β}
    (hf : ∀ a, ∀ b ∈ f a, key' b = key a) : Reordered key' (l.filterMap f) (l'.filterMap f) := by
  refine ⟨h.perm.filterMap f, ?_⟩
  have hsub : ∀ l : List α, ((l.filterMap f).map key').Sublist (l.map key) := by
    intro l
    induction l with
    | nil => simp
    | cons a l ih =>
      cases hfa : f a with
      | none => simpa [List.filterMap_cons, hfa] using ih.cons (key a)
      | some b =>
        rw [List.filterMap_cons, hfa, List.map_cons, List.map_cons, hf a b hfa]
        exact ih.cons_cons (key a)
  exact h.nodup.sublist (hsub l)

/-- **What is sorted is the same in both**, where the order tells the keys apart. -/
theorem orderBy_eq [LinearOrder β] (h : Reordered key l l') {f : α → β}
    (hf : ∀ a ∈ l, ∀ b ∈ l, f a = f b → key a = key b) : orderBy f l = orderBy f l' :=
  Separates.orderBy_eq (fun a ha b hb heq => List.inj_on_of_nodup_map h.nodup ha hb (hf a ha b hb heq)) h.perm

end Reordered

/-! ## Steps that change one row each -/

section Fold

variable {σ : Type*} {key : α → κ} {step : σ → α → σ} {read : κ → σ → β} {l : List α} {a : α}

theorem foldl_read_other (hframe : ∀ s a k, key a ≠ k → read k (step s a) = read k s) {k : κ} :
    ∀ {l : List α} {s : σ}, k ∉ l.map key → read k (l.foldl step s) = read k s
  | [], _, _ => rfl
  | a :: l, s, h => by
    rw [List.map_cons, List.mem_cons, not_or] at h
    rw [List.foldl_cons, foldl_read_other hframe h.2, hframe s a k (Ne.symm h.1)]

/-- **What a row is at the end, its own step made it**, from what it was at first, and from what the rows
before it are at the end. -/
theorem foldl_read_own (hframe : ∀ s a k, key a ≠ k → read k (step s a) = read k s)
    (hnodup : (l.map key).Nodup) (ha : a ∈ l) (s : σ) :
    ∃ earlier later, l = earlier ++ a :: later ∧
      read (key a) (l.foldl step s) = read (key a) (step (earlier.foldl step s) a) ∧
      read (key a) (earlier.foldl step s) = read (key a) s ∧
      ∀ b ∈ earlier, read (key b) (earlier.foldl step s) = read (key b) (l.foldl step s) := by
  obtain ⟨earlier, later, rfl⟩ := List.append_of_mem ha
  rw [List.map_append, List.map_cons, List.nodup_append, List.nodup_cons] at hnodup
  obtain ⟨-, ⟨hlater, -⟩, hdisjoint⟩ := hnodup
  refine ⟨earlier, later, rfl, ?_, ?_, fun b hb => ?_⟩
  · rw [List.foldl_append, List.foldl_cons, foldl_read_other hframe hlater]
  · exact foldl_read_other hframe fun h => hdisjoint _ h _ List.mem_cons_self rfl
  · have hb' : key b ∈ earlier.map key := List.mem_map_of_mem hb
    rw [List.foldl_append, ← foldl_read_other (l := a :: later) hframe]
    intro h
    exact hdisjoint _ hb' _ h rfl

end Fold

/-! ## Rows of a key -/

variable [DecidableEq κ]

/-- The row of a key is changed. -/
def updateKey (key : α → κ) (l : List α) (k : κ) (f : α → α) : List α :=
  l.map fun a => if key a = k then f a else a

section Find

variable {key : α → κ} {l : List α} {a : α} {k : κ}

/-- A row is found by its key. -/
theorem find?_key_eq_some (h : (l.map key).Nodup) :
    l.find? (fun a => key a = k) = some a ↔ a ∈ l ∧ key a = k := by
  constructor
  · intro hfind
    exact ⟨List.mem_of_find?_eq_some hfind, by simpa using List.find?_some hfind⟩
  · rintro ⟨ha, rfl⟩
    cases hfind : l.find? fun b => key b = key a with
    | none => exact absurd (List.find?_eq_none.mp hfind a ha) (by simp)
    | some b =>
      have hkey : key b = key a := by simpa using List.find?_some hfind
      rw [List.inj_on_of_nodup_map h (List.mem_of_find?_eq_some hfind) ha hkey]

theorem map_updateKey {f : α → α} (hf : ∀ a, key a = k → key (f a) = k) :
    (updateKey key l k f).map key = l.map key := by
  unfold updateKey
  rw [List.map_map]
  refine List.map_congr_left fun a _ => ?_
  show key (if key a = k then f a else a) = key a
  split
  · next h => rw [hf a h, h]
  · rfl

/-- The row of a key, after one is changed. -/
theorem find?_updateKey {f : α → α} (hf : ∀ a, key a = k → key (f a) = k) (k' : κ) :
    (updateKey key l k f).find? (fun a => key a = k') =
      (l.find? fun a => key a = k').map fun a => if key a = k then f a else a := by
  unfold updateKey
  rw [List.find?_map]
  congr 2
  funext a
  show decide (key (if key a = k then f a else a) = k') = decide (key a = k')
  split
  · next h => rw [hf a h, h]
  · rfl

end Find

namespace Reordered

variable {key : α → κ} {l l' : List α}

/-- **The row of a key is the same in both.** -/
theorem find?_eq (h : Reordered key l l') (k : κ) :
    l.find? (fun a => key a = k) = l'.find? fun a => key a = k := by
  refine Option.ext fun a => ?_
  rw [find?_key_eq_some h.nodup, find?_key_eq_some h.symm.nodup, h.mem_iff]

theorem updateKey (h : Reordered key l l') (k : κ) {f : α → α} (hf : ∀ a, key a = k → key (f a) = k) :
    Reordered key (updateKey key l k f) (updateKey key l' k f) :=
  ⟨h.perm.map _, by rw [map_updateKey hf]; exact h.nodup⟩

/-- The rows of one key are the same in both, since there is at most one. -/
theorem filter_key_eq (h : Reordered key l l') (k : κ) :
    (l.filter fun a => key a = k) = l'.filter fun a => key a = k := by
  have hperm := h.perm.filter fun a => decide (key a = k)
  have hlength : (l.filter fun a => key a = k).length ≤ 1 := by
    have hnodup := (h.filter fun a => decide (key a = k)).nodup
    match hrows : l.filter fun a => key a = k with
    | [] => simp
    | [_] => simp
    | a :: b :: rest =>
      have hkey : ∀ c ∈ l.filter fun a => key a = k, key c = k := by
        intro c hc
        simpa using (List.mem_filter.mp hc).2
      rw [hrows] at hnodup hkey
      have ha := hkey a (by simp)
      have hb := hkey b (by simp)
      simp [ha, hb] at hnodup
  match hrows : l.filter fun a => key a = k with
  | [] =>
    rw [hrows] at hperm
    exact hperm.nil_eq
  | [a] =>
    rw [hrows] at hperm
    exact (List.perm_singleton.mp hperm.symm).symm
  | a :: b :: rest =>
    rw [hrows] at hlength
    simp at hlength

end Reordered

/-! ## Counting -/

section Counting

variable {xs : List α}

/-- **What balances at each element balances over the list.** -/
theorem countP_balance {p q r s : α → Bool}
    (h : ∀ x ∈ xs, (p x).toNat + (q x).toNat = (r x).toNat + (s x).toNat) :
    xs.countP p + xs.countP q = xs.countP r + xs.countP s := by
  induction xs with
  | nil => rfl
  | cons x xs ih =>
    obtain ⟨hx, hrest⟩ := List.forall_mem_cons.mp h
    have hsum := ih hrest
    have hcons : ∀ p : α → Bool, (x :: xs).countP p = xs.countP p + (p x).toNat := by
      intro p
      rw [List.countP_cons]
      cases p x <;> rfl
    rw [hcons p, hcons q, hcons r, hcons s]
    omega

/-- One of two that exclude each other. -/
theorem countP_split {p q r : α → Bool} (h : ∀ x ∈ xs, p x = (q x || r x) ∧ ¬ (q x = true ∧ r x = true)) :
    xs.countP p = xs.countP q + xs.countP r := by
  have hnone : xs.countP (fun _ => false) = 0 := List.countP_eq_zero.mpr fun _ _ => Bool.false_ne_true
  have hsum : xs.countP p + xs.countP (fun _ => false) = xs.countP q + xs.countP r :=
    countP_balance fun x hx => by
      obtain ⟨hor, hnot⟩ := h x hx
      rw [hor]
      cases hq : q x <;> cases hr : r x <;> simp_all
  rwa [hnone, Nat.add_zero] at hsum

/-- At most as many are of two kinds as of the one and of the other. -/
theorem countP_or_le (xs : List α) (p q : α → Bool) :
    xs.countP (fun x => p x || q x) ≤ xs.countP p + xs.countP q := by
  induction xs with
  | nil => exact Nat.le_refl _
  | cons x xs ih =>
    rw [List.countP_cons, List.countP_cons, List.countP_cons]
    cases p x <;> cases q x <;> simp <;> omega

/-- Reports of which each element gives one or none. -/
theorem countP_flatMap_toNat {f : α → List β} {p : β → Bool} {q : α → Bool}
    (h : ∀ x ∈ xs, (f x).countP p = (q x).toNat) : (xs.flatMap f).countP p = xs.countP q := by
  induction xs with
  | nil => rfl
  | cons x xs ih =>
    obtain ⟨hx, hrest⟩ := List.forall_mem_cons.mp h
    rw [List.flatMap_cons, List.countP_append, hx, ih hrest, List.countP_cons]
    cases q x <;> simp [Nat.add_comm]

/-- Only one element may count. -/
theorem countP_single {p : α → Bool} {a : α} (hnodup : xs.Nodup) (ha : a ∈ xs)
    (h : ∀ x ∈ xs, x ≠ a → p x = false) : xs.countP p = (p a).toNat := by
  induction xs with
  | nil => cases ha
  | cons x xs ih =>
    obtain ⟨hx, hnodup⟩ := List.nodup_cons.mp hnodup
    rw [List.countP_cons]
    rcases List.mem_cons.mp ha with rfl | hmem
    · have hnone : xs.countP p = 0 := by
        refine List.countP_eq_zero.mpr fun y hy => ?_
        rw [h y (List.mem_cons_of_mem _ hy) fun heq => hx (heq ▸ hy)]
        decide
      rw [hnone]
      cases p a <;> rfl
    · have hne : x ≠ a := fun heq => hx (heq ▸ hmem)
      rw [h x List.mem_cons_self hne, ih hnodup hmem fun y hy => h y (List.mem_cons_of_mem _ hy)]
      rfl

end Counting

end Mapae.Infra
