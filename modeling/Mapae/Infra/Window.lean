import Mathlib.Algebra.BigOperators.Group.Finset.Piecewise
import Mathlib.Algebra.GroupWithZero.Nat
import Mathlib.Algebra.Order.BigOperators.Group.Finset
import Mathlib.Data.List.Sort
import Mathlib.Data.Prod.Lex

/-!
# Queries with windows

The parts of a query that ranks rows: `ORDER BY`, `PARTITION BY` and `ROW_NUMBER`.

* the columns of an `ORDER BY` are one key in a linear order: `toLex` of the columns, `toDual`
  for a column that descends
* `numbered` numbers rows in their order, from one and without gaps
* `rowNumber` does so within each partition; `first` keeps the row number one of each
* what `f` tells apart within each partition is ranked alike, however the rows are listed
  (`SeparatesIn.perm_rowNumber`, `perm_groups`)
* `sum_le_sum_take` says that the first `k` numbers of a descending list have the greatest sum
* `rowNumber_filter` says that a filter on the partitions keeps the numbers of those that stay
* `take_append_slices` puts a list together from its slices
-/

namespace Mapae.Infra

universe u v w

variable {α : Type u} {β : Type v} {κ : Type w} [LinearOrder β] [DecidableEq κ]

/-- `ORDER BY f`. Rows with one key keep their order. -/
def orderBy (f : α → β) (rows : List α) : List α := rows.insertionSort fun a b => f a ≤ f b

/-- `ROW_NUMBER() OVER (ORDER BY f)`: the rows in order, each with its number. -/
def numbered (f : α → β) (rows : List α) : List (α × Nat) := (orderBy f rows).zipIdx 1

/-- The rows of the partition `k`. -/
def partition (key : α → κ) (rows : List α) (k : κ) : List α := rows.filter fun r => key r = k

/-- The partitions that `PARTITION BY key` or `GROUP BY key` makes. -/
def partitionKeys (key : α → κ) (rows : List α) : List κ := (rows.map key).dedup

/-- `ROW_NUMBER() OVER (PARTITION BY key ORDER BY f)`. -/
def rowNumber (key : α → κ) (f : α → β) (rows : List α) : List (α × Nat) :=
  (partitionKeys key rows).flatMap fun k => numbered f (partition key rows k)

/-- `... WHERE n <= k`. -/
def upTo (n : Nat) (rows : List (α × Nat)) : List α :=
  (rows.filter fun r => r.2 ≤ n).map Prod.fst

/-- The row number one of each partition. -/
def firsts (key : α → κ) (f : α → β) (rows : List α) : List α := upTo 1 (rowNumber key f rows)

variable {key : α → κ} {f : α → β} {rows : List α} {r r' : α} {k : κ} {n : Nat}

/-! ## Ordering -/

theorem perm_orderBy (f : α → β) (rows : List α) : (orderBy f rows).Perm rows :=
  List.perm_insertionSort _ _

@[simp] theorem mem_orderBy : r ∈ orderBy f rows ↔ r ∈ rows := (perm_orderBy f rows).mem_iff

@[simp] theorem length_orderBy : (orderBy f rows).length = rows.length :=
  (perm_orderBy f rows).length_eq

theorem pairwise_orderBy (f : α → β) (rows : List α) :
    (orderBy f rows).Pairwise fun a b => f a ≤ f b := by
  let _ : IsTrans α fun a b => f a ≤ f b := ⟨fun _ _ _ => le_trans⟩
  let _ : Std.Total fun a b : α => f a ≤ f b := ⟨fun a b => le_total (f a) (f b)⟩
  exact List.pairwise_insertionSort _ rows

/-- The first row, unless there is none. -/
theorem exists_head?_orderBy (h : r ∈ rows) :
    ∃ first ∈ rows, (orderBy f rows).head? = some first ∧ ∀ r' ∈ rows, f first ≤ f r' := by
  have hmem : ∀ r', r' ∈ orderBy f rows ↔ r' ∈ rows := fun _ => mem_orderBy
  have hpairwise := pairwise_orderBy f rows
  cases hrows : orderBy f rows with
  | nil =>
    rw [hrows] at hmem
    exact absurd ((hmem r).mpr h) List.not_mem_nil
  | cons first rest =>
    rw [hrows] at hmem hpairwise
    refine ⟨first, (hmem first).mp List.mem_cons_self, rfl, fun r' hr' => ?_⟩
    obtain rfl | hrest := List.mem_cons.mp ((hmem r').mpr hr')
    · exact le_rfl
    · exact List.rel_of_pairwise_cons hpairwise hrest

/-- Rows that agree on `f` are one row. -/
def Separates (f : α → β) (rows : List α) : Prop := ∀ a ∈ rows, ∀ b ∈ rows, f a = f b → a = b

/-- **Rows that `f` tells apart are in strict order.** -/
theorem Separates.pairwise_lt (h : Separates f rows) (hnodup : rows.Nodup) :
    (orderBy f rows).Pairwise fun a b => f a < f b := by
  have hnodup' : (orderBy f rows).Nodup := (perm_orderBy f rows).nodup_iff.mpr hnodup
  refine ((pairwise_orderBy f rows).and hnodup').imp_of_mem ?_
  rintro a b ha hb ⟨hle, hne⟩
  exact lt_of_le_of_ne hle fun he => hne (h a (mem_orderBy.mp ha) b (mem_orderBy.mp hb) he)

/-- What `f` tells apart has one order, however it is listed. -/
theorem Separates.orderBy_eq {rows' : List α} (h : Separates f rows) (hperm : rows.Perm rows') :
    orderBy f rows = orderBy f rows' := by
  have hperm' : (orderBy f rows).Perm (orderBy f rows') :=
    ((perm_orderBy f rows).trans hperm).trans (perm_orderBy f rows').symm
  refine List.Perm.eq_of_pairwise ?_ (pairwise_orderBy f rows) (pairwise_orderBy f rows') hperm'
  intro a b ha hb hab hba
  exact h a (mem_orderBy.mp ha) b (hperm.mem_iff.mpr (mem_orderBy.mp hb)) (le_antisymm hab hba)

theorem Separates.numbered_eq {rows' : List α} (h : Separates f rows) (hperm : rows.Perm rows') :
    numbered f rows = numbered f rows' := by rw [numbered, numbered, h.orderBy_eq hperm]

/-- Rows in strict order are what ordering gives, however they are listed. -/
theorem orderBy_of_perm {rows' : List α} (h : rows.Pairwise fun a b => f a < f b)
    (hperm : rows'.Perm rows) : orderBy f rows' = rows := by
  refine List.Perm.eq_of_pairwise ?_ (pairwise_orderBy f rows') (h.imp le_of_lt)
    ((perm_orderBy f rows').trans hperm)
  intro a b ha hb hab hba
  have hsymm : Std.Symm fun a b : α => f a ≠ f b := ⟨fun _ _ => Ne.symm⟩
  by_contra hne
  have ha' : a ∈ rows := hperm.mem_iff.mp (mem_orderBy.mp ha)
  exact (h.imp ne_of_lt).forall ha' hb hne (le_antisymm hab hba)

/-- **What lies between two bounds of an ordered list is a part of it**, and what comes before the
part is below the lower bound. -/
theorem exists_append_filter (lo : β) {below : α → Bool}
    (hbelow : ∀ a b, f a ≤ f b → below b = true → below a = true) :
    ∀ {rows : List α}, (rows.Pairwise fun a b => f a ≤ f b) →
      ∃ before after, rows = before ++ rows.filter (fun a => decide (lo ≤ f a) && below a) ++ after ∧
        ∀ a ∈ before, f a < lo
  | [], _ => ⟨[], [], rfl, nofun⟩
  | a :: rows, h => by
    obtain ⟨hhead, htail⟩ := List.pairwise_cons.mp h
    obtain ⟨before, after, hrows, hlow⟩ := exists_append_filter lo hbelow htail
    by_cases hlo : lo ≤ f a
    · have hnone : before = [] := by
        by_contra hne
        obtain ⟨b, hb⟩ := List.exists_mem_of_ne_nil before hne
        have hmem : b ∈ rows := hrows ▸ List.mem_append_left _ (List.mem_append_left _ hb)
        exact absurd (hlo.trans (hhead b hmem)) (not_le.mpr (hlow b hb))
      subst hnone
      by_cases hin : below a = true
      · refine ⟨[], after, ?_, nofun⟩
        rw [List.filter_cons_of_pos (by simp [hlo, hin])]
        exact congrArg (a :: ·) hrows
      · refine ⟨[], a :: rows, ?_, nofun⟩
        have hrest : rows.filter (fun b => decide (lo ≤ f b) && below b) = [] := by
          refine List.filter_eq_nil_iff.mpr fun b hb hkeep => hin ?_
          exact hbelow a b (hhead b hb) (Bool.and_eq_true_iff.mp hkeep).2
        rw [List.filter_cons_of_neg (by simp [hin]), hrest]
        rfl
    · refine ⟨a :: before, after, ?_, List.forall_mem_cons.mpr ⟨not_le.mp hlo, hlow⟩⟩
      rw [List.filter_cons_of_neg (by simp [hlo])]
      exact congrArg (a :: ·) hrows

/-! ## Numbering -/

theorem map_fst_numbered (f : α → β) (rows : List α) :
    (numbered f rows).map Prod.fst = orderBy f rows := List.zipIdx_map_fst ..

/-- **The numbers start from one and leave none out.** -/
theorem map_snd_numbered (f : α → β) (rows : List α) :
    (numbered f rows).map Prod.snd = List.range' 1 rows.length := by
  rw [numbered, List.zipIdx_map_snd, length_orderBy]

theorem upTo_zipIdx (n : Nat) : ∀ (rows : List α) (start : Nat),
    upTo n (rows.zipIdx start) = rows.take (n + 1 - start)
  | [], _ => by simp [upTo]
  | r :: rows, start => by
    have ih := upTo_zipIdx n rows (start + 1)
    unfold upTo at ih ⊢
    rw [List.zipIdx_cons, List.filter_cons]
    by_cases h : start ≤ n
    · rw [if_pos (decide_eq_true h), List.map_cons, ih, show n + 1 - start = n - start + 1 by omega,
        List.take_succ_cons, show n + 1 - (start + 1) = n - start by omega]
    · rw [if_neg (by simpa using h), ih, show n + 1 - start = 0 by omega,
        show n + 1 - (start + 1) = 0 by omega, List.take_zero, List.take_zero]

theorem upTo_numbered (n : Nat) (f : α → β) (rows : List α) :
    upTo n (numbered f rows) = (orderBy f rows).take n := by
  rw [numbered, upTo_zipIdx, Nat.add_sub_cancel]

/-! ## Partitions -/

theorem mem_partition : r ∈ partition key rows k ↔ r ∈ rows ∧ key r = k := by
  simp [partition]

theorem mem_partitionKeys : k ∈ partitionKeys key rows ↔ ∃ r ∈ rows, key r = k := by
  simp [partitionKeys]

theorem nodup_partitionKeys (key : α → κ) (rows : List α) : (partitionKeys key rows).Nodup :=
  List.nodup_dedup _

theorem partition_ne_nil (h : k ∈ partitionKeys key rows) : partition key rows k ≠ [] := by
  obtain ⟨r, hr, hk⟩ := mem_partitionKeys.mp h
  exact List.ne_nil_of_mem (mem_partition.mpr ⟨hr, hk⟩)

omit [DecidableEq κ] in
theorem upTo_flatMap (n : Nat) (keys : List κ) (g : κ → List (α × Nat)) :
    upTo n (keys.flatMap g) = keys.flatMap fun k => upTo n (g k) := by
  simp only [upTo, List.filter_flatMap, List.map_flatMap]

/-- The rows numbered up to `n` are the first `n` rows of each partition. -/
theorem upTo_rowNumber (n : Nat) (key : α → κ) (f : α → β) (rows : List α) :
    upTo n (rowNumber key f rows) =
      (partitionKeys key rows).flatMap fun k => (orderBy f (partition key rows k)).take n := by
  simp only [rowNumber, upTo_flatMap, upTo_numbered]

theorem mem_of_mem_rowNumber {p : α × Nat} (h : p ∈ rowNumber key f rows) : p.1 ∈ rows := by
  obtain ⟨k, -, hp⟩ := List.mem_flatMap.mp h
  exact (mem_partition.mp (mem_orderBy.mp (List.fst_mem_of_mem_zipIdx hp))).1

theorem mem_of_mem_upTo (h : r ∈ upTo n (rowNumber key f rows)) : r ∈ rows := by
  obtain ⟨p, hp, rfl⟩ := List.mem_map.mp h
  exact mem_of_mem_rowNumber (List.mem_of_mem_filter hp)

omit [LinearOrder β] in
/-- The partition of a list that was put together from its partitions. -/
theorem partition_flatMap {keys : List κ} {g : κ → List α} (hkeys : keys.Nodup)
    (hg : ∀ k ∈ keys, ∀ r ∈ g k, key r = k) (k : κ) :
    partition key (keys.flatMap g) k = if k ∈ keys then g k else [] := by
  induction keys with
  | nil => rfl
  | cons a keys ih =>
    obtain ⟨ha, hkeys⟩ := List.nodup_cons.mp hkeys
    have ih := ih hkeys fun k hk => hg k (List.mem_cons_of_mem _ hk)
    have hhead := hg a List.mem_cons_self
    unfold partition at ih ⊢
    rw [List.flatMap_cons, List.filter_append, ih]
    by_cases hk : a = k
    · subst hk
      rw [if_neg ha, List.append_nil, if_pos List.mem_cons_self, List.filter_eq_self]
      exact fun r hr => decide_eq_true (hhead r hr)
    · have hnone : (g a).filter (fun r => key r = k) = [] :=
        List.filter_eq_nil_iff.mpr fun r hr => by simpa [hhead r hr] using hk
      rw [hnone, List.nil_append]
      simp only [List.mem_cons, Ne.symm hk, false_or]

theorem partition_eq_nil (h : k ∉ partitionKeys key rows) : partition key rows k = [] := by
  refine List.filter_eq_nil_iff.mpr fun r hr => ?_
  simpa using fun hk => h (mem_partitionKeys.mpr ⟨r, hr, hk⟩)

/-- **Each partition is numbered by itself.** -/
theorem partition_rowNumber (key : α → κ) (f : α → β) (rows : List α) (k : κ) :
    partition (fun p => key p.1) (rowNumber key f rows) k = numbered f (partition key rows k) := by
  rw [rowNumber, partition_flatMap (nodup_partitionKeys key rows)]
  · split
    · rfl
    · next h =>
      rw [partition_eq_nil h]
      rfl
  · intro k _ p hp
    exact (mem_partition.mp (mem_orderBy.mp (List.fst_mem_of_mem_zipIdx hp))).2

theorem nodup_numbered (f : α → β) (rows : List α) : (numbered f rows).Nodup := by
  refine List.Nodup.of_map Prod.snd ?_
  rw [map_snd_numbered]
  exact List.nodup_range'

/-- A numbered row is there once, also where `rows` repeats it: its number tells. -/
theorem nodup_rowNumber (key : α → κ) (f : α → β) (rows : List α) :
    (rowNumber key f rows).Nodup := by
  refine List.nodup_flatMap.mpr ⟨fun k _ => nodup_numbered f _, ?_⟩
  refine (nodup_partitionKeys key rows).imp fun {k k'} hne => ?_
  intro p hp hp'
  have hkey (k : κ) (hp : p ∈ numbered f (partition key rows k)) : key p.1 = k :=
    (mem_partition.mp (mem_orderBy.mp (List.fst_mem_of_mem_zipIdx hp))).2
  exact hne ((hkey k hp).symm.trans (hkey k' hp'))

/-- **The first `n` rows of each partition, partition by partition.** -/
theorem partition_upTo (n : Nat) (key : α → κ) (f : α → β) (rows : List α) (k : κ) :
    partition key (upTo n (rowNumber key f rows)) k = (orderBy f (partition key rows k)).take n := by
  rw [upTo_rowNumber, partition_flatMap (nodup_partitionKeys key rows)]
  · split
    · rfl
    · next h =>
      rw [partition_eq_nil h]
      simp [orderBy]
  · intro k _ r hr
    exact (mem_partition.mp (mem_orderBy.mp (List.mem_of_mem_take hr))).2

/-- Rows of one partition that agree on `f` are one row. -/
def SeparatesIn (key : α → κ) (f : α → β) (rows : List α) : Prop :=
  ∀ a ∈ rows, ∀ b ∈ rows, key a = key b → f a = f b → a = b

omit [LinearOrder β] in
theorem SeparatesIn.partition (h : SeparatesIn key f rows) (k : κ) :
    Separates f (partition key rows k) := by
  intro a ha b hb he
  obtain ⟨ha, hak⟩ := mem_partition.mp ha
  obtain ⟨hb, hbk⟩ := mem_partition.mp hb
  exact h a ha b hb (hak.trans hbk.symm) he

/-- The least row of a partition, by `f`. -/
theorem take_one_orderBy (hf : Separates f rows) :
    r ∈ (orderBy f rows).take 1 ↔ r ∈ rows ∧ ∀ r' ∈ rows, f r ≤ f r' := by
  have hsorted := pairwise_orderBy f rows
  have hmem : ∀ x, x ∈ orderBy f rows ↔ x ∈ rows := fun _ => mem_orderBy
  cases hrows : orderBy f rows with
  | nil =>
    rw [hrows] at hmem
    simpa using fun h => absurd ((hmem r).mpr h) List.not_mem_nil
  | cons a rest =>
    rw [hrows] at hsorted hmem
    have hleast : ∀ r' ∈ rows, f a ≤ f r' := by
      intro r' hr'
      rcases List.mem_cons.mp ((hmem r').mpr hr') with rfl | hr'
      · exact le_rfl
      · exact List.rel_of_pairwise_cons hsorted hr'
    have ha : a ∈ rows := (hmem a).mp List.mem_cons_self
    rw [List.take_succ_cons, List.take_zero, List.mem_singleton]
    constructor
    · rintro rfl
      exact ⟨ha, hleast⟩
    · rintro ⟨hr, hle⟩
      exact hf r hr a ha (le_antisymm (hle a ha) (hleast r hr))

/-- **The first row of a partition is the least one of it.** -/
theorem mem_firsts (hf : SeparatesIn key f rows) :
    r ∈ firsts key f rows ↔ r ∈ rows ∧ ∀ r' ∈ rows, key r' = key r → f r ≤ f r' := by
  rw [firsts, upTo_rowNumber, List.mem_flatMap]
  constructor
  · rintro ⟨k, hk, hr⟩
    obtain ⟨hr, hle⟩ := (take_one_orderBy (hf.partition k)).mp hr
    obtain ⟨hmem, rfl⟩ := mem_partition.mp hr
    exact ⟨hmem, fun r' hr' hk' => hle r' (mem_partition.mpr ⟨hr', hk'⟩)⟩
  · rintro ⟨hr, hle⟩
    refine ⟨key r, mem_partitionKeys.mpr ⟨r, hr, rfl⟩, (take_one_orderBy (hf.partition _)).mpr ?_⟩
    refine ⟨mem_partition.mpr ⟨hr, rfl⟩, fun r' hr' => ?_⟩
    obtain ⟨hr', hk'⟩ := mem_partition.mp hr'
    exact hle r' hr' hk'

/-- **There is one first row for each partition.** -/
theorem map_key_firsts (key : α → κ) (f : α → β) (rows : List α) :
    (firsts key f rows).map key = partitionKeys key rows := by
  rw [firsts, upTo_rowNumber, List.map_flatMap]
  have hone : ∀ k ∈ partitionKeys key rows,
      ((orderBy f (partition key rows k)).take 1).map key = [k] := by
    intro k hk
    cases hrows : orderBy f (partition key rows k) with
    | nil =>
      have hlength := congrArg List.length hrows
      rw [length_orderBy] at hlength
      exact absurd (List.length_eq_zero_iff.mp hlength) (partition_ne_nil hk)
    | cons a rest =>
      have ha : a ∈ partition key rows k := mem_orderBy.mp (hrows ▸ List.mem_cons_self)
      simp [(mem_partition.mp ha).2]
  rw [List.flatMap_congr hone, List.flatMap_singleton']

/-- The rows of the firsts are told apart by their partition. -/
theorem firsts_inj (hr : r ∈ firsts key f rows) (hr' : r' ∈ firsts key f rows)
    (hk : key r = key r') : r = r' := by
  have hnodup : ((firsts key f rows).map key).Nodup := by
    rw [map_key_firsts]
    exact nodup_partitionKeys key rows
  exact List.inj_on_of_nodup_map hnodup hr hr' hk

theorem nodup_firsts (key : α → κ) (f : α → β) (rows : List α) : (firsts key f rows).Nodup := by
  refine List.Nodup.of_map key ?_
  rw [map_key_firsts]
  exact nodup_partitionKeys key rows

/-! ## Rows in another order -/

section Perm

variable {rows' : List α}

omit [LinearOrder β] in
theorem perm_partition (h : rows.Perm rows') (k : κ) : (partition key rows k).Perm (partition key rows' k) :=
  h.filter _

omit [LinearOrder β] in
theorem perm_partitionKeys (key : α → κ) (h : rows.Perm rows') :
    (partitionKeys key rows).Perm (partitionKeys key rows') := (h.map key).dedup

/-- **What `f` tells apart in each partition is numbered alike, however it is listed.** -/
theorem SeparatesIn.perm_rowNumber (hf : SeparatesIn key f rows) (h : rows.Perm rows') :
    (rowNumber key f rows).Perm (rowNumber key f rows') := by
  have hnumbered (k : κ) : numbered f (Infra.partition key rows k) = numbered f (Infra.partition key rows' k) :=
    (hf.partition k).numbered_eq (perm_partition h k)
  unfold rowNumber
  simp only [hnumbered]
  exact (perm_partitionKeys key h).flatMap_right _

theorem SeparatesIn.perm_upTo (hf : SeparatesIn key f rows) (h : rows.Perm rows') (n : Nat) :
    (upTo n (rowNumber key f rows)).Perm (upTo n (rowNumber key f rows')) :=
  ((hf.perm_rowNumber h).filter _).map _

omit [LinearOrder β] in
/-- **Groups are alike** when what is made of one does not depend on the order of its rows. -/
theorem perm_groups {γ : Type*} {g : κ → List α → γ} (h : rows.Perm rows')
    (hg : ∀ k (own own' : List α), own.Perm own' → g k own = g k own') :
    ((partitionKeys key rows).map fun k => g k (partition key rows k)).Perm
      ((partitionKeys key rows').map fun k => g k (partition key rows' k)) := by
  have hown (k : κ) : g k (partition key rows k) = g k (partition key rows' k) :=
    hg k _ _ (perm_partition h k)
  simp only [hown]
  exact (perm_partitionKeys key h).map _

omit [LinearOrder β] [DecidableEq κ] in
/-- The greatest of a list does not depend on its order. -/
theorem max?_of_perm {μ : Type*} [Max μ] [LE μ] [Std.IsLinearOrder μ] [Std.LawfulOrderMax μ] {xs ys : List μ}
    (h : xs.Perm ys) : xs.max? = ys.max? := by
  refine Option.ext fun x => ?_
  simp only [List.max?_eq_some_iff, h.mem_iff]

end Perm

/-- A sum over rows, taken apart by keys that are all there. -/
theorem sum_partition {M : Type*} [AddCommMonoid M] {keys : List κ} (hkeys : keys.Nodup)
    (g : α → M) (h : ∀ r ∈ rows, key r ∈ keys) :
    (keys.map fun k => ((partition key rows k).map g).sum).sum = (rows.map g).sum := by
  induction rows with
  | nil => simp [partition]
  | cons r rows ih =>
    have hsplit (k : κ) : ((partition key (r :: rows) k).map g).sum =
        (if key r = k then g r else 0) + ((partition key rows k).map g).sum := by
      unfold partition
      rw [List.filter_cons]
      by_cases hk : key r = k <;> simp [hk]
    have hone : (keys.map fun k => if key r = k then g r else 0).sum = g r := by
      rw [← List.sum_toFinset _ hkeys, Finset.sum_ite_eq,
        if_pos (List.mem_toFinset.mpr (h r List.mem_cons_self))]
    simp only [hsplit, List.sum_map_add, hone, List.map_cons, List.sum_cons]
    rw [ih fun x hx => h x (List.mem_cons_of_mem _ hx)]

omit [LinearOrder β] in
/-- Where a key names one row at most, its partition is that row. -/
theorem sum_partition_of_nodup {rows : List α} (h : (rows.map key).Nodup) (k : κ) (g : α → Nat) :
    ((partition key rows k).map g).sum = ((rows.find? fun r => key r = k).map g).getD 0 := by
  induction rows with
  | nil => rfl
  | cons r rows ih =>
    obtain ⟨hr, hrows⟩ := List.nodup_cons.mp h
    unfold partition at ih ⊢
    rw [List.filter_cons, List.find?_cons]
    by_cases hk : key r = k
    · have hnone : rows.filter (fun r => key r = k) = [] := by
        refine List.filter_eq_nil_iff.mpr fun x hx => ?_
        rw [decide_eq_true_eq]
        intro hkx
        exact hr (List.mem_map.mpr ⟨x, hx, hkx.trans hk.symm⟩)
      simp [hk, hnone]
    · simp only [hk, decide_false, Bool.false_eq_true, if_false]
      exact ih hrows

omit [LinearOrder β] in
theorem partition_comm {μ : Type*} [DecidableEq μ] (key : α → κ) (key' : α → μ) (rows : List α)
    (k : κ) (k' : μ) :
    partition key (partition key' rows k') k = partition key' (partition key rows k) k' := by
  simp only [partition, List.filter_filter, Bool.and_comm]

omit [LinearOrder β] in
/-- A finer partition is one of the coarser partition it is part of. -/
theorem partition_partition {μ : Type*} [DecidableEq μ] {key' : α → μ} {k' : μ}
    (h : ∀ r ∈ rows, key r = k → key' r = k') :
    partition key (partition key' rows k') k = partition key rows k := by
  simp only [partition, List.filter_filter]
  refine List.filter_congr fun r hr => ?_
  by_cases hk : key r = k
  · simp [hk, h r hr hk]
  · simp [hk]

/-! ## The greatest sum -/

/-- **The first `k` numbers of a descending list have the greatest sum of all `k` of them.** -/
theorem sum_le_sum_take {g : κ → Nat} : ∀ {keys : List κ} (k : Nat) (S : Finset κ),
    keys.Pairwise (fun a b => g b ≤ g a) → (∀ x ∈ S, x ∈ keys) → S.card ≤ k →
      ∑ x ∈ S, g x ≤ ((keys.take k).map g).sum
  | [], k, S, _, hmem, _ => by
    have hempty : S = ∅ := Finset.eq_empty_of_forall_notMem fun x hx => nomatch hmem x hx
    simp [hempty]
  | a :: keys, k, S, hsorted, hmem, hcard => by
    obtain ⟨ha, hrest⟩ := List.pairwise_cons.mp hsorted
    rcases S.eq_empty_or_nonempty with rfl | ⟨b, hb⟩
    · simp
    obtain ⟨k, rfl⟩ : ∃ j, k = j + 1 :=
      ⟨k - 1, by have := Finset.card_pos.mpr ⟨b, hb⟩; omega⟩
    -- One of `S` makes room for the head of the list: the head itself, if it is there.
    obtain ⟨c, hc, hle, hothers⟩ : ∃ c ∈ S, g c ≤ g a ∧ ∀ x ∈ S.erase c, x ∈ keys := by
      by_cases haS : a ∈ S
      · refine ⟨a, haS, le_rfl, fun x hx => ?_⟩
        obtain ⟨hne, hx⟩ := Finset.mem_erase.mp hx
        exact (List.mem_cons.mp (hmem x hx)).resolve_left hne
      · have hin : ∀ x ∈ S, x ∈ keys := fun x hx =>
          (List.mem_cons.mp (hmem x hx)).resolve_left fun he => haS (he ▸ hx)
        exact ⟨b, hb, ha b (hin b hb), fun x hx => hin x (Finset.mem_of_mem_erase hx)⟩
    have hcard' : (S.erase c).card ≤ k := by
      rw [Finset.card_erase_of_mem hc]
      omega
    rw [List.take_succ_cons, List.map_cons, List.sum_cons, ← Finset.add_sum_erase S g hc]
    exact Nat.add_le_add hle (sum_le_sum_take k (S.erase c) hrest hothers hcard')

/-! ## A filter on the partitions -/

omit [LinearOrder β] in
theorem dedup_filter (p : κ → Bool) (keys : List κ) : (keys.filter p).dedup = keys.dedup.filter p := by
  induction keys with
  | nil => rfl
  | cons k keys ih =>
    by_cases hp : p k = true
    · rw [List.filter_cons_of_pos hp]
      by_cases hmem : k ∈ keys
      · rw [List.dedup_cons_of_mem (List.mem_filter.mpr ⟨hmem, hp⟩), List.dedup_cons_of_mem hmem, ih]
      · rw [List.dedup_cons_of_notMem fun h => hmem (List.mem_of_mem_filter h), List.dedup_cons_of_notMem hmem,
          List.filter_cons_of_pos hp, ih]
    · rw [List.filter_cons_of_neg hp, ih]
      by_cases hmem : k ∈ keys
      · rw [List.dedup_cons_of_mem hmem]
      · rw [List.dedup_cons_of_notMem hmem, List.filter_cons_of_neg hp]

omit [LinearOrder β] in
theorem partitionKeys_filter (p : κ → Bool) (rows : List α) :
    partitionKeys key (rows.filter fun r => p (key r)) = (partitionKeys key rows).filter p := by
  rw [partitionKeys, partitionKeys, ← dedup_filter, List.filter_map]
  rfl

omit [LinearOrder β] in
theorem partition_filter {p : κ → Bool} (hp : p k = true) (rows : List α) :
    partition key (rows.filter fun r => p (key r)) k = partition key rows k := by
  rw [partition, partition, List.filter_filter]
  refine List.filter_congr fun r _ => ?_
  by_cases hk : key r = k
  · simp [hk, hp]
  · simp [hk]

/-- **A filter on the partitions keeps the numbers of those that stay.** -/
theorem rowNumber_filter (p : κ → Bool) (rows : List α) :
    rowNumber key f (rows.filter fun r => p (key r)) = (rowNumber key f rows).filter fun q => p (key q.1) := by
  rw [rowNumber, rowNumber, partitionKeys_filter, List.filter_flatMap]
  generalize partitionKeys key rows = keys
  have hkey (k : κ) (q) (hq : q ∈ numbered f (partition key rows k)) : key q.1 = k :=
    (mem_partition.mp (mem_orderBy.mp (List.fst_mem_of_mem_zipIdx hq))).2
  induction keys with
  | nil => rfl
  | cons k keys ih =>
    rw [List.flatMap_cons]
    by_cases hp : p k = true
    · rw [List.filter_cons_of_pos hp, List.flatMap_cons, ih, partition_filter hp]
      congr 1
      exact (List.filter_eq_self.mpr fun q hq => by rw [hkey k q hq, hp]).symm
    · rw [List.filter_cons_of_neg hp, ih]
      have hnone : (numbered f (partition key rows k)).filter (fun q => p (key q.1)) = [] :=
        List.filter_eq_nil_iff.mpr fun q hq => by rwa [hkey k q hq]
      rw [hnone, List.nil_append]

theorem firsts_filter (p : κ → Bool) (rows : List α) :
    firsts key f (rows.filter fun r => p (key r)) = (firsts key f rows).filter fun r => p (key r) := by
  rw [firsts, firsts, upTo, upTo, rowNumber_filter, List.filter_map, List.filter_filter, List.filter_filter]
  refine congrArg _ (List.filter_congr fun q _ => ?_)
  exact Bool.and_comm _ _

/-! ## Slices -/

omit [LinearOrder β] [DecidableEq κ] in
/-- **The first entries and the slices after them are the whole list.** -/
theorem take_append_slices (rows : List α) (first size : Nat) : ∀ count : Nat,
    rows.take first ++ (List.range count).flatMap (fun k => (rows.drop (first + k * size)).take size) =
      rows.take (first + count * size)
  | 0 => by simp
  | count + 1 => by
    rw [List.range_succ, List.flatMap_append, List.flatMap_singleton, ← List.append_assoc,
      take_append_slices rows first size count, ← List.take_add, Nat.add_mul, Nat.one_mul, Nat.add_assoc]

/-- What is kept of entries that are one for each key is one for each key. -/
theorem nodup_map_filterMap {α β κ : Type*} {key : α → κ} {key' : β → κ} {f : α → Option β} {rows : List α}
    (hf : ∀ a b, f a = some b → key' b = key a) (h : (rows.map key).Nodup) : ((rows.filterMap f).map key').Nodup := by
  refine h.sublist ?_
  clear h
  induction rows with
  | nil => exact List.Sublist.refl _
  | cons a rows ih =>
    rw [List.filterMap_cons]
    cases hb : f a with
    | none => exact ih.cons _
    | some b =>
      rw [List.map_cons, hf a b hb]
      exact ih.cons_cons _

end Mapae.Infra
