import Mapae.Guardians.Growth
import Mapae.Guardians.Honors

/-!
# Batches of claims

A claim checks every entry and applies those that are fresh.

* `freshResults` and `freshHonors` say which entries those are
* `claimed_spec` says what a successful claim has done
* `ClaimRun` is a sequence of claims with anything else in between; what it applied does not
  depend on how its entries were batched or ordered
-/

namespace Mapae.Guardians

open Mapae.Infra GuardiansStorage GuardianError

variable {erc : Erc721} {hashes : Hashes}

/-! ## Fresh entries -/

/-- The results whose payment is not claimed yet, also not by an earlier one of them. -/
def freshResults (claimed : Bytes32 → Bool) : List Result → List Result
  | [] => []
  | r :: rest =>
    if claimed r.paymentTx then freshResults claimed rest
    else r :: freshResults (Function.update claimed r.paymentTx true) rest

/-- How many honors are newer than the week of their token, also than an earlier one of them. -/
def freshHonors (week : Nat → Nat) : List Honor → Nat
  | [] => 0
  | h :: rest =>
    if h.week.toNat ≤ week h.tokenId then freshHonors week rest
    else freshHonors (Function.update week h.tokenId h.week.toNat) rest + 1

section Fresh

theorem freshResults_spec : ∀ (results : List Result) (claimed : Bytes32 → Bool),
    (∀ r ∈ freshResults claimed results, r ∈ results ∧ claimed r.paymentTx = false) ∧
      ((freshResults claimed results).map Result.paymentTx).Nodup ∧
      ∀ r ∈ results, claimed r.paymentTx = false →
        ∃ r' ∈ freshResults claimed results, r'.paymentTx = r.paymentTx
  | [], _ => ⟨nofun, List.nodup_nil, nofun⟩
  | r :: rest, claimed => by
    unfold freshResults
    split
    · next hclaimed =>
      obtain ⟨hmem, hnodup, hall⟩ := freshResults_spec rest claimed
      refine ⟨fun x hx => ⟨List.mem_cons_of_mem _ (hmem x hx).1, (hmem x hx).2⟩, hnodup,
        fun x hx hfree => ?_⟩
      rcases List.mem_cons.mp hx with rfl | hx
      · rw [hclaimed] at hfree
        exact nomatch hfree
      · exact hall x hx hfree
    · next hclaimed =>
      obtain ⟨hmem, hnodup, hall⟩ :=
        freshResults_spec rest (Function.update claimed r.paymentTx true)
      have hlater : ∀ x ∈ freshResults (Function.update claimed r.paymentTx true) rest,
          x.paymentTx ≠ r.paymentTx ∧ claimed x.paymentTx = false := fun x hx => by
        have hfree := (hmem x hx).2
        rw [Function.update_apply] at hfree
        split at hfree
        · exact nomatch hfree
        · next hne => exact ⟨hne, hfree⟩
      refine ⟨fun x hx => ?_, ?_, fun x hx hfree => ?_⟩
      · rcases List.mem_cons.mp hx with rfl | hx
        · exact ⟨List.mem_cons_self, Bool.eq_false_iff.mpr hclaimed⟩
        · exact ⟨List.mem_cons_of_mem _ (hmem x hx).1, (hlater x hx).2⟩
      · refine List.nodup_cons.mpr ⟨fun hr => ?_, hnodup⟩
        obtain ⟨x, hx, he⟩ := List.mem_map.mp hr
        exact (hlater x hx).1 he
      · by_cases he : x.paymentTx = r.paymentTx
        · exact ⟨r, List.mem_cons_self, he.symm⟩
        · rcases List.mem_cons.mp hx with rfl | hx
          · exact absurd rfl he
          · obtain ⟨x', hx', he'⟩ := hall x hx (by rwa [Function.update_of_ne he])
            exact ⟨x', List.mem_cons_of_mem _ hx', he'⟩

/-- Without a new week nothing is stored. -/
theorem foldl_newer_of_stale : ∀ (honors : List Honor) (word : Word),
    (∀ h ∈ honors, h.week.toNat ≤ lane 16 0 word.toNat) → honors.foldl newer word = word
  | [], _, _ => rfl
  | h :: rest, word, hstale => by
    have hsame : newer word h = word := by
      unfold newer
      rw [week_eq, if_pos (hstale h List.mem_cons_self)]
    rw [List.foldl_cons, hsame]
    exact foldl_newer_of_stale rest word fun x hx => hstale x (List.mem_cons_of_mem _ hx)

theorem stale_of_freshHonors : ∀ (honors : List Honor) (week : Nat → Nat),
    freshHonors week honors = 0 → ∀ h ∈ honors, h.week.toNat ≤ week h.tokenId
  | [], _, _ => nofun
  | h :: rest, week, hzero => by
    unfold freshHonors at hzero
    split at hzero
    · next hle =>
      exact List.forall_mem_cons.mpr ⟨hle, stale_of_freshHonors rest week hzero⟩
    · exact absurd hzero (Nat.succ_ne_zero _)

end Fresh

/-! ## A claim -/

section Claim

variable {s s' : GuardiansStorage erc}

/-- What the loop over the results has done. -/
structure ResultsApplied (hashes : Hashes) (s : GuardiansStorage erc)
    (entries : List (Result × hashes.Signature)) (applied : Nat) (s' : GuardiansStorage erc) :
    Prop where
  births : SameBirths s s'
  honors : s'.honors = s.honors
  checked : ∀ e ∈ entries, s.checkResult hashes e.1 e.2 = .ok ⟨⟩
  count : applied = (freshResults s.claimedPayments (entries.map Prod.fst)).length
  applied : s'.applied =
    (freshResults s.claimedPayments (entries.map Prod.fst)).reverse ++ s.applied

/-- **The results of a claim: all are checked, and the fresh ones are applied in their order.** -/
theorem applyAll_result : ∀ {entries : List (Result × hashes.Signature)}
    {s s' : GuardiansStorage erc} {n n' : Nat},
    applyAll hashes (fun s => s.result hashes) s n entries = .ok (n', s') →
      n ≤ n' ∧ ResultsApplied hashes s entries (n' - n) s'
  | [], s, _, n, _, h => by
    cases h
    exact ⟨Nat.le_refl n, .refl s, rfl, nofun, Nat.sub_self n, rfl⟩
  | (r, signature) :: rest, s, s', n, n', h => by
    obtain ⟨done, s₁, hr, hrest⟩ := applyAll_cons.mp h
    obtain ⟨hcheck, hcases⟩ := result_eq_ok hr
    obtain ⟨hle, happlied⟩ := applyAll_result hrest
    split at hcases
    · next hclaimed =>
      obtain ⟨rfl, rfl⟩ := hcases
      have hfresh : freshResults s₁.claimedPayments (((r, signature) :: rest).map Prod.fst) =
          freshResults s₁.claimedPayments (rest.map Prod.fst) := if_pos hclaimed
      exact ⟨hle, happlied.births, happlied.honors,
        List.forall_mem_cons.mpr ⟨hcheck, happlied.checked⟩, hfresh ▸ happlied.count,
        hfresh ▸ happlied.applied⟩
    · next hclaimed =>
      obtain ⟨rfl, rfl, -⟩ := hcases
      have hfresh : freshResults s.claimedPayments (((r, signature) :: rest).map Prod.fst) =
          r :: freshResults (s.grown r).claimedPayments (rest.map Prod.fst) := if_neg hclaimed
      have hbirths : SameBirths s (s.grown r) := { SameBirths.refl s with }
      refine ⟨by simp only [if_true] at hle; omega, hbirths.trans happlied.births,
        happlied.honors, List.forall_mem_cons.mpr ⟨hcheck, fun e he => ?_⟩, ?_, ?_⟩
      · rw [← hbirths.checkResult]
        exact happlied.checked e he
      · have hcount := happlied.count
        simp only [if_true] at hcount hle
        rw [hfresh, List.length_cons]
        omega
      · rw [hfresh, happlied.applied, List.reverse_cons, List.append_assoc]
        rfl

/-- What the loop over the honors has done. -/
structure HonorsApplied (hashes : Hashes) (s : GuardiansStorage erc)
    (entries : List (Honor × hashes.Signature)) (applied : Nat) (s' : GuardiansStorage erc) :
    Prop where
  births : SameBirths s s'
  growth : s'.growth = s.growth
  results : s'.applied = s.applied
  checked : ∀ e ∈ entries, s.checkHonor hashes e.1 e.2 = .ok ⟨⟩
  count : applied = freshHonors s.honorWeek (entries.map Prod.fst)
  honors : ∀ id, s'.honors id =
    ((entries.map Prod.fst).filter fun h => h.tokenId = id).foldl newer (s.honors id)

theorem newer_eq (s : GuardiansStorage erc) (h : Honor) : newer (s.honors h.tokenId) h =
    if h.week.toNat ≤ s.honorWeek h.tokenId then s.honors h.tokenId
    else mergeHonor (s.honors h.tokenId) h := rfl

/-- **The honors of a claim: all are checked, and each is merged into the word of its token.** -/
theorem applyAll_honor : ∀ {entries : List (Honor × hashes.Signature)}
    {s s' : GuardiansStorage erc} {n n' : Nat},
    applyAll hashes (fun s => s.honor hashes) s n entries = .ok (n', s') →
      n ≤ n' ∧ HonorsApplied hashes s entries (n' - n) s'
  | [], s, _, n, _, h => by
    cases h
    exact ⟨Nat.le_refl n, .refl s, rfl, rfl, nofun, Nat.sub_self n, fun _ => rfl⟩
  | (e, signature) :: rest, s, s', n, n', h => by
    obtain ⟨done, s₁, he, hrest⟩ := applyAll_cons.mp h
    obtain ⟨hcheck, hcases⟩ := honor_eq_ok he
    obtain ⟨hle, happlied⟩ := applyAll_honor hrest
    have hfilter (id : Nat) (word : Word) :
        (((e, signature) :: rest).map Prod.fst |>.filter fun h => h.tokenId = id).foldl newer word =
          ((rest.map Prod.fst).filter fun h => h.tokenId = id).foldl newer
            (if e.tokenId = id then newer word e else word) := by
      rw [List.map_cons, List.filter_cons]
      simp only [decide_eq_true_eq]
      split <;> rfl
    split at hcases
    · next hstale =>
      obtain ⟨rfl, rfl⟩ := hcases
      have hfresh : freshHonors s₁.honorWeek (((e, signature) :: rest).map Prod.fst) =
          freshHonors s₁.honorWeek (rest.map Prod.fst) := if_pos hstale
      refine ⟨hle, happlied.births, happlied.growth, happlied.results,
        List.forall_mem_cons.mpr ⟨hcheck, happlied.checked⟩, hfresh ▸ happlied.count, fun id => ?_⟩
      rw [happlied.honors, hfilter]
      split
      · next hid => rw [← hid, newer_eq, if_pos hstale]
      · rfl
    · next hnew =>
      obtain ⟨rfl, rfl⟩ := hcases
      have hword (id : Nat) : (s.honored e).honors id =
          if e.tokenId = id then newer (s.honors id) e else s.honors id := by
        refine (Function.update_apply ..).trans ?_
        by_cases hid : id = e.tokenId
        · rw [if_pos hid, if_pos hid.symm, hid, newer_eq, if_neg hnew]
        · rw [if_neg hid, if_neg (Ne.symm hid)]
      have hweek : (s.honored e).honorWeek =
          Function.update s.honorWeek e.tokenId e.week.toNat := by
        funext id
        have hread (s : GuardiansStorage erc) : s.honorWeek id = lane 16 0 (s.honors id).toNat :=
          week_eq _
        rw [Function.update_apply, hread, hread, hword]
        by_cases hid : id = e.tokenId
        · rw [if_pos hid, if_pos hid.symm, hid, lane_zero_newer, ← week_eq]
          exact Nat.max_eq_right (Nat.le_of_lt (Nat.not_le.mp hnew))
        · rw [if_neg hid, if_neg (Ne.symm hid)]
      have hfresh : freshHonors s.honorWeek (((e, signature) :: rest).map Prod.fst) =
          freshHonors (s.honored e).honorWeek (rest.map Prod.fst) + 1 := by
        rw [hweek]
        exact if_neg hnew
      have hbirths : SameBirths s (s.honored e) := { SameBirths.refl s with }
      refine ⟨by simp only [if_true] at hle; omega, hbirths.trans happlied.births,
        happlied.growth, happlied.results, List.forall_mem_cons.mpr ⟨hcheck, fun x hx => ?_⟩, ?_,
        fun id => ?_⟩
      · rw [← hbirths.checkHonor]
        exact happlied.checked x hx
      · have hcount := happlied.count
        simp only [if_true] at hcount hle
        rw [hfresh]
        omega
      · rw [happlied.honors, hfilter, hword]

/-- What a successful claim found and did. -/
structure Claimed (s : GuardiansStorage erc) (c : ClaimCall hashes) (applied : Nat)
    (s' : GuardiansStorage erc) : Prop where
  births : SameBirths s s'
  checkedResults : ∀ e ∈ c.results.zip c.resultSignatures, s.checkResult hashes e.1 e.2 = .ok ⟨⟩
  checkedHonors : ∀ e ∈ c.honors.zip c.honorSignatures, s.checkHonor hashes e.1 e.2 = .ok ⟨⟩
  weeks : ∀ e ∈ c.honors, e.week.toNat ≠ 0
  count : applied = (freshResults s.claimedPayments c.results).length +
    freshHonors s.honorWeek c.honors
  applied : s'.applied = (freshResults s.claimedPayments c.results).reverse ++ s.applied
  honors : ∀ id, s'.honors id =
    (c.honors.filter fun h => h.tokenId = id).foldl newer (s.honors id)

/-- The loops of a claim, whatever they counted. -/
theorem claimed_of_loops {c : ClaimCall hashes} {n₁ n : Nat} {s₁ : GuardiansStorage erc}
    (hresultLength : c.resultSignatures.length = c.results.length)
    (hhonorLength : c.honorSignatures.length = c.honors.length)
    (hresults : applyAll hashes (fun s => s.result hashes) s 0
      (c.results.zip c.resultSignatures) = .ok (n₁, s₁))
    (hhonors : applyAll hashes (fun s => s.honor hashes) s₁ n₁
      (c.honors.zip c.honorSignatures) = .ok (n, s')) : Claimed s c n s' := by
  obtain ⟨-, hr⟩ := applyAll_result hresults
  obtain ⟨hle, hh⟩ := applyAll_honor hhonors
  have hfst : (c.results.zip c.resultSignatures).map Prod.fst = c.results :=
    List.map_fst_zip (Nat.le_of_eq hresultLength.symm)
  have hfst' : (c.honors.zip c.honorSignatures).map Prod.fst = c.honors :=
    List.map_fst_zip (Nat.le_of_eq hhonorLength.symm)
  have hweek : s₁.honorWeek = s.honorWeek := by
    funext id
    exact congrArg (fun word : Word => (word &&& 0xffff#256).toNat) (congrFun hr.honors id)
  have hchecked : ∀ e ∈ c.honors.zip c.honorSignatures,
      s.checkHonor hashes e.1 e.2 = .ok ⟨⟩ := fun e he => by
    rw [← hr.births.checkHonor]
    exact hh.checked e he
  have hcount := hr.count
  have hcount' := hh.count
  rw [hfst, Nat.sub_zero] at hcount
  rw [hfst', hweek] at hcount'
  exact
    { births := hr.births.trans hh.births
      checkedResults := hr.checked
      checkedHonors := hchecked
      weeks := fun e he => by
        rw [← hfst'] at he
        obtain ⟨p, hp, rfl⟩ := List.mem_map.mp he
        exact (sealed_of_checkHonor (hchecked p hp)).1
      count := by omega
      applied := by rw [hh.results, hr.applied, hfst]
      honors := fun id => by rw [hh.honors, hfst', hr.honors] }

/-- **A successful claim checked everything and applied what is fresh.** -/
theorem claimed_spec {c : ClaimCall hashes} {n : Nat} (h : s.claim hashes c = .ok (n, s')) :
    Claimed s c n s' := by
  obtain ⟨hbatch, n₁, s₁, hresults, hhonors, -⟩ := claim_eq_ok.mp h
  simp only [not_or, not_not] at hbatch
  exact claimed_of_loops hbatch.2.2.1 hbatch.2.2.2 hresults hhonors

/-! ## Claims without anything fresh -/

theorem bind_ne_error {α β : Type} {x : Except GuardianError α} {f : α → Except GuardianError β} {e : GuardianError}
    (hx : x ≠ .error e) (hf : ∀ a, f a ≠ .error e) : (x >>= f) ≠ .error e :=
  fun h => (bind_eq_error.mp h).elim hx fun ⟨a, _, h⟩ => hf a h

theorem throwIf_ne_error {p : Prop} [Decidable p] {e e' : GuardianError} (h : e' ≠ e) :
    (throwIf p e' : Except GuardianError Unit) ≠ .error e :=
  fun herror => h (throwIf_eq_error.mp herror).2

theorem result_ne_alreadyClaimed {r : Result} {signature : hashes.Signature} :
    s.result hashes r signature ≠ .error AlreadyClaimed := by
  refine bind_ne_error (bind_ne_error (throwIf_ne_error (by simp)) fun _ => ?_) fun _ => ?_
  · refine bind_ne_error (throwIf_ne_error (by simp)) fun _ => ?_
    exact bind_ne_error (throwIf_ne_error (by simp)) fun _ => throwIf_ne_error (by simp)
  · split
    · exact fun h => by cases h
    · exact bind_ne_error (throwIf_ne_error (by simp)) fun _ h => by cases h

theorem honor_ne_alreadyClaimed {e : Honor} {signature : hashes.Signature} :
    s.honor hashes e signature ≠ .error AlreadyClaimed := by
  refine bind_ne_error (bind_ne_error (throwIf_ne_error (by simp)) fun _ => ?_) fun _ => ?_
  · refine bind_ne_error (throwIf_ne_error (by simp)) fun _ => ?_
    exact bind_ne_error (throwIf_ne_error (by simp)) fun _ => throwIf_ne_error (by simp)
  · dsimp only
    split <;> exact fun h => by cases h

theorem applyAll_ne_error {α : Type} {f : GuardiansStorage erc → α → hashes.Signature →
    Except GuardianError (Bool × GuardiansStorage erc)} {e : GuardianError}
    (hf : ∀ s entry signature, f s entry signature ≠ .error e) :
    ∀ (entries : List (α × hashes.Signature)) (s : GuardiansStorage erc) (n : Nat),
      applyAll hashes f s n entries ≠ .error e
  | [], _, _ => nofun
  | (entry, signature) :: rest, s, n => fun h => by
    rcases bind_eq_error.mp h with h | ⟨step, -, h⟩
    · exact hf s entry signature h
    · exact applyAll_ne_error hf rest _ _ h

/-- **A claim that has nothing to apply is stale in all of its entries.** -/
theorem claim_stale {c : ClaimCall hashes} (h : s.claim hashes c = .error AlreadyClaimed) :
    (∀ r ∈ c.results, s.claimedPayments r.paymentTx = true) ∧
      ∀ e ∈ c.honors, e.week.toNat ≠ 0 ∧ e.week.toNat ≤ s.honorWeek e.tokenId := by
  rcases bind_eq_error.mp h with h | ⟨_, hbatch, h⟩
  · exact nomatch (throwIf_eq_error.mp h).2
  rcases bind_eq_error.mp h with h | ⟨⟨n₁, s₁⟩, hresults, h⟩
  · exact absurd h (applyAll_ne_error (fun _ _ _ => result_ne_alreadyClaimed) _ _ _)
  rcases bind_eq_error.mp h with h | ⟨⟨n₂, s₂⟩, hhonors, h⟩
  · exact absurd h (applyAll_ne_error (fun _ _ _ => honor_ne_alreadyClaimed) _ _ _)
  rcases bind_eq_error.mp h with h | ⟨_, -, h⟩
  · obtain ⟨hzero, -⟩ := throwIf_eq_error.mp h
    have hbatch := throwIf_eq_ok.mp hbatch
    simp only [not_or, not_not] at hbatch
    have hclaimed := claimed_of_loops hbatch.2.2.1 hbatch.2.2.2 hresults hhonors
    have hcount : 0 = (freshResults s.claimedPayments c.results).length +
        freshHonors s.honorWeek c.honors := hzero ▸ hclaimed.count
    have hstale := stale_of_freshHonors c.honors s.honorWeek (by omega)
    refine ⟨fun r hr => ?_, fun e he => ⟨hclaimed.weeks e he, hstale e he⟩⟩
    by_contra hfree
    obtain ⟨-, -, hall⟩ := freshResults_spec c.results s.claimedPayments
    obtain ⟨r', hr', -⟩ := hall r hr (Bool.eq_false_iff.mpr hfree)
    have := List.length_pos_of_mem hr'
    omega
  · exact nomatch h

end Claim

/-! ## Runs of claims -/

/-- A run of claims, with anything but a claim in between. A claim that finds nothing fresh
reverts and leaves the storage as it was. -/
inductive ClaimRun (hashes : Hashes) :
    GuardiansStorage erc → List (ClaimCall hashes) → GuardiansStorage erc → Prop
  | done (s) : ClaimRun hashes s [] s
  | claimed {s s₁ s' c cs} {n : Nat} (claim : s.claim hashes c = .ok (n, s₁))
      (rest : ClaimRun hashes s₁ cs s') : ClaimRun hashes s (c :: cs) s'
  | stale {s s' c cs} (claim : s.claim hashes c = .error AlreadyClaimed)
      (rest : ClaimRun hashes s cs s') : ClaimRun hashes s (c :: cs) s'
  | other {s s₁ s' cs kind} (effect : Effect hashes s kind s₁) (other : kind ≠ .claim)
      (rest : ClaimRun hashes s₁ cs s') : ClaimRun hashes s cs s'

/-- All results of a run of claims, and all honors. -/
def resultsOf (cs : List (ClaimCall hashes)) : List Result := cs.flatMap ClaimCall.results

def honorsOf (cs : List (ClaimCall hashes)) : List Honor := cs.flatMap ClaimCall.honors

theorem honorsOf_cons (c : ClaimCall hashes) (cs : List (ClaimCall hashes)) :
    honorsOf (c :: cs) = c.honors ++ honorsOf cs := rfl

/-- Different results are paid by different transactions. -/
def DistinctPayments (results : List Result) : Prop :=
  ∀ r ∈ results, ∀ r' ∈ results, r.paymentTx = r'.paymentTx → r = r'

/-- What no effect but a claim touches. -/
structure SameGrowth (s s' : GuardiansStorage erc) : Prop where
  growth : s'.growth = s.growth
  claimedPayments : s'.claimedPayments = s.claimedPayments
  applied : s'.applied = s.applied
  honors : s'.honors = s.honors
  later : s.timestamp ≤ s'.timestamp

theorem Effect.sameGrowth {s s' : GuardiansStorage erc} {kind : Kind}
    (h : Effect hashes s kind s') (hkind : kind ≠ .claim) : SameGrowth s s' := by
  cases h with
  | mint | request | birth | transfer | approve => exact ⟨rfl, rfl, rfl, rfl, Nat.le_refl _⟩
  | claim => exact absurd rfl hkind
  | admin hlater => exact ⟨rfl, rfl, rfl, rfl, hlater⟩

namespace ClaimRun

variable {s s' s'' : GuardiansStorage erc} {cs cs' : List (ClaimCall hashes)}

theorem append (h : ClaimRun hashes s cs s') (h' : ClaimRun hashes s' cs' s'') :
    ClaimRun hashes s (cs ++ cs') s'' := by
  induction h with
  | done => exact h'
  | claimed claim _ ih => exact .claimed claim (ih h')
  | stale claim _ ih => exact .stale claim (ih h')
  | other effect hother _ ih => exact .other effect hother (ih h')

/-- **What a run applies: results of the claims and no others, and in the end every payment of
them is claimed.** -/
theorem results (h : ClaimRun hashes s cs s') (hinv : GrowthInvariant s) :
    GrowthInvariant s' ∧ (∀ r ∈ s'.applied, r ∈ s.applied ∨ r ∈ resultsOf cs) ∧
      (∀ r ∈ s.applied, r ∈ s'.applied) ∧
      ∀ r ∈ resultsOf cs, ∃ r' ∈ s'.applied, r'.paymentTx = r.paymentTx := by
  induction h with
  | done => exact ⟨hinv, fun r hr => Or.inl hr, fun r hr => hr, nofun⟩
  | @claimed s s₁ s' c cs n claim _ ih =>
    obtain ⟨hinv', hfrom, hkept, hall⟩ := ih (hinv.claim claim)
    have happlied := (claimed_spec claim).applied
    obtain ⟨hmem, -, hfresh⟩ := freshResults_spec c.results s.claimedPayments
    have hkept₁ : ∀ r ∈ s.applied, r ∈ s₁.applied := fun r hr => by
      rw [happlied]
      exact List.mem_append_right _ hr
    refine ⟨hinv', fun r hr => ?_, fun r hr => hkept r (hkept₁ r hr), fun r hr => ?_⟩
    · rcases hfrom r hr with hr | hr
      · rw [happlied, List.mem_append, List.mem_reverse] at hr
        rcases hr with hr | hr
        · exact Or.inr (List.mem_append_left _ (hmem r hr).1)
        · exact Or.inl hr
      · exact Or.inr (List.mem_append_right _ hr)
    · rcases List.mem_append.mp hr with hr | hr
      · by_cases hclaimed : s.claimedPayments r.paymentTx = true
        · obtain ⟨r', hr', he⟩ := (hinv.claimed _).mp hclaimed
          exact ⟨r', hkept r' (hkept₁ r' hr'), he⟩
        · obtain ⟨r', hr', he⟩ := hfresh r hr (Bool.eq_false_iff.mpr hclaimed)
          refine ⟨r', hkept r' ?_, he⟩
          rw [happlied]
          exact List.mem_append_left _ (List.mem_reverse.mpr hr')
      · exact hall r hr
  | stale claim _ ih =>
    obtain ⟨hinv', hfrom, hkept, hall⟩ := ih hinv
    refine ⟨hinv', fun r hr => (hfrom r hr).imp_right (List.mem_append_right _), hkept,
      fun r hr => ?_⟩
    rcases List.mem_append.mp hr with hr | hr
    · obtain ⟨r', hr', he⟩ := (hinv.claimed _).mp ((claim_stale claim).1 r hr)
      exact ⟨r', hkept r' hr', he⟩
    · exact hall r hr
  | other effect hother _ ih =>
    have hsame := effect.sameGrowth hother
    obtain ⟨hinv', hfrom, hkept, hall⟩ :=
      ih (hinv.congr hsame.growth hsame.claimedPayments hsame.applied)
    rw [hsame.applied] at hfrom hkept
    exact ⟨hinv', hfrom, hkept, hall⟩

/-- **After a run from the start, exactly the results of its claims are applied.** -/
theorem mem_applied (h : ClaimRun hashes s cs s') (hdeployed : Deployed s)
    (hdistinct : DistinctPayments (resultsOf cs)) (r : Result) :
    r ∈ s'.applied ↔ r ∈ resultsOf cs := by
  obtain ⟨-, hfrom, -, hall⟩ := h.results (.of_deployed hdeployed)
  rw [hdeployed.applied] at hfrom
  constructor
  · intro hr
    exact (hfrom r hr).resolve_left List.not_mem_nil
  · intro hr
    obtain ⟨r', hr', he⟩ := hall r hr
    have hmem := (hfrom r' hr').resolve_left List.not_mem_nil
    rwa [hdistinct r hr r' hmem he.symm]

/-- **The honors of a run are merged one after another, whatever the batches.** -/
theorem honors (h : ClaimRun hashes s cs s') : (∀ e ∈ honorsOf cs, e.week.toNat ≠ 0) ∧
    ∀ id, s'.honors id =
      ((honorsOf cs).filter fun e => e.tokenId = id).foldl newer (s.honors id) := by
  induction h with
  | done => exact ⟨nofun, fun _ => rfl⟩
  | claimed claim _ ih =>
    have hclaimed := claimed_spec claim
    refine ⟨fun e he => ?_, fun id => ?_⟩
    · rcases List.mem_append.mp he with he | he
      · exact hclaimed.weeks e he
      · exact ih.1 e he
    · rw [ih.2, hclaimed.honors, honorsOf_cons, List.filter_append, List.foldl_append]
  | @stale s s' c cs claim _ ih =>
    obtain ⟨-, hstale⟩ := claim_stale claim
    refine ⟨fun e he => ?_, fun id => ?_⟩
    · rcases List.mem_append.mp he with he | he
      · exact (hstale e he).1
      · exact ih.1 e he
    · rw [ih.2, honorsOf_cons, List.filter_append, List.foldl_append,
        foldl_newer_of_stale (c.honors.filter _)]
      intro e he
      obtain ⟨hmem, hid⟩ := List.mem_filter.mp he
      rw [← of_decide_eq_true hid, ← week_eq]
      exact (hstale e hmem).2
  | other effect hother _ ih =>
    rw [← (effect.sameGrowth hother).honors]
    exact ih

end ClaimRun

end Mapae.Guardians
