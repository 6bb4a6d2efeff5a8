import Mapae.Delegation.Oracle

/-!
# The policy oracle never overspends

Over every run of `register`, `revoke`, `rotate` and `settle`:

* what the settlements through a delegation charge it in one period is within its period amount,
  and what they charge it in all is within its total
* a settlement through a chain with a revoked or expired delegation is refused
* a settlement id is consumed once
* a refused settlement leaves the oracle as it was

`policy_oracle_held` is the result; `OracleInvariant` is what every method preserves.
-/

namespace Mapae.Delegation

open Mapae.Infra DelegationPolicyOracle

variable {s : OracleRun} {o o' : DelegationPolicyOracle} {log : List SettledPayment}
variable (getAddress : GetAddress)

/-! ## What the log charges -/

/-- What the settlements through a delegation charge it in a period. -/
def chargedIn (log : List SettledPayment) (d : StoredDelegation) (period : Period) : Int :=
  ((log.filter fun t => d.id ∈ t.lineage ∧ d.periodAt t.time = period).map fun t => t.amount).sum

/-- What they charge it in all. -/
def charged (log : List SettledPayment) (id : String) : Int :=
  ((log.filter fun t => id ∈ t.lineage).map fun t => t.amount).sum

theorem chargedIn_cons (t : SettledPayment) (log : List SettledPayment) (d : StoredDelegation)
    (period : Period) : chargedIn (t :: log) d period =
      chargedIn log d period +
        if d.id ∈ t.lineage ∧ d.periodAt t.time = period then t.amount else 0 := by
  unfold chargedIn
  rw [List.filter_cons]
  simp only [decide_eq_true_eq]
  split
  · rw [List.map_cons, List.sum_cons, Int.add_comm]
  · rw [Int.add_zero]

theorem charged_cons (t : SettledPayment) (log : List SettledPayment) (id : String) :
    charged (t :: log) id = charged log id + if id ∈ t.lineage then t.amount else 0 := by
  unfold charged
  rw [List.filter_cons]
  simp only [decide_eq_true_eq]
  split
  · rw [List.map_cons, List.sum_cons, Int.add_comm]
  · rw [Int.add_zero]

/-- The charges read what a delegation was registered with. -/
theorem chargedIn_congr {d d' : StoredDelegation}
    (h : d'.toOracleDelegation = d.toOracleDelegation) (period : Period) :
    chargedIn log d' period = chargedIn log d period := by
  unfold chargedIn StoredDelegation.periodAt
  rw [h]

/-! ## The commit -/

section Commit

variable {input : OracleSettlement} {lineage : List StoredDelegation}

/-- **Each delegation of the lineage is charged once, in the period its clock is in.** -/
theorem foldl_charge (input : OracleSettlement) : ∀ (lineage : List StoredDelegation)
    (o : DelegationPolicyOracle), (lineage.map fun d => d.id).Nodup →
      (∀ key, (lineage.foldl (fun o d => o.charge input d) o).spent key = o.spent key +
        if ∃ d ∈ lineage, d.bucketKey input.time = key then input.amount else 0) ∧
      (∀ id, (lineage.foldl (fun o d => o.charge input d) o).lifetimeSpent id =
        o.lifetimeSpent id + if ∃ d ∈ lineage, d.id = id then input.amount else 0) ∧
      (lineage.foldl (fun o d => o.charge input d) o).delegations = o.delegations ∧
      (lineage.foldl (fun o d => o.charge input d) o).settled = o.settled
  | [], o, _ => by simp
  | d :: lineage, o, hnodup => by
    obtain ⟨hd, hnodup⟩ := List.nodup_cons.mp hnodup
    obtain ⟨hspent, hlifetime, hdelegations, hsettled⟩ := foldl_charge input lineage (o.charge input d) hnodup
    have hother : ∀ a ∈ lineage, a.id ≠ d.id := fun a ha he => hd (List.mem_map.mpr ⟨a, ha, he⟩)
    refine ⟨fun key => ?_, fun id => ?_, hdelegations, hsettled⟩
    · rw [List.foldl_cons, hspent]
      simp only [charge, Function.update_apply, List.exists_mem_cons_iff]
      by_cases hkey : key = d.bucketKey input.time
      · subst hkey
        have hrest : ¬ ∃ a ∈ lineage, a.bucketKey input.time = d.bucketKey input.time :=
          fun ⟨a, ha, he⟩ => hother a ha (congrArg Prod.fst he)
        simp [hrest]
      · simp [hkey, Ne.symm hkey]
    · rw [List.foldl_cons, hlifetime]
      simp only [charge, Function.update_apply, List.exists_mem_cons_iff]
      by_cases hid : id = d.id
      · subst hid
        have hrest : ¬ ∃ a ∈ lineage, a.id = d.id := fun ⟨a, ha, he⟩ => hother a ha he
        simp [hrest]
      · simp [hid, Ne.symm hid]

end Commit

/-! ## The invariant -/

structure OracleInvariant (s : OracleRun) : Prop where
  ranked : ∃ rank, Ranked s.oracle rank
  spent : ∀ d ∈ s.oracle.delegations, ∀ period,
    s.oracle.spent (d.id, period) = chargedIn s.log d period
  lifetimeSpent : ∀ d ∈ s.oracle.delegations, s.oracle.lifetimeSpent d.id = charged s.log d.id
  period : ∀ d ∈ s.oracle.delegations, ∀ period,
    s.oracle.spent (d.id, period) ≤ max 0 d.policy.periodAmount
  total : ∀ d ∈ s.oracle.delegations, ∀ total, d.policy.lifetimeTotalAmount = some total →
    s.oracle.lifetimeSpent d.id ≤ max 0 total
  settled : s.oracle.settled = s.log.map fun t => t.settlementId
  once : s.oracle.settled.Nodup
  lineage : ∀ t ∈ s.log, (∃ d, s.oracle.delegations.get? t.delegationId = some d) ∧
    ∀ id, id ∈ t.lineage ↔ ∃ a, OnChain s.oracle t.delegationId a ∧ a.id = id
  /-- What is not registered has not been charged. -/
  fresh : ∀ id, s.oracle.delegations.get? id = none →
    (∀ period, s.oracle.spent (id, period) = 0) ∧ s.oracle.lifetimeSpent id = 0

namespace OracleInvariant

theorem new : OracleInvariant OracleRun.new where
  ranked := ⟨fun _ => 0, fun _ h => absurd h Table.not_mem_empty,
    fun _ h => absurd h Table.not_mem_empty⟩
  spent _ h := absurd h Table.not_mem_empty
  lifetimeSpent _ h := absurd h Table.not_mem_empty
  period _ h := absurd h Table.not_mem_empty
  total _ h := absurd h Table.not_mem_empty
  settled := rfl
  once := List.nodup_nil
  lineage _ h := nomatch h
  fresh _ _ := ⟨fun _ => rfl, rfl⟩

/-- What the log charged is not part of a new delegation. -/
theorem not_mem_lineage (hinv : OracleInvariant s) {id : String}
    (hnew : s.oracle.delegations.get? id = none) : ∀ t ∈ s.log, id ∉ t.lineage := by
  intro t ht hid
  obtain ⟨a, ha, rfl⟩ := ((hinv.lineage t ht).2 id).mp hid
  rw [ha.get?] at hnew
  exact nomatch hnew

/-- **A change of the delegations alone keeps the invariant when it keeps the delegations.** -/
theorem of_keeps (hinv : OracleInvariant s) (rank : String → Nat) (hranked : Ranked o' rank)
    (hkeeps : Keeps s.oracle o') (hspent : o'.spent = s.oracle.spent)
    (hlifetime : o'.lifetimeSpent = s.oracle.lifetimeSpent) (hsettled : o'.settled = s.oracle.settled)
    (hback : ∀ d' ∈ o'.delegations, (∃ d ∈ s.oracle.delegations,
      d'.toOracleDelegation = d.toOracleDelegation) ∨ s.oracle.delegations.get? d'.id = none) :
    OracleInvariant ⟨o', s.log⟩ where
  ranked := ⟨rank, hranked⟩
  spent d' hd' period := by
    show o'.spent _ = _
    rw [hspent]
    rcases hback d' hd' with ⟨d, hd, hsame⟩ | hnew
    · rw [chargedIn_congr hsame, ← hinv.spent d hd period, hsame]
    · have hnone : chargedIn s.log d' period = 0 := by
        unfold chargedIn
        rw [List.filter_eq_nil_iff.mpr fun t ht => by
          simp [hinv.not_mem_lineage hnew t ht]]
        rfl
      rw [hnone, (hinv.fresh _ hnew).1]
  lifetimeSpent d' hd' := by
    show o'.lifetimeSpent _ = _
    rw [hlifetime]
    rcases hback d' hd' with ⟨d, hd, hsame⟩ | hnew
    · rw [hsame]
      exact hinv.lifetimeSpent d hd
    · have hnone : charged s.log d'.id = 0 := by
        unfold charged
        rw [List.filter_eq_nil_iff.mpr fun t ht => by
          simp [hinv.not_mem_lineage hnew t ht]]
        rfl
      rw [hnone, (hinv.fresh _ hnew).2]
  period d' hd' period := by
    show o'.spent _ ≤ _
    rw [hspent]
    rcases hback d' hd' with ⟨d, hd, hsame⟩ | hnew
    · rw [hsame]
      exact hinv.period d hd period
    · rw [(hinv.fresh _ hnew).1]
      exact le_max_left ..
  total d' hd' total htotal := by
    show o'.lifetimeSpent _ ≤ _
    rw [hlifetime]
    rcases hback d' hd' with ⟨d, hd, hsame⟩ | hnew
    · rw [hsame] at htotal ⊢
      exact hinv.total d hd total htotal
    · rw [(hinv.fresh _ hnew).2]
      exact le_max_left ..
  settled := hsettled.trans hinv.settled
  once := by
    show o'.settled.Nodup
    rw [hsettled]
    exact hinv.once
  lineage t ht := by
    obtain ⟨⟨d, hd⟩, hchain⟩ := hinv.lineage t ht
    obtain ⟨rank₀, hranked₀⟩ := hinv.ranked
    obtain ⟨d', hd', -, -⟩ := hkeeps _ _ hd
    refine ⟨⟨d', hd'⟩, fun id => (hchain id).trans ⟨?_, ?_⟩⟩
    · rintro ⟨a, ha, rfl⟩
      exact ha.keeps hkeeps
    · rintro ⟨a, ha, rfl⟩
      exact ha.kept hranked₀ hkeeps hd
  fresh id hnone := by
    show (∀ period, o'.spent _ = 0) ∧ o'.lifetimeSpent id = 0
    rw [hspent, hlifetime]
    refine hinv.fresh id ?_
    by_contra hsome
    obtain ⟨d, hd⟩ := Option.ne_none_iff_exists'.mp hsome
    obtain ⟨d', hd', -, -⟩ := hkeeps _ _ hd
    rw [show o'.delegations.get? id = none from hnone] at hd'
    exact nomatch hd'

/-! ### The methods -/

/-- **A revocation changes one mark.** -/
theorem revoke (hinv : OracleInvariant s) (id : String) :
    OracleInvariant ⟨after (revoke id) s.oracle, s.log⟩ ∧
      Keeps s.oracle (after (DelegationPolicyOracle.revoke id) s.oracle) := by
  rcases after_eq_or fun _ _ => revoke_checksFirst id _ _ _ with h | ⟨u, h⟩
  · rw [h]
    exact ⟨hinv, .refl _⟩
  rw [revoke_eq_ok h]
  obtain ⟨rank, hranked⟩ := hinv.ranked
  have hget (id' : String) := Table.get?_update (t := s.oracle.delegations) (k := id)
    (f := StoredDelegation.revoke) (fun _ => rfl) id'
  have hlength := Table.length_update (t := s.oracle.delegations) (k := id)
    (f := StoredDelegation.revoke) fun _ => rfl
  have hkeeps : Keeps s.oracle { s.oracle with
      delegations := s.oracle.delegations.update id StoredDelegation.revoke fun _ => rfl } := by
    intro id' d hd
    by_cases hid : id' = id
    · subst hid
      exact ⟨d.revoke, by simp only [hget, if_pos, hd, Option.map_some], rfl, fun _ => rfl⟩
    · exact ⟨d, by simp only [hget, if_neg hid, hd], rfl, fun hr => hr⟩
  have hback : ∀ d' ∈ s.oracle.delegations.update id StoredDelegation.revoke fun _ => rfl,
      ∃ d ∈ s.oracle.delegations, d'.toOracleDelegation = d.toOracleDelegation := fun d' hd' => by
    obtain ⟨d, hd, rfl⟩ := (Table.mem_update _).mp hd'
    refine ⟨d, hd, ?_⟩
    split <;> rfl
  refine ⟨hinv.of_keeps rank ⟨fun d' hd' => ?_, fun d' hd' parentId hp => ?_⟩ hkeeps rfl
    rfl rfl fun d' hd' => Or.inl (hback d' hd'), hkeeps⟩
  · obtain ⟨d, hd, hsame⟩ := hback d' hd'
    rw [hsame]
    exact Nat.lt_of_lt_of_eq (hranked.below d hd) hlength.symm
  · obtain ⟨d, hd, hsame⟩ := hback d' hd'
    obtain ⟨p, hp', hlt⟩ := hranked.parent d hd parentId ((parent_eq_of_same hsame).symm.trans hp)
    obtain ⟨p', hp'', -, -⟩ := hkeeps _ _ hp'
    exact ⟨p', hp'', hsame ▸ hlt⟩

/-- **A registration appends a delegation whose parent is there.** -/
theorem register (hinv : OracleInvariant s) (input : OracleDelegation) :
    OracleInvariant ⟨after (register getAddress input) s.oracle, s.log⟩ ∧
      Keeps s.oracle (after (DelegationPolicyOracle.register getAddress input) s.oracle) := by
  rcases after_eq_or fun _ _ => register_checksFirst getAddress input _ _ _ with h | ⟨u, h⟩
  · rw [h]
    exact ⟨hinv, .refl _⟩
  obtain ⟨d, -, hnew, hparent, he⟩ := register_eq_ok h
  rw [he]
  obtain ⟨rank, hranked⟩ := hinv.ranked
  have hget (id : String) := Table.get?_upsert s.oracle.delegations d id
  have hkeeps : Keeps s.oracle
      { s.oracle with delegations := s.oracle.delegations.upsert d } := by
    intro id a ha
    have hne : d.id ≠ id := fun heq => by
      rw [← heq, hnew] at ha
      exact nomatch ha
    exact ⟨a, by simp only [hget, if_neg hne, ha], rfl, fun hr => hr⟩
  have hlength : (s.oracle.delegations.upsert d).rows.length =
      s.oracle.delegations.rows.length + 1 := by
    rw [Table.rows_upsert hnew, List.length_append, List.length_singleton]
  have hne {a : StoredDelegation} (ha : a ∈ s.oracle.delegations) : a.id ≠ d.id :=
    Table.get?_eq_none.mp hnew a ha
  refine ⟨hinv.of_keeps (Function.update rank d.id s.oracle.delegations.rows.length)
    ⟨fun a ha => ?_, fun a ha parentId hp => ?_⟩ hkeeps rfl rfl rfl fun a ha => ?_, hkeeps⟩
  · rw [hlength]
    rcases Table.mem_upsert.mp ha with rfl | ⟨ha, -⟩
    · rw [Function.update_self]
      exact Nat.lt_succ_self _
    · rw [Function.update_of_ne (hne ha)]
      exact Nat.lt_succ_of_lt (hranked.below a ha)
  · rcases Table.mem_upsert.mp ha with rfl | ⟨ha, -⟩
    · obtain ⟨p, hp'⟩ := hparent parentId hp
      have hpd := hne (Table.mem_of_get? hp')
      rw [id_of_get? hp'] at hpd
      obtain ⟨p', hp'', -, -⟩ := hkeeps _ _ hp'
      refine ⟨p', hp'', ?_⟩
      rw [Function.update_self, Function.update_of_ne hpd, ← id_of_get? hp']
      exact hranked.below p (Table.mem_of_get? hp')
    · obtain ⟨p, hp', hlt⟩ := hranked.parent a ha parentId hp
      have hpd := hne (Table.mem_of_get? hp')
      rw [id_of_get? hp'] at hpd
      obtain ⟨p', hp'', -, -⟩ := hkeeps _ _ hp'
      refine ⟨p', hp'', ?_⟩
      rwa [Function.update_of_ne hpd, Function.update_of_ne (hne ha)]
  · rcases Table.mem_upsert.mp ha with rfl | ⟨ha, -⟩
    · exact Or.inr hnew
    · exact Or.inl ⟨a, ha, rfl⟩

/-- A rotation is a revocation, and then a registration unless the revocation was refused. -/
theorem rotate (hinv : OracleInvariant s) (oldId : String) (replacement : OracleDelegation) :
    OracleInvariant ⟨after (rotate getAddress oldId replacement) s.oracle, s.log⟩ ∧
      Keeps s.oracle
        (after (DelegationPolicyOracle.rotate getAddress oldId replacement) s.oracle) := by
  have hrevoke := hinv.revoke oldId
  unfold DelegationPolicyOracle.rotate
  cases h : (DelegationPolicyOracle.revoke oldId).run s.oracle with
  | error e o₁ =>
    have hafter : after (do
        DelegationPolicyOracle.revoke oldId
        DelegationPolicyOracle.register getAddress replacement) s.oracle =
          after (DelegationPolicyOracle.revoke oldId) s.oracle := by
      unfold after
      rw [EStateM.run_bind, h]
    rw [hafter]
    exact hrevoke
  | ok u o₁ =>
    have hafter : after (do
        DelegationPolicyOracle.revoke oldId
        DelegationPolicyOracle.register getAddress replacement) s.oracle =
          after (DelegationPolicyOracle.register getAddress replacement)
            (after (DelegationPolicyOracle.revoke oldId) s.oracle) := by
      unfold after
      rw [EStateM.run_bind, h]
    rw [hafter]
    have hregister := hrevoke.1.register getAddress replacement
    exact ⟨hregister.1, hrevoke.2.trans hregister.2⟩

/-- **A settlement that goes through charges its chain, and stays within every limit of it.** -/
theorem settled_ok (hinv : OracleInvariant s) {input : OracleSettlement} {u : Unit}
    (h : (settle getAddress input).run s.oracle = .ok u o') :
    OracleInvariant ⟨o', ⟨input, OracleRun.lineageIds s.oracle input.delegationId⟩ :: s.log⟩ ∧
      Keeps s.oracle o' := by
  obtain ⟨hpos, hfree, lineage, payTo, redeemer, hlineage, hpermits, rfl⟩ := settle_eq_ok h
  obtain ⟨rank, hranked⟩ := hinv.ranked
  obtain ⟨d₀, hd₀⟩ : ∃ d, s.oracle.delegations.get? input.delegationId = some d := by
    obtain ⟨d, hd, -⟩ := bind_eq_ok.mp hlineage
    exact ⟨d, require_eq_ok.mp hd⟩
  obtain ⟨lineage', hlineage', hnodup, hchain⟩ := lineage_spec hranked hd₀
  cases hlineage.symm.trans hlineage'
  have hids : OracleRun.lineageIds s.oracle input.delegationId = lineage.map fun d => d.id := by
    unfold OracleRun.lineageIds
    rw [hlineage]
  obtain ⟨hspent, hlifetime, hdelegations, hsettled⟩ :=
    foldl_charge input lineage s.oracle hnodup
  have hsame : (s.oracle.commit input lineage).delegations = s.oracle.delegations := hdelegations
  have hspent (key : String × Period) : (s.oracle.commit input lineage).spent key = _ := hspent key
  have hlifetime (id : String) : (s.oracle.commit input lineage).lifetimeSpent id = _ :=
    hlifetime id
  -- a delegation that is there is in the lineage exactly when its id is
  have hmem {d : StoredDelegation} (hd : d ∈ s.oracle.delegations) :
      d.id ∈ lineage.map (fun d => d.id) ↔ d ∈ lineage := by
    refine ⟨fun h => ?_, fun h => List.mem_map_of_mem h⟩
    obtain ⟨a, ha, he⟩ := List.mem_map.mp h
    have hget := ((hchain a).mp ha).get?
    rwa [← Table.eq_of_key (Table.mem_of_get? hget) hd he]
  have hbucket {d : StoredDelegation} (hd : d ∈ s.oracle.delegations) (period : Period) :
      (∃ a ∈ lineage, a.bucketKey input.time = (d.id, period)) ↔
        d.id ∈ lineage.map (fun d => d.id) ∧ d.periodAt input.time = period := by
    rw [hmem hd]
    constructor
    · rintro ⟨a, ha, he⟩
      have hget := ((hchain a).mp ha).get?
      obtain rfl := Table.eq_of_key (Table.mem_of_get? hget) hd (congrArg Prod.fst he)
      exact ⟨ha, congrArg Prod.snd he⟩
    · rintro ⟨ha, rfl⟩
      exact ⟨d, ha, rfl⟩
  have hlimits {d : StoredDelegation} (hd : d ∈ lineage) :
      s.oracle.spent (d.bucketKey input.time) + input.amount ≤ d.policy.periodAmount ∧
        ∀ total, d.policy.lifetimeTotalAmount = some total →
          s.oracle.lifetimeSpent d.id + input.amount ≤ total := by
    obtain ⟨-, -, -, d', hd', havailable⟩ := of_permit (hpermits d hd)
    rw [((hchain d).mp hd).get?] at hd'
    cases hd'
    exact spent_add_le_of_available hpos havailable
  have hkeeps : Keeps s.oracle (s.oracle.commit input lineage) := by
    intro id d hd
    exact ⟨d, by rw [hsame]; exact hd, rfl, fun hr => hr⟩
  refine ⟨?_, hkeeps⟩
  exact
    { ranked := ⟨rank, ⟨by rw [hsame]; exact hranked.below, by rw [hsame]; exact hranked.parent⟩⟩
      spent := fun d hd period => by
        rw [hsame] at hd
        rw [hspent, chargedIn_cons, hinv.spent d hd period, hids]
        simp only [hbucket hd]
      lifetimeSpent := fun d hd => by
        rw [hsame] at hd
        rw [hlifetime, charged_cons, hinv.lifetimeSpent d hd, hids]
        simp only [List.mem_map]
      period := fun d hd period => by
        rw [hsame] at hd
        rw [hspent]
        split
        · next hin =>
          obtain ⟨hdl, hperiod⟩ := (hbucket hd period).mp hin
          have hle := (hlimits ((hmem hd).mp hdl)).1
          unfold StoredDelegation.bucketKey at hle
          rw [hperiod] at hle
          exact hle.trans (le_max_right ..)
        · rw [Int.add_zero]
          exact hinv.period d hd period
      total := fun d hd total htotal => by
        rw [hsame] at hd
        rw [hlifetime]
        split
        · next hin =>
          have hdl := (hmem hd).mp (List.mem_map.mpr hin)
          exact ((hlimits hdl).2 total htotal).trans (le_max_right ..)
        · rw [Int.add_zero]
          exact hinv.total d hd total htotal
      settled := by
        show input.settlementId :: _ = _
        rw [hsettled, hinv.settled]
        rfl
      once := by
        show (input.settlementId :: _).Nodup
        rw [hsettled]
        exact List.nodup_cons.mpr ⟨hfree, hinv.once⟩
      lineage := fun t ht => by
        have hon {id : String} {a : StoredDelegation} :
            OnChain (s.oracle.commit input lineage) id a ↔ OnChain s.oracle id a := by
          constructor <;> intro h
          · induction h with
            | self h => exact .self (hsame ▸ h)
            | parent h hp _ ih => exact .parent (hsame ▸ h) hp ih
          · induction h with
            | self h => exact .self (hsame.symm ▸ h)
            | parent h hp _ ih => exact .parent (hsame.symm ▸ h) hp ih
        simp only [hon, hsame]
        rcases List.mem_cons.mp ht with rfl | ht
        · refine ⟨⟨d₀, hd₀⟩, fun id => ?_⟩
          simp only [hids, List.mem_map, hchain]
        · exact hinv.lineage t ht
      fresh := fun id hnone => by
        rw [hsame] at hnone
        have hnot : ∀ a ∈ lineage, a.id ≠ id := fun a ha he => by
          have hget := ((hchain a).mp ha).get?
          rw [he, hnone] at hget
          cases hget
        refine ⟨fun period => ?_, ?_⟩
        · rw [hspent, if_neg, (hinv.fresh id hnone).1]
          · rfl
          · rintro ⟨a, ha, he⟩
            exact hnot a ha (congrArg Prod.fst he)
        · rw [hlifetime, if_neg, (hinv.fresh id hnone).2]
          · rfl
          · rintro ⟨a, ha, he⟩
            exact hnot a ha he }

/-- **Every method preserves the invariant and keeps the delegations.** -/
theorem exec (hinv : OracleInvariant s) (op : OracleOp) :
    OracleInvariant (s.exec getAddress op) ∧
      Keeps s.oracle (s.exec getAddress op).oracle := by
  cases op with
  | register input => exact hinv.register getAddress input
  | revoke id => exact hinv.revoke id
  | rotate oldId replacement => exact hinv.rotate getAddress oldId replacement
  | settle input =>
    unfold OracleRun.exec
    dsimp only
    split
    · next h => exact hinv.settled_ok getAddress h
    · next h =>
      rw [settle_checksFirst getAddress input _ _ _ h]
      exact ⟨hinv, .refl _⟩

theorem of_run (ops : List OracleOp) :
    OracleInvariant (run (OracleRun.exec getAddress) OracleRun.new ops) :=
  run_invariant (P := OracleInvariant) (fun _ op hinv => (hinv.exec getAddress op).1) ops _ new

end OracleInvariant

/-! ## The result -/

/-- What holds of the oracle and its log. -/
structure PolicyOracleHeld (getAddress : GetAddress) (s : OracleRun) : Prop where
  /-- The settlements of the log went through the whole chain of their delegation. -/
  lineage : ∀ t ∈ s.log, ∀ id, id ∈ t.lineage ↔ ∃ a, OnChain s.oracle t.delegationId a ∧ a.id = id
  /-- In each period a delegation is charged at most its period amount. A negative amount allows
  nothing. -/
  period : ∀ d ∈ s.oracle.delegations, ∀ period,
    chargedIn s.log d period ≤ max 0 d.policy.periodAmount
  /-- Over its life it is charged at most its total. -/
  total : ∀ d ∈ s.oracle.delegations, ∀ total, d.policy.lifetimeTotalAmount = some total →
    charged s.log d.id ≤ max 0 total
  /-- A settlement id is consumed at most once. -/
  once : (s.log.map fun t => t.settlementId).Nodup
  /-- A revoked or expired delegation stops every settlement through it. -/
  refused : ∀ input a, OnChain s.oracle input.delegationId a →
    (a.revoked = true ∨ a.expiresAt ≤ input.time) →
      ∃ e, answer (settle getAddress input) s.oracle = .error e
  /-- A refused settlement leaves the oracle as it was. -/
  unchanged : ∀ input e, answer (settle getAddress input) s.oracle = .error e →
    after (settle getAddress input) s.oracle = s.oracle
  /-- What is revoked stays revoked. -/
  revoked : ∀ ops, ∀ id d, s.oracle.delegations.get? id = some d → d.revoked = true →
    ∃ d', (run (OracleRun.exec getAddress) s ops).oracle.delegations.get? id = some d' ∧
      d'.revoked = true

theorem refused_of_onChain (hinv : OracleInvariant s) {input : OracleSettlement}
    {a : StoredDelegation} (ha : OnChain s.oracle input.delegationId a)
    (hstop : a.revoked = true ∨ a.expiresAt ≤ input.time) :
    ∃ e, answer (settle getAddress input) s.oracle = .error e := by
  cases h : answer (settle getAddress input) s.oracle with
  | error e => exact ⟨e, rfl⟩
  | ok u =>
    obtain ⟨-, -, lineage, _, _, hlineage, hpermits, -⟩ := settle_eq_ok (answer_eq_ok.mp h)
    obtain ⟨rank, hranked⟩ := hinv.ranked
    obtain ⟨d, hd, -⟩ := bind_eq_ok.mp hlineage
    obtain ⟨lineage', hlineage', -, hchain⟩ := lineage_spec hranked (require_eq_ok.mp hd)
    cases hlineage.symm.trans hlineage'
    obtain ⟨hlive, -, hbefore, -⟩ := of_permit (hpermits a ((hchain a).mpr ha))
    rcases hstop with hrevoked | hexpired
    · rw [hlive] at hrevoked
      exact nomatch hrevoked
    · omega

/-- **The delegation policy oracle never overspends.** -/
theorem policy_oracle_held (getAddress : GetAddress) (ops : List OracleOp) :
    PolicyOracleHeld getAddress (run (OracleRun.exec getAddress) OracleRun.new ops) := by
  have hinv := OracleInvariant.of_run getAddress ops
  generalize run (OracleRun.exec getAddress) OracleRun.new ops = s at hinv
  exact
    { lineage := fun t ht => (hinv.lineage t ht).2
      period := fun d hd period => hinv.spent d hd period ▸ hinv.period d hd period
      total := fun d hd total htotal => hinv.lifetimeSpent d hd ▸ hinv.total d hd total htotal
      once := hinv.settled ▸ hinv.once
      refused := fun _ _ ha hstop => refused_of_onChain getAddress hinv ha hstop
      unchanged := fun input e h =>
        settle_checksFirst getAddress input _ _ _ (answer_eq_error.mp h)
      revoked := fun ops id d hd hrevoked => by
        have hkeeps := run_relation (P := OracleInvariant) (R := fun s s' => Keeps s.oracle s'.oracle)
          (fun _ op hs => (hs.exec getAddress op).1) (fun _ => .refl _)
          (fun _ _ _ => .trans) (fun _ op hs => (hs.exec getAddress op).2) ops s hinv
        obtain ⟨d', hd', -, hr⟩ := hkeeps id d hd
        exact ⟨d', hd', hr hrevoked⟩ }

end Mapae.Delegation
