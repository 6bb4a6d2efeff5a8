import Mapae.Delegation.Policy
import Mapae.Infra.Table
import Mapae.Infra.Transaction
import Mapae.Infra.Transition

/-!
# The delegation policy oracle

`DelegationPolicyOracle` mirrors a chain of delegations: every ancestor of a delegation must
permit a settlement, and a settlement that goes through charges each of them, in the period its
own clock is in and for good.

* `register`, `revoke` and `rotate` change the delegations
* `lineage` walks from a delegation to its root; `lineage_spec` says that its loop finds exactly the
  ancestors that `OnChain` relates, and always ends
* `settle` checks every delegation of the lineage first, and charges them afterwards
* a run is the four methods that change the oracle, in any order and with any arguments; beside the
  oracle stands the log of the settlements that went through, newest first, and `Keeps` is what every
  method leaves of the delegations

Times are whole seconds; sums, differences and quotients of them are rounded as doubles are. What
viem's `getAddress` answers is a parameter.
-/

namespace Mapae.Delegation

open Mapae.Infra Mapae.Store

/-- viem's `getAddress`: the checksummed form under a chain id, where `0` is the same as none.
Nothing when it throws. -/
abbrev GetAddress := String → Nat → Option String

inductive PolicyViolationCode where
  | UNKNOWN_DELEGATION
  | INVALID_AMOUNT
  | NOT_STARTED
  | EXPIRED
  | REVOKED
  | RECIPIENT_DENIED
  | REDEEMER_DENIED
  | LIMIT_EXCEEDED
  | REPLAY

inductive OracleError where
  | violation (code : PolicyViolationCode) (message : String)
  | error (message : String)
  /-- `getAddress` throws. -/
  | invalidAddress

structure OracleDelegation where
  id : String
  policy : PeriodPolicy
  delegate : String
  startDate : Int
  parentId : Option String
  redeemers : Option (List String)

structure StoredDelegation extends OracleDelegation where
  revoked : Bool

structure OracleSettlement where
  settlementId : String
  delegationId : String
  amount : Int
  payTo : String
  redeemer : String
  /-- The Unix time of the settlement, `at`. -/
  time : Int

/-- `Math.floor(elapsed / duration)`. -/
inductive Period where
  | index (n : Int)
  /-- Some time divided by no time. -/
  | infinity
  /-- No time divided by no time. -/
  | nan
  deriving DecidableEq

/-- A text that is there and not empty. -/
def truthy (text : Option String) : Option String := text.filter (· ≠ "")

namespace StoredDelegation

variable (d : StoredDelegation)

def parent : Option String := truthy d.parentId

def expiresAt : Int := Binary64.add d.startDate d.policy.expiresAfterSeconds

def periodAt (time : Int) : Period :=
  let elapsed := max 0 (Binary64.sub time d.startDate)
  if d.policy.periodDurationSeconds = 0 then if elapsed = 0 then .nan else .infinity
  else .index (Binary64.floorDiv elapsed d.policy.periodDurationSeconds)

/-- `${delegation.id}:${period}`. The text of a number has no colon, so the key names one
delegation and one period. -/
def bucketKey (time : Int) : String × Period := (d.id, d.periodAt time)

def revoke : StoredDelegation := { d with revoked := true }

end StoredDelegation

structure DelegationPolicyOracle where
  delegations : Table fun d : StoredDelegation => d.id
  spent : String × Period → Int
  /-- Charged for good: no period brings it back. -/
  lifetimeSpent : String → Int
  settled : List String

/-- A method of the oracle. -/
abbrev OracleMethod := EStateM OracleError DelegationPolicyOracle

/-- `getAddress(address, chainId)`. -/
def checksum (getAddress : GetAddress) (chainId : Nat) (address : String) :
    Except OracleError String :=
  match getAddress address chainId with
  | some checksummed => .ok checksummed
  | none => .error .invalidAddress

namespace DelegationPolicyOracle

/-- The oracle as it is constructed. -/
def new : DelegationPolicyOracle := ⟨Table.empty, fun _ => 0, fun _ => 0, []⟩

section Reads

variable (o : DelegationPolicyOracle)

def require (id : String) : Except OracleError StoredDelegation :=
  match o.delegations.get? id with
  | some d => .ok d
  | none => .error (.violation .UNKNOWN_DELEGATION s!"unknown delegation {id}")

/-- A parent that is named is there. -/
def checkParent (parentId : Option String) : Except OracleError Unit :=
  match truthy parentId with
  | none => .ok ⟨⟩
  | some parentId =>
    throwIf ((o.delegations.get? parentId).isNone = true)
      (OracleError.error s!"unknown parent delegation {parentId}")

/-- The loop of `lineage`. It visits each delegation once, so as many rounds as there are
delegations are enough. -/
def lineageFrom : Nat → List String → StoredDelegation → Except OracleError (List StoredDelegation)
  | 0, _, _ => .error (.error "delegation hierarchy contains a cycle")
  | rounds + 1, visited, current =>
    if current.id ∈ visited then .error (.error "delegation hierarchy contains a cycle")
    else
      match current.parent with
      | none => .ok [current]
      | some parentId => do
        let parent ← o.require parentId
        let rest ← lineageFrom rounds (current.id :: visited) parent
        return current :: rest

def lineage (id : String) : Except OracleError (List StoredDelegation) := do
  let current ← o.require id
  o.lineageFrom o.delegations.rows.length [] current

/-- `remaining` of a delegation that is there: what is left of the period, or of the total. -/
def available (d : StoredDelegation) (time : Int) : Int :=
  let spent := o.spent (d.bucketKey time)
  let periodRemaining := if d.policy.periodAmount > spent then d.policy.periodAmount - spent else 0
  match d.policy.lifetimeTotalAmount with
  | none => periodRemaining
  | some total =>
    let lifetimeSpent := o.lifetimeSpent d.id
    let lifetimeRemaining := if total > lifetimeSpent then total - lifetimeSpent else 0
    if lifetimeRemaining < periodRemaining then lifetimeRemaining else periodRemaining

def remaining (id : String) (time : Int) : Except OracleError Int := do
  let d ← o.require id
  return o.available d time

/-- The recipient of a policy, when it names one. -/
def permitRecipient (getAddress : GetAddress) (payTo : String) (d : StoredDelegation) :
    Except OracleError Unit :=
  match truthy d.policy.recipient with
  | none => .ok ⟨⟩
  | some recipient => do
    let recipient ← checksum getAddress 0 recipient
    throwIf (recipient ≠ payTo)
      (OracleError.violation .RECIPIENT_DENIED s!"delegation {d.id} forbids recipient {payTo}")

/-- The checks of one delegation of the lineage. -/
def permit (getAddress : GetAddress) (input : OracleSettlement) (payTo redeemer : String)
    (d : StoredDelegation) : Except OracleError Unit := do
  throwIf (d.revoked = true) (OracleError.violation .REVOKED s!"delegation {d.id} is revoked")
  throwIf (input.time < d.startDate)
    (OracleError.violation .NOT_STARTED s!"delegation {d.id} is not active")
  throwIf (input.time ≥ d.expiresAt) (OracleError.violation .EXPIRED s!"delegation {d.id} expired")
  permitRecipient getAddress payTo d
  throwIf (d.redeemers.any fun redeemers => !redeemers.any (· = redeemer))
    (OracleError.violation .REDEEMER_DENIED s!"delegation {d.id} forbids redeemer {redeemer}")
  let available ← o.remaining d.id input.time
  throwIf (input.amount > available)
    (OracleError.violation .LIMIT_EXCEEDED s!"delegation {d.id} has {available} remaining")

/-- Charges one delegation, in its period and for good. -/
def charge (input : OracleSettlement) (d : StoredDelegation) : DelegationPolicyOracle :=
  let key := d.bucketKey input.time
  { o with
    spent := Function.update o.spent key (o.spent key + input.amount)
    lifetimeSpent :=
      Function.update o.lifetimeSpent d.id (o.lifetimeSpent d.id + input.amount) }

/-- Charges every delegation of the lineage and consumes the settlement id. -/
def commit (input : OracleSettlement) (lineage : List StoredDelegation) :
    DelegationPolicyOracle :=
  let charged := lineage.foldl (fun o d => o.charge input d) o
  { charged with settled := input.settlementId :: charged.settled }

end Reads

section Methods

variable (getAddress : GetAddress)

/-- The delegation as it is stored. `map` hands `getAddress` the index of a redeemer too, which
it takes for a chain id. -/
def stored (input : OracleDelegation) : Except OracleError StoredDelegation := do
  let delegate ← checksum getAddress 0 input.delegate
  let redeemers ← input.redeemers.mapM fun redeemers =>
    redeemers.zipIdx.mapM fun (redeemer, index) => checksum getAddress index redeemer
  return { input with delegate := delegate, redeemers := redeemers, revoked := false }

def register (input : OracleDelegation) : OracleMethod Unit := do
  throwIf (trim input.id = []) (OracleError.error "delegation id is required")
  let o ← get
  throwIf ((o.delegations.get? input.id).isSome = true)
    (OracleError.error s!"duplicate delegation {input.id}")
  o.checkParent input.parentId
  throwIf (isSafeInteger input.startDate = false ∨ input.startDate < 0)
    (OracleError.error "startDate must be a non-negative Unix timestamp")
  let d ← stored getAddress input
  set { o with delegations := o.delegations.upsert d }

def revoke (id : String) : OracleMethod Unit := do
  let o ← get
  let _ ← o.require id
  set { o with delegations := o.delegations.update id StoredDelegation.revoke fun _ => rfl }

def rotate (oldId : String) (replacement : OracleDelegation) : OracleMethod Unit := do
  revoke oldId
  register getAddress replacement

def settle (input : OracleSettlement) : OracleMethod Unit := do
  throwIf (input.amount ≤ 0) (OracleError.violation .INVALID_AMOUNT "amount must be positive")
  let o ← get
  throwIf (input.settlementId ∈ o.settled)
    (OracleError.violation .REPLAY s!"settlement {input.settlementId} already consumed")
  let lineage ← o.lineage input.delegationId
  let payTo ← checksum getAddress 0 input.payTo
  let redeemer ← checksum getAddress 0 input.redeemer
  (lineage.forM (o.permit getAddress input payTo redeemer) : Except OracleError Unit)
  set (o.commit input lineage)

end Methods

/-! ## What each method does -/

section Spec

variable {o o' : DelegationPolicyOracle} {d : StoredDelegation}

theorem require_eq_ok {id : String} : o.require id = .ok d ↔ o.delegations.get? id = some d := by
  unfold require
  split
  · next h => rw [h, Except.ok.injEq, Option.some.injEq]
  · next h => simp [h]

/-- **A delegation permits a settlement while it is active and has enough left.** -/
theorem of_permit {getAddress : GetAddress} {input : OracleSettlement} {payTo redeemer : String}
    (h : o.permit getAddress input payTo redeemer d = .ok ⟨⟩) :
    d.revoked = false ∧ d.startDate ≤ input.time ∧ input.time < d.expiresAt ∧
      ∃ d', o.delegations.get? d.id = some d' ∧ input.amount ≤ o.available d' input.time := by
  unfold permit at h
  obtain ⟨_, hrevoked, h⟩ := bind_eq_ok.mp h
  obtain ⟨_, hstarted, h⟩ := bind_eq_ok.mp h
  obtain ⟨_, hexpired, h⟩ := bind_eq_ok.mp h
  obtain ⟨_, -, h⟩ := bind_eq_ok.mp h
  obtain ⟨_, -, h⟩ := bind_eq_ok.mp h
  obtain ⟨available, hremaining, h⟩ := bind_eq_ok.mp h
  obtain ⟨d', hrequire, hd'⟩ := bind_eq_ok.mp hremaining
  cases pure_eq_ok.mp hd'
  exact ⟨Bool.eq_false_iff.mpr (throwIf_eq_ok.mp hrevoked),
    Int.not_lt.mp (throwIf_eq_ok.mp hstarted), Int.not_le.mp (throwIf_eq_ok.mp hexpired),
    d', require_eq_ok.mp hrequire, Int.not_lt.mp (throwIf_eq_ok.mp h)⟩

/-- **What is left fits into the period and into the total.** -/
theorem spent_add_le_of_available {amount time : Int} (hpos : 0 < amount)
    (h : amount ≤ o.available d time) :
    o.spent (d.bucketKey time) + amount ≤ d.policy.periodAmount ∧
      ∀ total, d.policy.lifetimeTotalAmount = some total →
        o.lifetimeSpent d.id + amount ≤ total := by
  unfold available at h
  dsimp only at h
  cases htotal : d.policy.lifetimeTotalAmount with
  | none =>
    rw [htotal] at h
    dsimp only at h
    refine ⟨?_, nofun⟩
    split at h <;> omega
  | some total =>
    rw [htotal] at h
    dsimp only at h
    refine ⟨by repeat' split at h
               all_goals omega, fun _ he => ?_⟩
    cases he
    repeat' split at h
    all_goals omega

theorem forM_eq_ok {f : StoredDelegation → Except OracleError Unit} :
    ∀ {lineage : List StoredDelegation}, lineage.forM f = .ok ⟨⟩ → ∀ d ∈ lineage, f d = .ok ⟨⟩
  | [], _ => List.forall_mem_nil _
  | d :: lineage, h => by
    obtain ⟨_, hd, hrest⟩ := bind_eq_ok.mp h
    exact List.forall_mem_cons.mpr ⟨hd, forM_eq_ok hrest⟩

/-- **A settlement went through: every delegation of the lineage permitted it, and was charged.** -/
theorem settle_eq_ok {getAddress : GetAddress} {input : OracleSettlement} {u : Unit}
    (h : (settle getAddress input).run o = .ok u o') :
    0 < input.amount ∧ input.settlementId ∉ o.settled ∧
      ∃ lineage payTo redeemer, o.lineage input.delegationId = .ok lineage ∧
        (∀ d ∈ lineage, o.permit getAddress input payTo redeemer d = .ok ⟨⟩) ∧
        o' = o.commit input lineage := by
  simp only [settle, run_bind_eq_ok, run_lift_eq_ok, run_get_eq_ok, run_set_eq_ok, throwIf_eq_ok,
    exists_and_left, exists_eq_left, and_assoc] at h
  obtain ⟨hamount, hfree, -, -, lineage, hlineage, payTo, -, redeemer, -, _, hpermits, rfl⟩ := h
  exact ⟨Int.not_le.mp hamount, hfree, lineage, payTo, redeemer, hlineage, forM_eq_ok hpermits, rfl⟩

/-- **A refused settlement writes nothing.** -/
theorem settle_checksFirst (getAddress : GetAddress) (input : OracleSettlement) :
    ChecksFirst (settle getAddress input) :=
  (readsOnly_lift _).bind fun _ => readsOnly_get.bind fun _ => (readsOnly_lift _).bind fun _ =>
    (readsOnly_lift _).bind fun _ => (readsOnly_lift _).bind fun _ => (readsOnly_lift _).bind fun _ =>
      (readsOnly_lift _).bind fun _ => checksFirst_set _

theorem register_checksFirst (getAddress : GetAddress) (input : OracleDelegation) :
    ChecksFirst (register getAddress input) :=
  (readsOnly_lift _).bind fun _ => readsOnly_get.bind fun _ => (readsOnly_lift _).bind fun _ =>
    (readsOnly_lift _).bind fun _ => (readsOnly_lift _).bind fun _ => (readsOnly_lift _).bind fun _ =>
      checksFirst_set _

theorem revoke_checksFirst (id : String) : ChecksFirst (revoke id) :=
  readsOnly_get.bind fun _ => (readsOnly_lift _).bind fun _ => checksFirst_set _

theorem stored_eq_ok {getAddress : GetAddress} {input : OracleDelegation}
    (h : stored getAddress input = .ok d) :
    d.id = input.id ∧ d.policy = input.policy ∧ d.startDate = input.startDate ∧
      d.parentId = input.parentId ∧ d.revoked = false := by
  obtain ⟨delegate, -, h⟩ := bind_eq_ok.mp h
  obtain ⟨redeemers, -, h⟩ := bind_eq_ok.mp h
  obtain rfl := pure_eq_ok.mp h
  exact ⟨rfl, rfl, rfl, rfl, rfl⟩

/-- **A registered delegation is new, and its parent is there.** -/
theorem register_eq_ok {getAddress : GetAddress} {input : OracleDelegation} {u : Unit}
    (h : (register getAddress input).run o = .ok u o') :
    ∃ d, stored getAddress input = .ok d ∧ o.delegations.get? d.id = none ∧
      (∀ parentId, d.parent = some parentId → ∃ p, o.delegations.get? parentId = some p) ∧
      o' = { o with delegations := o.delegations.upsert d } := by
  simp only [register, run_bind_eq_ok, run_lift_eq_ok, run_get_eq_ok, run_set_eq_ok,
    throwIf_eq_ok, exists_and_left, exists_eq_left, and_assoc] at h
  obtain ⟨-, hnew, -, -, _, hparent, -, -, d, hd, rfl⟩ := h
  obtain ⟨hid, -, -, hparentId, -⟩ := stored_eq_ok hd
  refine ⟨d, hd, by rw [hid]; simpa using hnew, fun parentId hp => ?_, rfl⟩
  unfold StoredDelegation.parent at hp
  rw [hparentId] at hp
  unfold checkParent at hparent
  rw [hp] at hparent
  have hthere : ¬ (o.delegations.get? parentId).isNone = true := throwIf_eq_ok.mp hparent
  rw [Option.isNone_iff_eq_none] at hthere
  exact Option.ne_none_iff_exists'.mp hthere

theorem revoke_eq_ok {id : String} {u : Unit} (h : (revoke id).run o = .ok u o') :
    o' = { o with delegations := o.delegations.update id StoredDelegation.revoke fun _ => rfl } := by
  simp only [revoke, run_bind_eq_ok, run_lift_eq_ok, run_get_eq_ok, run_set_eq_ok,
    exists_and_left, exists_eq_left, and_assoc] at h
  obtain ⟨_, -, rfl⟩ := h
  rfl

end Spec

end DelegationPolicyOracle

/-! ## Runs -/

open DelegationPolicyOracle

/-- A settlement that went through. -/
structure SettledPayment extends OracleSettlement where
  /-- The delegations it charged. -/
  lineage : List String

inductive OracleOp where
  | register (input : OracleDelegation)
  | revoke (id : String)
  | rotate (oldId : String) (replacement : OracleDelegation)
  | settle (input : OracleSettlement)

structure OracleRun where
  oracle : DelegationPolicyOracle
  log : List SettledPayment

namespace OracleRun

def new : OracleRun := ⟨DelegationPolicyOracle.new, []⟩

/-- The ids of a lineage. -/
def lineageIds (o : DelegationPolicyOracle) (id : String) : List String :=
  match o.lineage id with
  | .ok lineage => lineage.map fun d => d.id
  | .error _ => []

/-- The oracle and the log after an operation, however it ended. -/
def exec (getAddress : GetAddress) (s : OracleRun) : OracleOp → OracleRun
  | .register input => { s with oracle := after (register getAddress input) s.oracle }
  | .revoke id => { s with oracle := after (revoke id) s.oracle }
  | .rotate oldId replacement =>
    { s with oracle := after (rotate getAddress oldId replacement) s.oracle }
  | .settle input =>
    match (settle getAddress input).run s.oracle with
    | .ok _ oracle => ⟨oracle, ⟨input, lineageIds s.oracle input.delegationId⟩ :: s.log⟩
    | .error _ oracle => ⟨oracle, s.log⟩

end OracleRun

/-! ## Chains -/

section Chains

variable {o o' : DelegationPolicyOracle} {id : String} {a d : StoredDelegation}

theorem id_of_get? (h : o.delegations.get? id = some d) : d.id = id :=
  (Table.get?_eq_some.mp h).2

/-- The delegation `id` itself, or an ancestor of it. -/
inductive OnChain (o : DelegationPolicyOracle) : String → StoredDelegation → Prop
  | self {id : String} {d : StoredDelegation} (h : o.delegations.get? id = some d) : OnChain o id d
  | parent {id parentId : String} {d a : StoredDelegation} (h : o.delegations.get? id = some d)
      (hp : d.parent = some parentId) (ha : OnChain o parentId a) : OnChain o id a

theorem OnChain.get? (h : OnChain o id a) : o.delegations.get? a.id = some a := by
  induction h with
  | self h => rwa [id_of_get? h]
  | parent _ _ _ ih => exact ih

/-- Parents are there, and rank below their children. There are more delegations than ranks. -/
structure Ranked (o : DelegationPolicyOracle) (rank : String → Nat) : Prop where
  below : ∀ d ∈ o.delegations, rank d.id < o.delegations.rows.length
  parent : ∀ d ∈ o.delegations, ∀ parentId, d.parent = some parentId →
    ∃ p, o.delegations.get? parentId = some p ∧ rank parentId < rank d.id

/-- **The loop ends, and has then found the chain.** What it has visited ranks above what it is
still to visit, so it never comes back. -/
theorem lineageFrom_spec {rank : String → Nat} (hr : Ranked o rank) :
    ∀ (rounds : Nat) (visited : List String) (d : StoredDelegation),
      o.delegations.get? d.id = some d → rank d.id < rounds →
      (∀ v ∈ visited, rank d.id < rank v) →
      ∃ lineage, o.lineageFrom rounds visited d = .ok lineage ∧
        (lineage.map fun a => a.id).Nodup ∧ (∀ a ∈ lineage, rank a.id ≤ rank d.id) ∧
        ∀ a, a ∈ lineage ↔ OnChain o d.id a
  | 0, _, _, _, hlt, _ => absurd hlt (Nat.not_lt_zero _)
  | rounds + 1, visited, d, hget, hlt, hvisited => by
    have hnew : d.id ∉ visited := fun h => Nat.lt_irrefl _ (hvisited _ h)
    unfold lineageFrom
    rw [if_neg hnew]
    cases hparent : d.parent with
    | none =>
      refine ⟨[d], rfl, List.nodup_singleton _, fun a ha => ?_, fun a => ⟨fun ha => ?_, fun ha => ?_⟩⟩
      · rw [List.mem_singleton.mp ha]
      · rw [List.mem_singleton.mp ha]
        exact .self hget
      · cases ha with
        | self h =>
          rw [hget] at h
          exact List.mem_singleton.mpr (Option.some.inj h).symm
        | parent h hp _ =>
          rw [hget] at h
          cases h
          rw [hparent] at hp
          exact nomatch hp
    | some parentId =>
      obtain ⟨p, hp, hrank⟩ := hr.parent d (Table.mem_of_get? hget) parentId hparent
      have hpid : p.id = parentId := id_of_get? hp
      obtain ⟨rest, hrest, hnodup, hle, hchain⟩ := lineageFrom_spec hr rounds
        (d.id :: visited) p (hpid ▸ hp) (by rw [hpid]; omega)
        (by
          rw [hpid]
          exact List.forall_mem_cons.mpr ⟨hrank, fun v hv => hrank.trans (hvisited v hv)⟩)
      rw [hpid] at hle hchain
      refine ⟨d :: rest, ?_, ?_, ?_, fun a => ?_⟩
      · exact bind_eq_ok.mpr ⟨p, require_eq_ok.mpr hp, bind_eq_ok.mpr ⟨rest, hrest, rfl⟩⟩
      · refine List.nodup_cons.mpr ⟨fun h => ?_, hnodup⟩
        obtain ⟨a, ha, he⟩ := List.mem_map.mp h
        have he : a.id = d.id := he
        have hback := hle a ha
        rw [he] at hback
        omega
      · exact List.forall_mem_cons.mpr ⟨Nat.le_refl _, fun a ha => (hle a ha).trans hrank.le⟩
      · rw [List.mem_cons, hchain]
        constructor
        · rintro (rfl | ha)
          · exact .self hget
          · exact .parent hget hparent ha
        · intro ha
          cases ha with
          | self h =>
            rw [hget] at h
            exact Or.inl (Option.some.inj h).symm
          | parent h hp' ha =>
            rw [hget] at h
            cases h
            rw [hparent] at hp'
            cases hp'
            exact Or.inr ha

/-- **The lineage of a delegation that is there is its chain, each delegation once.** -/
theorem lineage_spec {rank : String → Nat} (hr : Ranked o rank)
    (hget : o.delegations.get? id = some d) :
    ∃ lineage, o.lineage id = .ok lineage ∧ (lineage.map fun a => a.id).Nodup ∧
      ∀ a, a ∈ lineage ↔ OnChain o id a := by
  have hid := id_of_get? hget
  obtain ⟨lineage, hlineage, hnodup, -, hchain⟩ := lineageFrom_spec hr _ [] d
    (hid.symm ▸ hget) (hr.below d (Table.mem_of_get? hget)) (fun _ h => nomatch h)
  rw [hid] at hchain
  exact ⟨lineage, bind_eq_ok.mpr ⟨d, require_eq_ok.mpr hget, hlineage⟩, hnodup, hchain⟩

/-! ## What stays -/

/-- A delegation stays as it was registered, and revoked if it was. -/
def Keeps (o o' : DelegationPolicyOracle) : Prop :=
  ∀ id d, o.delegations.get? id = some d → ∃ d', o'.delegations.get? id = some d' ∧
    d'.toOracleDelegation = d.toOracleDelegation ∧ (d.revoked = true → d'.revoked = true)

theorem Keeps.refl (o : DelegationPolicyOracle) : Keeps o o := fun _ d h => ⟨d, h, rfl, id⟩

theorem Keeps.trans {o'' : DelegationPolicyOracle} (h : Keeps o o') (h' : Keeps o' o'') :
    Keeps o o'' := by
  intro id d hd
  obtain ⟨d', hd', hsame, hrevoked⟩ := h id d hd
  obtain ⟨d'', hd'', hsame', hrevoked'⟩ := h' id d' hd'
  exact ⟨d'', hd'', hsame'.trans hsame, fun hr => hrevoked' (hrevoked hr)⟩

theorem parent_eq_of_same (h : a.toOracleDelegation = d.toOracleDelegation) :
    a.parent = d.parent := by
  unfold StoredDelegation.parent
  rw [h]

theorem OnChain.keeps (hk : Keeps o o') (h : OnChain o id a) :
    ∃ a', OnChain o' id a' ∧ a'.id = a.id := by
  induction h with
  | self h =>
    obtain ⟨d', hd', hsame, -⟩ := hk _ _ h
    exact ⟨d', .self hd', congrArg OracleDelegation.id hsame⟩
  | parent h hp _ ih =>
    obtain ⟨d', hd', hsame, -⟩ := hk _ _ h
    obtain ⟨a', ha', hid⟩ := ih
    exact ⟨a', .parent hd' ((parent_eq_of_same hsame).trans hp) ha', hid⟩

/-- **The chain of a delegation that was there is the one it was registered with.** -/
theorem OnChain.kept {rank : String → Nat} (hr : Ranked o rank) (hk : Keeps o o')
    (h : OnChain o' id a) (hget : o.delegations.get? id = some d) :
    ∃ a', OnChain o id a' ∧ a'.id = a.id := by
  induction h generalizing d with
  | @self id d' h =>
    exact ⟨d, .self hget, (id_of_get? hget).trans (id_of_get? h).symm⟩
  | @parent id parentId d' a h hp _ ih =>
    obtain ⟨d₁, hd₁, hsame, -⟩ := hk _ _ hget
    rw [h] at hd₁
    cases hd₁
    have hparent : d.parent = some parentId := (parent_eq_of_same hsame).symm.trans hp
    obtain ⟨p, hp', -⟩ := hr.parent d (Table.mem_of_get? hget) parentId hparent
    obtain ⟨a', ha', hid⟩ := ih hp'
    exact ⟨a', .parent hget hparent ha', hid⟩

end Chains

end Mapae.Delegation
