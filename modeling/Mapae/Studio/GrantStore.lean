import Mapae.Infra.Binary64
import Mapae.Infra.Json
import Mapae.Studio.Grant

/-!
# The grant store

The grants are kept as one JSON document in the browser's storage: four fields of each, and never
the agent key. Reading drops every record that is not well formed, so what is written must be
readable.

* `serializeGrants` and `parseStoredGrants` translate between grants and the document
* `Readable` says which grants the reader accepts, `stripped` what it makes of them
  (`parseStoredGrants_serializeGrants`)
* `writeGrants` is one read-modify-write of the document
-/

namespace Mapae.Studio

open Mapae.Infra Mapae.Guardians

def MAX_NAME : Nat := 40
def MAX_GRANTS : Nat := 50

/-- The number a JSON number is read as. -/
def numberOf (mantissa exponent : Int) : ℚ := Binary64.round (mantissa * (10 : ℚ) ^ exponent)

/-- `Number.isSafeInteger(value) && value >= 0`, with the integer. -/
def safeNatural (value : ℚ) : Option Int :=
  if value = ⌊value⌋ ∧ 0 ≤ value ∧ ⌊value⌋ ≤ MAX_SAFE_INTEGER then some ⌊value⌋ else none

def GrantSource.text : GrantSource → String
  | .signed => "signed"
  | .imported => "imported"

/-- A record of the document: an allowlist of four fields. -/
def persistedGrant (grant : SessionGrant) : Json := .object
  [("name", .string grant.name), ("source", .string grant.source.text),
    ("createdAt", .number grant.artifact.createdAt 0),
    ("permissionContext", .string grant.artifact.permissionContext)]

section Store

variable {Delegation Wire : Type} (kit : DelegationKit Delegation) (document : HeaderCodec Wire)

def serializeGrants (grants : List SessionGrant) : Wire :=
  document.encode (.array ((grants.take MAX_GRANTS).map persistedGrant))

/-- The source that a record names. -/
def readSource (record : Json) : Option GrantSource :=
  match record.textField "source" with
  | some "signed" => some .signed
  | some "imported" => some .imported
  | _ => none

def readCreatedAt (record : Json) : Option Int :=
  match record.field "createdAt" with
  | some (.number mantissa exponent) => safeNatural (numberOf mantissa exponent)
  | _ => none

/-- What the reader makes of the four fields. -/
def restoredGrant (name : String) (source : GrantSource) (createdAt : Int) (context : String)
    (leaf root : Delegation) : SessionGrant where
  id := toString createdAt ++ ":" ++ kit.getAddress (kit.delegate leaf) ++ ":" ++ tail18 context
  name := name
  source := source
  artifact :=
    { frameworkVersion := DELEGATION_FRAMEWORK_VERSION
      chainId := GIWA_SEPOLIA_ID
      role := match source with
        | .signed => "open-agent"
        | .imported => "imported"
      delegator := kit.getAddress (kit.delegator root)
      delegate := kit.getAddress (kit.delegate leaf)
      permissionContext := context
      createdAt := createdAt }

/-- A record that is not well formed is dropped. -/
def restoreGrant (record : Json) : Option SessionGrant := do
  let name ← record.textField "name"
  if unitLength name = 0 ∨ unitLength name > MAX_NAME then none
  let source ← readSource record
  let createdAt ← readCreatedAt record
  let permissionContext ← record.textField "permissionContext"
  match parsePermissionContext kit permissionContext with
  | .ok context root _ => do
    let links ← kit.decodeDelegations context
    let leaf ← links.head?
    return restoredGrant kit name source createdAt context leaf root
  | _ => none

/-- A document that is no list has no grants. -/
def parseStoredGrants (raw : Option Wire) : List SessionGrant :=
  match raw.bind document.decode with
  | some (.array records) => (records.take MAX_GRANTS).filterMap (restoreGrant kit)
  | _ => []

/-! ## What the reader accepts -/

/-- The grants whose records are well formed. -/
structure Readable (grant : SessionGrant) : Prop where
  named : 0 < unitLength grant.name
  name : unitLength grant.name ≤ MAX_NAME
  created : 0 ≤ grant.artifact.createdAt
  created_safe : grant.artifact.createdAt ≤ MAX_SAFE_INTEGER
  hex : isHex grant.artifact.permissionContext.toList = true
  decodes : ∃ leaf links, kit.decodeDelegations grant.artifact.permissionContext = some (leaf :: links)

/-- The grant that is read back. -/
def stripped (grant : SessionGrant) : SessionGrant :=
  match kit.decodeDelegations grant.artifact.permissionContext with
  | some (leaf :: links) => restoredGrant kit grant.name grant.source grant.artifact.createdAt
      grant.artifact.permissionContext leaf ((leaf :: links).getLast (List.cons_ne_nil _ _))
  | _ => grant

variable {kit document} {grant : SessionGrant} {grants : List SessionGrant}

theorem textField_persistedGrant (grant : SessionGrant) :
    (persistedGrant grant).textField "name" = some grant.name ∧
      (persistedGrant grant).textField "permissionContext" =
        some grant.artifact.permissionContext := ⟨rfl, rfl⟩

theorem readSource_persistedGrant (grant : SessionGrant) :
    readSource (persistedGrant grant) = some grant.source := by
  cases h : grant.source <;> simp [readSource, persistedGrant, Json.textField, Json.field, Json.text,
    GrantSource.text, h]

/-- A natural number that is safe is read as it was written. -/
theorem safeNatural_numberOf {n : Int} (h : 0 ≤ n) (hsafe : n ≤ MAX_SAFE_INTEGER) :
    safeNatural (numberOf n 0) = some n := by
  have hround : numberOf n 0 = n := by
    rw [numberOf, zpow_zero, mul_one]
    refine Binary64.round_intCast ?_
    rw [abs_of_nonneg h]
    simp only [MAX_SAFE_INTEGER] at hsafe
    omega
  rw [hround, safeNatural, Int.floor_intCast, if_pos ⟨rfl, by exact_mod_cast h, hsafe⟩]

theorem readCreatedAt_persistedGrant (h : 0 ≤ grant.artifact.createdAt)
    (hsafe : grant.artifact.createdAt ≤ MAX_SAFE_INTEGER) :
    readCreatedAt (persistedGrant grant) = some grant.artifact.createdAt := by
  have hfield : (persistedGrant grant).field "createdAt" =
      some (.number grant.artifact.createdAt 0) := rfl
  rw [readCreatedAt, hfield]
  exact safeNatural_numberOf h hsafe

/-- **A record of a readable grant is read.** -/
theorem restoreGrant_persistedGrant (h : Readable kit grant) :
    restoreGrant kit (persistedGrant grant) = some (stripped kit grant) := by
  obtain ⟨leaf, links, hdecode⟩ := h.decodes
  have hroot : (leaf :: links).getLast? = some ((leaf :: links).getLast (List.cons_ne_nil _ _)) :=
    List.getLast?_eq_getLast_of_ne_nil _
  have hparse := parsePermissionContext_of h.hex hdecode hroot .en
  have hname : ¬ (unitLength grant.name = 0 ∨ unitLength grant.name > MAX_NAME) := by
    have := h.named
    have := h.name
    omega
  obtain ⟨hn, hp⟩ := textField_persistedGrant grant
  simp [restoreGrant, hn, hp, hname, readSource_persistedGrant,
    readCreatedAt_persistedGrant h.created h.created_safe, hparse, hdecode, stripped]

/-- A record whose name is too long is dropped. -/
theorem restoreGrant_eq_none (h : MAX_NAME < unitLength grant.name) :
    restoreGrant kit (persistedGrant grant) = none := by
  obtain ⟨hn, -⟩ := textField_persistedGrant grant
  simp [restoreGrant, hn, h]

theorem parseStoredGrants_eq (h : grants.length ≤ MAX_GRANTS) :
    parseStoredGrants kit document (some (serializeGrants document grants)) =
      grants.filterMap fun grant => restoreGrant kit (persistedGrant grant) := by
  rw [parseStoredGrants, serializeGrants, Option.bind_some, document.decode_encode,
    List.take_of_length_le h]
  dsimp only
  rw [List.take_of_length_le (by rwa [List.length_map]), List.filterMap_map]
  rfl

/-- **What is written is read back**, without the keys and the terms. -/
theorem parseStoredGrants_serializeGrants (h : grants.length ≤ MAX_GRANTS)
    (hgrants : ∀ grant ∈ grants, Readable kit grant) :
    parseStoredGrants kit document (some (serializeGrants document grants)) =
      grants.map (stripped kit) := by
  rw [parseStoredGrants_eq h]
  exact List.filterMap_eq_map_iff_forall_eq_some.mpr fun grant hg =>
    restoreGrant_persistedGrant (hgrants grant hg)

/-! ## Writing -/

/-- The identity that grants are known by. -/
def SessionGrant.context (grant : SessionGrant) : String := grant.artifact.permissionContext

variable (kit document)

/-- `readDocument`; `none` where the store does not answer. -/
def readDocument (reads : Bool) (item : Option Wire) : Option (List SessionGrant) :=
  if reads then some (parseStoredGrants kit document item) else none

/-- `loadGrants`. -/
def loadGrants (reads : Bool) (item : Option Wire) : List SessionGrant :=
  (readDocument kit document reads item).getD []

/-- The next list of the document. -/
def nextGrants (add : List SessionGrant) (remove : List String) (stored : List SessionGrant) :
    List SessionGrant :=
  (add ++ stored.filter fun item => item.context ∉ add.map SessionGrant.context).filter
    fun item => item.context ∉ remove

/-- `writeGrants`, with the item of the store afterwards. The store may not answer the read or the
write; then nothing was persisted. -/
def writeGrants (add : List SessionGrant) (remove : List String) (reads writes : Bool)
    (item : Option Wire) : Option (List SessionGrant) × Option Wire :=
  match readDocument kit document reads item with
  | none => (none, item)
  | some stored =>
    if writes then
      (some (nextGrants add remove stored),
        some (serializeGrants document (nextGrants add remove stored)))
    else (none, item)

/-! ### The contexts of a list -/

def contexts (grants : List SessionGrant) : List String := grants.map SessionGrant.context

omit kit document in
theorem mem_contexts {grants : List SessionGrant} {context : String} :
    context ∈ contexts grants ↔ ∃ grant ∈ grants, grant.context = context := List.mem_map

/-- Of one grant for each context, at most as many as there are contexts. -/
structure Distinct (K : Finset String) (grants : List SessionGrant) : Prop where
  nodup : (contexts grants).Nodup
  readable : ∀ grant ∈ grants, Readable kit grant
  known : ∀ context ∈ contexts grants, context ∈ K

/-- The grants of the store. -/
def storedGrants (item : Option Wire) : List SessionGrant := parseStoredGrants kit document item

variable {kit document} {K : Finset String} {add stored : List SessionGrant} {remove : List String}

theorem context_stripped (grant : SessionGrant) : (stripped kit grant).context = grant.context := by
  unfold stripped
  split <;> rfl

theorem contexts_stripped (grants : List SessionGrant) :
    contexts (grants.map (stripped kit)) = contexts grants := by
  rw [contexts, contexts, List.map_map]
  exact List.map_congr_left fun grant _ => context_stripped grant

theorem readable_stripped (h : Readable kit grant) : Readable kit (stripped kit grant) := by
  obtain ⟨leaf, links, hdecode⟩ := h.decodes
  rw [stripped, hdecode]
  exact ⟨h.named, h.name, h.created, h.created_safe, h.hex, leaf, links, hdecode⟩

theorem Distinct.nil : Distinct kit K [] where
  nodup := List.nodup_nil
  readable _ h := (List.not_mem_nil h).elim
  known _ h := (List.not_mem_nil h).elim

theorem Distinct.of_subset {xs ys : List SessionGrant} (h : Distinct kit K ys)
    (hsub : xs.Sublist ys) : Distinct kit K xs where
  nodup := h.nodup.sublist (hsub.map _)
  readable x hx := h.readable x (hsub.subset hx)
  known c hc := h.known c ((hsub.map _).subset hc)

theorem Distinct.length_le (h : Distinct kit K grants) (hK : K.card ≤ MAX_GRANTS) :
    grants.length ≤ MAX_GRANTS := by
  have hcard : (contexts grants).toFinset.card ≤ K.card :=
    Finset.card_le_card fun c hc => h.known c (List.mem_toFinset.mp hc)
  rw [List.toFinset_card_of_nodup h.nodup, contexts, List.length_map] at hcard
  omega

theorem mem_contexts_nextGrants {context : String} :
    context ∈ contexts (nextGrants add remove stored) ↔
      context ∉ remove ∧ (context ∈ contexts add ∨ context ∈ contexts stored) := by
  simp only [mem_contexts, nextGrants, List.mem_filter, List.mem_append, decide_eq_true_eq]
  constructor
  · rintro ⟨grant, ⟨hgrant, hremove⟩, rfl⟩
    exact ⟨hremove, hgrant.imp (fun h => ⟨grant, h, rfl⟩) fun h => ⟨grant, h.1, rfl⟩⟩
  · rintro ⟨hremove, ⟨grant, hgrant, rfl⟩ | ⟨grant, hgrant, rfl⟩⟩
    · exact ⟨grant, ⟨Or.inl hgrant, hremove⟩, rfl⟩
    · by_cases hadd : ∃ new ∈ add, new.context = grant.context
      · obtain ⟨new, hnew, hcontext⟩ := hadd
        exact ⟨new, ⟨Or.inl hnew, hcontext ▸ hremove⟩, hcontext⟩
      · exact ⟨grant, ⟨Or.inr ⟨hgrant, fun h => hadd (mem_contexts.mp h)⟩, hremove⟩, rfl⟩

theorem Distinct.nextGrants (hadd : Distinct kit K add) (hstored : Distinct kit K stored) :
    Distinct kit K (nextGrants add remove stored) := by
  refine Distinct.of_subset ?_ (List.filter_sublist ..)
  have hkept := hstored.of_subset (List.filter_sublist (p := fun item =>
    decide (item.context ∉ add.map SessionGrant.context)) (l := stored))
  refine ⟨?_, ?_, ?_⟩
  · rw [contexts, List.map_append]
    refine hadd.nodup.append hkept.nodup ?_
    intro c hc hrest
    obtain ⟨grant, hgrant, rfl⟩ := List.mem_map.mp hrest
    exact of_decide_eq_true (List.mem_filter.mp hgrant).2 hc
  · intro grant hgrant
    exact (List.mem_append.mp hgrant).elim (hadd.readable grant) (hkept.readable grant)
  · intro c hc
    rw [contexts, List.map_append] at hc
    exact (List.mem_append.mp hc).elim (hadd.known c) (hkept.known c)

/-- A call that the store does not answer persists nothing. -/
theorem writeGrants_unanswered {reads writes : Bool} (h : (reads && writes) = false)
    (item : Option Wire) :
    writeGrants kit document add remove reads writes item = (none, item) := by
  cases reads <;> cases writes <;> simp_all [writeGrants, readDocument]

theorem writeGrants_answered {reads writes : Bool} (h : (reads && writes) = true)
    (item : Option Wire) :
    writeGrants kit document add remove reads writes item =
      (some (nextGrants add remove (storedGrants kit document item)),
        some (serializeGrants document (nextGrants add remove (storedGrants kit document item)))) := by
  obtain ⟨rfl, rfl⟩ := Bool.and_eq_true_iff.mp h
  rfl

theorem storedGrants_serializeGrants (hK : K.card ≤ MAX_GRANTS) (h : Distinct kit K grants) :
    storedGrants kit document (some (serializeGrants document grants)) =
      grants.map (stripped kit) :=
  parseStoredGrants_serializeGrants (h.length_le hK) h.readable

theorem Distinct.stripped (h : Distinct kit K grants) :
    Distinct kit K (grants.map (Studio.stripped kit)) where
  nodup := by
    rw [contexts_stripped]
    exact h.nodup
  readable := by
    intro x hx
    obtain ⟨grant, hgrant, rfl⟩ := List.mem_map.mp hx
    exact readable_stripped (h.readable grant hgrant)
  known := by
    rw [contexts_stripped]
    exact h.known

end Store

end Mapae.Studio
