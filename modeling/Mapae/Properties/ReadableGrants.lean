import Mapae.Studio.GrantStore

/-!
# Every grant the app writes can be read back

The reader drops a record whose name is too long, and the next write makes that final. Every way to
make a grant keeps to the reader's bounds: the form checks the name, the made-up names are short,
and the arcade uses the Korean names of the guardians. The English names of some guardians would be
too long (`english_name_dropped`).
-/

namespace Mapae.Studio

open Mapae.Infra Mapae.Guardians

/-- A block's timestamp in seconds, which is a safe number. -/
structure BlockTime where
  timestamp : Nat
  pos : 0 < timestamp
  safe : timestamp ≤ MAX_SAFE_INTEGER

/-- `Date.now()`, up to the largest date. -/
structure DateNow where
  ms : Nat
  le : ms ≤ 8640000000000000

section AppGrants

variable {Delegation : Type} (kit : DelegationKit Delegation)

/-- The grants that the app makes. `named` are the languages and the names of the arcade's guardians. -/
inductive AppGrant (named : Guardians.Locale → String → Prop) : SessionGrant → Prop
  | studio {draft locale value role signed artifact agentKey} (head : BlockTime)
      (hdraft : validateGrantDraft kit draft locale = .ok value)
      (hartifact : permissionArtifact kit role [signed] (max 0 ((head.timestamp : Int) - 1)) =
        .ok artifact) :
      AppGrant named (signedSessionGrant artifact value agentKey)
  | imported {raw : String} {locale context root count grant} (now : DateNow)
      (hcode : parsePermissionContext kit raw locale = .ok context root count)
      (hgrant : importedSessionGrant kit context locale now.ms = .ok grant) :
      AppGrant named grant
  | recovered (root : Delegation) (locale : Guardians.Locale) (now : DateNow) :
      AppGrant named (recoveredGrant kit root locale now.ms)
  | arcade {tokenId locale name role signed artifact} (head : BlockTime)
      (hname : guardianName tokenId locale = .ok name) (hnamed : named locale name)
      (hartifact : permissionArtifact kit role [signed] ((head.timestamp : Int) - 1) = .ok artifact) :
      AppGrant named (arcadeGrant artifact name)

variable {kit}

/-! ## The artifacts -/

theorem permissionArtifact_singleton {role : String} {signed : Delegation} {createdAt : Int}
    {artifact : PermissionArtifact}
    (h : permissionArtifact kit role [signed] createdAt = .ok artifact) :
    artifact.permissionContext = kit.encodeDelegations [signed] ∧ artifact.createdAt = createdAt := by
  cases h
  exact ⟨rfl, rfl⟩

/-- A grant of one encoded delegation is readable if its name and its time are. -/
theorem readable_of_encoded {grant : SessionGrant} {signed : Delegation}
    (hnamed : 0 < unitLength grant.name) (hname : unitLength grant.name ≤ MAX_NAME)
    (hcreated : 0 ≤ grant.artifact.createdAt) (hsafe : grant.artifact.createdAt ≤ MAX_SAFE_INTEGER)
    (hcontext : grant.artifact.permissionContext = kit.encodeDelegations [signed]) :
    Readable kit grant where
  named := hnamed
  name := hname
  created := hcreated
  created_safe := hsafe
  hex := hcontext ▸ kit.isHex_encode [signed]
  decodes := ⟨signed, [], hcontext ▸ kit.decode_encode [signed]⟩

theorem nowSeconds_le (now : DateNow) : (nowSeconds now.ms : Int) ≤ MAX_SAFE_INTEGER := by
  have := now.le
  simp only [nowSeconds, MAX_SAFE_INTEGER]
  omega

/-! ## The names -/

/-- The name that the form accepts. -/
theorem agentName_of_valid {draft : GrantDraft} {locale : Guardians.Locale} {value : ValidGrantDraft}
    (h : validateGrantDraft kit draft locale = .ok value) :
    0 < unitLength value.agentName ∧ unitLength value.agentName ≤ MAX_NAME := by
  unfold validateGrantDraft at h
  split at h
  · next value' hcheck =>
    cases h
    simp only [checkGrantDraft, bind_eq_ok, pure_eq_ok, throwIf_eq_ok] at hcheck
    obtain ⟨_, hne, _, hle, _, -, _, -, _, -, _, -, _, -, _, -, _, -, _, -, rfl⟩ := hcheck
    refine ⟨?_, Nat.not_lt.mp hle⟩
    have hpos : 0 < (trim draft.agentName).length := by
      refine List.length_pos_iff.mpr fun hnil => hne ?_
      rw [hnil]
    have hbounds := (unitLength_bounds (String.ofList (trim draft.agentName))).1
    rw [String.toList_ofList] at hbounds
    exact lt_of_lt_of_le hpos hbounds
  · cases h

variable (kit) in
/-- A prefix and the start of an address fit. -/
theorem unitLength_shortAddress (name address : String) (hpos : 0 < unitLength name)
    (hle : unitLength name ≤ 23) :
    0 < unitLength (name ++ " " ++ shortAddress kit address) ∧
      unitLength (name ++ " " ++ shortAddress kit address) ≤ MAX_NAME := by
  have hspace : unitLength " " = 1 := by decide
  have hshort := (unitLength_bounds (shortAddress kit address)).2
  have htake : (shortAddress kit address).toList.length ≤ 8 := by
    rw [shortAddress, String.toList_ofList]
    exact List.length_take_le _ _
  rw [unitLength_append, unitLength_append, hspace, MAX_NAME]
  omega

theorem importedAgentPrefix_le (locale : Guardians.Locale) :
    0 < unitLength (MSG locale).importedAgentPrefix ∧
    unitLength (MSG locale).importedAgentPrefix ≤ 23 := by
  cases locale <;> decide

theorem recoveredAgentPrefix_le (locale : Guardians.Locale) :
    0 < unitLength (MSG locale).recoveredAgentPrefix ∧
      unitLength (MSG locale).recoveredAgentPrefix ≤ 23 := by
  cases locale <;> decide

theorem getD_of_forall {α : Type} {p : α → Prop} {values : List α} {d : α} (i : Nat)
    (h : ∀ x ∈ values, p x) (hd : p d) : p (values.getD i d) := by
  rw [List.getD_eq_getElem?_getD]
  cases hi : values[i]? with
  | none => exact hd
  | some x => exact h x (List.mem_of_getElem? hi)

/-- **A Korean name has at most 24 units.** -/
theorem unitLength_guardianName_ko {tokenId : Nat} {name : String}
    (h : guardianName tokenId .ko = .ok name) : unitLength name ≤ 24 := by
  simp only [guardianName, bind_eq_ok, pure_eq_ok] at h
  obtain ⟨_, -, rfl⟩ := h
  have hmodifier := getD_of_forall (d := "undefined") (((tokenId - 1) * 7919) % GUARDIAN_MAX_SUPPLY % 100)
    (show ∀ x ∈ GUARDIAN_NAME_MODIFIERS .ko, unitLength x ≤ 10 by decide +kernel) (by decide)
  have hgiven := getD_of_forall (d := "undefined") (((tokenId - 1) * 7919) % GUARDIAN_MAX_SUPPLY / 100)
    (show ∀ x ∈ GUARDIAN_GIVEN_NAMES .ko, unitLength x ≤ 10 by decide +kernel) (by decide)
  have hspace : unitLength " " = 1 := by decide
  rw [unitLength_append, unitLength_append, hspace]
  omega

/-- What the arcade can name its grants. -/
def ShortName (locale : Guardians.Locale) (name : String) : Prop :=
  locale = .ko ∨ unitLength name ≤ 25

theorem unitLength_arcade {tokenId : Nat} {locale : Guardians.Locale} {name : String}
    (h : guardianName tokenId locale = .ok name) (hshort : ShortName locale name) :
    unitLength ("Mapae Arcade · " ++ name) ≤ MAX_NAME := by
  have htitle : unitLength "Mapae Arcade · " = 15 := by decide
  rw [unitLength_append, htitle, MAX_NAME]
  rcases hshort with rfl | hle
  · have := unitLength_guardianName_ko h
    omega
  · omega

/-! ## Every grant -/

/-- **The reader accepts what the app makes.** -/
theorem AppGrant.readable {grant : SessionGrant} (h : AppGrant kit ShortName grant) :
    Readable kit grant := by
  cases h with
  | studio head hdraft hartifact =>
    obtain ⟨hcontext, hcreated⟩ := permissionArtifact_singleton hartifact
    obtain ⟨hpos, hle⟩ := agentName_of_valid hdraft
    have := head.safe
    refine readable_of_encoded hpos hle ?_ ?_ hcontext
    · dsimp only [signedSessionGrant]
      omega
    · dsimp only [signedSessionGrant]
      omega
  | imported now hcode hgrant =>
    obtain ⟨-, hhex, links, hdecode, hroot⟩ := parsePermissionContext_eq_ok hcode
    cases links with
    | nil => cases hroot
    | cons leaf links =>
      rw [importedSessionGrant, hdecode] at hgrant
      simp only [List.head?_cons, hroot] at hgrant
      cases hgrant
      obtain ⟨hpos, hle⟩ := importedAgentPrefix_le _
      obtain ⟨hnamed, hname⟩ := unitLength_shortAddress kit _ (kit.delegate leaf) hpos hle
      exact ⟨hnamed, hname, Int.natCast_nonneg _, nowSeconds_le now, hhex, leaf, links, hdecode⟩
  | recovered root locale now =>
    obtain ⟨hpos, hle⟩ := recoveredAgentPrefix_le locale
    obtain ⟨hnamed, hname⟩ := unitLength_shortAddress kit _ (kit.delegate root) hpos hle
    exact readable_of_encoded hnamed hname (Int.natCast_nonneg _) (nowSeconds_le now) rfl
  | arcade head hname hnamed hartifact =>
    obtain ⟨hcontext, hcreated⟩ := permissionArtifact_singleton hartifact
    have := head.safe
    have := head.pos
    refine readable_of_encoded ?_ (unitLength_arcade hname hnamed) ?_ ?_ hcontext
    · have htitle : unitLength "Mapae Arcade · " = 15 := by decide
      rw [arcadeGrant, unitLength_append, htitle]
      omega
    · dsimp only [arcadeGrant]
      omega
    · dsimp only [arcadeGrant]
      omega

end AppGrants

/-- The fields that are kept. -/
def keptFields (grant : SessionGrant) : String × GrantSource × Int × String :=
  (grant.name, grant.source, grant.artifact.createdAt, grant.artifact.permissionContext)

theorem keptFields_stripped {Delegation : Type} (kit : DelegationKit Delegation)
    (grant : SessionGrant) : keptFields (stripped kit grant) = keptFields grant := by
  unfold stripped
  split <;> rfl

/--
**Every grant the app writes can be read back**, in order and with its name, source, creation time
and permission context. Writing what was read writes the same document.
-/
theorem app_grants_read_back {Delegation Wire : Type} (kit : DelegationKit Delegation)
    (document : HeaderCodec Wire) (grants : List SessionGrant) (hlength : grants.length ≤ MAX_GRANTS)
    (happ : ∀ grant ∈ grants, AppGrant kit ShortName grant) :
    let read := parseStoredGrants kit document (some (serializeGrants document grants))
    read.map keptFields = grants.map keptFields ∧
      serializeGrants document read = serializeGrants document grants := by
  dsimp only
  rw [parseStoredGrants_serializeGrants hlength fun grant h => (happ grant h).readable]
  have hkept : (grants.map (stripped kit)).map keptFields = grants.map keptFields := by
    rw [List.map_map]
    exact List.map_congr_left fun grant _ => keptFields_stripped kit grant
  have hrecord : persistedGrant = (fun fields : String × GrantSource × Int × String =>
      Json.object [("name", .string fields.1), ("source", .string fields.2.1.text),
        ("createdAt", .number fields.2.2.1 0), ("permissionContext", .string fields.2.2.2)]) ∘
          keptFields := rfl
  refine ⟨hkept, ?_⟩
  rw [serializeGrants, serializeGrants, hrecord, ← List.map_map, List.map_take, hkept,
    ← List.map_take, List.map_map]

/-! ## A kit -/

/-- A kit with one delegation, which a zero stands for. -/
def plainKit : DelegationKit Unit where
  delegate _ := "0xcfeb694719A09caeb80798e2011298F29CDa4e92"
  delegator _ := "0xcfeb694719A09caeb80798e2011298F29CDa4e92"
  encodeDelegations links := String.ofList ('0' :: 'x' :: links.map fun _ => '0')
  decodeDelegations text := some (List.replicate (text.toList.length - 2) ())
  isAddress text := text.toList.length = 42
  getAddress text := text
  decode_encode links := by
    rw [String.toList_ofList]
    refine congrArg some (List.eq_replicate_iff.mpr ⟨?_, fun _ _ => rfl⟩).symm
    simp
  isHex_encode links := by
    rw [String.toList_ofList]
    simp [isHex, isHexDigit]

/-- The artifact of a grant under the plain kit. -/
def plainArtifact (role : String) : PermissionArtifact where
  frameworkVersion := DELEGATION_FRAMEWORK_VERSION
  chainId := GIWA_SEPOLIA_ID
  role := role
  delegator := "0xcfeb694719A09caeb80798e2011298F29CDa4e92"
  delegate := "0xcfeb694719A09caeb80798e2011298F29CDa4e92"
  permissionContext := "0x0"
  createdAt := 1790000000

theorem app_grants_read_back_two :
    (parseStoredGrants plainKit .plain (some (serializeGrants .plain
      [arcadeGrant (plainArtifact "arcade") "제기 차는 쇠돌이",
        recoveredGrant plainKit () .en 1790000000000]))).map keptFields =
      [("Mapae Arcade · 제기 차는 쇠돌이", .signed, 1790000000, "0x0"),
        ("Recovered agent 0xcfeb69", .imported, 1790000000, "0x0")] := by
  have hname : guardianName 34 .ko = .ok "제기 차는 쇠돌이" := by decide +kernel
  refine (app_grants_read_back plainKit .plain _ (by decide) fun grant h => ?_).1.trans (by decide +kernel)
  rcases List.mem_cons.mp h with rfl | h
  · exact .arcade ⟨1790000001, by decide, by decide⟩ hname (Or.inl rfl)
      (show permissionArtifact plainKit "arcade" [()] _ = _ by rfl)
  · rw [List.mem_singleton.mp h]
    exact .recovered () .en ⟨1790000000000, by decide⟩

/-- **The English name of a guardian can be too long for the reader.** -/
theorem english_name_dropped :
    AppGrant plainKit (fun _ _ => True)
        (arcadeGrant (plainArtifact "arcade") "Shuttlecock-Kicking Soedori") ∧
      guardianName 34 .en = .ok "Shuttlecock-Kicking Soedori" ∧
      parseStoredGrants plainKit .plain (some (serializeGrants .plain
        [arcadeGrant (plainArtifact "arcade") "Shuttlecock-Kicking Soedori"])) = [] := by
  have hname : guardianName 34 .en = .ok "Shuttlecock-Kicking Soedori" := by decide +kernel
  refine ⟨.arcade ⟨1790000001, by decide, by decide⟩ hname trivial
    (show permissionArtifact plainKit "arcade" [()] _ = _ by rfl), hname, ?_⟩
  rw [parseStoredGrants_eq (by decide)]
  exact List.filterMap_eq_nil_iff.mpr fun grant h => by
    rw [List.mem_singleton.mp h]
    exact restoreGrant_eq_none (by decide +kernel)

end Mapae.Studio
