import Mapae.Web.RecordOperations

/-!
# What the arcade has saved, it reads back

The loader keeps a state only as a whole, while each operation checks no more than what it is given.
Two of them keep a value that the loader refuses: a practice run does not look at its time, and a
paid outing does not look whether its score is an integer before it makes it the best.

* `ArcadeState.Keeps` excludes the two
* `Saved` is what every operation preserves, and `saved_state_reloads` what a run preserves
* `Companion.Continues` is what becomes of the records of a character
-/

namespace Mapae.Web

open Mapae.Infra Mapae.Store Mapae.Ranking Mapae.Outings

/-! ## Calls that keep no number the loader refuses -/

/-- A practice run that is admitted has a time, and a paid outing that is completed under the ruleset
of today has an integer for its score, or one that is not above the best. -/
def ArcadeState.Keeps (s : ArcadeState) : RecordOperation → Prop
  | .admitPracticeRun id admittedAt replaySeed aptitudes =>
    (replaySeed.all fun seed => validReplaySeed seed.json) = true →
    aptitudes.all validGuardianAptitudes = true → (∀ run ∈ s.runs, run.id ≠ id.text) →
    s.selectedCharacter.isSome = true → 0 ≤ admittedAt ∧ admittedAt ≤ maxSafeInteger
  | .completeActivity id (some outcome) =>
    isOutcome outcome = true → isCurrent outcome = true →
    ∀ a ∈ s.activities.find? (fun a => a.id = id), a.status = .active → a.origin.isPaid = true →
      outcome.textField "game" = some (gameText a.game) →
      ∀ c ∈ s.characters, c.id = a.characterId →
        (scoreOf outcome).json.int.isSome = true ∨
          (scoreOf outcome).value ≤ ((currentRecords c).bests a.game).value
  | _ => True

/-- Every call of a run keeps no number the loader refuses. -/
def ArcadeState.KeepsAll : ArcadeState → List RecordOperation → Prop
  | _, [] => True
  | s, op :: ops => s.Keeps op ∧ (s.perform op).KeepsAll ops

/-- What is saved: the loader takes it, and no two activities have one id. -/
structure ArcadeState.Saved (s : ArcadeState) : Prop where
  loadable : s.Loadable
  distinct : (s.activities.map Activity.id).Nodup

namespace ArcadeState.Saved

theorem new : newArcadeState.Saved :=
  ⟨⟨by decide, by simp [newArcadeState], by simp [ids, newArcadeState],
    .inl ⟨rfl, rfl⟩, by simp [newArcadeState], by simp [newArcadeState], by simp [newArcadeState]⟩,
    by simp [newArcadeState]⟩

variable {s : ArcadeState}

/-! ## Characters -/

theorem selectCharacter (h : s.Saved) (id : String) : (s.selectCharacter id).Saved := by
  unfold ArcadeState.selectCharacter
  split
  · next hany =>
    obtain ⟨c, hc, hid⟩ := List.any_eq_true.mp hany
    have hmem : id ∈ s.ids := List.mem_map.mpr ⟨c, hc, of_decide_eq_true hid⟩
    exact ⟨⟨h.loadable.count, h.loadable.characters, h.loadable.nodup, .inr ⟨id, hmem, rfl⟩,
      h.loadable.kept, h.loadable.runs, h.loadable.activities⟩, h.distinct⟩
  · exact h

theorem updateCharacter (h : s.Saved) (id : String) (patch : CompanionPatch) :
    (s.updateCharacter id patch).Saved := by
  unfold ArcadeState.updateCharacter
  split
  · exact h
  · next member hfind =>
    split
    · next hvalid =>
      have hmember := List.mem_of_find?_eq_some hfind
      have hid : member.id = id := by simpa using List.find?_some hfind
      refine ⟨h.loadable.mapCharacter (fun _ => rfl) fun c hc heq => ?_, h.distinct⟩
      -- the ids are distinct: it is the character that was checked
      obtain rfl := List.inj_on_of_nodup_map h.loadable.nodup hc hmember (heq.trans hid.symm)
      exact hvalid
    · exact h

theorem addCharacter (h : s.Saved) (member : Companion) : (s.addCharacter member).Saved := by
  unfold ArcadeState.addCharacter
  split
  · exact h
  · next hfree =>
    push Not at hfree
    obtain ⟨hcount, hvalid, hnew⟩ := hfree
    have hids : ({ s with
        characters := s.characters ++ [member]
        selectedCharacterId := some member.id } : ArcadeState).ids = s.ids ++ [member.id] := by
      simp [ids]
    have hfresh : member.id ∉ s.ids := by
      intro hmem
      obtain ⟨c, hc, hid⟩ := List.mem_map.mp hmem
      exact hnew (List.any_eq_true.mpr ⟨c, hc, by simpa using hid⟩)
    refine ⟨⟨?_, ?_, ?_, .inr ⟨member.id, by simp [hids], rfl⟩, h.loadable.kept, ?_, ?_⟩, h.distinct⟩
    · simp only [List.length_append, List.length_singleton]
      omega
    · intro c hc
      rcases List.mem_append.mp hc with hc | hc
      · exact h.loadable.characters c hc
      · obtain rfl := List.mem_singleton.mp hc
        simpa using hvalid
    · rw [hids]
      exact List.Nodup.append h.loadable.nodup (List.nodup_singleton _)
        (by simpa using hfresh)
    · intro run hrun
      rw [hids]
      obtain ⟨hid, hcharacter, hrest⟩ := validRun_json.mp (h.loadable.runs run hrun)
      exact validRun_json.mpr ⟨hid, List.mem_append_left _ hcharacter, hrest⟩
    · intro a ha
      obtain ⟨hvalid, hmem⟩ := h.loadable.activities a ha
      exact ⟨hvalid, hids ▸ List.mem_append_left _ hmem⟩

/-! ## Practice runs -/

theorem text_ne_empty (id : Uuid) : id.text ≠ "" := by
  intro hempty
  have huuid := id.isUuid
  rw [hempty] at huuid
  exact absurd huuid (by decide)

theorem admitPracticeRun (h : s.Saved) {id : Uuid} {admittedAt : Int} {replaySeed : Option Decimal}
    {aptitudes : Option Json} (hkeeps : s.Keeps (.admitPracticeRun id admittedAt replaySeed aptitudes)) :
    (s.admitPracticeRun id.text admittedAt replaySeed aptitudes).Saved := by
  unfold ArcadeState.admitPracticeRun
  split
  · exact h
  · next hseed =>
    split
    · exact h
    · next haptitudes =>
      split
      · exact h
      · next hfree =>
        split
        · exact h
        · next character hselected =>
          rw [Bool.not_eq_false] at hseed haptitudes
          have hnew : ∀ run ∈ s.runs, run.id ≠ id.text := by
            intro run hrun heq
            exact hfree (List.any_eq_true.mpr ⟨run, hrun, by simpa using heq⟩)
          have hat := hkeeps hseed haptitudes hnew (by rw [hselected]; rfl)
          have hmem : character ∈ s.characters := List.mem_of_find?_eq_some hselected
          obtain ⟨-, hname, happearance, -⟩ :=
            validCompanion_json.mp (h.loadable.characters character hmem)
          refine ⟨h.loadable.withRuns ?_ ?_, h.distinct⟩
          · exact List.length_take_le ..
          · intro run hrun
            rcases List.mem_cons.mp (List.mem_of_mem_take hrun) with rfl | hrun
            · refine validRun_json.mpr ⟨text_ne_empty id, List.mem_map_of_mem hmem, ?_,
                all_project happearance, ?_, rfl, rfl, hseed, haptitudes⟩
              · simp only [isName, Json.text, Option.any_some, decide_eq_true_eq] at hname
                exact hname.2
              · exact integer_iff.mpr ⟨admittedAt, Json.int_eq_some.mpr (by simp), hat⟩
            · exact h.loadable.runs run hrun

theorem finishPracticeRun (h : s.Saved) (id : String) (result : RunStats) :
    (s.finishPracticeRun id result).Saved := by
  unfold ArcadeState.finishPracticeRun
  split
  · exact h
  · next ticket hfind =>
    split
    · exact h
    · split
      · exact h
      · next hresult =>
        rw [Bool.not_eq_false] at hresult
        have hruns : { s with
            runs := s.runs.map fun run : Run =>
              if run.id = id then { run with stats := result, complete := true } else run }.Loadable := by
          refine h.loadable.withRuns (by simpa using h.loadable.kept.1) ?_
          intro run hrun
          obtain ⟨run', hrun', rfl⟩ := List.mem_map.mp hrun
          have hvalid := h.loadable.runs run' hrun'
          split
          · obtain ⟨hid, hcharacter, hname, happearance, hat, -, hrest⟩ := validRun_json.mp hvalid
            exact validRun_json.mpr ⟨hid, hcharacter, hname, happearance, hat, hresult, hrest⟩
          · exact hvalid
        split
        · refine ⟨hruns.mapCharacter currentRecords_id fun c hc _ => ?_, h.distinct⟩
          have hcurrent := validCompanion_currentRecords (hruns.characters c hc)
          obtain ⟨hid, hname, happearance, hversion, hbest, hrest⟩ := validCompanion_json.mp hcurrent
          have hscore : integer result.score.json = true := by
            simp only [RunStats.all, List.all_cons, Bool.and_eq_true] at hresult
            exact hresult.1
          exact validCompanion_json.mpr ⟨hid, hname, happearance, hversion,
            integer_max hbest fun _ => hscore, hrest⟩
        · exact ⟨hruns, h.distinct⟩

/-! ## Activities -/

/-- A checked activity with a new id is put in front. -/
theorem admitted (h : s.Saved) {activity : Activity} (hnew : ∀ a ∈ s.activities, a.id ≠ activity.id)
    (hcharacter : activity.characterId ∈ s.ids)
    (hparsed : parseActivities (.array [activity.json]) = true) :
    { s with activities := (activity :: s.activities).take 40 }.Saved := by
  have hvalid : validActivity activity.json = true := by
    simpa [parseActivities, listOf] using hparsed
  refine ⟨h.loadable.withActivities (List.length_take_le ..) fun a ha => ?_, ?_⟩
  · rcases List.mem_cons.mp (List.mem_of_mem_take ha) with rfl | ha
    · exact ⟨hvalid, hcharacter⟩
    · exact h.loadable.activities a ha
  · have hnodup : ((activity :: s.activities).map Activity.id).Nodup := by
      rw [List.map_cons, List.nodup_cons]
      refine ⟨fun hmem => ?_, h.distinct⟩
      obtain ⟨a, ha, hid⟩ := List.mem_map.mp hmem
      exact hnew a ha hid
    exact hnodup.sublist ((List.take_sublist ..).map _)

theorem admitActivity (h : s.Saved) (a : PaidTicket) (admittedAt : Int) :
    (s.admitActivity a admittedAt).Saved := by
  unfold ArcadeState.admitActivity
  split
  · exact h
  · next hfree =>
    split
    · exact h
    · split
      · exact h
      · next character hfind =>
        simp only
        split
        · next hparsed =>
          refine h.admitted (fun p hp heq => ?_) (List.mem_map_of_mem (List.mem_of_find?_eq_some hfind)) hparsed
          exact hfree (List.any_eq_true.mpr ⟨p, hp, decide_eq_true (.inl heq)⟩)
        · exact h

theorem admitHumanActivity (h : s.Saved) (id characterId : String) (game : GameId) (admittedAt : Int)
    (replaySeed : Option Decimal) :
    (s.admitHumanActivity id characterId game admittedAt replaySeed).Saved := by
  unfold ArcadeState.admitHumanActivity
  split
  · exact h
  · next member hfind =>
    split
    · exact h
    · next hfree =>
      simp only
      split
      · next hparsed =>
        refine h.admitted (fun a ha heq => ?_) (List.mem_map_of_mem (List.mem_of_find?_eq_some hfind)) hparsed
        exact hfree (List.any_eq_true.mpr ⟨a, ha, decide_eq_true heq⟩)
      · exact h

/-- An activity gets its outcome, of its own game. -/
theorem complete (h : s.Saved) {a : Activity} (ha : a ∈ s.activities) {outcome : Option Json}
    (houtcome : ∀ o ∈ outcome, isOutcome o = true ∧ o.textField "game" = some (gameText a.game))
    (status : ActivityStatus) :
    { s with
      activities := s.activities.map fun b : Activity => if b.id = a.id then { b with outcome, status } else b }.Saved := by
  refine ⟨h.loadable.withActivities (by simpa using h.loadable.kept.2) fun b hb => ?_, ?_⟩
  · obtain ⟨b', hb', rfl⟩ := List.mem_map.mp hb
    obtain ⟨hvalid, hcharacter⟩ := h.loadable.activities b' hb'
    split
    · next heq =>
      obtain rfl := List.inj_on_of_nodup_map h.distinct hb' ha heq
      obtain ⟨hid, hids, happearance, hname, hat, hmodel, hreason, -, horigin⟩ :=
        validActivity_json.mp hvalid
      refine ⟨validActivity_json.mpr ⟨hid, hids, happearance, hname, hat, hmodel, hreason, ?_, horigin⟩,
        hcharacter⟩
      cases outcome with
      | none => rfl
      | some o =>
        obtain ⟨haccepted, hgame⟩ := houtcome o rfl
        simp [nullOr, haccepted, hgame]
    · exact ⟨hvalid, hcharacter⟩
  · have hids : (s.activities.map fun b : Activity => if b.id = a.id then { b with outcome, status } else b).map
        Activity.id = s.activities.map Activity.id := by
      rw [List.map_map]
      refine List.map_congr_left fun b _ => ?_
      show (if b.id = a.id then { b with outcome, status } else b).id = b.id
      split <;> rfl
    exact hids ▸ h.distinct

theorem completeActivity (h : s.Saved) {id : String} {outcome : Option Json}
    (hkeeps : s.Keeps (.completeActivity id outcome)) : (s.completeActivity id outcome).Saved := by
  unfold ArcadeState.completeActivity
  split
  · exact h
  · next a hfind =>
    have ha := List.mem_of_find?_eq_some hfind
    have hid : a.id = id := by simpa using List.find?_some hfind
    subst hid
    split
    · exact h
    · next hgo =>
      push Not at hgo
      obtain ⟨hactive, hfits⟩ := hgo
      have houtcome : ∀ o ∈ outcome, isOutcome o = true ∧ o.textField "game" = some (gameText a.game) := by
        rintro o rfl
        simpa using hfits
      have hcompleted := h.complete ha houtcome (if outcome.isSome then .complete else .stopped)
      cases outcome with
      | none => exact hcompleted
      | some o =>
        obtain ⟨haccepted, hgame⟩ := houtcome o rfl
        simp only [Option.isSome_some, if_true] at hcompleted ⊢
        split
        · next hpaid =>
          refine ⟨hcompleted.loadable.mapCharacter (f := Companion.raise a.game (scoreOf o))
            currentRecords_id fun c hc hcharacter => ?_,
            hcompleted.distinct⟩
          have hscore := hkeeps haccepted hpaid.1 a hfind hactive hpaid.2 hgame c hc hcharacter
          have hcurrent := validCompanion_currentRecords (hcompleted.loadable.characters c hc)
          obtain ⟨hid, hname, happearance, hversion, hbest, hbests, hrest⟩ :=
            validCompanion_json.mp hcurrent
          refine validCompanion_json.mpr ⟨hid, hname, happearance, hversion, hbest, fun game => ?_, hrest⟩
          show integer (if game = a.game then _ else _ : Decimal).json = true
          split
          · next heq =>
            subst heq
            refine integer_max (hbests a.game) fun hlt => ?_
            rcases hscore with hinteger | hle
            · obtain ⟨d, hd, hbound⟩ := exists_score haccepted
              have hscoreOf : scoreOf o = d := by
                rw [scoreOf, hd]
                rfl
              rw [hscoreOf] at hinteger hlt ⊢
              exact integer_score (hbests a.game) hinteger hbound hlt
            · exact absurd hlt (not_lt.mpr hle)
          · exact hbests game
        · exact hcompleted

/-- **main lemma: what is saved stays so under every call that keeps no number the loader refuses.** -/
theorem perform (h : s.Saved) {op : RecordOperation} (hkeeps : s.Keeps op) : (s.perform op).Saved := by
  cases op with
  | addCharacter member => exact h.addCharacter member
  | selectCharacter id => exact h.selectCharacter id
  | updateCharacter id patch => exact h.updateCharacter id patch
  | admitPracticeRun id admittedAt replaySeed aptitudes => exact h.admitPracticeRun hkeeps
  | finishPracticeRun id result => exact h.finishPracticeRun id result
  | admitActivity a admittedAt => exact h.admitActivity a admittedAt
  | completeActivity id outcome => exact h.completeActivity hkeeps
  | admitHumanActivity id characterId game admittedAt replaySeed =>
    exact h.admitHumanActivity id.text characterId game admittedAt replaySeed

theorem run (h : s.Saved) {ops : List RecordOperation} (hkeeps : s.KeepsAll ops) :
    (run ArcadeState.perform s ops).Saved := by
  induction ops generalizing s with
  | nil => exact h
  | cons op ops ih => exact ih (h.perform hkeeps.1) hkeeps.2

end ArcadeState.Saved

/-! ## The bests of a character -/

/-- The record book is one of the ruleset of today. -/
def Companion.OfToday (c : Companion) : Prop :=
  (c.recordVersion.any fun version => decide (version.json.int = some (ARCADE_RULESET_VERSION : Int))) = true

/-- What becomes of the records of a character: under one ruleset no best decreases. -/
structure Companion.Continues (c c' : Companion) : Prop where
  id : c'.id = c.id
  version : c'.recordVersion = c.recordVersion ∨ ¬ c.OfToday ∧ c'.OfToday
  best : c'.recordVersion = c.recordVersion → c.best.value ≤ c'.best.value
  bests : c'.recordVersion = c.recordVersion → ∀ game, (c.bests game).value ≤ (c'.bests game).value

namespace Companion.Continues

variable {c c' c'' : Companion}

theorem same (hid : c'.id = c.id) (hversion : c'.recordVersion = c.recordVersion)
    (hbest : c.best.value ≤ c'.best.value) (hbests : ∀ game, (c.bests game).value ≤ (c'.bests game).value) :
    c.Continues c' :=
  ⟨hid, .inl hversion, fun _ => hbest, fun _ => hbests⟩

theorem refl (c : Companion) : c.Continues c := same rfl rfl le_rfl fun _ => le_rfl

theorem ofToday_congr (h : c'.recordVersion = c.recordVersion) : c'.OfToday ↔ c.OfToday := by
  rw [OfToday, OfToday, h]

/-- A ruleset that was left is not come back to. -/
theorem trans (h : c.Continues c') (h' : c'.Continues c'') : c.Continues c'' := by
  have hversion : c''.recordVersion = c.recordVersion →
      c'.recordVersion = c.recordVersion ∧ c''.recordVersion = c'.recordVersion := by
    intro heq
    rcases h.version with hsame | ⟨hold, hnew⟩
    · exact ⟨hsame, heq.trans hsame.symm⟩
    · rcases h'.version with hsame | ⟨hold', -⟩
      · exact absurd ((ofToday_congr (hsame.symm.trans heq)).mp hnew) hold
      · exact absurd hnew hold'
  refine ⟨h'.id.trans h.id, ?_, fun heq => ?_, fun heq game => ?_⟩
  · rcases h.version with hsame | ⟨hold, hnew⟩
    · rcases h'.version with hsame' | ⟨hold', hnew'⟩
      · exact .inl (hsame'.trans hsame)
      · exact .inr ⟨fun htoday => hold' ((ofToday_congr hsame).mpr htoday), hnew'⟩
    · rcases h'.version with hsame | ⟨hold', -⟩
      · exact .inr ⟨hold, (ofToday_congr hsame).mpr hnew⟩
      · exact absurd hnew hold'
  · obtain ⟨hfirst, hsecond⟩ := hversion heq
    exact (h.best hfirst).trans (h'.best hsecond)
  · obtain ⟨hfirst, hsecond⟩ := hversion heq
    exact (h.bests hfirst game).trans (h'.bests hsecond game)

/-- A new record book is one of another ruleset. -/
theorem ofCurrentRecords (c : Companion) : c.Continues (currentRecords c) := by
  unfold currentRecords
  split
  · exact refl c
  · next hold =>
    have htoday : ∀ c' : Companion, c'.recordVersion = some (.ofInt ARCADE_RULESET_VERSION) → c'.OfToday := by
      intro c' hversion
      rw [OfToday, hversion]
      decide
    refine ⟨rfl, .inr ⟨hold, htoday _ rfl⟩, fun heq => ?_, fun heq => ?_⟩
    · exact absurd ((ofToday_congr heq).mp (htoday _ rfl)) hold
    · exact absurd ((ofToday_congr heq).mp (htoday _ rfl)) hold

theorem raise (c : Companion) (game : GameId) (score : Decimal) : c.Continues (c.raise game score) := by
  refine (ofCurrentRecords c).trans (same rfl rfl le_rfl fun other => ?_)
  simp only [Companion.raise]
  split
  · next heq => exact heq ▸ Decimal.le_max ..
  · exact le_rfl

end Companion.Continues

/-- Every character is there still, with its records. -/
def ArcadeState.Continues (s s' : ArcadeState) : Prop :=
  ∀ c ∈ s.characters, ∃ c' ∈ s'.characters, c.Continues c'

namespace ArcadeState.Continues

variable {s s' s'' : ArcadeState}

theorem of_characters (h : s'.characters = s.characters) : s.Continues s' :=
  fun c hc => ⟨c, h ▸ hc, .refl c⟩

theorem trans (h : s.Continues s') (h' : s'.Continues s'') : s.Continues s'' := by
  intro c hc
  obtain ⟨c', hc', hfirst⟩ := h c hc
  obtain ⟨c'', hc'', hsecond⟩ := h' c' hc'
  exact ⟨c'', hc'', hfirst.trans hsecond⟩

theorem mapCharacter (s : ArcadeState) (id : String) {f : Companion → Companion}
    (hf : ∀ c : Companion, c.Continues (f c)) : s.Continues (s.mapCharacter id f) := by
  intro c hc
  refine ⟨if c.id = id then f c else c, List.mem_map_of_mem hc, ?_⟩
  split
  · exact hf c
  · exact .refl c

theorem completeActivity (s : ArcadeState) (id : String) (outcome : Option Json) :
    s.Continues (s.completeActivity id outcome) := by
  unfold ArcadeState.completeActivity
  split
  · exact of_characters rfl
  · next a _ =>
    split
    · exact of_characters rfl
    · cases outcome with
      | none => exact of_characters rfl
      | some o =>
        simp only [Option.isSome_some, if_true]
        split
        · exact (of_characters rfl).trans (mapCharacter _ _ fun c => .raise c a.game (scoreOf o))
        · exact of_characters rfl

/-- **No call loses a best.** -/
theorem perform (s : ArcadeState) (op : RecordOperation) : s.Continues (s.perform op) := by
  cases op with
  | addCharacter member =>
    simp only [ArcadeState.perform, ArcadeState.addCharacter]
    split
    · exact of_characters rfl
    · exact fun c hc => ⟨c, List.mem_append_left _ hc, .refl c⟩
  | selectCharacter id =>
    simp only [ArcadeState.perform, ArcadeState.selectCharacter]
    split <;> exact of_characters rfl
  | updateCharacter id patch =>
    simp only [ArcadeState.perform, ArcadeState.updateCharacter]
    split
    · exact of_characters rfl
    · split
      · exact mapCharacter s id fun c => .same rfl rfl le_rfl fun _ => le_rfl
      · exact of_characters rfl
  | admitPracticeRun id admittedAt replaySeed aptitudes =>
    simp only [ArcadeState.perform, ArcadeState.admitPracticeRun]
    repeat' split
    all_goals exact of_characters rfl
  | finishPracticeRun id result =>
    simp only [ArcadeState.perform, ArcadeState.finishPracticeRun]
    split
    · exact of_characters rfl
    · next ticket _ =>
      split
      · exact of_characters rfl
      · split
        · exact of_characters rfl
        · split
          · refine (of_characters rfl).trans (mapCharacter _ _ fun c => ?_)
            exact (Companion.Continues.ofCurrentRecords c).trans
              (.same rfl rfl (Decimal.le_max ..) fun _ => le_rfl)
          · exact of_characters rfl
  | admitActivity a admittedAt =>
    simp only [ArcadeState.perform, ArcadeState.admitActivity]
    repeat' split
    all_goals exact of_characters rfl
  | completeActivity id outcome => exact completeActivity s id outcome
  | admitHumanActivity id characterId game admittedAt replaySeed =>
    simp only [ArcadeState.perform, ArcadeState.admitHumanActivity]
    repeat' split
    all_goals exact of_characters rfl

theorem run (s : ArcadeState) (ops : List RecordOperation) :
    s.Continues (run ArcadeState.perform s ops) :=
  run_relation (P := fun _ => True) (fun _ _ h => h) (fun _ => of_characters rfl)
    (fun _ _ _ => trans) (fun s op _ => perform s op) ops s trivial

end ArcadeState.Continues

/-! ## Runs -/

/--
**What the arcade has saved, it reads back**, where every call kept no number the loader refuses.

In every run, no best of a character decreases under one ruleset.
-/
theorem saved_state_reloads (ops : List RecordOperation) :
    (newArcadeState.KeepsAll ops →
      parseArcadeState (some (run ArcadeState.perform newArcadeState ops).json) =
        (run ArcadeState.perform newArcadeState ops).json) ∧
      ∀ more, (run ArcadeState.perform newArcadeState ops).Continues
        (run ArcadeState.perform newArcadeState (ops ++ more)) := by
  refine ⟨fun hkeeps => ?_, fun more => ?_⟩
  · exact ArcadeState.parseArcadeState_json (ArcadeState.Saved.new.run hkeeps).loadable
  · rw [run_append]
    exact .run _ more

/-! ## Half a point -/

def mina : Companion :=
  ⟨"mina", "Mina", .jade, .calm, none, true, ⟨.rules, .explore, .ofInt 1⟩,
    some (.ofInt ARCADE_RULESET_VERSION), .ofInt 0, fun _ => .ofInt 0⟩

def visit : Uuid := ⟨"00000000-0000-4000-8000-000000000000", by decide +kernel, by decide +kernel⟩

def paidVisit : PaidTicket :=
  ⟨visit, "mina", .stamp, .rules, "0x0000000000000000000000000000000000000000000000000000000000000000",
    none, "", ⟨none, none⟩⟩

/-- A game of today that came to a score. -/
def scored (score : Decimal) : Json :=
  .object [("game", .string "stamp"), ("score", score.json),
    ("summary", .object [("ko", .string ""), ("en", .string "")]),
    ("replay", .object [("seed", .number 0 0), ("version", .number ARCADE_RULESET_VERSION 0)]),
    ("metrics", .array []), ("transcript", .array []), ("ranking", .array [])]

/-- A character goes on one paid outing. -/
def oneOuting (score : Decimal) : List RecordOperation :=
  [.addCharacter mina, .admitActivity paidVisit 0, .completeActivity visit.text (some (scored score))]

/-- A paid outing with half a point, which is an outcome, and all that was saved is thrown away. -/
theorem half_a_point : isOutcome (scored ⟨5, -1⟩) = true ∧
    parseArcadeState (some (run ArcadeState.perform newArcadeState (oneOuting ⟨5, -1⟩)).json) =
      newArcadeState.json ∧
    (run ArcadeState.perform newArcadeState (oneOuting ⟨5, -1⟩)).json ≠ newArcadeState.json := by
  have hrefused : acceptsState
      (run ArcadeState.perform newArcadeState (oneOuting ⟨5, -1⟩)).json = false := by decide +kernel
  have hclean : acceptsState newArcadeState.json = true := by decide +kernel
  refine ⟨by decide +kernel, by simp [parseArcadeState, hrefused], fun heq => ?_⟩
  rw [heq, hclean] at hrefused
  exact absurd hrefused (by decide)

/-- Five points are kept. -/
theorem saved_state_reloads_five :
    parseArcadeState (some (run ArcadeState.perform newArcadeState (oneOuting (.ofInt 5))).json) =
      (run ArcadeState.perform newArcadeState (oneOuting (.ofInt 5))).json := by
  refine (saved_state_reloads (oneOuting (.ofInt 5))).1 ⟨trivial, trivial, ?_, trivial⟩
  intro _ _ a _ _ _ _ c _ _
  exact .inl (by decide)

end Mapae.Web
