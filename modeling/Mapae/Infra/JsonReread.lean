import Mapae.Infra.JsonRewrite
import Mathlib.Data.List.Perm.Subperm

/-!
# Reading a rewritten value

A value is serialized, its text is rewritten, and the text is parsed again.

* `parseJson_writeWith`: what is read of the rewritten text is `reread`
* `reread_eq_some_iff`: when this has the shape of the value, and what it is then
* `rewriteValue_iff`: what the rewriting leaves of a value
-/

namespace Mapae.Infra

/-! ## What is read of the rewritten text -/

section Reread

variable {N : Type} (numbers : NumberFormat N) (rewrite : TextRewrite)

/-- What is read of a rewritten text in quotes. -/
def rereadText (text : Utf16) : Option Utf16 :=
  if cutsEscape rewrite false text then none else some (rewrite.apply text)

/-- Members are put into an object one after the other. -/
def putMembers (done : JsMembers N) (members : List (Utf16 × JsValue N)) : JsMembers N :=
  members.foldl Table.upsert done

mutual

/-- What is read of the rewritten text of a value. A number that is not finite is written as
`null`. -/
def reread : JsValue N → Option (JsValue N)
  | .null => some .null
  | .bool value => some (.bool value)
  | .number value => some (if numbers.isFinite value then .number value else .null)
  | .string text => (rereadText rewrite text).map .string
  | .array items => (rereadItems items).map .array
  | .object members =>
    (rereadMembers members).map fun members => .object (putMembers .empty members).rows

def rereadItems : List (JsValue N) → Option (List (JsValue N))
  | [] => some []
  | value :: rest => (reread value).bind fun value => (rereadItems rest).map fun rest => value :: rest

def rereadMembers : List (Utf16 × JsValue N) → Option (List (Utf16 × JsValue N))
  | [] => some []
  | (key, value) :: rest =>
    (rereadText rewrite key).bind fun key =>
      (reread value).bind fun value => (rereadMembers rest).map fun rest => (key, value) :: rest

end

/-- Where the reader is after the text of a value: the next unit ends a number or a literal. -/
inductive Ends (stack : List (JsonFrame N)) : Option (JsonReader N) → Option (JsValue N) → Prop where
  | failed : Ends stack none none
  | ended (value : JsValue N) : Ends stack (some ⟨stack, .ended value⟩) (some value)
  | word {word : Utf16} {value : JsValue N} : readWord numbers word = some value →
      Ends stack (some ⟨stack, .word word⟩) (some value)

variable {numbers} {rewrite} {stack : List (JsonFrame N)} {reader : Option (JsonReader N)}
  {outcome : Option (JsValue N)} {c : Nat}

theorem Ends.step (h : Ends numbers stack reader outcome) (hc : isTokenUnit c = false) :
    (reader.bind fun reader => reader.step numbers c)
      = outcome.bind fun value => afterValue stack value c := by
  cases h with
  | failed => rfl
  | ended value => rfl
  | word hword => simp [JsonReader.step, hc, hword]

theorem Ends.finish (h : Ends numbers [] reader outcome) :
    reader.bind (JsonReader.finish numbers) = outcome := by
  cases h with
  | failed => rfl
  | ended value => rfl
  | word hword => exact hword

/-! ### Words -/

theorem isTokenUnit_cases (hc : isTokenUnit c = true) :
    isJsonSpace c = false ∧ c ≠ quoteUnit ∧ c ≠ openList ∧ c ≠ openObject ∧ c ≠ closeList := by
  simp only [isTokenUnit, isNumberUnit, Bool.or_eq_true, decide_eq_true_eq, beq_iff_eq] at hc
  simp only [isJsonSpace, Bool.or_eq_false_iff, beq_eq_false_iff_ne]
  unfold quoteUnit openList openObject closeList
  omega

theorem run_word {read word : Utf16} (hword : ∀ c ∈ word, isTokenUnit c = true) :
    JsonReader.run numbers ⟨stack, .word read⟩ word = some ⟨stack, .word (read ++ word)⟩ := by
  induction word generalizing read with
  | nil => simp
  | cons c word ih =>
    obtain ⟨hc, hrest⟩ := List.forall_mem_cons.mp hword
    simp [JsonReader.run_cons, JsonReader.step, hc, ih hrest]

/-- A number or a literal is read as one word. -/
theorem run_value_word {word : Utf16} (hne : word ≠ []) (hword : ∀ c ∈ word, isTokenUnit c = true) :
    JsonReader.run numbers ⟨stack, .value⟩ word = some ⟨stack, .word word⟩ := by
  cases word with
  | nil => exact absurd rfl hne
  | cons c word =>
    obtain ⟨hc, hrest⟩ := List.forall_mem_cons.mp hword
    obtain ⟨hspace, hquote, hlist, hobject, hclose⟩ := isTokenUnit_cases hc
    simp [JsonReader.run_cons, JsonReader.step, beginValue, hc, hspace, hquote, hlist, hobject, hclose,
      run_word hrest]

/-- A number that is finite is read back. -/
theorem readWord_print {n : N} (h : numbers.isFinite n = true) :
    readWord numbers (numbers.print n) = some (.number n) := by
  have hne {text : Utf16} {c : Nat} (hc : c ∈ text) (hunit : isNumberUnit c = false) :
      numbers.print n ≠ text := by
    rintro rfl
    rw [numbers.isNumberUnit_of_mem h hc] at hunit
    cases hunit
  have hnull : numbers.print n ≠ utf16 "null" := @hne _ 110 (by decide) (by decide)
  have htrue : numbers.print n ≠ utf16 "true" := @hne _ 116 (by decide) (by decide)
  have hfalse : numbers.print n ≠ utf16 "false" := @hne _ 102 (by decide) (by decide)
  simp [readWord, hnull, htrue, hfalse, numbers.read_print h]

theorem ends_literal {word : Utf16} {value : JsValue N} (hne : word ≠ [])
    (hword : ∀ c ∈ word, isTokenUnit c = true) (hread : readWord numbers word = some value) :
    Ends numbers stack (JsonReader.run numbers ⟨stack, .value⟩ word) (some value) := by
  rw [run_value_word hne hword]
  exact .word hread

theorem ends_null :
    Ends numbers stack (JsonReader.run numbers ⟨stack, .value⟩ (utf16 "null")) (some .null) :=
  ends_literal (by decide) (by decide) rfl

theorem ends_bool (value : Bool) :
    Ends numbers stack
      (JsonReader.run numbers ⟨stack, .value⟩ (if value then utf16 "true" else utf16 "false"))
      (some (.bool value)) := by
  cases value with
  | true => exact ends_literal (by decide) (by decide) rfl
  | false => exact ends_literal (by decide) (by decide) rfl

theorem ends_number (n : N) :
    Ends numbers stack
      (JsonReader.run numbers ⟨stack, .value⟩
        (if numbers.isFinite n then numbers.print n else utf16 "null"))
      (some (if numbers.isFinite n then .number n else .null)) := by
  cases h : numbers.isFinite n with
  | false => exact ends_null
  | true =>
    refine ends_literal (numbers.print_ne_nil h) (fun c hc => ?_) (readWord_print h)
    simp [isTokenUnit, numbers.isNumberUnit_of_mem h hc]

/-! ### Texts -/

theorem run_quoted {mode : JsonMode N} {place : TextPlace N} (text rest : Utf16)
    (hquote : JsonReader.step numbers ⟨stack, mode⟩ quoteUnit = some ⟨stack, .text place []⟩) :
    JsonReader.run numbers ⟨stack, mode⟩ (quoted rewrite.apply text ++ rest)
      = (rereadText rewrite text).bind fun text =>
          JsonReader.run numbers ⟨stack, place.ended text⟩ rest := by
  have hclose (read : Utf16) :
      JsonReader.step numbers ⟨stack, .text place read⟩ quoteUnit = some ⟨stack, place.ended read⟩ := by
    simp [JsonReader.step]
  rw [quoted, List.cons_append, JsonReader.run_cons, hquote, Option.bind_some, List.append_assoc,
    List.singleton_append, JsonReader.run_append, run_rewrite_spell, rereadText]
  split
  · rfl
  · simp [JsonReader.run_cons, hclose]

/-! ### Values -/

theorem Ends.run_cons {text : Utf16} (h : Ends numbers stack reader outcome)
    (hc : isTokenUnit c = false) :
    (reader.bind fun reader => JsonReader.run numbers reader (c :: text))
      = outcome.bind fun value =>
          (afterValue stack value c).bind fun reader => JsonReader.run numbers reader text := by
  have hstep := congrArg (fun next => next.bind fun reader => JsonReader.run numbers reader text)
    (h.step hc)
  rw [Option.bind_assoc, Option.bind_assoc] at hstep
  exact hstep

mutual

/-- **What is read of a rewritten text is the value reread.** -/
theorem run_writeWith (value : JsValue N) (stack : List (JsonFrame N)) :
    Ends numbers stack
      (JsonReader.run numbers ⟨stack, .value⟩ (writeWith numbers rewrite.apply value))
      (reread numbers rewrite value) := by
  cases value with
  | null => exact ends_null
  | bool value => exact ends_bool value
  | number n => exact ends_number n
  | string text =>
    have hquote : JsonReader.step numbers ⟨stack, .value⟩ quoteUnit
        = some ⟨stack, .text .value []⟩ := rfl
    rw [writeWith, reread, ← List.append_nil (quoted rewrite.apply text), run_quoted text [] hquote]
    cases rereadText rewrite text with
    | none => exact .failed
    | some text => exact .ended _
  | array items =>
    have hlist : JsonReader.step numbers ⟨stack, .value⟩ openList
        = some ⟨.items [] :: stack, .value⟩ := rfl
    rw [writeWith, reread, JsonReader.run_cons, hlist, Option.bind_some,
      run_writeItems items [] stack (.inr rfl)]
    cases rereadItems numbers rewrite items with
    | none => exact .failed
    | some items => exact .ended _
  | object members =>
    have hobject : JsonReader.step numbers ⟨stack, .value⟩ openObject
        = some ⟨stack, .key .empty⟩ := rfl
    rw [writeWith, reread, JsonReader.run_cons, hobject, Option.bind_some,
      run_writeMembers members .empty stack (.inr rfl)]
    cases rereadMembers numbers rewrite members with
    | none => exact .failed
    | some members => exact .ended _

theorem run_writeItems (items : List (JsValue N)) (done : List (JsValue N))
    (stack : List (JsonFrame N)) (h : items ≠ [] ∨ done = []) :
    JsonReader.run numbers ⟨.items done :: stack, .value⟩
        (writeItems numbers rewrite.apply items ++ [closeList])
      = (rereadItems numbers rewrite items).map fun items =>
          ⟨stack, .ended (.array (done ++ items))⟩ := by
  match items with
  | [] =>
    obtain rfl : done = [] := h.resolve_left fun hne => hne rfl
    rfl
  | [value] =>
    have hends := run_writeWith value (.items done :: stack)
    rw [writeItems, JsonReader.run_append, hends.run_cons (by decide), rereadItems, rereadItems]
    cases reread numbers rewrite value with
    | none => rfl
    | some value => rfl
  | value :: next :: rest =>
    have hends := run_writeWith value (.items done :: stack)
    rw [writeItems, List.append_assoc, List.cons_append, JsonReader.run_append,
      hends.run_cons (by decide), rereadItems]
    cases reread numbers rewrite value with
    | none => rfl
    | some value =>
      have hrest := run_writeItems (next :: rest) (done ++ [value]) stack (.inl (by simp))
      simp only [Option.bind_some, Option.map_map]
      refine hrest.trans (congrArg (Option.map · _) ?_)
      funext items
      simp

theorem run_writeMembers (members : List (Utf16 × JsValue N)) (done : JsMembers N)
    (stack : List (JsonFrame N)) (h : members ≠ [] ∨ done = .empty) :
    JsonReader.run numbers ⟨stack, .key done⟩
        (writeMembers numbers rewrite.apply members ++ [closeObject])
      = (rereadMembers numbers rewrite members).map fun members =>
          ⟨stack, .ended (.object (putMembers done members).rows)⟩ := by
  have hquote : JsonReader.step numbers ⟨stack, .key done⟩ quoteUnit
      = some ⟨stack, .text (.key done) []⟩ := rfl
  have hcolon (key : Utf16) : JsonReader.step numbers ⟨stack, .colon done key⟩ colonUnit
      = some ⟨.member done key :: stack, .value⟩ := rfl
  match members with
  | [] =>
    obtain rfl : done = .empty := h.resolve_left fun hne => hne rfl
    rfl
  | [(key, value)] =>
    rw [writeMembers, List.append_assoc, List.cons_append, run_quoted key _ hquote, rereadMembers,
      rereadMembers]
    cases rereadText rewrite key with
    | none => rfl
    | some key =>
      have hends := run_writeWith value (.member done key :: stack)
      rw [Option.bind_some, TextPlace.ended, JsonReader.run_cons, hcolon, Option.bind_some,
        JsonReader.run_append, hends.run_cons (by decide)]
      cases reread numbers rewrite value with
      | none => rfl
      | some value => rfl
  | (key, value) :: next :: rest =>
    rw [writeMembers, List.append_assoc, List.cons_append, List.append_assoc, List.cons_append,
      run_quoted key _ hquote, rereadMembers]
    cases rereadText rewrite key with
    | none => rfl
    | some key =>
      have hends := run_writeWith value (.member done key :: stack)
      rw [Option.bind_some, TextPlace.ended, JsonReader.run_cons, hcolon, Option.bind_some,
        JsonReader.run_append, hends.run_cons (by decide)]
      cases reread numbers rewrite value with
      | none => rfl
      | some value =>
        have hrest := run_writeMembers (next :: rest) (done.upsert (key, value)) stack
          (.inl (by simp))
        simp only [Option.bind_some, Option.map_map]
        exact hrest

end

/-- **Parsing a rewritten text gives the value reread.** -/
theorem parseJson_writeWith (value : JsValue N) :
    parseJson numbers (writeWith numbers rewrite.apply value) = reread numbers rewrite value :=
  (run_writeWith value []).finish

end Reread

/-! ## When the value is kept

What is read has the shape of the value when no escape is cut, no keys become one, and every number
is finite.
-/

section Kept

variable {N : Type} {numbers : NumberFormat N} {rewrite : TextRewrite}

/-- Members of different names are put into an object as they are. -/
theorem rows_putMembers {done : JsMembers N} {members : List (Utf16 × JsValue N)}
    (h : ((done.rows ++ members).map Prod.fst).Nodup) :
    (putMembers done members).rows = done.rows ++ members := by
  induction members generalizing done with
  | nil => exact (List.append_nil _).symm
  | cons member rest ih =>
    have hfree : done.get? member.1 = none := by
      rw [Table.get?_eq_none]
      intro row hrow hkey
      rw [List.map_append, List.nodup_append] at h
      exact h.2.2 _ (List.mem_map_of_mem hrow) _ (List.mem_map_of_mem List.mem_cons_self) hkey
    have hrows := Table.rows_upsert hfree
    have hnext : (((done.upsert member).rows ++ rest).map Prod.fst).Nodup := by
      rwa [hrows, List.append_assoc, List.singleton_append]
    rw [putMembers, List.foldl_cons, ← putMembers, ih hnext, hrows, List.append_assoc,
      List.singleton_append]

theorem rows_putMembers_empty {members : List (Utf16 × JsValue N)}
    (h : (members.map Prod.fst).Nodup) : (putMembers .empty members).rows = members :=
  rows_putMembers h

theorem mem_putMembers {done : JsMembers N} {members : List (Utf16 × JsValue N)}
    {row : Utf16 × JsValue N} (h : row ∈ (putMembers done members).rows) :
    row ∈ done.rows ∨ row ∈ members := by
  induction members generalizing done with
  | nil => exact .inl h
  | cons member rest ih =>
    rcases ih h with hrow | hrow
    · rcases Table.mem_upsert.mp hrow with rfl | ⟨hrow, -⟩
      · exact .inr List.mem_cons_self
      · exact .inl hrow
    · exact .inr (List.mem_cons_of_mem _ hrow)

/-- Where no member is lost, the names are different. -/
theorem nodup_of_length_putMembers {members : List (Utf16 × JsValue N)}
    (h : (putMembers .empty members).rows.length = members.length) :
    (members.map Prod.fst).Nodup := by
  have hkeys := (putMembers Table.empty members).nodup_keys
  have hsubset : (putMembers Table.empty members).rows.map Prod.fst ⊆ members.map Prod.fst := by
    intro key hkey
    obtain ⟨row, hrow, rfl⟩ := List.mem_map.mp hkey
    rcases mem_putMembers hrow with hnone | hmem
    · cases hnone
    · exact List.mem_map_of_mem hmem
  have hperm := (List.subperm_of_subset hkeys hsubset).perm_of_length_le (by simp [h])
  exact hperm.nodup_iff.mp hkeys

variable (numbers rewrite) in
/-- What a value must be for its rewritten text to be read as its image. -/
structure Rewritable (value : JsValue N) : Prop where
  uncut : ∀ text ∈ value.texts, cutsEscape rewrite false text = false
  distinct : ∀ members, .object members ∈ value.nodes →
    (members.map fun member => rewrite.apply member.1).Nodup
  finite : ∀ n, .number n ∈ value.nodes → numbers.isFinite n = true

theorem rewritable_array {items : List (JsValue N)} :
    Rewritable numbers rewrite (.array items) ↔ ∀ value ∈ items, Rewritable numbers rewrite value := by
  constructor
  · intro h value hvalue
    have hnode {node : JsValue N} (hnode : node ∈ value.nodes) : node ∈ (JsValue.array items).nodes :=
      List.mem_cons_of_mem _ (mem_nodesOfItems.mpr ⟨value, hvalue, hnode⟩)
    exact
      { uncut := fun text htext => h.uncut text (mem_texts_array.mpr ⟨value, hvalue, htext⟩)
        distinct := fun members hmembers => h.distinct members (hnode hmembers)
        finite := fun n hn => h.finite n (hnode hn) }
  · intro h
    have hnode {node : JsValue N} (hne : node ≠ .array items)
        (hnode : node ∈ (JsValue.array items).nodes) : ∃ value ∈ items, node ∈ value.nodes :=
      mem_nodesOfItems.mp ((List.mem_cons.mp hnode).resolve_left hne)
    refine ⟨fun text htext => ?_, fun members hmembers => ?_, fun n hn => ?_⟩
    · obtain ⟨value, hvalue, htext⟩ := mem_texts_array.mp htext
      exact (h value hvalue).uncut text htext
    · obtain ⟨value, hvalue, hmembers⟩ := hnode (by simp) hmembers
      exact (h value hvalue).distinct members hmembers
    · obtain ⟨value, hvalue, hn⟩ := hnode (by simp) hn
      exact (h value hvalue).finite n hn

theorem rewritable_object {members : List (Utf16 × JsValue N)} :
    Rewritable numbers rewrite (.object members) ↔
      (∀ member ∈ members, cutsEscape rewrite false member.1 = false ∧
        Rewritable numbers rewrite member.2) ∧
      (members.map fun member => rewrite.apply member.1).Nodup := by
  constructor
  · intro h
    refine ⟨fun member hmember => ⟨?_, ?_⟩, h.distinct members List.mem_cons_self⟩
    · exact h.uncut member.1 (mem_texts_object.mpr ⟨member, hmember, .inl rfl⟩)
    · have hnode {node : JsValue N} (hnode : node ∈ member.2.nodes) :
          node ∈ (JsValue.object members).nodes :=
        List.mem_cons_of_mem _ (mem_nodesOfMembers.mpr ⟨member, hmember, hnode⟩)
      exact
        { uncut := fun text htext =>
            h.uncut text (mem_texts_object.mpr ⟨member, hmember, .inr htext⟩)
          distinct := fun members hmembers => h.distinct members (hnode hmembers)
          finite := fun n hn => h.finite n (hnode hn) }
  · rintro ⟨h, hdistinct⟩
    refine ⟨fun text htext => ?_, fun inner hinner => ?_, fun n hn => ?_⟩
    · obtain ⟨member, hmember, rfl | htext⟩ := mem_texts_object.mp htext
      · exact (h member hmember).1
      · exact (h member hmember).2.uncut text htext
    · rcases List.mem_cons.mp hinner with heq | hinner
      · cases heq
        exact hdistinct
      · obtain ⟨member, hmember, hinner⟩ := mem_nodesOfMembers.mp hinner
        exact (h member hmember).2.distinct inner hinner
    · rcases List.mem_cons.mp hn with heq | hn
      · cases heq
      · obtain ⟨member, hmember, hn⟩ := mem_nodesOfMembers.mp hn
        exact (h member hmember).2.finite n hn

theorem rewritable_leaf {value : JsValue N} (hnodes : value.nodes = [value])
    (hobject : ∀ members, value ≠ .object members) :
    Rewritable numbers rewrite value ↔
      (∀ text ∈ value.ownTexts, cutsEscape rewrite false text = false) ∧
        ∀ n, value = .number n → numbers.isFinite n = true := by
  have htexts : value.texts = value.ownTexts := by simp [JsValue.texts, hnodes]
  constructor
  · intro h
    refine ⟨htexts ▸ h.uncut, ?_⟩
    rintro n rfl
    exact h.finite n (by simp [hnodes])
  · rintro ⟨huncut, hfinite⟩
    refine ⟨htexts ▸ huncut, fun members hmembers => ?_, fun n hn => ?_⟩
    · rw [hnodes, List.mem_singleton] at hmembers
      exact absurd hmembers.symm (hobject members)
    · rw [hnodes, List.mem_singleton] at hn
      exact hfinite n hn.symm

theorem rereadText_eq_some {text text' : Utf16} :
    rereadText rewrite text = some text' ↔
      cutsEscape rewrite false text = false ∧ text' = rewrite.apply text := by
  cases hcut : cutsEscape rewrite false text <;> simp [rereadText, hcut, eq_comm]

theorem length_mapMembers (f : Utf16 → Utf16) (members : List (Utf16 × JsValue N)) :
    (mapMembers f members).length = members.length := by
  induction members with
  | nil => rfl
  | cons member rest ih => simp [mapMembers, ih]

theorem length_rereadMembers {members members' : List (Utf16 × JsValue N)}
    (h : rereadMembers numbers rewrite members = some members') :
    members'.length = members.length := by
  induction members generalizing members' with
  | nil =>
    cases h
    rfl
  | cons member rest ih =>
    simp only [rereadMembers, Option.bind_eq_some_iff, Option.map_eq_some_iff] at h
    obtain ⟨key, -, value, -, rest', hrest, rfl⟩ := h
    simp [ih hrest]

mutual

/-- **What is read has the shape of the value** exactly when the value is rewritable, and then it is
its image. -/
theorem reread_eq_some_iff (value value' : JsValue N) :
    reread numbers rewrite value = some value' ∧ value'.shape = value.shape ↔
      Rewritable numbers rewrite value ∧ value' = value.mapTexts rewrite.apply := by
  cases value with
  | null =>
    rw [rewritable_leaf rfl (by simp)]
    constructor
    · rintro ⟨hread, -⟩
      cases hread
      exact ⟨⟨by simp [JsValue.ownTexts], by simp⟩, rfl⟩
    · rintro ⟨-, rfl⟩
      exact ⟨rfl, rfl⟩
  | bool value =>
    rw [rewritable_leaf rfl (by simp)]
    constructor
    · rintro ⟨hread, -⟩
      cases hread
      exact ⟨⟨by simp [JsValue.ownTexts], by simp⟩, rfl⟩
    · rintro ⟨-, rfl⟩
      exact ⟨rfl, rfl⟩
  | number n =>
    rw [rewritable_leaf rfl (by simp), reread]
    cases hfinite : numbers.isFinite n with
    | true =>
      constructor
      · rintro ⟨hread, -⟩
        cases hread
        refine ⟨⟨by simp [JsValue.ownTexts], ?_⟩, rfl⟩
        rintro m hm
        cases hm
        exact hfinite
      · rintro ⟨-, rfl⟩
        exact ⟨rfl, rfl⟩
    | false =>
      constructor
      · rintro ⟨hread, hshape⟩
        cases hread
        cases hshape
      · rintro ⟨⟨-, hall⟩, -⟩
        rw [hall n rfl] at hfinite
        cases hfinite
  | string text =>
    rw [rewritable_leaf rfl (by simp)]
    simp only [reread, Option.map_eq_some_iff, rereadText_eq_some]
    constructor
    · rintro ⟨⟨text', ⟨huncut, rfl⟩, rfl⟩, -⟩
      exact ⟨⟨by simpa [JsValue.ownTexts] using huncut, by simp⟩, rfl⟩
    · rintro ⟨⟨huncut, -⟩, rfl⟩
      exact ⟨⟨_, ⟨huncut text List.mem_cons_self, rfl⟩, rfl⟩, rfl⟩
  | array items =>
    have hitems := rereadItems_eq_some_iff items
    simp only [reread, Option.map_eq_some_iff, rewritable_array]
    constructor
    · rintro ⟨⟨items', hread, rfl⟩, hshape⟩
      obtain ⟨hall, rfl⟩ := (hitems items').mp ⟨hread, JsValue.array.inj hshape⟩
      exact ⟨hall, rfl⟩
    · rintro ⟨hall, rfl⟩
      obtain ⟨hread, -⟩ := (hitems _).mpr ⟨hall, rfl⟩
      exact ⟨⟨_, hread, rfl⟩, shape_mapTexts _ _⟩
  | object members =>
    have hmembers := rereadMembers_eq_some_iff members
    simp only [reread, Option.map_eq_some_iff, rewritable_object]
    constructor
    · rintro ⟨⟨members', hread, rfl⟩, hshape⟩
      have hshape' := JsValue.object.inj hshape
      -- no member was lost, so that they are put in as they were read
      have hlength := congrArg List.length hshape'
      rw [length_mapMembers, length_mapMembers, ← length_rereadMembers hread] at hlength
      rw [rows_putMembers_empty (nodup_of_length_putMembers hlength)] at hshape' ⊢
      obtain ⟨hall, rfl⟩ := (hmembers members').mp ⟨hread, hshape'⟩
      have hnodup := nodup_of_length_putMembers hlength
      rw [map_fst_mapMembers] at hnodup
      exact ⟨⟨hall, hnodup⟩, rfl⟩
    · rintro ⟨⟨hall, hnodup⟩, rfl⟩
      obtain ⟨hread, -⟩ := (hmembers _).mpr ⟨hall, rfl⟩
      rw [← map_fst_mapMembers] at hnodup
      refine ⟨⟨_, hread, ?_⟩, shape_mapTexts _ _⟩
      rw [rows_putMembers_empty hnodup]
      rfl

theorem rereadItems_eq_some_iff (items items' : List (JsValue N)) :
    rereadItems numbers rewrite items = some items' ∧
        mapItems (fun _ => []) items' = mapItems (fun _ => []) items ↔
      (∀ value ∈ items, Rewritable numbers rewrite value) ∧ items' = mapItems rewrite.apply items := by
  match items with
  | [] =>
    simp only [rereadItems, Option.some.injEq, mapItems]
    constructor
    · rintro ⟨rfl, -⟩
      exact ⟨by simp, rfl⟩
    · rintro ⟨-, rfl⟩
      exact ⟨rfl, rfl⟩
  | value :: rest =>
    have hvalue := reread_eq_some_iff value
    have hrest := rereadItems_eq_some_iff rest
    simp only [rereadItems, Option.bind_eq_some_iff, Option.map_eq_some_iff, List.forall_mem_cons]
    constructor
    · rintro ⟨⟨value', hread, rest', hreadRest, rfl⟩, hshape⟩
      obtain ⟨hhead, htail⟩ := List.cons.inj hshape
      obtain ⟨hgood, rfl⟩ := (hvalue value').mp ⟨hread, hhead⟩
      obtain ⟨hall, rfl⟩ := (hrest rest').mp ⟨hreadRest, htail⟩
      exact ⟨⟨hgood, hall⟩, rfl⟩
    · rintro ⟨⟨hgood, hall⟩, rfl⟩
      obtain ⟨hread, hhead⟩ := (hvalue _).mpr ⟨hgood, rfl⟩
      obtain ⟨hreadRest, htail⟩ := (hrest _).mpr ⟨hall, rfl⟩
      exact ⟨⟨_, hread, _, hreadRest, rfl⟩, congrArg₂ List.cons hhead htail⟩

theorem rereadMembers_eq_some_iff (members members' : List (Utf16 × JsValue N)) :
    rereadMembers numbers rewrite members = some members' ∧
        mapMembers (fun _ => []) members' = mapMembers (fun _ => []) members ↔
      (∀ member ∈ members, cutsEscape rewrite false member.1 = false ∧
          Rewritable numbers rewrite member.2) ∧
        members' = mapMembers rewrite.apply members := by
  match members with
  | [] =>
    simp only [rereadMembers, Option.some.injEq, mapMembers]
    constructor
    · rintro ⟨rfl, -⟩
      exact ⟨by simp, rfl⟩
    · rintro ⟨-, rfl⟩
      exact ⟨rfl, rfl⟩
  | (key, value) :: rest =>
    have hvalue := reread_eq_some_iff value
    have hrest := rereadMembers_eq_some_iff rest
    simp only [rereadMembers, Option.bind_eq_some_iff, Option.map_eq_some_iff,
      List.forall_mem_cons, rereadText_eq_some]
    constructor
    · rintro ⟨⟨key', ⟨hkey, rfl⟩, value', hread, rest', hreadRest, rfl⟩, hshape⟩
      obtain ⟨hhead, htail⟩ := List.cons.inj hshape
      obtain ⟨hgood, rfl⟩ := (hvalue value').mp ⟨hread, (Prod.mk.inj hhead).2⟩
      obtain ⟨hall, rfl⟩ := (hrest rest').mp ⟨hreadRest, htail⟩
      exact ⟨⟨⟨hkey, hgood⟩, hall⟩, rfl⟩
    · rintro ⟨⟨⟨hkey, hgood⟩, hall⟩, rfl⟩
      obtain ⟨hread, hhead⟩ := (hvalue _).mpr ⟨hgood, rfl⟩
      obtain ⟨hreadRest, htail⟩ := (hrest _).mpr ⟨hall, rfl⟩
      exact ⟨⟨_, ⟨hkey, rfl⟩, _, hread, _, hreadRest, rfl⟩,
        congrArg₂ List.cons (congrArg (Prod.mk []) hhead) htail⟩

end

/-! ## Both ways -/

/-- The text of a value is rewritten, and read again where that has changed it. -/
def rewriteValue (numbers : NumberFormat N) (rewrite : TextRewrite) (value : JsValue N) :
    Option (JsValue N) :=
  let written := stringify numbers value
  if rewrite.apply written = written then some value else parseJson numbers (rewrite.apply written)

theorem cutsEscape_id (afterHigh : Bool) (text : Utf16) : cutsEscape .id afterHigh text = false := by
  induction text generalizing afterHigh with
  | nil => rfl
  | cons c rest ih => simp [cutsEscape, ih]

/-- A text whose spelling is left as it is, is so itself. -/
theorem apply_eq_of_spell (numbers : NumberFormat N) {text : Utf16}
    (h : rewrite.apply (spell text) = spell text) : rewrite.apply text = text := by
  have hrewritten := run_rewrite_spell rewrite numbers [] .value [] text
  have hspelled := run_rewrite_spell .id numbers [] .value [] text
  rw [cutsEscape_id, TextRewrite.apply_id, if_neg Bool.false_ne_true] at hspelled
  rw [h, hspelled] at hrewritten
  cases hcut : cutsEscape rewrite false text with
  | true =>
    rw [hcut, if_pos rfl] at hrewritten
    cases hrewritten
  | false =>
    rw [hcut, if_neg Bool.false_ne_true] at hrewritten
    injection hrewritten with hreader
    injection hreader with _ hmode
    injection hmode with _ htext
    exact htext.symm

/-- **What the rewriting leaves of a value**, with a property of its texts. -/
theorem rewriteValue_iff {P : Utf16 → Prop} (value : JsValue N) :
    (∃ value', rewriteValue numbers rewrite value = some value' ∧ value'.shape = value.shape ∧
        ∀ text ∈ value'.texts, P text) ↔
      (rewrite.apply (stringify numbers value) = stringify numbers value ∨
        Rewritable numbers rewrite value) ∧ ∀ text ∈ value.texts, P (rewrite.apply text) := by
  have himage : (∀ text ∈ (value.mapTexts rewrite.apply).texts, P text) ↔
      ∀ text ∈ value.texts, P (rewrite.apply text) := by
    rw [texts_mapTexts, List.forall_mem_map]
  by_cases hsame : rewrite.apply (stringify numbers value) = stringify numbers value
  · have htexts : ∀ text ∈ value.texts, rewrite.apply text = text := fun text htext =>
      apply_eq_of_spell numbers (spell_of_writeWith value hsame text htext)
    have hkept : (∀ text ∈ value.texts, P text) ↔ ∀ text ∈ value.texts, P (rewrite.apply text) :=
      forall₂_congr fun text htext => by rw [htexts text htext]
    simp [rewriteValue, hsame, hkept]
  · have hread : rewriteValue numbers rewrite value = reread numbers rewrite value := by
      have hwritten : rewrite.apply (stringify numbers value)
          = writeWith numbers rewrite.apply value := apply_writeWith rewrite value
      simp only [rewriteValue, if_neg hsame]
      rw [hwritten, parseJson_writeWith]
    rw [hread]
    constructor
    · rintro ⟨value', hvalue, hshape, htexts⟩
      obtain ⟨hgood, rfl⟩ := (reread_eq_some_iff value value').mp ⟨hvalue, hshape⟩
      exact ⟨.inr hgood, himage.mp htexts⟩
    · rintro ⟨hgood, htexts⟩
      obtain ⟨hvalue, hshape⟩ :=
        (reread_eq_some_iff value _).mpr ⟨hgood.resolve_left hsame, rfl⟩
      exact ⟨_, hvalue, hshape, himage.mpr htexts⟩

end Kept

end Mapae.Infra
