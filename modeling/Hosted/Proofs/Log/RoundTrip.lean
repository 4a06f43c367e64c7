import Hosted.Log.Reader
import Hosted.Proofs.Json.RoundTrip

/-!
# Log lines read back

The line of an entry is an object with the fields of the entry, each once. Reading it fills a
draft field by field, and what has been left out stays absent. So the entry comes back, but for
details that are `null`: these are read as absent, like any other field with that value.
-/

namespace Hosted

open Json

/-- The value that a field has if `null` means that it is absent. -/
def Json.Value.present? : Value → Option Value
  | null => none
  | v => some v

theorem Json.Value.present?_of_ne {v : Value} (hv : v ≠ null) : v.present? = some v := by
  cases v with
  | null => exact absurd rfl hv
  | _ => rfl

namespace Log

variable {α β : Type} {v : Value} {depth : Nat}

/-! ## Values of fields -/

theorem readsAs_text (s : String) : ReadsAs readText (.string s) s := by
  intro rest _
  rw [Value.render, renderString_append, readText, skipSpace_cons rfl]
  exact readString_escaped s rest

theorem ofName?_levelName (l : Level) : Level.ofName? l.name = some l := by
  cases l <;> decide

theorem readsAs_level (l : Level) : ReadsAs readLevel (.string l.name) l := by
  intro rest hstops
  have htext := readsAs_text l.name rest hstops
  rw [Value.render, renderString_append] at htext ⊢
  rw [readLevel, skipSpace_cons rfl]
  simp only [readLevelName, htext, ofName?_levelName]

theorem readsAs_index (i : UInt64) : ReadsAs readIndex (Entry.indexValue i) i := by
  intro rest hstops
  have hnumber := readNumber_digits i.toNat_lt hstops
  obtain ⟨c, cs, hds, hc⟩ := exists_digits i.toNat
  have hrender : (Entry.indexValue i).render = digits i.toNat := rfl
  have hminus : c ≠ '-' := ne_of_isDigit hc rfl
  rw [hrender, hds, List.cons_append, readIndex, skipSpace_cons (isSpace_of_isDigit hc)]
  rw [hds, List.cons_append] at hnumber
  simp only [hc, hminus, hnumber, decide_false, Bool.false_or, if_true, if_false]
  exact congrArg (fun j => Except.ok (j, rest)) UInt64.ofNat_toNat

theorem readsAs_null (read : List Char → Reading α) : ReadsAs (readOptional read) .null none :=
  fun _ _ => rfl

theorem readsAs_optional {read : List Char → Reading α} {a : α} (h : ReadsAs read v a)
    (hplain : v.Plain depth) (hne : v ≠ .null) : ReadsAs (readOptional read) v (some a) := by
  intro rest hstops
  have hread := h rest hstops
  obtain ⟨c, cs, hrender, hspace, -, hnull⟩ := hplain.exists_render
  rw [hrender, List.cons_append] at hread ⊢
  rw [readOptional, skipSpace_cons hspace]
  split
  · next heq => exact absurd (hnull (List.cons.inj heq).1) hne
  · rw [hread]
    rfl

theorem readsAs_present (hplain : v.Plain depth) :
    ReadsAs (readOptional (readValue depth)) v v.present? := by
  by_cases hv : v = .null
  · rw [hv]
    exact readsAs_null _
  · rw [Value.present?_of_ne hv]
    exact readsAs_optional hplain.readsAs hplain hv

/-! ## Filling a draft -/

/-- Reading fields one after the other turns the draft `d` into `d'`. -/
inductive Fills : Draft → List (String × Value) → Draft → Prop
  | nil (d : Draft) : Fills d [] d
  | cons {d d' d'' : Draft} {v : Value} {fields : List (String × Value)} (f : Field)
      (hnew : d.has f = false) (hread : ReadsAs (readField d f) v d')
      (h : Fills d' fields d'') : Fills d ((f.name, v) :: fields) d''

variable {d d' d'' : Draft} {fields fields' : List (String × Value)} {cs bound : List Char}

theorem Fills.append (h : Fills d fields d') (h' : Fills d' fields' d'') :
    Fills d (fields ++ fields') d'' := by
  induction h with
  | nil d => exact h'
  | cons f hnew hread _ ih => exact .cons f hnew hread (ih h')

/-- A field that may be absent. What is filled in is given by `set`. -/
theorem Fills.optional {f : Field} {toValue : α → Value} {present? : α → Option β}
    (set : Option (Option β) → Draft) (hnew : (set none).has f = false) {o : Option α}
    (hread : ∀ a ∈ o, ReadsAs (readField (set none) f) (toValue a) (set (some (present? a)))) :
    Fills (set none) (Entry.optionalField f.name toValue o) (set (o.map present?)) := by
  cases o with
  | none => exact .nil _
  | some a => exact .cons f hnew (hread a rfl) (.nil _)

theorem ofName?_fieldName (f : Field) : Field.ofName? f.name = some f := by
  cases f <;> decide

theorem readObject_field {first : Bool} {f : Field} {rest : List Char} (hnew : d.has f = false)
    (hread : ReadsAs (readField d f) v d')
    (hnext : nextField first cs = .ok (true, fieldTail f.name v (renderFields fields ++ rest)))
    (hfields : ∀ bound : List Char, fields.length < bound.length →
      readObject bound false d' (renderFields fields ++ rest) = .ok (d'', rest))
    (hbound : fields.length + 1 < bound.length) :
    readObject bound first d cs = .ok (d'', rest) := by
  cases bound with
  | nil => cases hbound
  | cons b bound =>
      rw [readObject, hnext]
      simp only [fieldTail, readString_escaped, ofName?_fieldName, hnew, dropColon,
        skipSpace_cons (c := ':') rfl, hread _ (stops_renderFields fields rest),
        hfields bound (Nat.lt_of_succ_lt_succ hbound), Bool.false_eq_true, if_false]

/-- The fields after the first one. -/
theorem Fills.readObject_renderFields (h : Fills d fields d') (rest : List Char) :
    ∀ bound : List Char, fields.length < bound.length →
      readObject bound false d (renderFields fields ++ rest) = .ok (d', rest) := by
  induction h with
  | nil d =>
      rintro (- | ⟨b, bound⟩) hbound
      · cases hbound
      · rfl
  | cons f hnew hread _ ih =>
      intro bound hbound
      rw [renderFields_cons]
      exact readObject_field hnew hread rfl ih hbound

/-- All fields, after the opening brace. -/
theorem Fills.readObject_fieldTail {name : String} (h : Fills d ((name, v) :: fields) d')
    (rest : List Char) :
    readObject ('"' :: fieldTail name v (renderFields fields ++ rest)) true d
      ('"' :: fieldTail name v (renderFields fields ++ rest)) = .ok (d', rest) := by
  cases h with
  | cons f hnew hread h =>
      have hbound := length_lt_fieldTail f.name v fields rest
      exact readObject_field hnew hread rfl (h.readObject_renderFields rest)
        (Nat.lt_succ_of_lt hbound)

/-! ## Entries -/

namespace Entry

variable {e e' : Entry}

/-- Details, if there are any, hold no floating-point number, and their containers leave room
for the one that the entry is. -/
def Plain (e : Entry) : Prop := ∀ v ∈ e.details, v.Plain (maxDepth - 1)

/-- The draft that the fields fill which every entry has. -/
def required (e : Entry) : Draft where
  timestamp := some e.timestamp
  traceId := some e.traceId
  level := some e.level
  event := some e.event

/-- The draft that all fields of an entry fill. -/
def draft (e : Entry) : Draft :=
  { e.required with
    component := e.component.map some
    locale := e.locale.map some
    facetId := e.facetId.map some
    slot := e.slot.map some
    message := e.message.map some
    details := e.details.map Value.present? }

theorem fills_required (e : Entry) : Fills {}
    [("timestamp", .string e.timestamp), ("trace_id", .string e.traceId),
      ("level", .string e.level.name), ("event", .string e.event)] e.required :=
  .cons .timestamp rfl ((readsAs_text e.timestamp).map _) <|
  .cons .traceId rfl ((readsAs_text e.traceId).map _) <|
  .cons .level rfl ((readsAs_level e.level).map _) <|
  .cons .event rfl ((readsAs_text e.event).map _) (.nil _)

theorem readsAs_optionalText (s : String) :
    ReadsAs (readOptional readText) (.string s) (some s) := by
  have hplain : (Value.string s).Plain 0 := .string s
  exact readsAs_optional (readsAs_text s) hplain fun h => nomatch h

theorem readsAs_optionalIndex (i : UInt64) :
    ReadsAs (readOptional readIndex) (indexValue i) (some i) := by
  have hplain : (indexValue i).Plain 0 := .integer (by omega) (Int.ofNat_lt.2 i.toNat_lt)
  exact readsAs_optional (readsAs_index i) hplain fun h => nomatch h

theorem fills_fields (h : e.Plain) : Fills {} e.fields e.draft := by
  let d₁ : Draft := { e.required with component := e.component.map some }
  let d₂ : Draft := { d₁ with locale := e.locale.map some }
  let d₃ : Draft := { d₂ with facetId := e.facetId.map some }
  let d₄ : Draft := { d₃ with slot := e.slot.map some }
  let d₅ : Draft := { d₄ with message := e.message.map some }
  have hcomponent : Fills e.required (optionalField "component" .string e.component) d₁ :=
    .optional (f := .component) ({ e.required with component := · }) rfl
      fun s _ => (readsAs_optionalText s).map _
  have hlocale : Fills d₁ (optionalField "locale" .string e.locale) d₂ :=
    .optional (f := .locale) ({ d₁ with locale := · }) rfl
      fun s _ => (readsAs_optionalText s).map _
  have hfacetId : Fills d₂ (optionalField "facet_id" indexValue e.facetId) d₃ :=
    .optional (f := .facetId) ({ d₂ with facetId := · }) rfl
      fun i _ => (readsAs_optionalIndex i).map _
  have hslot : Fills d₃ (optionalField "slot" indexValue e.slot) d₄ :=
    .optional (f := .slot) ({ d₃ with slot := · }) rfl fun i _ => (readsAs_optionalIndex i).map _
  have hmessage : Fills d₄ (optionalField "message" .string e.message) d₅ :=
    .optional (f := .message) ({ d₄ with message := · }) rfl
      fun s _ => (readsAs_optionalText s).map _
  have hdetails : Fills d₅ (optionalField "details" id e.details) e.draft :=
    .optional (f := .details) ({ d₅ with details := · }) rfl
      fun v hv => (readsAs_present (h v hv)).map _
  exact (((((e.fills_required.append hcomponent).append hlocale).append hfacetId).append
    hslot).append hmessage).append hdetails

theorem entry?_draft (e : Entry) :
    e.draft.entry? = some { e with details := e.details.bind Value.present? } := by
  have hjoin : ∀ {α : Type} (o : Option α), (o.map some).join = o := by
    intro α o
    cases o <;> rfl
  have hdetails : (e.details.map Value.present?).join = e.details.bind Value.present? := by
    cases e.details <;> rfl
  simp only [draft, required, Draft.entry?, hjoin, hdetails]

/-- Details that are `null` come back as absent. -/
theorem Plain.ofLine_line (h : e.Plain) :
    ofLine e.line = .ok { e with details := e.details.bind Value.present? } := by
  obtain ⟨v, fields, hfields⟩ : ∃ v fields, e.fields = ("timestamp", v) :: fields := ⟨_, _, rfl⟩
  have hfills := fills_fields h
  rw [hfields] at hfills
  have hline : e.line = '\x7b' :: '"' :: fieldTail "timestamp" v (renderFields fields ++ []) := by
    rw [line, hfields, ← render_object_cons, List.append_nil]
  rw [ofLine, readEntry, hline, skipSpace_cons rfl]
  simp only [hfills.readObject_fieldTail [], entry?_draft]
  rfl

theorem bind_present?_eq_iff : ∀ o : Option Value, o.bind Value.present? = o ↔ o ≠ some .null := by
  intro o
  by_cases ho : o = some .null
  · rw [ho]
    exact iff_of_false (fun h => nomatch h) fun h => h rfl
  · refine iff_of_true ?_ ho
    cases o with
    | none => rfl
    | some v => exact Value.present?_of_ne fun hv => ho (congrArg some hv)

/-- What is written of an entry is read as the entry, unless its details are `null`; these come
back as absent. Entries without such details have different lines. -/
theorem Plain.roundTrip (h : e.Plain) :
    ofLine e.line = .ok { e with details := e.details.bind Value.present? } ∧
      (ofLine e.line = .ok e ↔ e.details ≠ some .null) ∧
      ∀ e' : Entry, e'.Plain → e.details ≠ some .null → e'.details ≠ some .null →
        e.line = e'.line → e = e' := by
  have hread : ∀ e : Entry, e.Plain → (ofLine e.line = .ok e ↔ e.details ≠ some .null) := by
    intro e h
    rw [h.ofLine_line, ← bind_present?_eq_iff]
    constructor
    · exact fun heq => congrArg Entry.details (Except.ok.inj heq)
    · intro heq
      rw [heq]
  refine ⟨h.ofLine_line, hread e h, fun e' h' hne hne' hlines => ?_⟩
  have heq := (hread e h).2 hne
  rw [hlines, (hread e' h').2 hne'] at heq
  exact (Except.ok.inj heq).symm

/-- Quotes, control characters, the ends of the integers, and `null` inside and in place of
details. -/
theorem Plain.roundTrip_extremes :
    let v : Value := .object
      [("", .array [.null, .number (.integer (-9223372036854775808))]),
        ("\u0001\"", .number (.integer 18446744073709551615))]
    let e : Entry :=
      { timestamp := "", traceId := "\n\\", level := .fatal, event := "é\u007f", slot := some 0
        details := some v }
    let e' : Entry := { e with details := some .null }
    (e.Plain ∧ e'.Plain) ∧ ofLine e.line = .ok e ∧
      ofLine e'.line = .ok { e with details := none } ∧ ofLine e'.line ≠ .ok e' := by
  intro v e e'
  have hitems : ∀ u ∈ [Value.null, .number (.integer (-9223372036854775808))], u.Plain 124 :=
    List.forall_mem_cons.2 ⟨.null, List.forall_mem_singleton.2 (.integer (by decide) (by decide))⟩
  have hv : v.Plain 126 :=
    .object (by decide) (List.forall_mem_cons.2
      ⟨.array hitems, List.forall_mem_singleton.2 (.integer (by decide) (by decide))⟩)
  have he : e.Plain := fun u hu => Option.some.inj hu ▸ hv
  have he' : e'.Plain := fun u hu => Option.some.inj hu ▸ .null
  have hne : e.details ≠ some .null := fun h => Value.noConfusion (Option.some.inj h)
  exact ⟨⟨he, he'⟩, he.roundTrip.2.1.2 hne, he'.roundTrip.1, fun h => he'.roundTrip.2.1.1 h rfl⟩

end Entry

end Log

end Hosted
