import Hosted.Proofs.Json.Torn
import Hosted.Proofs.Log.RoundTrip

/-!
# Torn log lines

A line that was not written to its end is read as no entry, and the reader says that the end is
missing. It never takes the front of a line for a line with another defect.
-/

namespace Hosted.Log

open Json

variable {α : Type} {part cs bound : List Char} {v : Value} {depth : Nat}

/-! ## Values of fields -/

theorem breaksOff_text (s : String) : BreaksOff readText (Value.string s).render := by
  intro part h
  rcases torn_cons_iff.1 h with rfl | ⟨part', rfl, htorn⟩
  · exact Or.inl rfl
  · rw [readText, skipSpace_cons rfl]
    exact Or.inl (readString_torn s htorn)

theorem breaksOff_level (l : Level) : BreaksOff readLevel (Value.string l.name).render := by
  intro part h
  rcases torn_cons_iff.1 h with rfl | ⟨part', rfl, htorn⟩
  · exact Or.inl rfl
  · have htext : readText ('"' :: part') = .error .cutShort := by
      rw [readText, skipSpace_cons rfl]
      exact readString_torn l.name htorn
    rw [readLevel, skipSpace_cons rfl]
    simp only [readLevelName, htext]
    exact Or.inl trivial

theorem breaksOff_index (i : UInt64) : BreaksOff readIndex (Entry.indexValue i).render := by
  intro part h
  have hrender : (Entry.indexValue i).render = digits i.toNat := rfl
  rw [hrender] at h
  rcases digits_torn h with rfl | ⟨m, -, hle, rfl⟩
  · exact Or.inl rfl
  · have hread := readsAs_index (.ofNat m) [] stops_nil
    have hm : (UInt64.ofNat m).toNat = m :=
      UInt64.toNat_ofNat_of_lt (Nat.lt_of_le_of_lt hle i.toNat_lt)
    have hrender' : (Entry.indexValue (.ofNat m)).render = digits m := congrArg digits hm
    rw [List.append_nil, hrender'] at hread
    exact Or.inr ⟨_, hread⟩

theorem breaksOff_null (depth : Nat) :
    BreaksOff (readOptional (readValue depth)) Value.null.render := by
  intro part h
  rcases torn_cons_iff.1 h with rfl | ⟨part', rfl, htorn⟩
  · exact Or.inl (congrArg (Reading.map some) (readValue_nil depth))
  · have hword : readOptional (readValue depth) ('n' :: part') =
        (dropWord ['u', 'l', 'l'] part').map fun rest => (none, rest) := rfl
    rw [hword, dropWord_torn htorn]
    exact Or.inl rfl

theorem breaksOff_optional {read : List Char → Reading α} (h : BreaksOff read v.render)
    (hplain : v.Plain depth) (hne : v ≠ .null) : BreaksOff (readOptional read) v.render := by
  intro part htorn
  obtain ⟨c, cs, hrender, hspace, -, hnull⟩ := hplain.exists_render
  have hoptional : readOptional read part = (read part).map some := by
    rw [hrender] at htorn
    rcases torn_cons_iff.1 htorn with rfl | ⟨part', rfl, -⟩
    · rfl
    · rw [readOptional, skipSpace_cons hspace]
      split
      · next heq => exact absurd (hnull (List.cons.inj heq).1) hne
      · rfl
  rw [hoptional]
  exact h.map some part htorn

theorem breaksOff_present (hplain : v.Plain depth) :
    BreaksOff (readOptional (readValue depth)) v.render := by
  by_cases hv : v = .null
  · rw [hv]
    exact breaksOff_null depth
  · exact breaksOff_optional hplain.breaksOff hplain hv

/-! ## Fields -/

/-- The value may be written for a field. -/
def Suits (v : Value) : Field → Prop
  | .timestamp | .traceId | .event | .component | .locale | .message => ∃ s, v = .string s
  | .level => ∃ l : Level, v = .string l.name
  | .facetId | .slot => ∃ i, v = Entry.indexValue i
  | .details => v.Plain (maxDepth - 1)

theorem breaksOff_optionalText (s : String) :
    BreaksOff (readOptional readText) (Value.string s).render := by
  have hplain : (Value.string s).Plain 0 := .string s
  exact breaksOff_optional (breaksOff_text s) hplain fun h => nomatch h

theorem breaksOff_optionalIndex (i : UInt64) :
    BreaksOff (readOptional readIndex) (Entry.indexValue i).render := by
  have hplain : (Entry.indexValue i).Plain 0 := .integer (by omega) (Int.ofNat_lt.2 i.toNat_lt)
  exact breaksOff_optional (breaksOff_index i) hplain fun h => nomatch h

theorem name_injective : Function.Injective Field.name := by
  intro f f' h
  have hf := ofName?_fieldName f
  rw [h, ofName?_fieldName] at hf
  exact (Option.some.inj hf).symm

theorem Suits.breaksOff {f : Field} (h : Suits v f) (d : Draft) :
    BreaksOff (readField d f) v.render := by
  cases f with
  | timestamp =>
      obtain ⟨s, rfl⟩ := h
      exact (breaksOff_text s).map _
  | traceId =>
      obtain ⟨s, rfl⟩ := h
      exact (breaksOff_text s).map _
  | level =>
      obtain ⟨l, rfl⟩ := h
      exact (breaksOff_level l).map _
  | event =>
      obtain ⟨s, rfl⟩ := h
      exact (breaksOff_text s).map _
  | component =>
      obtain ⟨s, rfl⟩ := h
      exact (breaksOff_optionalText s).map _
  | locale =>
      obtain ⟨s, rfl⟩ := h
      exact (breaksOff_optionalText s).map _
  | facetId =>
      obtain ⟨i, rfl⟩ := h
      exact (breaksOff_optionalIndex i).map _
  | slot =>
      obtain ⟨i, rfl⟩ := h
      exact (breaksOff_optionalIndex i).map _
  | message =>
      obtain ⟨s, rfl⟩ := h
      exact (breaksOff_optionalText s).map _
  | details => exact (breaksOff_present h).map _

/-- A value that stands for a field of an entry suits it. -/
theorem Entry.Plain.suits {e : Entry} (h : e.Plain) :
    ∀ p ∈ e.fields, ∃ f : Field, f.name = p.1 ∧ Suits p.2 f := by
  have hoptional : ∀ {α : Type} (f : Field) (toValue : α → Value) (o : Option α),
      (∀ a ∈ o, Suits (toValue a) f) →
      ∀ p ∈ optionalField f.name toValue o, ∃ f : Field, f.name = p.1 ∧ Suits p.2 f := by
    intro α f toValue o hsuits p hp
    cases o with
    | none => cases hp
    | some a =>
        rw [List.mem_singleton.1 hp]
        exact ⟨f, rfl, hsuits a rfl⟩
  intro p hp
  simp only [fields, List.mem_append, List.mem_cons, List.not_mem_nil, or_false] at hp
  rcases hp with ((((((rfl | rfl | rfl | rfl) | hp) | hp) | hp) | hp) | hp) | hp
  · exact ⟨.timestamp, rfl, _, rfl⟩
  · exact ⟨.traceId, rfl, _, rfl⟩
  · exact ⟨.level, rfl, _, rfl⟩
  · exact ⟨.event, rfl, _, rfl⟩
  · exact hoptional .component _ _ (fun s _ => ⟨s, rfl⟩) p hp
  · exact hoptional .locale _ _ (fun s _ => ⟨s, rfl⟩) p hp
  · exact hoptional .facetId _ _ (fun i _ => ⟨i, rfl⟩) p hp
  · exact hoptional .slot _ _ (fun i _ => ⟨i, rfl⟩) p hp
  · exact hoptional .message _ _ (fun s _ => ⟨s, rfl⟩) p hp
  · exact hoptional .details _ _ h p hp

/-! ## Entries -/

variable {d d' : Draft} {fields : List (String × Value)}

theorem readObject_nil (bound : List Char) (first : Bool) (d : Draft) :
    readObject bound first d [] = .error .cutShort := by
  cases bound <;> cases first <;> rfl

theorem readObject_torn_field {first : Bool} {f : Field} (hnew : d.has f = false)
    (hread : ReadsAs (readField d f) v d') (hbreak : BreaksOff (readField d f) v.render)
    (hnext : nextField first cs = .error .cutShort ∨
      ∃ part, Torn part (fieldTail f.name v (renderFields fields)) ∧
        nextField first cs = .ok (true, part))
    (hfields : ∀ bound part, Torn part (renderFields fields) →
      readObject bound false d' part = .error .cutShort) :
    readObject bound first d cs = .error .cutShort := by
  have hstops : Stops (renderFields fields) := by
    rw [← List.append_nil (renderFields fields)]
    exact stops_renderFields fields []
  cases bound with
  | nil => rfl
  | cons b bound =>
      rw [readObject]
      rcases hnext with hnext | ⟨part, hpart, hnext⟩
      · rw [hnext]
      rw [hnext]
      simp only
      rcases fieldTail_torn hpart with hname | ⟨part', hname, hcolon | ⟨part'', hcolon, hvalue⟩⟩
      · rw [hname]
      · simp only [hname, ofName?_fieldName, hnew, hcolon, Bool.false_eq_true, if_false]
      · simp only [hname, ofName?_fieldName, hnew, hcolon, Bool.false_eq_true, if_false]
        rcases hread.torn hbreak hstops hvalue with hcut | ⟨d'', hcut⟩ | ⟨rest, hrest, hwhole⟩
        · rw [hcut]
        · simp only [hcut, readObject_nil]
        · simp only [hwhole, hfields _ _ hrest]

/-- The fields after the first one. -/
theorem Fills.readObject_torn (h : Fills d fields d')
    (hsuits : ∀ p ∈ fields, ∃ f : Field, f.name = p.1 ∧ Suits p.2 f) :
    ∀ bound part, Torn part (renderFields fields) →
      readObject bound false d part = .error .cutShort := by
  induction h with
  | nil d =>
      intro bound part htorn
      rw [torn_singleton_iff.1 htorn, readObject_nil]
  | @cons d d' d'' v fields f hnew hread _ ih =>
      intro bound part htorn
      obtain ⟨⟨f', hname, hsuits⟩, hrest⟩ := List.forall_mem_cons.1 hsuits
      obtain rfl := name_injective hname
      rw [← List.append_nil (renderFields _), renderFields_cons, List.append_nil] at htorn
      rcases torn_cons_iff.1 htorn with rfl | ⟨part', rfl, htorn'⟩
      · exact readObject_nil bound false d
      · exact readObject_torn_field hnew hread (hsuits.breaksOff d) (nextField_torn htorn').2
          (ih hrest)

/-- All fields, after the opening brace. -/
theorem Fills.readObject_torn_fieldTail {name : String} (h : Fills d ((name, v) :: fields) d')
    (hsuits : ∀ p ∈ (name, v) :: fields, ∃ f : Field, f.name = p.1 ∧ Suits p.2 f)
    (htorn : Torn part ('"' :: fieldTail name v (renderFields fields))) (bound : List Char) :
    readObject bound true d part = .error .cutShort := by
  cases h with
  | cons f hnew hread h =>
      obtain ⟨⟨f', hname, hsuits⟩, hrest⟩ := List.forall_mem_cons.1 hsuits
      obtain rfl := name_injective hname
      exact readObject_torn_field hnew hread (hsuits.breaksOff d) (nextField_torn htorn).1
        (h.readObject_torn hrest)

/-- A line without its end is cut short, and that is all that is wrong with it. -/
theorem Entry.Plain.ofLine_torn {e : Entry} (h : e.Plain) (hfront : part <+: e.line)
    (hne : part ≠ e.line) : ofLine part = .error .cutShort := by
  have htorn := torn_of_prefix hfront hne
  have hsuits := h.suits
  have hfills := fills_fields h
  obtain ⟨v, fields, hfields⟩ : ∃ v fields, e.fields = ("timestamp", v) :: fields := ⟨_, _, rfl⟩
  rw [hfields] at hfills hsuits
  have hline : e.line = '\x7b' :: '"' :: fieldTail "timestamp" v (renderFields fields) := by
    rw [line, hfields, ← List.append_nil (Value.render _), render_object_cons, List.append_nil]
  rw [hline] at htorn
  rcases torn_cons_iff.1 htorn with rfl | ⟨part', rfl, htorn'⟩
  · rfl
  · rw [ofLine, readEntry, skipSpace_cons rfl]
    simp only [hfills.readObject_torn_fieldTail hsuits htorn' part']

/-- A cut in an escape and one in a number, both inside the details. -/
theorem Entry.Plain.ofLine_torn_details :
    let v : Value := .object [("k\u0001", .array [.bool true, .number (.integer (-12))])]
    let e : Entry :=
      { timestamp := "", traceId := "t", level := .warn, event := "é", slot := some 10
        details := some v }
    e.Plain ∧ (e.line.take 85 ≠ e.line ∧ ofLine (e.line.take 85) = .error .cutShort) ∧
      e.line.take 97 ≠ e.line ∧ ofLine (e.line.take 97) = .error .cutShort := by
  intro v e
  have hitems : ∀ u ∈ [Value.bool true, .number (.integer (-12))], u.Plain 124 :=
    List.forall_mem_cons.2
      ⟨.bool true, List.forall_mem_singleton.2 (.integer (by decide) (by decide))⟩
  have hv : v.Plain 126 := .object (by decide) (List.forall_mem_singleton.2 (.array hitems))
  have he : e.Plain := fun u hu => Option.some.inj hu ▸ hv
  have hescape : e.line.take 85 ≠ e.line := by decide
  have hnumber : e.line.take 97 ≠ e.line := by decide
  exact ⟨he, ⟨hescape, he.ofLine_torn (List.take_prefix _ _) hescape⟩, hnumber,
    he.ofLine_torn (List.take_prefix _ _) hnumber⟩

end Hosted.Log
