import Hosted.Proofs.Json.Readable
import Hosted.Proofs.Log.RoundTrip

/-!
# Log lines written again

A log line may be spelled in many ways, but whatever spelling is accepted, the entry that is read
belongs to those that come back unchanged from their own line. Its details are never `null`, since
a field with that value is absent, and they nest no deeper than the details of an object may,
since the reader counts the entry as a container in both of its forms.
-/

namespace Hosted.Log

open Json

variable {text cs rest bound : List Char}

/-- Details as they are read: not `null`, and with room for the entry around them. -/
def ReadDetails (details : Option Value) : Prop :=
  ∀ v ∈ details, v ≠ .null ∧ v.Readable (maxDepth - 1)

theorem readDetails_none : ReadDetails none := fun _ hv => nomatch hv

theorem readDetails_of_readOptional {details : Option Value}
    (h : readOptional (readValue (maxDepth - 1)) cs = .ok (details, rest)) :
    ReadDetails details := by
  rw [readOptional] at h
  split at h
  · obtain ⟨_, -, hnone⟩ := Utf8.exists_of_map_eq_ok h
    obtain rfl := congrArg Prod.fst hnone
    exact readDetails_none
  · next hother =>
      obtain ⟨v, hread, rfl⟩ := Reading.exists_of_map_eq_ok h
      intro u hu
      obtain rfl := Option.some.inj hu
      refine ⟨fun hnull => ?_, readable_of_readValue hread⟩
      rcases readValue_eq_ok hread with ⟨-, cs', hcs⟩ | ⟨_, rfl⟩ | ⟨_, _, _, rfl, -⟩ | ⟨_, rfl⟩ |
        ⟨_, _, _, -, rfl, -⟩ | ⟨_, _, _, -, rfl, -⟩
      · exact hother cs' hcs
      all_goals cases hnull

/-! ## Drafts -/

variable {d d' : Draft}

theorem readDetails_readField {field : Field} (h : readField d field cs = .ok (d', rest))
    (hd : ReadDetails d.details.join) : ReadDetails d'.details.join := by
  cases field with
  | details =>
      obtain ⟨details, hread, rfl⟩ := Reading.exists_of_map_eq_ok h
      exact readDetails_of_readOptional hread
  | _ =>
      obtain ⟨_, -, rfl⟩ := Reading.exists_of_map_eq_ok h
      exact hd

theorem readDetails_readObject {first : Bool} (h : readObject bound first d cs = .ok (d', rest))
    (hd : ReadDetails d.details.join) : ReadDetails d'.details.join := by
  induction bound generalizing first d cs with
  | nil => cases h
  | cons b bound ih =>
      rw [readObject] at h
      split at h
      · cases h
      · obtain ⟨rfl, -⟩ := Prod.mk.inj (Except.ok.inj h)
        exact hd
      split at h
      · cases h
      split at h
      · split at h
        · cases h
        split at h
        · cases h
        split at h
        · cases h
        · next hread => exact ih h (readDetails_readField hread hd)
      · split at h
        · cases h
        split at h
        · cases h
        · exact ih h hd

theorem readDetails_readArray {fields : List Field} {first : Bool}
    (h : readArray fields first d cs = .ok (d', rest)) (hd : ReadDetails d.details.join) :
    ReadDetails d'.details.join := by
  induction fields generalizing first d cs with
  | nil =>
      obtain ⟨_, -, hclose⟩ := Utf8.exists_of_map_eq_ok h
      obtain rfl := congrArg Prod.fst hclose
      exact hd
  | cons field fields ih =>
      rw [readArray] at h
      split at h
      · cases h
      · obtain ⟨rfl, -⟩ := Prod.mk.inj (Except.ok.inj h)
        exact hd
      split at h
      · cases h
      · next hread => exact ih h (readDetails_readField hread hd)

/-! ## Entries -/

namespace Entry

variable {e : Entry}

theorem details_of_entry (h : d.entry? = some e) : e.details = d.details.join := by
  rw [Draft.entry?] at h
  split at h
  · exact congrArg Entry.details (Option.some.inj h).symm
  · cases h

theorem readEntry_eq_ok (h : readEntry cs = .ok (e, rest)) :
    ∃ d : Draft, d.entry? = some e ∧ ((∃ cs', readObject cs' true {} cs' = .ok (d, rest)) ∨
      ∃ cs', readArray Field.all true {} cs' = .ok (d, rest)) := by
  rw [readEntry] at h
  dsimp only at h
  split at h
  · split at h
    · cases h
    split at h
    · next hread _ _ hentry =>
        obtain ⟨rfl, rfl⟩ := Prod.mk.inj (Except.ok.inj h)
        exact ⟨_, hentry, Or.inl ⟨_, hread⟩⟩
    · cases h
  · split at h
    · cases h
    split at h
    · next hread _ _ hentry =>
        obtain ⟨rfl, rfl⟩ := Prod.mk.inj (Except.ok.inj h)
        exact ⟨_, hentry, Or.inr ⟨_, hread⟩⟩
    · cases h
  · cases h

theorem readDetails_of_ofLine (h : ofLine text = .ok e) : ReadDetails e.details := by
  rw [ofLine] at h
  split at h
  · cases h
  split_ifs at h
  next hread _ =>
  obtain rfl := Except.ok.inj h
  obtain ⟨d, hentry, ⟨_, hobject⟩ | ⟨_, harray⟩⟩ := readEntry_eq_ok hread
  · rw [details_of_entry hentry]
    exact readDetails_readObject hobject readDetails_none
  · rw [details_of_entry hentry]
    exact readDetails_readArray harray readDetails_none

/-- Whatever line an entry is read from, its details are not `null` and nest no deeper than
details may. If there is no floating-point number among them, the line of the entry is read as the
very same entry, so that writing what has been read changes a line only once. -/
theorem ofLine_normalizes (h : ofLine text = .ok e) :
    e.details ≠ some .null ∧ (∀ v ∈ e.details, v.Readable (maxDepth - 1)) ∧
      ((∀ v ∈ e.details, v.FloatFree) →
        ofLine e.line = .ok e ∧ (ofLine e.line).map line = .ok e.line) := by
  have hdetails := readDetails_of_ofLine h
  have hnull : e.details ≠ some .null := fun hnull => (hdetails .null hnull).1 rfl
  refine ⟨hnull, fun v hv => (hdetails v hv).2, fun hfree => ?_⟩
  have hplain : e.Plain := fun v hv => (hdetails v hv).2.plain (hfree v hv)
  have hread := hplain.ofLine_line
  rw [(bind_present?_eq_iff e.details).2 hnull] at hread
  rw [hread]
  exact ⟨rfl, rfl⟩

/-- A line with a blank before it, and one with `null` for details. -/
theorem ofLine_normalizes_null :
    let v : Value := .object [("a", .array [.null]), ("b", .number (.integer (-7)))]
    let e : Entry :=
      { timestamp := "", traceId := "t", level := .warn, event := "é", details := some v }
    let e₀ : Entry := { e with details := none }
    (ofLine (' ' :: e.line) = .ok e ∧ ofLine e.line = .ok e) ∧
      ofLine (line { e with details := some .null }) = .ok e₀ ∧ ofLine e₀.line = .ok e₀ := by
  intro v e e₀
  have hfields : ∀ f ∈ [("a", Value.array [.null]), ("b", .number (.integer (-7)))],
      f.2.Plain 125 :=
    List.forall_mem_cons.2 ⟨.array (List.forall_mem_singleton.2 .null),
      List.forall_mem_singleton.2 (.integer (by decide) (by decide))⟩
  have hv : v.Plain 126 := .object (by decide) hfields
  have he : e.Plain := fun u hu => Option.some.inj hu ▸ hv
  have hnull : Plain { e with details := some .null } := fun u hu => Option.some.inj hu ▸ .null
  have hfree : v.FloatFree :=
    .object (List.forall_mem_cons.2
      ⟨.array (List.forall_mem_singleton.2 .null), List.forall_mem_singleton.2 (.integer _)⟩)
  have hblank : ofLine (' ' :: e.line) = .ok e := he.ofLine_line
  have habsent : ofLine (line { e with details := some .null }) = .ok e₀ := hnull.ofLine_line
  have hread := (ofLine_normalizes hblank).2.2 fun u hu => Option.some.inj hu ▸ hfree
  have hread₀ := (ofLine_normalizes habsent).2.2 fun u hu => nomatch hu
  exact ⟨⟨hblank, hread.1⟩, habsent, hread₀.1⟩

end Entry

end Hosted.Log
