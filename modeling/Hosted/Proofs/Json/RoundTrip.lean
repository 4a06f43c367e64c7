import Hosted.Proofs.Json.Scalars
import Mathlib.Algebra.Group.Int.Defs

/-!
# Values read back

A value without floating-point numbers reads back from its compact text, whatever comes after
it, if its containers nest no deeper than the reader allows. For the items of an array and the
fields of an object it is enough that each value among them reads back.
-/

namespace Hosted.Json

variable {v : Value} {items : List Value} {fields : List (String × Value)} {depth : Nat}
  {cs rest bound : List Char}

/-- A value without floating-point numbers in which containers nest at most `depth` deep.
Integers have 64 bits, and the fields of an object are in the order of their names. -/
inductive Value.Plain : Nat → Value → Prop
  | null {depth : Nat} : Plain depth .null
  | bool {depth : Nat} (b : Bool) : Plain depth (.bool b)
  | integer {depth : Nat} {i : Int} (hlow : -2 ^ 63 ≤ i) (hhigh : i < 2 ^ 64) :
      Plain depth (.number (.integer i))
  | string {depth : Nat} (s : String) : Plain depth (.string s)
  | array {depth : Nat} {items : List Value} (h : ∀ v ∈ items, Plain depth v) :
      Plain (depth + 1) (.array items)
  | object {depth : Nat} {fields : List (String × Value)}
      (hsorted : fields.Pairwise fun f g => f.1 < g.1) (h : ∀ f ∈ fields, Plain depth f.2) :
      Plain (depth + 1) (.object fields)

/-! ## Ordered fields -/

theorem Value.putField_of_lt {name : String} (hlt : ∀ f ∈ fields, f.1 < name) (v : Value) :
    putField name v fields = fields ++ [(name, v)] := by
  induction fields with
  | nil => rfl
  | cons f fields ih =>
      obtain ⟨hf, hfields⟩ := List.forall_mem_cons.1 hlt
      have hne : name ≠ f.1 := fun h => String.lt_irrefl name (h ▸ hf)
      rw [putField, if_neg (String.lt_asymm hf), if_neg hne, ih hfields, List.cons_append]

theorem Value.ofFields_of_sorted (hsorted : fields.Pairwise fun f g => f.1 < g.1) :
    ofFields fields = .object fields := by
  have hfold : ∀ before : List (String × Value), (∀ f ∈ before, ∀ g ∈ fields, f.1 < g.1) →
      fields.foldl (fun ordered f => putField f.1 f.2 ordered) before = before ++ fields := by
    induction fields with
    | nil => exact fun before _ => (List.append_nil before).symm
    | cons f fields ih =>
        intro before hbefore
        obtain ⟨hf, hfields⟩ := List.pairwise_cons.1 hsorted
        have hput := putField_of_lt (fun g hg => hbefore g hg f List.mem_cons_self) f.2
        rw [List.foldl_cons, hput, ih hfields]
        · rw [List.append_assoc, List.singleton_append]
        · intro g hg h hh
          rcases List.mem_append.1 hg with hg | hg
          · exact hbefore g hg h (List.mem_cons_of_mem _ hh)
          · exact List.mem_singleton.1 hg ▸ hf h hh
  exact congrArg Value.object (hfold [] fun _ hf => nomatch hf)

/-! ## The first character of a value -/

theorem ne_of_isDigit {c d : Char} (hc : isDigit c = true) (hd : isDigit d = false) : c ≠ d := by
  rintro rfl
  rw [hc] at hd
  cases hd

theorem exists_digits (n : Nat) : ∃ c cs, digits n = c :: cs ∧ isDigit c = true := by
  cases hds : digits n with
  | nil => exact absurd hds Nat.toDigits_ne_nil
  | cons c cs => exact ⟨c, cs, rfl, isDigit_of_mem_digits (hds ▸ List.mem_cons_self)⟩

theorem isSpace_of_isDigit {c : Char} (hc : isDigit c = true) : isSpace c = false := by
  have hne : ∀ d, isDigit d = false → c ≠ d := fun d => ne_of_isDigit hc
  simp [isSpace, hne ' ' rfl, hne '\n' rfl, hne '\t' rfl, hne '\r' rfl]

/-- The text of a value begins with neither a blank nor a closing bracket, and only that of
`null` with an `n`. -/
theorem Value.Plain.exists_render (h : v.Plain depth) :
    ∃ c cs, v.render = c :: cs ∧ isSpace c = false ∧ c ≠ ']' ∧ (c = 'n' → v = .null) := by
  cases h with
  | null => exact ⟨_, _, rfl, rfl, by decide, fun _ => rfl⟩
  | bool b => cases b <;> exact ⟨_, _, rfl, rfl, by decide, fun h => absurd h (by decide)⟩
  | @integer _ i =>
      by_cases hi : i < 0
      · refine ⟨_, _, if_pos hi, rfl, by decide, fun h => absurd h (by decide)⟩
      · obtain ⟨c, cs, hds, hc⟩ := exists_digits i.natAbs
        exact ⟨c, cs, (if_neg hi).trans hds, isSpace_of_isDigit hc, ne_of_isDigit hc rfl,
          fun h => absurd h (ne_of_isDigit hc rfl)⟩
  | string s => exact ⟨_, _, rfl, rfl, by decide, fun h => absurd h (by decide)⟩
  | @array _ items =>
      cases items <;> exact ⟨_, _, rfl, rfl, by decide, fun h => absurd h (by decide)⟩
  | @object _ fields =>
      cases fields <;> exact ⟨_, _, rfl, rfl, by decide, fun h => absurd h (by decide)⟩

theorem skipSpace_cons {c : Char} (hc : isSpace c = false) (cs : List Char) :
    skipSpace (c :: cs) = c :: cs :=
  List.dropWhile_cons_of_neg (by rw [hc]; exact Bool.false_ne_true)

/-! ## Items and fields -/

/-- The text of the value `v` is read as `a`, whatever text comes after it. -/
def ReadsAs {α : Type} (read : List Char → Reading α) (v : Value) (a : α) : Prop :=
  ∀ rest, Stops rest → read (v.render ++ rest) = .ok (a, rest)

theorem ReadsAs.map {α β : Type} {read : List Char → Reading α} {a : α} (h : ReadsAs read v a)
    (f : α → β) : ReadsAs (fun cs => (read cs).map f) v (f a) := by
  intro rest hstops
  change (read _).map f = _
  rw [h rest hstops]
  rfl

theorem stops_renderItems (items : List Value) (rest : List Char) :
    Stops (renderItems items ++ rest) := by
  cases items <;> exact stops_cons (by decide) (by decide) _

theorem stops_renderFields (fields : List (String × Value)) (rest : List Char) :
    Stops (renderFields fields ++ rest) := by
  rcases fields with - | ⟨f, fields⟩ <;> exact stops_cons (by decide) (by decide) _

theorem length_lt_renderItems (items : List Value) : items.length < (renderItems items).length := by
  induction items with
  | nil => exact Nat.one_pos
  | cons v items ih => simp only [renderItems, List.length_cons, List.length_append]; omega

theorem length_lt_renderFields (fields : List (String × Value)) :
    fields.length < (renderFields fields).length := by
  induction fields with
  | nil => exact Nat.one_pos
  | cons f fields ih => simp only [renderFields, List.length_cons, List.length_append]; omega

variable {item : List Char → Reading Value}

/-- An item is there after the opening bracket, and after a comma. -/
theorem nextItem_render (hv : v.Plain depth) (cs : List Char) :
    nextItem true (v.render ++ cs) = .ok (true, v.render ++ cs) ∧
      nextItem false (',' :: (v.render ++ cs)) = .ok (true, v.render ++ cs) := by
  obtain ⟨c, cs', hrender, hspace, hclose, -⟩ := hv.exists_render
  rw [hrender, List.cons_append]
  simp [nextItem, skipSpace_cons hspace, skipSpace_cons (c := ',') rfl, hclose]

theorem readItems_item {first : Bool} (hv : ReadsAs item v v)
    (hnext : nextItem first cs = .ok (true, v.render ++ (renderItems items ++ rest)))
    (hitems : ∀ bound : List Char, items.length < bound.length →
      readItems item bound false (renderItems items ++ rest) = .ok (items, rest))
    (hbound : items.length + 1 < bound.length) :
    readItems item bound first cs = .ok (v :: items, rest) := by
  cases bound with
  | nil => cases hbound
  | cons b bound =>
      rw [readItems, hnext]
      simp only [hv _ (stops_renderItems items rest), hitems bound (Nat.lt_of_succ_lt_succ hbound)]
      rfl

/-- The items after the first one. -/
theorem readItems_renderItems (hplain : ∀ v ∈ items, v.Plain depth)
    (hitems : ∀ v ∈ items, ReadsAs item v v) (rest : List Char) :
    ∀ bound : List Char, items.length < bound.length →
      readItems item bound false (renderItems items ++ rest) = .ok (items, rest) := by
  induction items with
  | nil =>
      rintro (- | ⟨b, bound⟩) hbound
      · cases hbound
      · rfl
  | cons v items ih =>
      intro bound hbound
      obtain ⟨hpv, hplain⟩ := List.forall_mem_cons.1 hplain
      obtain ⟨hv, hitems⟩ := List.forall_mem_cons.1 hitems
      rw [renderItems, List.cons_append, List.append_assoc]
      exact readItems_item hv (nextItem_render hpv _).2 (ih hplain hitems) hbound

/-- The text of a field after the opening quote of its name. -/
def fieldTail (name : String) (v : Value) (rest : List Char) : List Char :=
  name.toList.flatMap escapeChar ++ '"' :: ':' :: (v.render ++ rest)

theorem render_object_cons (name : String) (v : Value) (fields : List (String × Value))
    (rest : List Char) : (Value.object ((name, v) :: fields)).render ++ rest =
      '\x7b' :: '"' :: fieldTail name v (renderFields fields ++ rest) := by
  rw [Value.render, List.cons_append, List.append_assoc, renderString_append, List.cons_append,
    List.append_assoc]
  rfl

theorem renderFields_cons (name : String) (v : Value) (fields : List (String × Value))
    (rest : List Char) : renderFields ((name, v) :: fields) ++ rest =
      ',' :: '"' :: fieldTail name v (renderFields fields ++ rest) := by
  rw [renderFields, List.cons_append, List.append_assoc, renderString_append, List.cons_append,
    List.append_assoc]
  rfl

theorem length_lt_fieldTail (name : String) (v : Value) (fields : List (String × Value))
    (rest : List Char) :
    fields.length + 1 < (fieldTail name v (renderFields fields ++ rest)).length := by
  have htail := length_lt_renderFields fields
  simp only [fieldTail, List.length_append, List.length_cons]
  omega

theorem readFields_field {first : Bool} {name : String} (hv : ReadsAs item v v)
    (hnext : nextField first cs = .ok (true, fieldTail name v (renderFields fields ++ rest)))
    (hfields : ∀ bound : List Char, fields.length < bound.length →
      readFields readString item bound false (renderFields fields ++ rest) = .ok (fields, rest))
    (hbound : fields.length + 1 < bound.length) :
    readFields readString item bound first cs = .ok ((name, v) :: fields, rest) := by
  cases bound with
  | nil => cases hbound
  | cons b bound =>
      rw [readFields, hnext]
      simp only [fieldTail, readString_escaped, dropColon, skipSpace_cons (c := ':') rfl,
        hv _ (stops_renderFields fields rest), hfields bound (Nat.lt_of_succ_lt_succ hbound)]
      rfl

/-- The fields after the first one. -/
theorem readFields_renderFields (hfields : ∀ f ∈ fields, ReadsAs item f.2 f.2) (rest : List Char) :
    ∀ bound : List Char, fields.length < bound.length →
      readFields readString item bound false (renderFields fields ++ rest) =
        .ok (fields, rest) := by
  induction fields with
  | nil =>
      rintro (- | ⟨b, bound⟩) hbound
      · cases hbound
      · rfl
  | cons f fields ih =>
      intro bound hbound
      obtain ⟨name, v⟩ := f
      obtain ⟨hv, hfields⟩ := List.forall_mem_cons.1 hfields
      rw [renderFields_cons]
      exact readFields_field hv rfl (ih hfields) hbound

/-! ## Values -/

theorem readValue_quote (depth : Nat) (cs : List Char) :
    readValue depth ('"' :: cs) = (readString cs).map .string := by
  cases depth <;> rfl

theorem readValue_minus (depth : Nat) (cs : List Char) :
    readValue depth ('-' :: cs) = (readNumber true cs).map .number := by
  cases depth <;> rfl

theorem readValue_digit {c : Char} (hc : isDigit c = true) (depth : Nat) (cs : List Char) :
    readValue depth (c :: cs) = (readNumber false (c :: cs)).map .number := by
  have hne : ∀ d, isDigit d = false → c ≠ d := fun d => ne_of_isDigit hc
  rw [readValue, skipSpace_cons (isSpace_of_isDigit hc)]
  simp only [hne 'n' rfl, hne 't' rfl, hne 'f' rfl, hne '-' rfl, hc, if_true, if_false]

theorem readValue_bracket (depth : Nat) (cs : List Char) :
    readValue (depth + 1) ('[' :: cs) = (readItems (readValue depth) cs true cs).map .array := rfl

theorem readValue_brace (depth : Nat) (cs : List Char) : readValue (depth + 1) ('\x7b' :: cs) =
    (readFields readString (readValue depth) cs true cs).map Value.ofFields := rfl

theorem readsAs_integer {i : Int} (hlow : -2 ^ 63 ≤ i) (hhigh : i < 2 ^ 64) :
    ReadsAs (readValue depth) (.number (.integer i)) (.number (.integer i)) := by
  intro rest hstops
  change readValue depth (renderInteger i ++ rest) = _
  unfold renderInteger
  split
  · next hi =>
      have habs : i.natAbs ≤ UInt64.size / 2 := by simp only [UInt64.size]; omega
      have hvalue : -(i.natAbs : Int) = i := by omega
      rw [List.cons_append, readValue_minus,
        readNumber_negative (Int.natAbs_pos.2 (Int.ne_of_lt hi)) habs hstops, hvalue]
      rfl
  · next hi =>
      have habs : i.natAbs < UInt64.size := by simp only [UInt64.size]; omega
      have hvalue : (i.natAbs : Int) = i := by omega
      have hnumber := readNumber_digits habs hstops
      obtain ⟨c, cs, hds, hc⟩ := exists_digits i.natAbs
      rw [hds, List.cons_append] at hnumber ⊢
      rw [readValue_digit hc, hnumber, hvalue]
      rfl

theorem readsAs_array (hplain : ∀ v ∈ items, v.Plain depth)
    (hitems : ∀ v ∈ items, ReadsAs (readValue depth) v v) :
    ReadsAs (readValue (depth + 1)) (.array items) (.array items) := by
  intro rest _
  cases items with
  | nil => exact readValue_bracket depth _
  | cons v items =>
      obtain ⟨hpv, hplain⟩ := List.forall_mem_cons.1 hplain
      obtain ⟨hv, hitems⟩ := List.forall_mem_cons.1 hitems
      have hbound : items.length + 1 < (v.render ++ (renderItems items ++ rest)).length := by
        obtain ⟨c, cs, hrender, -⟩ := hpv.exists_render
        have htail := length_lt_renderItems items
        rw [hrender]
        simp only [List.length_append, List.length_cons]
        omega
      rw [Value.render, List.cons_append, List.append_assoc, readValue_bracket,
        readItems_item hv (nextItem_render hpv _).1 (readItems_renderItems hplain hitems rest)
          hbound]
      rfl

theorem readsAs_object (hsorted : fields.Pairwise fun f g => f.1 < g.1)
    (hfields : ∀ f ∈ fields, ReadsAs (readValue depth) f.2 f.2) :
    ReadsAs (readValue (depth + 1)) (.object fields) (.object fields) := by
  intro rest _
  cases fields with
  | nil => exact readValue_brace depth _
  | cons f fields =>
      obtain ⟨name, v⟩ := f
      obtain ⟨hv, hfields⟩ := List.forall_mem_cons.1 hfields
      have hbound : fields.length + 1 <
          ('"' :: fieldTail name v (renderFields fields ++ rest)).length :=
        Nat.lt_succ_of_lt (length_lt_fieldTail name v fields rest)
      rw [render_object_cons, readValue_brace,
        readFields_field hv rfl (readFields_renderFields hfields rest) hbound,
        ← Value.ofFields_of_sorted hsorted]
      rfl

/-- A value of bounded depth reads back from its text. -/
theorem Value.Plain.readsAs (h : v.Plain depth) : ReadsAs (readValue depth) v v := by
  induction h with
  | @null depth => exact fun rest _ => by cases depth <;> rfl
  | @bool depth b => intro rest _; cases b <;> cases depth <;> rfl
  | integer hlow hhigh => exact readsAs_integer hlow hhigh
  | string s =>
      intro rest _
      rw [Value.render, renderString_append, readValue_quote, readString_escaped]
      rfl
  | array h ih => exact readsAs_array h ih
  | object hsorted h ih => exact readsAs_object hsorted ih

end Hosted.Json
