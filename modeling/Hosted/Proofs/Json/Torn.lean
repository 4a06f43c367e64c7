import Hosted.Proofs.Json.RoundTrip

/-!
# Torn text

What is left of the text of a value after it has been cut off somewhere. Whichever token the
cut goes through, the reader comes to the end of the text while it still waits for something.
Numbers are the exception, since the digits before the cut are a number as well. But then
nothing is left behind them, and whatever reads on finds the end there.
-/

namespace Hosted.Json

variable {α β : Type} {part text more cs bound : List Char} {c : Char} {v : Value}
  {items : List Value} {fields : List (String × Value)} {name : String} {depth : Nat}

/-- `part` is the front of `text`, without at least its last character. -/
def Torn (part text : List Char) : Prop := ∃ c rest, text = part ++ c :: rest

theorem torn_of_prefix (hfront : part <+: text) (hne : part ≠ text) : Torn part text := by
  obtain ⟨rest, rfl⟩ := hfront
  cases rest with
  | nil => exact absurd (List.append_nil part).symm hne
  | cons c rest => exact ⟨c, rest, rfl⟩

theorem not_torn_nil (part : List Char) : ¬Torn part [] := by
  rintro ⟨c, rest, h⟩
  exact List.append_ne_nil_of_right_ne_nil part (List.cons_ne_nil c rest) h.symm

/-- A text is torn before its first character or after it. -/
theorem torn_cons_iff :
    Torn part (c :: text) ↔ part = [] ∨ ∃ part', part = c :: part' ∧ Torn part' text := by
  constructor
  · rintro ⟨d, rest, h⟩
    cases part with
    | nil => exact Or.inl rfl
    | cons x part =>
        obtain ⟨rfl, htext⟩ := List.cons.inj h
        exact Or.inr ⟨part, rfl, d, rest, htext⟩
  · rintro (rfl | ⟨part', rfl, d, rest, rfl⟩)
    · exact ⟨c, text, rfl⟩
    · exact ⟨d, rest, rfl⟩

theorem torn_singleton_iff : Torn part [c] ↔ part = [] := by
  rw [torn_cons_iff]
  constructor
  · rintro (rfl | ⟨part', rfl, h⟩)
    · rfl
    · exact absurd h (not_torn_nil part')
  · exact Or.inl

/-- Of two texts the first one is torn, or else the second. -/
theorem torn_append_iff :
    Torn part (text ++ more) ↔
      Torn part text ∨ ∃ part', part = text ++ part' ∧ Torn part' more := by
  constructor
  · rintro ⟨c, rest, h⟩
    rcases List.append_eq_append_iff.1 h with ⟨part', rfl, hmore⟩ | ⟨between, htext, hrest⟩
    · exact Or.inr ⟨part', rfl, c, rest, hmore⟩
    · cases between with
      | nil =>
          rw [List.append_nil] at htext
          exact Or.inr ⟨[], by rw [htext, List.append_nil], c, rest, hrest.symm⟩
      | cons x between => exact Or.inl ⟨x, between, htext⟩
  · rintro (⟨c, rest, rfl⟩ | ⟨part', rfl, c, rest, rfl⟩)
    · exact ⟨c, rest ++ more, by rw [List.append_assoc, List.cons_append]⟩
    · exact ⟨c, rest, (List.append_assoc ..).symm⟩

/-- A numeral that ends with a text ends with the front of it. -/
theorem Stops.torn (h : Stops text) (htorn : Torn part text) : Stops part := by
  obtain ⟨c, rest, rfl⟩ := htorn
  cases part with
  | nil => exact stops_nil
  | cons x part => exact h

/-- On a torn text the reader misses something, or it reads all that is left. -/
def BreaksOff (read : List Char → Reading α) (text : List Char) : Prop :=
  ∀ part, Torn part text → read part = .error .cutShort ∨ ∃ a, read part = .ok (a, [])

theorem BreaksOff.map {read : List Char → Reading α} (h : BreaksOff read text) (f : α → β) :
    BreaksOff (fun cs => (read cs).map f) text := by
  intro part htorn
  rcases h part htorn with hread | ⟨a, hread⟩
  · exact Or.inl (congrArg (Reading.map f) hread)
  · exact Or.inr ⟨f a, congrArg (Reading.map f) hread⟩

/-- The cut is in the text of a value, or else it is behind. -/
theorem ReadsAs.torn {read : List Char → Reading α} {a : α} (h : ReadsAs read v a)
    (hbreak : BreaksOff read v.render) (hstops : Stops more)
    (htorn : Torn part (v.render ++ more)) :
    read part = .error .cutShort ∨ (∃ b, read part = .ok (b, [])) ∨
      ∃ part', Torn part' more ∧ read part = .ok (a, part') := by
  rcases torn_append_iff.1 htorn with hvalue | ⟨part', rfl, hmore⟩
  · exact (hbreak part hvalue).imp_right Or.inl
  · exact Or.inr (Or.inr ⟨part', hmore, h part' (hstops.torn hmore)⟩)

/-! ## Words and strings -/

theorem dropWord_torn {word : List Char} (h : Torn part word) :
    dropWord word part = .error .cutShort := by
  induction word generalizing part with
  | nil => exact absurd h (not_torn_nil part)
  | cons w word ih =>
      rcases torn_cons_iff.1 h with rfl | ⟨part', rfl, htorn⟩
      · rfl
      · rw [dropWord, if_pos rfl, ih htorn]

theorem hexUnit_of_short (h : hasFourBytes cs = false) : hexUnit cs = .error .cutShort := by
  unfold hexUnit
  rw [h, if_neg Bool.false_ne_true]

/-- An escape is cut before its letter or among its digits. -/
theorem readEscape_torn_unit {d d' : Nat} (hd : d < 16)
    (h : Torn part ['u', '0', '0', Nat.digitChar d, Nat.digitChar d']) :
    readEscape part = .error .cutShort := by
  have hthree : ∀ d < 16, hasFourBytes ['0', '0', Nat.digitChar d] = false := by decide
  have hunit : ∀ {digits}, hasFourBytes digits = false →
      readEscape ('u' :: digits) = .error .cutShort := by
    intro digits hshort
    rw [readEscape, hexUnit_of_short hshort]
  rcases torn_cons_iff.1 h with rfl | ⟨_, rfl, h₁⟩
  · rfl
  rcases torn_cons_iff.1 h₁ with rfl | ⟨_, rfl, h₂⟩
  · exact hunit rfl
  rcases torn_cons_iff.1 h₂ with rfl | ⟨_, rfl, h₃⟩
  · exact hunit rfl
  rcases torn_cons_iff.1 h₃ with rfl | ⟨_, rfl, h₄⟩
  · exact hunit rfl
  rw [torn_singleton_iff.1 h₄]
  exact hunit (hthree d hd)

theorem readCharsAfter_torn_escape {letters : List Char}
    (hletters : ∀ part, Torn part letters → readEscape part = .error .cutShort)
    (h : Torn part ('\\' :: letters)) :
    readCharsAfter readEscape 0 part = .error .cutShort := by
  rcases torn_cons_iff.1 h with rfl | ⟨part', rfl, htorn⟩
  · rfl
  · rw [readCharsAfter, if_neg (by decide), if_pos rfl, hletters part' htorn]

/-- A character is escaped by a letter or by its number, or it stands for itself. -/
theorem escapeChar_cases (c : Char) :
    (∃ letter, escapeChar c = ['\\', letter]) ∨
      (∃ d < 16, ∃ d', escapeChar c = ['\\', 'u', '0', '0', Nat.digitChar d, Nat.digitChar d']) ∨
        escapeChar c = [c] := by
  fun_cases escapeChar c
  case case8 => exact Or.inr (Or.inl ⟨c.toNat / 16, by omega, c.toNat % 16, rfl⟩)
  case case9 => exact Or.inr (Or.inr rfl)
  all_goals exact Or.inl ⟨_, rfl⟩

/-- The cut goes through the form of a character. -/
theorem readCharsAfter_torn_escapeChar (h : Torn part (escapeChar c)) :
    readCharsAfter readEscape 0 part = .error .cutShort := by
  rcases escapeChar_cases c with ⟨letter, hc⟩ | ⟨d, hd, d', hc⟩ | hc
  · rw [hc] at h
    refine readCharsAfter_torn_escape (fun part hpart => ?_) h
    rw [torn_singleton_iff.1 hpart]
    rfl
  · rw [hc] at h
    exact readCharsAfter_torn_escape (fun part => readEscape_torn_unit hd) h
  · rw [hc, torn_singleton_iff] at h
    rw [h]
    rfl

theorem readString_torn (s : String) (h : Torn part (s.toList.flatMap escapeChar ++ ['"'])) :
    readString part = .error .cutShort := by
  have hchars : readCharsAfter readEscape 0 part = .error .cutShort := by
    generalize s.toList = cs at h
    induction cs generalizing part with
    | nil =>
        rw [torn_singleton_iff.1 h]
        rfl
    | cons c cs ih =>
        rw [List.flatMap_cons, List.append_assoc] at h
        rcases torn_append_iff.1 h with hc | ⟨part', rfl, hcs⟩
        · exact readCharsAfter_torn_escapeChar hc
        · rw [readCharsAfter_escapeChar, ih hcs]
          rfl
  rw [readString, hchars]
  rfl

/-! ## Integers -/

/-- The front of a numeral is a numeral. -/
theorem digits_torn {n : Nat} (h : Torn part (digits n)) :
    part = [] ∨ ∃ m, 0 < m ∧ m ≤ n ∧ part = digits m := by
  induction n using Nat.strongRecOn generalizing part with
  | ind n ih =>
      have hdigits := Nat.toDigits_eq_if (b := 10) (n := n) (by decide)
      change digits n = _ at hdigits
      rw [hdigits] at h
      split at h
      · exact Or.inl (torn_singleton_iff.1 h)
      · next hge =>
          have hlead : 0 < n / 10 := Nat.div_pos (Nat.le_of_not_lt hge) (by decide)
          have hless : n / 10 < n := Nat.div_lt_self (by omega) (by decide)
          rcases torn_append_iff.1 h with hfront | ⟨part', rfl, hlast⟩
          · refine (ih (n / 10) hless hfront).imp_right ?_
            rintro ⟨m, hm, hle, hpart⟩
            exact ⟨m, hm, Nat.le_trans hle (Nat.le_of_lt hless), hpart⟩
          · refine Or.inr ⟨n / 10, hlead, Nat.le_of_lt hless, ?_⟩
            rw [torn_singleton_iff.1 hlast, List.append_nil]
            rfl

/-- The front of an integer is an integer nearer to zero, or just a sign. -/
theorem renderInteger_torn {i : Int} (h : Torn part (renderInteger i)) :
    part = [] ∨ part = ['-'] ∨
      ∃ j, part = renderInteger j ∧ j.natAbs ≤ i.natAbs ∧ (i < 0 ↔ j < 0) := by
  unfold renderInteger at h
  split at h
  · next hi =>
      rcases torn_cons_iff.1 h with rfl | ⟨part', rfl, hdigits⟩
      · exact Or.inl rfl
      rcases digits_torn hdigits with rfl | ⟨m, hm, hle, rfl⟩
      · exact Or.inr (Or.inl rfl)
      · have hneg : -(m : Int) < 0 := by omega
        refine Or.inr (Or.inr ⟨-m, ?_, ?_, iff_of_true hi hneg⟩)
        · rw [renderInteger, if_pos hneg, Int.natAbs_neg, Int.natAbs_natCast]
        · rwa [Int.natAbs_neg, Int.natAbs_natCast]
  · next hi =>
      rcases digits_torn h with rfl | ⟨m, hm, hle, rfl⟩
      · exact Or.inl rfl
      · have hpos : ¬(m : Int) < 0 := by omega
        refine Or.inr (Or.inr ⟨m, ?_, ?_, iff_of_false hi hpos⟩)
        · rw [renderInteger, if_neg hpos, Int.natAbs_natCast]
        · rwa [Int.natAbs_natCast]

theorem readValue_nil (depth : Nat) : readValue depth [] = .error .cutShort := by
  cases depth <;> rfl

theorem breaksOff_integer {i : Int} (hlow : -2 ^ 63 ≤ i) (hhigh : i < 2 ^ 64) :
    BreaksOff (readValue depth) (Value.number (.integer i)).render := by
  intro part h
  rcases renderInteger_torn h with rfl | rfl | ⟨j, rfl, hle, hsign⟩
  · exact Or.inl (readValue_nil depth)
  · exact Or.inl (readValue_minus depth [])
  · have hinteger : ReadsAs (readValue depth) (.number (.integer j)) (.number (.integer j)) :=
      readsAs_integer (by omega) (by omega)
    have hread := hinteger [] stops_nil
    rw [List.append_nil] at hread
    exact Or.inr ⟨_, hread⟩

/-! ## Items and fields -/

variable {item : List Char → Reading Value} {first : Bool}

/-- An item that is torn away entirely is missed; of any other one the front is there. -/
theorem nextItem_torn (hv : v.Plain depth) (h : Torn part (v.render ++ more)) :
    (nextItem true part = .error .cutShort ∨ nextItem true part = .ok (true, part)) ∧
      (nextItem false (',' :: part) = .error .cutShort ∨
        nextItem false (',' :: part) = .ok (true, part)) := by
  obtain ⟨c, cs, hrender, hspace, hclose, -⟩ := hv.exists_render
  rw [hrender, List.cons_append] at h
  rcases torn_cons_iff.1 h with rfl | ⟨part', rfl, -⟩
  · exact ⟨Or.inl rfl, Or.inl rfl⟩
  · have htrue : nextItem true (c :: part') = .ok (true, c :: part') := by
      simp [nextItem, skipSpace_cons hspace]
    have hfalse : nextItem false (',' :: c :: part') = .ok (true, c :: part') := by
      simp [nextItem, skipSpace_cons hspace, skipSpace_cons (c := ',') rfl, hclose]
    exact ⟨Or.inr htrue, Or.inr hfalse⟩

theorem readItems_nil (item : List Char → Reading α) (bound : List Char) (first : Bool) :
    readItems item bound first [] = .error .cutShort := by
  cases bound <;> rfl

theorem readItems_torn_item (hv : ReadsAs item v v) (hbreak : BreaksOff item v.render)
    (hnext : nextItem first cs = .error .cutShort ∨ nextItem first cs = .ok (true, part))
    (hitems : ∀ bound part, Torn part (renderItems items) →
      readItems item bound false part = .error .cutShort)
    (h : Torn part (v.render ++ renderItems items)) :
    readItems item bound first cs = .error .cutShort := by
  have hstops : Stops (renderItems items) := by
    rw [← List.append_nil (renderItems items)]
    exact stops_renderItems items []
  cases bound with
  | nil => rfl
  | cons b bound =>
      rcases hnext with hnext | hnext
      · rw [readItems, hnext]
      · rw [readItems, hnext]
        simp only
        rcases hv.torn hbreak hstops h with hread | ⟨b, hread⟩ | ⟨part', htorn, hread⟩
        · rw [hread]
        · rw [hread]
          simp only [readItems_nil]
          rfl
        · rw [hread]
          simp only [hitems _ _ htorn]
          rfl

/-- The items after the first one. -/
theorem readItems_torn (hplain : ∀ v ∈ items, v.Plain depth)
    (hitems : ∀ v ∈ items, ReadsAs item v v) (hbreak : ∀ v ∈ items, BreaksOff item v.render) :
    ∀ bound part, Torn part (renderItems items) →
      readItems item bound false part = .error .cutShort := by
  induction items with
  | nil =>
      intro bound part h
      rw [torn_singleton_iff.1 h, readItems_nil]
  | cons v items ih =>
      intro bound part h
      obtain ⟨hpv, hplain⟩ := List.forall_mem_cons.1 hplain
      obtain ⟨hv, hitems⟩ := List.forall_mem_cons.1 hitems
      obtain ⟨hbv, hbreak⟩ := List.forall_mem_cons.1 hbreak
      rcases torn_cons_iff.1 h with rfl | ⟨part', rfl, htorn⟩
      · exact readItems_nil item bound false
      · exact readItems_torn_item hv hbv (nextItem_torn hpv htorn).2 (ih hplain hitems hbreak) htorn

theorem nextField_torn (h : Torn part ('"' :: text)) :
    (nextField true part = .error .cutShort ∨
      ∃ part', Torn part' text ∧ nextField true part = .ok (true, part')) ∧
    (nextField false (',' :: part) = .error .cutShort ∨
      ∃ part', Torn part' text ∧ nextField false (',' :: part) = .ok (true, part')) := by
  rcases torn_cons_iff.1 h with rfl | ⟨part', rfl, htorn⟩
  · exact ⟨Or.inl rfl, Or.inl rfl⟩
  · exact ⟨Or.inr ⟨part', htorn, rfl⟩, Or.inr ⟨part', htorn, rfl⟩⟩

/-- A field is cut in its name, at its colon, or in its value and what comes after that. -/
theorem fieldTail_torn (h : Torn part (fieldTail name v more)) :
    readString part = .error .cutShort ∨ ∃ part', readString part = .ok (name, part') ∧
      (dropColon part' = .error .cutShort ∨
        ∃ part'', dropColon part' = .ok part'' ∧ Torn part'' (v.render ++ more)) := by
  have htail : fieldTail name v more =
      (name.toList.flatMap escapeChar ++ ['"']) ++ ':' :: (v.render ++ more) := by
    rw [fieldTail, List.append_assoc]
    rfl
  rw [htail] at h
  rcases torn_append_iff.1 h with hname | ⟨part', rfl, hrest⟩
  · exact Or.inl (readString_torn name hname)
  · refine Or.inr ⟨part', ?_, ?_⟩
    · rw [List.append_assoc]
      exact readString_escaped name part'
    · rcases torn_cons_iff.1 hrest with rfl | ⟨part'', rfl, hvalue⟩
      · exact Or.inl rfl
      · exact Or.inr ⟨part'', rfl, hvalue⟩

theorem readFields_nil (name : List Char → Reading α) (item : List Char → Reading β)
    (bound : List Char) (first : Bool) :
    readFields name item bound first [] = .error .cutShort := by
  cases bound <;> cases first <;> rfl

theorem readFields_torn_field (hv : ReadsAs item v v) (hbreak : BreaksOff item v.render)
    (hnext : nextField first cs = .error .cutShort ∨
      ∃ part, Torn part (fieldTail name v (renderFields fields)) ∧
        nextField first cs = .ok (true, part))
    (hfields : ∀ bound part, Torn part (renderFields fields) →
      readFields readString item bound false part = .error .cutShort) :
    readFields readString item bound first cs = .error .cutShort := by
  have hstops : Stops (renderFields fields) := by
    rw [← List.append_nil (renderFields fields)]
    exact stops_renderFields fields []
  cases bound with
  | nil => rfl
  | cons b bound =>
      rw [readFields]
      rcases hnext with hnext | ⟨part, hpart, hnext⟩
      · rw [hnext]
      rw [hnext]
      simp only
      rcases fieldTail_torn hpart with hname | ⟨part', hname, hcolon | ⟨part'', hcolon, hvalue⟩⟩
      · rw [hname]
      · simp only [hname, hcolon]
      · simp only [hname, hcolon]
        rcases hv.torn hbreak hstops hvalue with hread | ⟨b, hread⟩ | ⟨rest, hrest, hread⟩
        · rw [hread]
        · rw [hread]
          simp only [readFields_nil]
          rfl
        · rw [hread]
          simp only [hfields _ _ hrest]
          rfl

/-- The fields after the first one. -/
theorem readFields_torn (hfields : ∀ f ∈ fields, ReadsAs item f.2 f.2)
    (hbreak : ∀ f ∈ fields, BreaksOff item f.2.render) :
    ∀ bound part, Torn part (renderFields fields) →
      readFields readString item bound false part = .error .cutShort := by
  induction fields with
  | nil =>
      intro bound part h
      rw [torn_singleton_iff.1 h, readFields_nil]
  | cons f fields ih =>
      intro bound part h
      obtain ⟨name, v⟩ := f
      obtain ⟨hv, hfields⟩ := List.forall_mem_cons.1 hfields
      obtain ⟨hbv, hbreak⟩ := List.forall_mem_cons.1 hbreak
      rw [← List.append_nil (renderFields _), renderFields_cons, List.append_nil] at h
      rcases torn_cons_iff.1 h with rfl | ⟨part', rfl, htorn⟩
      · exact readFields_nil readString item bound false
      · exact readFields_torn_field hv hbv (nextField_torn htorn).2 (ih hfields hbreak)

/-! ## Values -/

theorem breaksOff_array (hplain : ∀ v ∈ items, v.Plain depth)
    (hbreak : ∀ v ∈ items, BreaksOff (readValue depth) v.render) :
    BreaksOff (readValue (depth + 1)) (Value.array items).render := by
  intro part h
  refine Or.inl ?_
  have hinner : ∀ part', part = '[' :: part' →
      readItems (readValue depth) part' true part' = .error .cutShort →
      readValue (depth + 1) part = .error .cutShort := by
    rintro part' rfl hread
    rw [readValue_bracket, hread]
    rfl
  cases items with
  | nil =>
      rcases torn_cons_iff.1 h with rfl | ⟨part', rfl, htorn⟩
      · exact readValue_nil _
      · obtain rfl := torn_singleton_iff.1 htorn
        exact hinner [] rfl rfl
  | cons v items =>
      obtain ⟨hpv, hplain⟩ := List.forall_mem_cons.1 hplain
      obtain ⟨hbv, hbreak⟩ := List.forall_mem_cons.1 hbreak
      rcases torn_cons_iff.1 h with rfl | ⟨part', rfl, htorn⟩
      · exact readValue_nil _
      · exact hinner part' rfl (readItems_torn_item hpv.readsAs hbv (nextItem_torn hpv htorn).1
          (readItems_torn hplain (fun v hv => (hplain v hv).readsAs) hbreak) htorn)

theorem breaksOff_object (hplain : ∀ f ∈ fields, f.2.Plain depth)
    (hbreak : ∀ f ∈ fields, BreaksOff (readValue depth) f.2.render) :
    BreaksOff (readValue (depth + 1)) (Value.object fields).render := by
  intro part h
  refine Or.inl ?_
  have hinner : ∀ part', part = '\x7b' :: part' →
      readFields readString (readValue depth) part' true part' = .error .cutShort →
      readValue (depth + 1) part = .error .cutShort := by
    rintro part' rfl hread
    rw [readValue_brace, hread]
    rfl
  cases fields with
  | nil =>
      rcases torn_cons_iff.1 h with rfl | ⟨part', rfl, htorn⟩
      · exact readValue_nil _
      · obtain rfl := torn_singleton_iff.1 htorn
        exact hinner [] rfl rfl
  | cons f fields =>
      obtain ⟨name, v⟩ := f
      obtain ⟨hpv, hplain⟩ := List.forall_mem_cons.1 hplain
      obtain ⟨hbv, hbreak⟩ := List.forall_mem_cons.1 hbreak
      rw [← List.append_nil (Value.render _), render_object_cons, List.append_nil] at h
      rcases torn_cons_iff.1 h with rfl | ⟨part', rfl, htorn⟩
      · exact readValue_nil _
      · exact hinner part' rfl (readFields_torn_field hpv.readsAs hbv (nextField_torn htorn).1
          (readFields_torn (fun f hf => (hplain f hf).readsAs) hbreak))

/-- No value is read from the front of its text, but for the fronts of numbers. -/
theorem Value.Plain.breaksOff (h : v.Plain depth) : BreaksOff (readValue depth) v.render := by
  have hword : ∀ {depth c word} {result : List Char → Value × List Char},
      (∀ cs, readValue depth (c :: cs) = (dropWord word cs).map result) →
      BreaksOff (readValue depth) (c :: word) := by
    intro depth c word result hread part h
    rcases torn_cons_iff.1 h with rfl | ⟨part', rfl, htorn⟩
    · exact Or.inl (readValue_nil depth)
    · rw [hread, dropWord_torn htorn]
      exact Or.inl rfl
  induction h with
  | @null depth => exact hword fun cs => by cases depth <;> rfl
  | @bool depth b => cases b <;> exact hword fun cs => by cases depth <;> rfl
  | integer hlow hhigh => exact breaksOff_integer hlow hhigh
  | string s =>
      intro part h
      rcases torn_cons_iff.1 h with rfl | ⟨part', rfl, htorn⟩
      · exact Or.inl (readValue_nil _)
      · rw [readValue_quote, readString_torn s htorn]
        exact Or.inl rfl
  | array h ih => exact breaksOff_array h ih
  | object _ h ih => exact breaksOff_object h ih

end Hosted.Json
