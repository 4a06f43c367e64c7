import Hosted.Proofs.Text.Utf16
import Mathlib.Order.Bounds.Basic

/-!
# How far decoding gets

A decoder that gives up names a position. Up to there stands the form of a text, and behind any
form of a text it can only give up later. So the position is the length of the longest form that
the input begins with. The position is counted along: decoding the rest of an input begins where
the text before it ended.
-/

namespace Hosted

variable {α : Type} {position p : Nat} {bytes : List UInt8} {units : List UInt16}
  {ps : List Utf8.Part}

theorem exists_of_map_eq_error {ε β γ : Type} {f : β → γ} {r : Except ε β} {e : ε}
    (h : r.map f = .error e) : r = .error e := by
  cases r with
  | error e' => exact congrArg Except.error (Except.error.inj h)
  | ok x => cases h

theorem map_append_nil {ε : Type} (r : Except ε (List Char)) : r.map ([] ++ ·) = r := by
  cases r <;> rfl

theorem map_append_cons {ε : Type} (c : Char) (text : List Char) (r : Except ε (List Char)) :
    (r.map (text ++ ·)).map (c :: ·) = r.map (c :: text ++ ·) := by
  cases r <;> rfl

/-- The forms of texts that an input begins with, by their length. -/
def textLengths (encode : List Char → List α) (input : List α) : Set Nat :=
  {n | ∃ text, encode text <+: input ∧ (encode text).length = n}

/-- What a decoder has to do so that its position tells how far it got. -/
theorem isGreatest_textLengths {encode : List Char → List α}
    (decodeFrom : Nat → List α → Except Nat (List Char))
    (happend : ∀ position text rest, decodeFrom position (encode text ++ rest) =
      (decodeFrom (position + (encode text).length) rest).map (text ++ ·))
    (hle : ∀ {position rest p}, decodeFrom position rest = .error p → position ≤ p)
    (hfront : ∀ {position input p}, decodeFrom position input = .error p →
      ∃ text rest, input = encode text ++ rest ∧ p = position + (encode text).length)
    {input : List α} (h : decodeFrom 0 input = .error p) :
    IsGreatest (textLengths encode input) p := by
  constructor
  · obtain ⟨text, rest, rfl, hp⟩ := hfront h
    exact ⟨text, List.prefix_append _ _, (hp.trans (Nat.zero_add _)).symm⟩
  · rintro n ⟨text, ⟨rest, rfl⟩, rfl⟩
    rw [happend, Nat.zero_add] at h
    exact hle (exists_of_map_eq_error h)

/-- Behind one more character a form is one character longer. -/
theorem exists_form_cons {encodeChar : Char → List α} {c : Char} {form input : List α}
    (hform : form = encodeChar c)
    (h : ∃ text : List Char, ∃ rest, input = text.flatMap encodeChar ++ rest ∧
      p = position + form.length + (text.flatMap encodeChar).length) :
    ∃ text : List Char, ∃ rest, form ++ input = text.flatMap encodeChar ++ rest ∧
      p = position + (text.flatMap encodeChar).length := by
  obtain ⟨text, rest, rfl, rfl⟩ := h
  refine ⟨c :: text, rest, ?_, ?_⟩
  · rw [List.flatMap_cons, ← hform, List.append_assoc]
  · rw [List.flatMap_cons, ← hform, List.length_append, Nat.add_assoc]

namespace Utf8

theorem charsOf_encode_append (position : Nat) (text : List Char) (rest : List UInt8) :
    charsOf position (parts (encode text ++ rest)) =
      (charsOf (position + (encode text).length) (parts rest)).map (text ++ ·) := by
  induction text generalizing position with
  | nil => exact (map_append_nil _).symm
  | cons c text ih =>
      rw [encode_cons, List.append_assoc, parts_encodeChar_append, charsOf, ih,
        List.length_append, ← Nat.add_assoc, map_append_cons]
      rfl

theorem le_of_charsOf_eq_error (h : charsOf position ps = .error p) : position ≤ p := by
  induction ps generalizing position with
  | nil => cases h
  | cons part ps ih =>
      cases part with
      | char c n => exact Nat.le_of_add_right_le (ih (exists_of_map_eq_error h))
      | junk n => exact Nat.le_of_eq (Except.error.inj h)

/-- What stands before junk is the form of a text. -/
theorem exists_encode_of_charsOf_eq_error (h : charsOf position (parts bytes) = .error p) :
    ∃ text rest, bytes = encode text ++ rest ∧ p = position + (encode text).length := by
  induction hlen : bytes.length using Nat.strongRecOn generalizing bytes position with
  | ind n ih =>
      cases bytes with
      | nil => cases h
      | cons b rest =>
          rw [parts_cons] at h
          cases hfirst : firstPart b rest with
          | junk w =>
              rw [hfirst] at h
              exact ⟨[], b :: rest, rfl, (Except.error.inj h).symm⟩
          | char c w =>
              simp only [hfirst, charsOf, Part.width] at h
              have hshort : (rest.drop (w - 1)).length < n := by
                simp only [List.length_cons, List.length_drop] at hlen ⊢
                omega
              obtain ⟨hform, hw⟩ := form_of_firstPart hfirst
              have hrest := ih _ hshort (exists_of_map_eq_error h) rfl
              rw [hw] at hrest
              have hall := exists_form_cons hform.eq_encodeChar hrest
              rwa [← hw, List.cons_append, List.take_append_drop] at hall

theorem isGreatest_of_decode_eq_error (h : decode bytes = .error p) :
    IsGreatest (textLengths encode bytes) p :=
  isGreatest_textLengths (fun position bytes => charsOf position (parts bytes))
    charsOf_encode_append le_of_charsOf_eq_error exists_encode_of_charsOf_eq_error h

end Utf8

namespace Utf16

theorem decodeFrom_encode_append (position : Nat) (text : List Char) (rest : List UInt16) :
    decodeFrom position (encode text ++ rest) =
      (decodeFrom (position + (encode text).length) rest).map (text ++ ·) := by
  induction text generalizing position with
  | nil => exact (map_append_nil _).symm
  | cons c text ih =>
      rw [encode_cons, List.append_assoc, decodeFrom_encodeChar_append, ih, List.length_append,
        ← Nat.add_assoc, map_append_cons]

theorem le_of_decodeFrom_eq_error (h : decodeFrom position units = .error p) : position ≤ p := by
  fun_induction decodeFrom position units with
  | case1 => cases h
  | case2 => exact Nat.le_of_eq (Except.error.inj h)
  | case3 => cases h
  | case4 position u v rest _ _ ih =>
      exact Nat.le_of_add_right_le (ih (exists_of_map_eq_error h))
  | case5 => exact Nat.le_of_eq (Except.error.inj h)
  | case6 => exact Nat.le_of_eq (Except.error.inj h)
  | case7 position u v rest _ _ ih =>
      exact Nat.le_of_add_right_le (ih (exists_of_map_eq_error h))

/-- What stands before a surrogate without its partner is the form of a text. -/
theorem exists_encode_of_decodeFrom_eq_error (h : decodeFrom position units = .error p) :
    ∃ text rest, units = encode text ++ rest ∧ p = position + (encode text).length := by
  have here : ∀ {position : Nat} {units : List UInt16}, position = p →
      ∃ text rest, units = encode text ++ rest ∧ p = position + (encode text).length :=
    fun hp => ⟨[], _, rfl, hp.symm⟩
  fun_induction decodeFrom position units with
  | case1 => cases h
  | case2 => exact here (Except.error.inj h)
  | case3 => cases h
  | case4 position u v rest hhigh hlow ih =>
      exact exists_form_cons (Form.two hhigh hlow).eq_encodeChar (ih (exists_of_map_eq_error h))
  | case5 => exact here (Except.error.inj h)
  | case6 => exact here (Except.error.inj h)
  | case7 position u v rest hhigh hlow ih =>
      rw [Bool.not_eq_true] at hhigh hlow
      exact exists_form_cons (Form.one hhigh hlow).eq_encodeChar (ih (exists_of_map_eq_error h))

theorem isGreatest_of_decode_eq_error (h : decode units = .error p) :
    IsGreatest (textLengths encode units) p :=
  isGreatest_textLengths decodeFrom decodeFrom_encode_append le_of_decodeFrom_eq_error
    exists_encode_of_decodeFrom_eq_error h

end Utf16

end Hosted
