import Hosted.Json.Printer
import Hosted.Json.Reader
import Hosted.Proofs.Text.Decimal

/-!
# Strings and integers read back

The text of a string or of an integer reads back as what it was written for, with any text
after it. A string ends at its quote. The digits of an integer end where the text after them
cannot continue a numeral, and integers of 64 bits are collected without loss.
-/

namespace Hosted

/-! ## Digits -/

/-- Only the number zero begins with a zero. -/
theorem head?_digits {n : Nat} (hn : 0 < n) : (digits n).head? ≠ some '0' := by
  induction n using Nat.strongRecOn with
  | ind n ih =>
      unfold digits
      rw [Nat.toDigits_eq_if (by decide)]
      split
      · next hlt =>
          have hall : ∀ d < 10, 0 < d → Nat.digitChar d ≠ '0' := by decide
          exact fun h => hall n hlt hn (Option.some.inj h)
      · next hge =>
          have hlead : 0 < n / 10 := Nat.div_pos (Nat.le_of_not_lt hge) (by decide)
          have hih := ih (n / 10) (Nat.div_lt_self hn (by decide)) hlead
          unfold digits at hih
          cases hds : Nat.toDigits 10 (n / 10) with
          | nil => exact absurd hds Nat.toDigits_ne_nil
          | cons d ds => rwa [hds] at hih

namespace Json

variable {cs rest : List Char} {n : Nat}

/-! ## Strings -/

/-- What is skipped does not matter. -/
theorem readCharsAfter_skip (escape : List Char → Except Defect (Char × Nat)) (skipped : List Char)
    (rest : List Char) : readCharsAfter escape skipped.length (skipped ++ rest) =
      readCharsAfter escape 0 rest := by
  induction skipped with
  | nil => rfl
  | cons c skipped ih => rw [List.length_cons, List.cons_append, readCharsAfter, ih]

theorem readCharsAfter_escape {c : Char} (letters : List Char)
    (h : readEscape (letters ++ rest) = .ok (c, letters.length)) :
    readCharsAfter readEscape 0 ('\\' :: letters ++ rest) =
      (readCharsAfter readEscape 0 rest).map (c :: ·) := by
  rw [List.cons_append, readCharsAfter, if_neg (by decide), if_pos rfl, h]
  simp only [readCharsAfter_skip]

theorem one_le_charWidth (c : Char) : 1 ≤ Utf8.charWidth c := by
  unfold Utf8.charWidth Utf8.encodeChar
  grind

theorem hexValue?_digitChar : ∀ d < 16, hexValue? (Nat.digitChar d) = some d := by decide

/-- The form in which control characters are escaped. -/
theorem hexUnit_small {n : Nat} (hn : n < 256) (rest : List Char) :
    hexUnit (['0', '0', Nat.digitChar (n / 16), Nat.digitChar (n % 16)] ++ rest) = .ok n := by
  have hlong : hasFourBytes
      (['0', '0', Nat.digitChar (n / 16), Nat.digitChar (n % 16)] ++ rest) = true := by
    have h₁ := one_le_charWidth '0'
    have h₂ := one_le_charWidth (Nat.digitChar (n / 16))
    have h₃ := one_le_charWidth (Nat.digitChar (n % 16))
    refine decide_eq_true (?_ : 4 ≤ 0 + Utf8.charWidth '0' + Utf8.charWidth '0' +
      Utf8.charWidth (Nat.digitChar (n / 16)) + Utf8.charWidth (Nat.digitChar (n % 16)))
    omega
  have hzero : hexValue? '0' = some 0 := rfl
  unfold hexUnit
  rw [if_pos hlong]
  simp only [List.cons_append, hzero, hexValue?_digitChar (n / 16) (by omega),
    hexValue?_digitChar (n % 16) (by omega)]
  congr 1
  omega

/-- Each character of a string is read as it was written. -/
theorem readCharsAfter_escapeChar (c : Char) (rest : List Char) :
    readCharsAfter readEscape 0 (escapeChar c ++ rest) =
      (readCharsAfter readEscape 0 rest).map (c :: ·) := by
  unfold escapeChar
  split
  · next h =>
      subst h
      exact readCharsAfter_escape ['"'] rfl
  split
  · next h =>
      subst h
      exact readCharsAfter_escape ['\\'] rfl
  split
  · next h =>
      subst h
      exact readCharsAfter_escape ['b'] rfl
  split
  · next h =>
      subst h
      exact readCharsAfter_escape ['f'] rfl
  split
  · next h =>
      subst h
      exact readCharsAfter_escape ['n'] rfl
  split
  · next h =>
      subst h
      exact readCharsAfter_escape ['r'] rfl
  split
  · next h =>
      subst h
      exact readCharsAfter_escape ['t'] rfl
  split
  · next h =>
      refine readCharsAfter_escape
        ['u', '0', '0', Nat.digitChar (c.toNat / 16), Nat.digitChar (c.toNat % 16)] ?_
      have hunit := hexUnit_small (Nat.lt_trans h (by decide)) rest
      simp only [List.cons_append, List.nil_append] at hunit ⊢
      rw [readEscape, hunit]
      simp only
      rw [if_neg (by omega), if_neg (by omega), Char.ofNat_toNat]
      rfl
  · next hquote hbackslash _ _ _ _ _ hcontrol =>
      rw [List.singleton_append, readCharsAfter, if_neg hquote, if_neg hbackslash,
        if_neg hcontrol]

theorem renderString_append (s : String) (rest : List Char) :
    renderString s ++ rest = '"' :: (s.toList.flatMap escapeChar ++ '"' :: rest) := by
  rw [renderString, List.cons_append, List.append_assoc, List.singleton_append]

theorem readString_escaped (s : String) (rest : List Char) :
    readString (s.toList.flatMap escapeChar ++ '"' :: rest) = .ok (s, rest) := by
  have hchars : ∀ cs : List Char, readCharsAfter readEscape 0
      (cs.flatMap escapeChar ++ '"' :: rest) = .ok (cs, rest) := by
    intro cs
    induction cs with
    | nil => rfl
    | cons c cs ih =>
        rw [List.flatMap_cons, List.append_assoc, readCharsAfter_escapeChar, ih]
        rfl
  rw [readString, hchars]
  exact congrArg (fun s => Except.ok (s, rest)) String.ofList_toList

/-! ## Integers -/

/-- No numeral is continued by `cs`. -/
def Stops (cs : List Char) : Prop :=
  ∀ c ∈ cs.head?, isDigit c = false ∧ c ≠ '.' ∧ c ≠ 'e' ∧ c ≠ 'E'

theorem stops_nil : Stops [] := fun _ hc => nomatch hc

theorem stops_cons {c : Char} (hdigit : isDigit c = false) (hletters : c ≠ '.' ∧ c ≠ 'e' ∧ c ≠ 'E')
    (cs : List Char) : Stops (c :: cs) :=
  fun _ hc => Option.some.inj hc ▸ ⟨hdigit, hletters⟩

theorem span_digits (hstops : Stops rest) (n : Nat) :
    (digits n ++ rest).takeWhile isDigit = digits n ∧
      (digits n ++ rest).dropWhile isDigit = rest := by
  have hall : ∀ c ∈ digits n, isDigit c = true := fun c => isDigit_of_mem_digits
  rw [List.takeWhile_append_of_pos hall, List.dropWhile_append_of_pos hall]
  cases rest with
  | nil => exact ⟨List.append_nil _, rfl⟩
  | cons c rest =>
      have hc : ¬isDigit c = true := by rw [(hstops c rfl).1]; exact Bool.false_ne_true
      rw [List.takeWhile_cons_of_neg hc, List.dropWhile_cons_of_neg hc]
      exact ⟨List.append_nil _, rfl⟩

theorem readWhole_digits (hstops : Stops rest) (n : Nat) :
    readWhole (digits n ++ rest) = .ok (digits n, rest) := by
  obtain ⟨htake, hdrop⟩ := span_digits hstops n
  rcases Nat.eq_zero_or_pos n with rfl | hn
  · cases rest with
    | nil => rfl
    | cons c rest =>
        have hc := (hstops c rfl).1
        simp [digits, readWhole, hc]
  · cases hds : digits n with
    | nil => exact absurd hds Nat.toDigits_ne_nil
    | cons d ds =>
        have hd : d ≠ '0' := fun h => head?_digits hn (by rw [hds, h]; rfl)
        have hdigit : isDigit d = true := isDigit_of_mem_digits (hds ▸ List.mem_cons_self)
        rw [hds] at htake hdrop
        rw [List.cons_append] at htake hdrop ⊢
        unfold readWhole
        split
        · next h => cases h
        · next h => exact absurd (List.cons.inj h).1 hd
        · next h =>
            obtain ⟨rfl, rfl⟩ := List.cons.inj h
            rw [if_pos hdigit, htake, hdrop]

theorem readFraction_of_stops (hstops : Stops cs) : readFraction cs = .ok ([], cs) := by
  unfold readFraction
  split
  · exact absurd rfl (hstops '.' rfl).2.1
  · rfl

theorem readExponent_of_stops (hstops : Stops cs) : readExponent cs = .ok (none, cs) := by
  unfold readExponent
  simp only
  split
  · exact absurd rfl (hstops 'e' rfl).2.2.1
  · exact absurd rfl (hstops 'E' rfl).2.2.2
  · rfl

theorem readNumeral_digits (hstops : Stops rest) (n : Nat) :
    readNumeral (digits n ++ rest) = .ok (⟨digits n, [], none⟩, rest) := by
  rw [readNumeral, readWhole_digits hstops]
  simp only [readFraction_of_stops hstops, readExponent_of_stops hstops, Reading.map]

/-- Digits that denote a number of 64 bits are all collected. -/
theorem collectDigits_of_lt {ds : List Char} (hlt : Nat.ofDigitChars 10 ds n < UInt64.size) :
    collectDigits n ds = (Nat.ofDigitChars 10 ds n, []) := by
  induction ds generalizing n with
  | nil => rfl
  | cons d ds ih =>
      rw [Nat.ofDigitChars_cons, Nat.mul_comm] at hlt ⊢
      have hnext : n * 10 + (d.toNat - 48) < UInt64.size := by
        rw [Nat.ofDigitChars_eq_ofDigitChars_zero] at hlt
        have hpow : 1 ≤ 10 ^ ds.length := Nat.one_le_pow _ _ (by decide)
        have hstart := Nat.le_mul_of_pos_left (n * 10 + (d.toNat - 48)) hpow
        exact Nat.lt_of_le_of_lt hstart (Nat.lt_of_le_of_lt (Nat.le_add_right _ _) hlt)
      rw [collectDigits, if_pos hnext]
      exact ih hlt

theorem collectDigits_digits (hn : n < UInt64.size) : collectDigits 0 (digits n) = (n, []) := by
  have hvalue : Nat.ofDigitChars 10 (digits n) 0 = n := Nat.ofDigitChars_ten_toDigits
  rw [collectDigits_of_lt (by rwa [hvalue]), hvalue]

theorem readNumber_digits (hn : n < UInt64.size) (hstops : Stops rest) :
    readNumber false (digits n ++ rest) = .ok (.integer n, rest) := by
  rw [readNumber, readNumeral_digits hstops]
  simp [Numeral.number?, collectDigits_digits hn]

theorem readNumber_negative (hpos : 0 < n) (hn : n ≤ UInt64.size / 2) (hstops : Stops rest) :
    readNumber true (digits n ++ rest) = .ok (.integer (-n), rest) := by
  have hlt : n < UInt64.size := Nat.lt_of_le_of_lt hn (by decide)
  rw [readNumber, readNumeral_digits hstops]
  simp [Numeral.number?, collectDigits_digits hlt, hpos, hn]

end Json

end Hosted
