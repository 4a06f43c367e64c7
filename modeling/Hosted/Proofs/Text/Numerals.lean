import Hosted.Proofs.Text.Decimal
import Mathlib.Data.List.Induction

/-!
# Numerals

A numeral is a row of one or more digits that may have a plus sign before it. Every digit of a row
makes the number ten times as large and adds its own value, so that zeros in front count for
nothing. A numeral is read just if its number is below `2 ^ 64`, however long the numeral is.
-/

namespace Hosted

variable {text ds : List Char} {n : Nat}

/-- A row of digits denotes a number. -/
inductive Denotes : List Char → Nat → Prop where
  | digit {d : Char} : isDigit d → Denotes [d] (d.toNat - '0'.toNat)
  | concat {ds : List Char} {d : Char} {n : Nat} :
      Denotes ds n → isDigit d → Denotes (ds ++ [d]) (10 * n + (d.toNat - '0'.toNat))

/-- A text is a numeral of a number. -/
inductive IsNumeral : List Char → Nat → Prop where
  | plain {ds : List Char} {n : Nat} : Denotes ds n → IsNumeral ds n
  | signed {ds : List Char} {n : Nat} : Denotes ds n → IsNumeral ('+' :: ds) n

/-! ## Rows of digits -/

theorem digitsValue_concat (ds : List Char) (d : Char) :
    digitsValue (ds ++ [d]) = 10 * digitsValue ds + (d.toNat - '0'.toNat) := by
  unfold digitsValue
  rw [Nat.ofDigitChars_append, Nat.ofDigitChars_cons, Nat.ofDigitChars_nil]

theorem Denotes.isDigit_of_mem (h : Denotes ds n) : ∀ d ∈ ds, isDigit d := by
  induction h with
  | digit hd => exact List.forall_mem_singleton.2 hd
  | concat _ hd ih => exact List.forall_mem_append.2 ⟨ih, List.forall_mem_singleton.2 hd⟩

theorem Denotes.ne_nil (h : Denotes ds n) : ds ≠ [] := by
  cases h with
  | digit => exact List.cons_ne_nil _ _
  | concat => exact List.concat_ne_nil _ _

theorem Denotes.digitsValue_eq (h : Denotes ds n) : digitsValue ds = n := by
  induction h with
  | digit => exact (digitsValue_concat [] _).trans (Nat.zero_add _)
  | concat _ _ ih => rw [digitsValue_concat, ih]

theorem denotes_digitsValue (hne : ds ≠ []) (hds : ∀ d ∈ ds, isDigit d) :
    Denotes ds (digitsValue ds) := by
  -- The digits are added at the end of a row, while the list is built at its front.
  induction ds using List.reverseRecOn with
  | nil => exact absurd rfl hne
  | append_singleton ds d ih =>
      obtain ⟨hds, hd⟩ := List.forall_mem_append.1 hds
      have hd : isDigit d := hd d (List.mem_singleton_self d)
      rw [digitsValue_concat]
      by_cases hnil : ds = []
      · rw [hnil]
        exact (Nat.zero_add _).symm ▸ Denotes.digit hd
      · exact .concat (ih hnil hds) hd

theorem denotes_iff :
    Denotes ds n ↔ ds ≠ [] ∧ (∀ d ∈ ds, isDigit d) ∧ digitsValue ds = n := by
  constructor
  · intro h
    exact ⟨h.ne_nil, h.isDigit_of_mem, h.digitsValue_eq⟩
  · rintro ⟨hne, hds, rfl⟩
    exact denotes_digitsValue hne hds

/-! ## Reading a numeral -/

/-- The number of a row of digits, if it is below `2 ^ 64`. -/
def readRow? (ds : List Char) : Option Nat :=
  if ds.isEmpty || !ds.all isDigit then none
  else if digitsValue ds < UInt64.size then some (digitsValue ds)
  else none

theorem isRow_iff (ds : List Char) :
    ¬(ds.isEmpty || !ds.all isDigit) = true ↔ ds ≠ [] ∧ ∀ d ∈ ds, isDigit d := by
  rw [Bool.or_eq_true, not_or, List.isEmpty_iff, Bool.not_eq_true', Bool.not_eq_false,
    List.all_eq_true]

theorem readRow?_eq_some_iff : readRow? ds = some n ↔ Denotes ds n ∧ n < 2 ^ 64 := by
  rw [denotes_iff, readRow?, Option.ite_none_left_eq_some, Option.ite_none_right_eq_some,
    isRow_iff, Option.some_inj]
  constructor
  · rintro ⟨⟨hne, hds⟩, hlt, rfl⟩
    exact ⟨⟨hne, hds, rfl⟩, hlt⟩
  · rintro ⟨⟨hne, hds, rfl⟩, hlt⟩
    exact ⟨⟨hne, hds⟩, hlt, rfl⟩

theorem readWord?_plus (ds : List Char) : readWord? ('+' :: ds) = readRow? ds := rfl

theorem readWord?_of_ne (h : ∀ ds, text ≠ '+' :: ds) : readWord? text = readRow? text := by
  unfold readWord?
  split
  case h_1 ds => exact absurd rfl (h ds)
  case h_2 => rfl

/-- A sign is no digit, so that a numeral has one reading only. -/
theorem Denotes.ne_plus (h : Denotes text n) (ds : List Char) : text ≠ '+' :: ds := by
  rintro rfl
  exact absurd (h.isDigit_of_mem '+' (List.mem_cons_self ..)) (by decide)

/-- The numerals of the numbers below `2 ^ 64` are read, each as its number, and nothing else. -/
theorem readWord?_eq_some_iff : readWord? text = some n ↔ IsNumeral text n ∧ n < 2 ^ 64 := by
  constructor
  · intro h
    by_cases hplus : ∃ ds, text = '+' :: ds
    · obtain ⟨ds, rfl⟩ := hplus
      rw [readWord?_plus, readRow?_eq_some_iff] at h
      exact ⟨.signed h.1, h.2⟩
    · rw [readWord?_of_ne (not_exists.1 hplus), readRow?_eq_some_iff] at h
      exact ⟨.plain h.1, h.2⟩
  · rintro ⟨hnumeral, hlt⟩
    cases hnumeral with
    | plain h =>
        rw [readWord?_of_ne h.ne_plus, readRow?_eq_some_iff]
        exact ⟨h, hlt⟩
    | signed h =>
        rw [readWord?_plus, readRow?_eq_some_iff]
        exact ⟨h, hlt⟩

end Hosted
