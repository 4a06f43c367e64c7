import Hosted.Text.Decimal
import Mathlib.Data.List.Shortlex

/-!
# Rows of digits

Of two rows of digits that are as long, the earlier one denotes the smaller number. Numbers
written with a least number of digits are in the order of their rows, the shorter rows first,
so that no two numbers have the same row.
-/

namespace Hosted

theorem isDigit_of_mem_digits {n : Nat} {c : Char} (hc : c ∈ digits n) : isDigit c = true :=
  Nat.isDigit_of_mem_toDigits (Nat.succ_pos 9) (Nat.le_refl 10) hc

/-! ## The number of a row -/

section

variable {d : Char} {cs ds : List Char}

theorem isDigit_iff (d : Char) : isDigit d = true ↔ 48 ≤ d.toNat ∧ d.toNat ≤ 57 := by
  simp only [isDigit, Bool.and_eq_true, decide_eq_true_eq, Char.le_def, UInt32.le_iff_toNat_le]
  exact Iff.rfl

theorem digitsValue_cons (d : Char) (ds : List Char) :
    digitsValue (d :: ds) = 10 ^ ds.length * (d.toNat - 48) + digitsValue ds := by
  unfold digitsValue
  rw [Nat.ofDigitChars_cons, Nat.ofDigitChars_eq_ofDigitChars_zero, Nat.mul_zero, Nat.zero_add]
  rfl

/-- A number has no more digits than any row that denotes it. -/
theorem digitsValue_lt (h : ∀ d ∈ ds, isDigit d = true) : digitsValue ds < 10 ^ ds.length := by
  induction ds with
  | nil => exact Nat.one_pos
  | cons d ds ih =>
      obtain ⟨hd, hds⟩ := List.forall_mem_cons.1 h
      have hdigit : d.toNat - 48 + 1 ≤ 10 := by
        have hnine := ((isDigit_iff d).1 hd).2
        omega
      calc digitsValue (d :: ds)
          = 10 ^ ds.length * (d.toNat - 48) + digitsValue ds := digitsValue_cons d ds
        _ < 10 ^ ds.length * (d.toNat - 48) + 10 ^ ds.length := by
            exact Nat.add_lt_add_left (ih hds) _
        _ = 10 ^ ds.length * (d.toNat - 48 + 1) := (Nat.mul_succ _ _).symm
        _ ≤ 10 ^ (d :: ds).length := by
            rw [List.length_cons, Nat.pow_succ]
            exact Nat.mul_le_mul_left _ hdigit

/-- The first digit in which two rows differ decides between them. -/
theorem lt_of_digitsValue_lt (hcs : ∀ c ∈ cs, isDigit c = true) (hds : ∀ d ∈ ds, isDigit d = true)
    (hlen : cs.length = ds.length) (h : digitsValue cs < digitsValue ds) : cs < ds := by
  induction cs generalizing ds with
  | nil =>
      rw [List.eq_nil_of_length_eq_zero hlen.symm] at h
      exact absurd h (Nat.lt_irrefl _)
  | cons c cs ih =>
      obtain _ | ⟨d, ds⟩ := ds
      · cases hlen
      obtain ⟨hc, hcs⟩ := List.forall_mem_cons.1 hcs
      obtain ⟨hd, hds⟩ := List.forall_mem_cons.1 hds
      have htail : cs.length = ds.length := Nat.succ.inj hlen
      rw [digitsValue_cons, digitsValue_cons, htail] at h
      rw [List.cons_lt_cons_iff, Char.lt_def, UInt32.lt_iff_toNat_lt]
      rw [isDigit_iff] at hc hd
      rcases Nat.lt_trichotomy c.toNat d.toNat with hlt | heq | hgt
      · exact .inl hlt
      · rw [heq] at h
        exact .inr ⟨Char.toNat_inj.1 heq, ih hcs hds htail (Nat.lt_of_add_lt_add_left h)⟩
      · have hvalue := digitsValue_lt hds
        have hlead : 10 ^ ds.length * (d.toNat - 48 + 1) ≤ 10 ^ ds.length * (c.toNat - 48) :=
          Nat.mul_le_mul_left _ (by omega)
        rw [Nat.mul_succ] at hlead
        omega

end

/-! ## Rows of a least length -/

section

variable {width n m : Nat}

theorem digitsValue_paddedDigits (width n : Nat) : digitsValue (paddedDigits width n) = n := by
  unfold digitsValue paddedDigits digits
  rw [Nat.ofDigitChars_append, Nat.ofDigitChars_replicate_zero, Nat.mul_zero,
    Nat.ofDigitChars_ten_toDigits]

theorem isDigit_of_mem_paddedDigits {c : Char} (hc : c ∈ paddedDigits width n) :
    isDigit c = true := by
  rcases List.mem_append.1 hc with hzero | hdigit
  · rw [List.eq_of_mem_replicate hzero]
    rfl
  · exact isDigit_of_mem_digits hdigit

theorem length_paddedDigits (width n : Nat) :
    (paddedDigits width n).length = max width (digits n).length := by
  rw [paddedDigits, List.length_append, List.length_replicate]
  omega

theorem length_paddedDigits_of_lt (hwidth : 0 < width) (h : n < 10 ^ width) :
    (paddedDigits width n).length = width := by
  rw [length_paddedDigits]
  exact Nat.max_eq_left ((Nat.length_toDigits_le_iff (by decide) hwidth).2 h)

theorem length_digits_mono (h : n ≤ m) : (digits n).length ≤ (digits m).length := by
  have hpos : 0 < (digits m).length := Nat.length_toDigits_pos
  have hfits : m < 10 ^ (digits m).length :=
    (Nat.length_toDigits_le_iff (by decide) hpos).1 (Nat.le_refl _)
  exact (Nat.length_toDigits_le_iff (by decide) hpos).2 (Nat.lt_of_le_of_lt h hfits)

/-- A larger number has a longer row, or one as long that comes later. -/
theorem shortlex_paddedDigits (width : Nat) (h : n < m) :
    List.Shortlex (· < ·) (paddedDigits width n) (paddedDigits width m) := by
  have hlength : (paddedDigits width n).length ≤ (paddedDigits width m).length := by
    have hdigits := length_digits_mono (Nat.le_of_lt h)
    rw [length_paddedDigits, length_paddedDigits]
    omega
  rcases Nat.lt_or_eq_of_le hlength with hlt | heq
  · exact .of_length_lt hlt
  · refine .of_lex heq (lt_of_digitsValue_lt ?_ ?_ heq ?_)
    · exact fun c => isDigit_of_mem_paddedDigits
    · exact fun c => isDigit_of_mem_paddedDigits
    · rwa [digitsValue_paddedDigits, digitsValue_paddedDigits]

end

end Hosted
