import Hosted.Proofs.Text.Utf16
import Mathlib.Data.List.Infix

/-!
# Well-formed text

What makes a byte string UTF-8 and a unit string UTF-16, said without an encoder. A UTF-8
sequence spells a number with the bits that its bytes leave free, and it counts if no shorter
one spells the same number and the number is that of a character. In UTF-16 surrogates come in
pairs. The well-formed strings are those that a text is encoded as.
-/

namespace Hosted

namespace Utf8

/-- The free bits of a byte sequence spell the number `n`. A first byte tells by its upper bits
how many continuation bytes come after it. -/
inductive Spells : Nat → List UInt8 → Prop where
  | one {b : UInt8} (h : b.toNat / 128 = 0b0) : Spells (b.toNat % 128) [b]
  | two {b b₁ : UInt8} (h : b.toNat / 32 = 0b110) (h₁ : b₁.toNat / 64 = 0b10) :
      Spells (b.toNat % 32 * 64 + b₁.toNat % 64) [b, b₁]
  | three {b b₁ b₂ : UInt8} (h : b.toNat / 16 = 0b1110) (h₁ : b₁.toNat / 64 = 0b10)
      (h₂ : b₂.toNat / 64 = 0b10) :
      Spells (b.toNat % 16 * 4096 + b₁.toNat % 64 * 64 + b₂.toNat % 64) [b, b₁, b₂]
  | four {b b₁ b₂ b₃ : UInt8} (h : b.toNat / 8 = 0b11110) (h₁ : b₁.toNat / 64 = 0b10)
      (h₂ : b₂.toNat / 64 = 0b10) (h₃ : b₃.toNat / 64 = 0b10) :
      Spells (b.toNat % 8 * 262144 + b₁.toNat % 64 * 4096 + b₂.toNat % 64 * 64 + b₃.toNat % 64)
        [b, b₁, b₂, b₃]

/-- A byte sequence stands for the character of number `n`. -/
structure Proper (n : Nat) (form : List UInt8) : Prop where
  spells : Spells n form
  /-- It is not overlong. -/
  shortest : ∀ {other}, Spells n other → form.length ≤ other.length
  not_surrogate : ¬(0xD800 ≤ n ∧ n ≤ 0xDFFF)
  le_last : n ≤ 0x10FFFF

/-- A byte string is a row of proper sequences. -/
inductive WellFormed : List UInt8 → Prop where
  | nil : WellFormed []
  | cons {n : Nat} {form rest : List UInt8} (h : Proper n form) (hrest : WellFormed rest) :
      WellFormed (form ++ rest)

variable {n : Nat} {form other bytes : List UInt8}

theorem not_exists_error_eq_ok {ε α : Type} (e : ε) :
    ¬∃ a, (.error e : Except ε α) = .ok a := by
  rintro ⟨a, h⟩
  cases h

theorem exists_map_eq_ok_iff {ε α β : Type} {f : α → β} {r : Except ε α} :
    (∃ y, r.map f = .ok y) ↔ ∃ x, r = .ok x := by
  constructor
  · rintro ⟨y, h⟩
    obtain ⟨x, hx, -⟩ := exists_of_map_eq_ok h
    exact ⟨x, hx⟩
  · rintro ⟨x, rfl⟩
    exact ⟨f x, rfl⟩

/-- Each length has room for so many numbers. -/
theorem Spells.lt_of_length (h : Spells n form) :
    1 ≤ form.length ∧ (form.length = 1 → n < 0x80) ∧ (form.length = 2 → n < 0x800) ∧
      (form.length = 3 → n < 0x10000) := by
  cases h <;> simp only [List.length_cons, List.length_nil] <;> omega

/-- A number is spelt in one way with so many bytes. -/
theorem Spells.eq_of_length (h : Spells n form) (h' : Spells n other)
    (hlen : form.length = other.length) : form = other := by
  generalize hn : n = m at h'
  cases h <;> cases h' <;> simp only [List.length_cons, List.length_nil] at hlen <;>
    first | omega | skip
  all_goals
    simp only [List.cons.injEq, and_true, ← UInt8.toNat_inj]
    omega

/-- The free bits of a form spell the number of its character. -/
theorem Form.spells {c : Char} (h : Form c form) : Spells c.toNat form := by
  cases h with
  | @one b hb =>
      simp only [UInt8.lt_iff_toNat_lt, UInt8.reduceToNat] at hb
      have hvalue : b.toNat = b.toNat % 128 := by omega
      rw [toNat_ofNat_of_valid (by omega), hvalue]
      exact .one (by omega)
  | @two b b₁ hb h₁ =>
      simp only [UInt8.le_iff_toNat_le, UInt8.reduceToNat] at hb
      rw [isContinuation_iff] at h₁
      have hvalue : (b.toNat - 0xC0) * 64 + low b₁ = b.toNat % 32 * 64 + b₁.toNat % 64 := by
        unfold low
        omega
      rw [toNat_ofNat_of_valid (by unfold low; omega), hvalue]
      exact .two (by omega) (by omega)
  | @three b b₁ b₂ hb h₁ h₂ =>
      simp only [UInt8.le_iff_toNat_le, UInt8.reduceToNat] at hb
      rw [isSecond_iff] at h₁
      rw [isContinuation_iff] at h₂
      have hvalue : (b.toNat - 0xE0) * 4096 + low b₁ * 64 + low b₂ =
          b.toNat % 16 * 4096 + b₁.toNat % 64 * 64 + b₂.toNat % 64 := by
        unfold low
        omega
      rw [toNat_ofNat_of_valid (by unfold low; omega), hvalue]
      exact .three (by omega) (by omega) (by omega)
  | @four b b₁ b₂ b₃ hb h₁ h₂ h₃ =>
      simp only [UInt8.le_iff_toNat_le, UInt8.reduceToNat] at hb
      rw [isSecond_iff] at h₁
      rw [isContinuation_iff] at h₂ h₃
      have hvalue : (b.toNat - 0xF0) * 262144 + low b₁ * 4096 + low b₂ * 64 + low b₃ =
          b.toNat % 8 * 262144 + b₁.toNat % 64 * 4096 + b₂.toNat % 64 * 64 + b₃.toNat % 64 := by
        unfold low
        omega
      rw [toNat_ofNat_of_valid (by unfold low; omega), hvalue]
      exact .four (by omega) (by omega) (by omega) (by omega)

theorem length_encodeChar (c : Char) : (encodeChar c).length =
    if c.toNat < 0x80 then 1 else if c.toNat < 0x800 then 2
    else if c.toNat < 0x10000 then 3 else 4 := by
  simp only [encodeChar]
  split_ifs <;> rfl

/-- The form of a character is proper. -/
theorem proper_encodeChar (c : Char) : Proper c.toNat (encodeChar c) := by
  have hvalid : c.toNat < 0xD800 ∨ 0xDFFF < c.toNat ∧ c.toNat < 0x110000 := c.valid
  refine ⟨(form_encodeChar c).spells, ?_, by omega, by omega⟩
  intro other hother
  have hbounds := hother.lt_of_length
  rw [length_encodeChar]
  split_ifs <;> omega

/-- No other sequence is proper. -/
theorem Proper.eq_encodeChar (h : Proper n form) : form = encodeChar (Char.ofNat n) := by
  have hvalid : n < 0xD800 ∨ 0xDFFF < n ∧ n < 0x110000 := by
    have hnot := h.not_surrogate
    have hle := h.le_last
    omega
  have hc := proper_encodeChar (Char.ofNat n)
  rw [toNat_ofNat_of_valid hvalid] at hc
  exact h.spells.eq_of_length hc.spells
    (Nat.le_antisymm (h.shortest hc.spells) (hc.shortest h.spells))

/-- The well-formed byte strings are the forms of texts. -/
theorem wellFormed_iff : WellFormed bytes ↔ ∃ text, bytes = encode text := by
  constructor
  · intro h
    induction h with
    | nil => exact ⟨[], rfl⟩
    | cons h _ ih =>
        obtain ⟨text, rfl⟩ := ih
        rw [h.eq_encodeChar, ← encode_cons]
        exact ⟨_, rfl⟩
  · rintro ⟨text, rfl⟩
    induction text with
    | nil => exact .nil
    | cons c text ih => exact .cons (proper_encodeChar c) ih

end Utf8

namespace Utf16

/-- Every high surrogate is directly followed by a low one, and every low one directly preceded
by a high one. -/
structure Paired (units : List UInt16) : Prop where
  followed : ∀ i u, units[i]? = some u → isHigh u = true →
    ∃ v, units[i + 1]? = some v ∧ isLow v = true
  preceded : ∀ i v, units[i]? = some v → isLow v = true →
    ∃ j u, i = j + 1 ∧ units[j]? = some u ∧ isHigh u = true

variable {u v : UInt16} {rest units : List UInt16}

theorem isLow_of_isHigh (h : isHigh u = true) : isLow u = false := by
  rw [isHigh_iff] at h
  rw [Bool.eq_false_iff, ne_eq, isLow_iff]
  omega

theorem Paired.isLow_head (h : Paired (u :: rest)) : isLow u = false := by
  rw [Bool.eq_false_iff]
  intro hlow
  obtain ⟨j, -, hj, -⟩ := h.preceded 0 u rfl hlow
  cases hj

theorem Paired.exists_low (h : Paired (u :: rest)) (hhigh : isHigh u = true) :
    ∃ v rest', rest = v :: rest' ∧ isLow v = true := by
  obtain ⟨v, hv, hlow⟩ := h.followed 0 u rfl hhigh
  cases rest with
  | nil => cases hv
  | cons w rest => exact ⟨w, rest, rfl, Option.some.inj hv ▸ hlow⟩

theorem paired_nil : Paired [] where
  followed _ _ h := nomatch h
  preceded _ _ h := nomatch h

/-- A unit that is no surrogate may stand anywhere. -/
theorem paired_cons_iff (hhigh : isHigh u = false) (hlow : isLow u = false) :
    Paired (u :: rest) ↔ Paired rest := by
  constructor
  · intro h
    refine ⟨fun i => h.followed (i + 1), fun i v hv hv' => ?_⟩
    obtain ⟨j, w, hj, hw, hw'⟩ := h.preceded (i + 1) v hv hv'
    cases j with
    | zero =>
        rw [← Option.some.inj hw, hhigh] at hw'
        cases hw'
    | succ j => exact ⟨j, w, Nat.succ.inj hj, hw, hw'⟩
  · intro h
    refine ⟨fun i v hv hv' => ?_, fun i v hv hv' => ?_⟩
    · cases i with
      | zero =>
          rw [← Option.some.inj hv, hhigh] at hv'
          cases hv'
      | succ i => exact h.followed i v hv hv'
    · cases i with
      | zero =>
          rw [← Option.some.inj hv, hlow] at hv'
          cases hv'
      | succ i =>
          obtain ⟨j, w, hj, hw⟩ := h.preceded i v hv hv'
          exact ⟨j + 1, w, congrArg (· + 1) hj, hw⟩

/-- A pair may stand anywhere. -/
theorem paired_cons_cons_iff (hhigh : isHigh u = true) (hlow : isLow v = true) :
    Paired (u :: v :: rest) ↔ Paired rest := by
  have hfirst := isLow_of_isHigh hhigh
  have hsecond : isHigh v = false := by
    rw [Bool.eq_false_iff]
    intro hv
    rw [isLow_of_isHigh hv] at hlow
    cases hlow
  constructor
  · intro h
    refine ⟨fun i => h.followed (i + 2), fun i w hw hw' => ?_⟩
    obtain ⟨j, x, hj, hx, hx'⟩ := h.preceded (i + 2) w hw hw'
    obtain rfl : i + 1 = j := Nat.succ.inj hj
    cases i with
    | zero =>
        rw [← Option.some.inj hx, hsecond] at hx'
        cases hx'
    | succ i => exact ⟨i, x, rfl, hx, hx'⟩
  · intro h
    refine ⟨fun i w hw hw' => ?_, fun i w hw hw' => ?_⟩
    · rcases i with _ | _ | i
      · exact ⟨v, rfl, hlow⟩
      · rw [← Option.some.inj hw, hsecond] at hw'
        cases hw'
      · exact h.followed i w hw hw'
    · rcases i with _ | _ | i
      · rw [← Option.some.inj hw, hfirst] at hw'
        cases hw'
      · exact ⟨0, u, rfl, rfl, hhigh⟩
      · obtain ⟨j, x, hj, hx⟩ := h.preceded i w hw hw'
        exact ⟨j + 2, x, congrArg (· + 2) hj, hx⟩

/-- Decoding succeeds just where surrogates are paired. -/
theorem exists_decodeFrom_iff (position : Nat) (units : List UInt16) :
    (∃ text, decodeFrom position units = .ok text) ↔ Paired units := by
  fun_induction decodeFrom position units with
  | case1 => exact iff_of_true ⟨[], rfl⟩ paired_nil
  | case2 position u hsurrogate =>
      refine iff_of_false (Utf8.not_exists_error_eq_ok _) fun h => ?_
      rw [h.isLow_head, Bool.or_false] at hsurrogate
      obtain ⟨v, rest, hrest, -⟩ := h.exists_low hsurrogate
      cases hrest
  | case3 position u hsurrogate =>
      obtain ⟨hhigh, hlow⟩ : isHigh u = false ∧ isLow u = false := by simpa using hsurrogate
      exact iff_of_true ⟨_, rfl⟩ ((paired_cons_iff hhigh hlow).2 paired_nil)
  | case4 position u v rest hhigh hlow ih =>
      rw [paired_cons_cons_iff hhigh hlow, ← ih]
      exact Utf8.exists_map_eq_ok_iff
  | case5 position u v rest hhigh hlow =>
      refine iff_of_false (Utf8.not_exists_error_eq_ok _) fun h => ?_
      obtain ⟨w, rest', hrest, hw⟩ := h.exists_low hhigh
      rw [(List.cons.inj hrest).1] at hlow
      exact hlow hw
  | case6 position u v rest hhigh hlow =>
      refine iff_of_false (Utf8.not_exists_error_eq_ok _) fun h => ?_
      rw [h.isLow_head] at hlow
      cases hlow
  | case7 position u v rest hhigh hlow ih =>
      rw [Bool.not_eq_true] at hhigh hlow
      rw [paired_cons_iff hhigh hlow, ← ih]
      exact Utf8.exists_map_eq_ok_iff

/-- The unit strings with paired surrogates are the forms of texts. -/
theorem paired_iff : Paired units ↔ ∃ text, units = encode text := by
  rw [← exists_decodeFrom_iff 0]
  exact exists_congr fun _ => decode_eq_ok_iff

end Utf16

end Hosted
