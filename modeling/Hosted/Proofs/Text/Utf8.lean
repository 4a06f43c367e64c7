import Hosted.Text.Utf8
import Mathlib.Tactic.SplitIfs

/-!
# UTF-8 is read back

The part at the head of a byte string is a character exactly if the byte string begins
with that character's form. So strict decoding is the inverse of encoding, and a text has
no form but its own.
-/

namespace Hosted.Utf8

variable {b b₁ b₂ b₃ : UInt8} {c : Char} {n position : Nat} {bytes form rest : List UInt8}
  {text : List Char}

theorem isContinuation_iff : isContinuation b = true ↔ 0x80 ≤ b.toNat ∧ b.toNat ≤ 0xBF := by
  simp [isContinuation, UInt8.le_iff_toNat_le]

theorem isSecond_iff {lead : UInt8} :
    isSecond lead b = true ↔
      (0x80 ≤ b.toNat ∧ b.toNat ≤ 0xBF) ∧
        (lead.toNat = 0xE0 → 0xA0 ≤ b.toNat) ∧ (lead.toNat = 0xED → b.toNat ≤ 0x9F) ∧
          (lead.toNat = 0xF0 → 0x90 ≤ b.toNat) ∧ (lead.toNat = 0xF4 → b.toNat ≤ 0x8F) := by
  have heq : ∀ k : UInt8, lead = k ↔ lead.toNat = k.toNat := fun k => UInt8.toNat_inj.symm
  unfold isSecond
  split_ifs <;> simp_all [isContinuation, UInt8.le_iff_toNat_le] <;> omega

theorem toNat_ofNat_of_valid (h : n < 0xD800 ∨ 0xDFFF < n ∧ n < 0x110000) :
    (Char.ofNat n).toNat = n := by
  rw [Char.ofNat, dif_pos h]
  rfl

/-- The well-formed byte sequences, by their length, each with its character. -/
inductive Form : Char → List UInt8 → Prop where
  | one {b : UInt8} (hb : b < 0x80) : Form (Char.ofNat b.toNat) [b]
  | two {b b₁ : UInt8} (hb : 0xC2 ≤ b ∧ b ≤ 0xDF) (h₁ : isContinuation b₁ = true) :
      Form (Char.ofNat ((b.toNat - 0xC0) * 64 + low b₁)) [b, b₁]
  | three {b b₁ b₂ : UInt8} (hb : 0xE0 ≤ b ∧ b ≤ 0xEF) (h₁ : isSecond b b₁ = true)
      (h₂ : isContinuation b₂ = true) :
      Form (Char.ofNat ((b.toNat - 0xE0) * 4096 + low b₁ * 64 + low b₂)) [b, b₁, b₂]
  | four {b b₁ b₂ b₃ : UInt8} (hb : 0xF0 ≤ b ∧ b ≤ 0xF4) (h₁ : isSecond b b₁ = true)
      (h₂ : isContinuation b₂ = true) (h₃ : isContinuation b₃ = true) :
      Form (Char.ofNat ((b.toNat - 0xF0) * 262144 + low b₁ * 4096 + low b₂ * 64 + low b₃))
        [b, b₁, b₂, b₃]

/-- A character has one form. -/
theorem Form.eq_encodeChar (h : Form c form) : form = encodeChar c := by
  cases h with
  | one hb =>
      rw [UInt8.lt_iff_toNat_lt] at hb
      change _ < 0x80 at hb
      rw [encodeChar, toNat_ofNat_of_valid (by omega), if_pos hb]
      simp
  | @two b b₁ hb h₁ =>
      simp only [UInt8.le_iff_toNat_le, UInt8.reduceToNat] at hb
      rw [isContinuation_iff] at h₁
      rw [encodeChar, toNat_ofNat_of_valid (by unfold low; omega)]
      unfold low
      rw [if_neg (by omega), if_pos (by omega)]
      simp only [List.cons.injEq, and_true, ← UInt8.toNat_inj, UInt8.toNat_ofNat']
      omega
  | @three b b₁ b₂ hb h₁ h₂ =>
      simp only [UInt8.le_iff_toNat_le, UInt8.reduceToNat] at hb
      rw [isSecond_iff] at h₁
      rw [isContinuation_iff] at h₂
      rw [encodeChar, toNat_ofNat_of_valid (by unfold low; omega)]
      unfold low
      rw [if_neg (by omega), if_neg (by omega), if_pos (by omega)]
      simp only [List.cons.injEq, and_true, ← UInt8.toNat_inj, UInt8.toNat_ofNat']
      omega
  | @four b b₁ b₂ b₃ hb h₁ h₂ h₃ =>
      simp only [UInt8.le_iff_toNat_le, UInt8.reduceToNat] at hb
      rw [isSecond_iff] at h₁
      rw [isContinuation_iff] at h₂ h₃
      rw [encodeChar, toNat_ofNat_of_valid (by unfold low; omega)]
      unfold low
      rw [if_neg (by omega), if_neg (by omega), if_neg (by omega)]
      simp only [List.cons.injEq, and_true, ← UInt8.toNat_inj, UInt8.toNat_ofNat']
      omega

/-- Every character has a form. -/
theorem form_encodeChar (c : Char) : Form c (encodeChar c) := by
  have hvalid : c.toNat < 0xD800 ∨ 0xDFFF < c.toNat ∧ c.toNat < 0x110000 := c.valid
  obtain ⟨n, hn⟩ : ∃ n, c.toNat = n := ⟨_, rfl⟩
  have hc : c = Char.ofNat n := by rw [← hn, Char.ofNat_toNat]
  rw [hn] at hvalid
  rw [encodeChar, hn]
  split_ifs with hone htwo hthree
  · generalize hb : n.toUInt8 = b
    rw [← UInt8.toNat_inj, UInt8.toNat_ofNat'] at hb
    have hvalue : b.toNat = n := by omega
    rw [hc, ← hvalue]
    exact .one (by simp only [UInt8.lt_iff_toNat_lt, UInt8.reduceToNat]; omega)
  · generalize hb : (0xC0 + n / 64).toUInt8 = b
    generalize h₁ : (0x80 + n % 64).toUInt8 = b₁
    rw [← UInt8.toNat_inj, UInt8.toNat_ofNat'] at hb h₁
    have hvalue : (b.toNat - 0xC0) * 64 + low b₁ = n := by
      unfold low
      omega
    rw [hc, ← hvalue]
    exact .two (by simp only [UInt8.le_iff_toNat_le, UInt8.reduceToNat]; omega)
      (by rw [isContinuation_iff]; omega)
  · generalize hb : (0xE0 + n / 4096).toUInt8 = b
    generalize h₁ : (0x80 + n / 64 % 64).toUInt8 = b₁
    generalize h₂ : (0x80 + n % 64).toUInt8 = b₂
    rw [← UInt8.toNat_inj, UInt8.toNat_ofNat'] at hb h₁ h₂
    have hvalue : (b.toNat - 0xE0) * 4096 + low b₁ * 64 + low b₂ = n := by
      unfold low
      omega
    rw [hc, ← hvalue]
    exact .three (by simp only [UInt8.le_iff_toNat_le, UInt8.reduceToNat]; omega)
      (by rw [isSecond_iff]; omega) (by rw [isContinuation_iff]; omega)
  · generalize hb : (0xF0 + n / 262144).toUInt8 = b
    generalize h₁ : (0x80 + n / 4096 % 64).toUInt8 = b₁
    generalize h₂ : (0x80 + n / 64 % 64).toUInt8 = b₂
    generalize h₃ : (0x80 + n % 64).toUInt8 = b₃
    rw [← UInt8.toNat_inj, UInt8.toNat_ofNat'] at hb h₁ h₂ h₃
    have hvalue : (b.toNat - 0xF0) * 262144 + low b₁ * 4096 + low b₂ * 64 + low b₃ = n := by
      unfold low
      omega
    rw [hc, ← hvalue]
    exact .four (by simp only [UInt8.le_iff_toNat_le, UInt8.reduceToNat]; omega)
      (by rw [isSecond_iff]; omega) (by rw [isContinuation_iff]; omega)
      (by rw [isContinuation_iff]; omega)

/-- A form at the head of a byte string is found there. -/
theorem Form.firstPart_append (h : Form c (b :: form)) (rest : List UInt8) :
    firstPart b (form ++ rest) = .char c (form.length + 1) := by
  cases h with
  | one hb => simp [firstPart, hb]
  | two hb h₁ =>
      have hone : ¬b < 0x80 := by grind
      simp [firstPart, hone, hb, h₁]
  | three hb h₁ h₂ =>
      have hone : ¬b < 0x80 := by grind
      have htwo : ¬(0xC2 ≤ b ∧ b ≤ 0xDF) := by grind
      simp [firstPart, hone, htwo, hb, h₁, h₂]
  | four hb h₁ h₂ h₃ =>
      have hone : ¬b < 0x80 := by grind
      have htwo : ¬(0xC2 ≤ b ∧ b ≤ 0xDF) := by grind
      have hthree : ¬(0xE0 ≤ b ∧ b ≤ 0xEF) := by grind
      simp [firstPart, hone, htwo, hthree, hb, h₁, h₂, h₃]

/-- A character that is found at the head stands there in its form. -/
theorem form_of_firstPart (h : firstPart b rest = .char c n) :
    Form c (b :: rest.take (n - 1)) ∧ n = (b :: rest.take (n - 1)).length := by
  unfold firstPart at h
  split_ifs at h with hone htwo hthree hfour
  · obtain ⟨rfl, rfl⟩ := Part.char.inj h
    exact ⟨.one hone, by simp⟩
  · split at h
    · split_ifs at h with h₁
      obtain ⟨rfl, rfl⟩ := Part.char.inj h
      exact ⟨.two htwo h₁, by simp⟩
    · cases h
  · split at h
    · split_ifs at h with h₁ h₂
      obtain ⟨rfl, rfl⟩ := Part.char.inj h
      exact ⟨.three hthree h₁ h₂, by simp⟩
    · split_ifs at h
    · cases h
  · split at h
    · split_ifs at h with h₁ h₂ h₃
      obtain ⟨rfl, rfl⟩ := Part.char.inj h
      exact ⟨.four hfour h₁ h₂ h₃, by simp⟩
    · split_ifs at h
    · split_ifs at h
    · cases h

/-! ### The parts of a byte string -/

theorem partsAfter_eq (skip : Nat) (bytes : List UInt8) :
    partsAfter skip bytes = parts (bytes.drop skip) := by
  induction bytes generalizing skip with
  | nil => cases skip <;> rfl
  | cons b rest ih =>
      cases skip with
      | zero => rfl
      | succ skip => exact ih skip

@[simp] theorem parts_nil : parts [] = [] := rfl

theorem parts_cons (b : UInt8) (rest : List UInt8) :
    parts (b :: rest) =
      firstPart b rest :: parts (rest.drop ((firstPart b rest).width - 1)) := by
  rw [← partsAfter_eq]
  rfl

theorem parts_encodeChar_append (c : Char) (rest : List UInt8) :
    parts (encodeChar c ++ rest) = .char c (charWidth c) :: parts rest := by
  have hform := form_encodeChar c
  rw [charWidth]
  cases hbytes : encodeChar c with
  | nil =>
      rw [hbytes] at hform
      nomatch hform
  | cons b form =>
      rw [hbytes] at hform
      rw [List.cons_append, parts_cons, hform.firstPart_append rest]
      simp [Part.width]

theorem parts_encode_append (text : List Char) (rest : List UInt8) :
    parts (encode text ++ rest) = text.map (fun c => .char c (charWidth c)) ++ parts rest := by
  induction text with
  | nil => rfl
  | cons c text ih =>
      rw [encode_cons, List.append_assoc, parts_encodeChar_append, ih]
      rfl

/-! ### Strict decoding -/

theorem charsOf_chars (position : Nat) (text : List Char) :
    charsOf position (text.map fun c => .char c (charWidth c)) = .ok text := by
  induction text generalizing position with
  | nil => rfl
  | cons c text ih => simp [charsOf, ih, Except.map]

theorem decode_encode (text : List Char) : decode (encode text) = .ok text := by
  have hparts := parts_encode_append text []
  rw [List.append_nil, parts_nil, List.append_nil] at hparts
  rw [decode, hparts, charsOf_chars]

theorem exists_of_map_eq_ok {ε α β : Type} {f : α → β} {r : Except ε α} {y : β}
    (h : r.map f = .ok y) : ∃ x, r = .ok x ∧ f x = y := by
  cases r with
  | error e => cases h
  | ok x => exact ⟨x, rfl, Except.ok.inj h⟩

theorem encode_of_charsOf (h : charsOf position (parts bytes) = .ok text) :
    encode text = bytes := by
  induction hlen : bytes.length using Nat.strongRecOn generalizing bytes position text with
  | ind n ih =>
      cases bytes with
      | nil =>
          cases h
          rfl
      | cons b rest =>
          rw [parts_cons] at h
          cases hfirst : firstPart b rest with
          | junk w => simp [hfirst, charsOf] at h
          | char c w =>
              simp only [hfirst, charsOf, Part.width] at h
              obtain ⟨text', hrest, rfl⟩ := exists_of_map_eq_ok h
              have hshort : (rest.drop (w - 1)).length < n := by
                simp only [List.length_cons, List.length_drop] at hlen ⊢
                omega
              rw [encode_cons, ih _ hshort hrest rfl,
                ← (form_of_firstPart hfirst).1.eq_encodeChar, List.cons_append,
                List.take_append_drop]

/-- The only byte string that decodes to a text is the form of that text. -/
theorem decode_eq_ok_iff : decode bytes = .ok text ↔ bytes = encode text := by
  constructor
  · intro h
    exact (encode_of_charsOf h).symm
  · rintro rfl
    exact decode_encode text

/-! ### Lossy decoding -/

theorem decodeLossy_encode_append (text : List Char) (rest : List UInt8) :
    decodeLossy (encode text ++ rest) = text ++ decodeLossy rest := by
  simp [decodeLossy, parts_encode_append, Function.comp_def]

theorem decodeLossy_encode (text : List Char) : decodeLossy (encode text) = text := by
  have h := decodeLossy_encode_append text []
  rwa [List.append_nil, show decodeLossy [] = [] from rfl, List.append_nil] at h

theorem isContinuation_of_ascii (hb : b < 0x80) : isContinuation b = false := by
  simp only [UInt8.lt_iff_toNat_lt, UInt8.reduceToNat] at hb
  rw [Bool.eq_false_iff, ne_eq, isContinuation_iff]
  omega

theorem isSecond_of_ascii (lead : UInt8) (hb : b < 0x80) : isSecond lead b = false := by
  simp only [UInt8.lt_iff_toNat_lt, UInt8.reduceToNat] at hb
  rw [Bool.eq_false_iff, ne_eq, isSecond_iff]
  omega

theorem width_firstPart_le (b : UInt8) (rest : List UInt8) :
    (firstPart b rest).width - 1 ≤ rest.length := by
  fun_cases firstPart b rest <;> simp [Part.width]

/-- An ASCII byte further on says nothing about the part at the head. -/
theorem firstPart_append_ascii {x : UInt8} (hx : x < 0x80) (rest more : List UInt8) :
    firstPart b (rest ++ x :: more) = firstPart b rest := by
  have hcont := isContinuation_of_ascii hx
  have hsecond := isSecond_of_ascii b hx
  unfold firstPart
  split_ifs
  · rfl
  · rcases rest with _ | ⟨b₁, rest⟩ <;> simp [hcont]
  · rcases rest with _ | ⟨b₁, _ | ⟨b₂, rest⟩⟩
    · cases more <;> simp [hsecond]
    · simp [hcont]
    · simp
  · rcases rest with _ | ⟨b₁, _ | ⟨b₂, _ | ⟨b₃, rest⟩⟩⟩
    · rcases more with _ | ⟨m₁, _ | ⟨m₂, more⟩⟩ <;> simp [hsecond]
    · cases more <;> simp [hcont]
    · simp [hcont]
    · simp
  · rfl

/-- No part reaches across an ASCII byte. -/
theorem parts_append_ascii {x : UInt8} (hx : x < 0x80) (bytes more : List UInt8) :
    parts (bytes ++ x :: more) = parts bytes ++ parts (x :: more) := by
  induction hlen : bytes.length using Nat.strongRecOn generalizing bytes with
  | ind n ih =>
      cases bytes with
      | nil => rfl
      | cons b rest =>
          have hwidth := width_firstPart_le b rest
          have hshort : (rest.drop ((firstPart b rest).width - 1)).length < n := by
            simp only [List.length_cons, List.length_drop] at hlen ⊢
            omega
          rw [List.cons_append, parts_cons, parts_cons, firstPart_append_ascii hx,
            List.drop_append_of_le_length hwidth, ih _ hshort _ rfl, List.cons_append]

theorem decodeLossy_append_ascii {x : UInt8} (hx : x < 0x80) (bytes more : List UInt8) :
    decodeLossy (bytes ++ x :: more) = decodeLossy bytes ++ decodeLossy (x :: more) := by
  simp [decodeLossy, parts_append_ascii hx]

end Hosted.Utf8
