import Hosted.Text.Utf16
import Hosted.Proofs.Text.Utf8

/-!
# UTF-16 is read back

A unit that is no surrogate is a character, and so is a high surrogate before a low one.
Decoding is the inverse of encoding, and a text has no form but its own.
-/

namespace Hosted.Utf16

variable {u v : UInt16} {c : Char} {position : Nat} {units rest : List UInt16}
  {text : List Char}

theorem isHigh_iff : isHigh u = true ↔ 0xD800 ≤ u.toNat ∧ u.toNat ≤ 0xDBFF := by
  simp [isHigh, UInt16.le_iff_toNat_le]

theorem isLow_iff : isLow u = true ↔ 0xDC00 ≤ u.toNat ∧ u.toNat ≤ 0xDFFF := by
  simp [isLow, UInt16.le_iff_toNat_le]

/-- The well-formed unit sequences, by their length, each with its character. -/
inductive Form : Char → List UInt16 → Prop where
  | one {u : UInt16} (hhigh : isHigh u = false) (hlow : isLow u = false) :
      Form (Char.ofNat u.toNat) [u]
  | two {u v : UInt16} (hhigh : isHigh u = true) (hlow : isLow v = true) : Form (pair u v) [u, v]

theorem Form.eq_encodeChar (h : Form c units) : units = encodeChar c := by
  cases h with
  | @one u hhigh hlow =>
      have hlt := u.toNat_lt
      rw [Bool.eq_false_iff, ne_eq, isHigh_iff] at hhigh
      rw [Bool.eq_false_iff, ne_eq, isLow_iff] at hlow
      rw [encodeChar, Utf8.toNat_ofNat_of_valid (by omega), if_pos (by omega)]
      simp
  | @two u v hhigh hlow =>
      rw [isHigh_iff] at hhigh
      rw [isLow_iff] at hlow
      rw [encodeChar, pair, Utf8.toNat_ofNat_of_valid (by omega), if_neg (by omega)]
      simp only [List.cons.injEq, and_true, ← UInt16.toNat_inj, UInt16.toNat_ofNat']
      omega

theorem form_encodeChar (c : Char) : Form c (encodeChar c) := by
  have hvalid : c.toNat < 0xD800 ∨ 0xDFFF < c.toNat ∧ c.toNat < 0x110000 := c.valid
  obtain ⟨n, hn⟩ : ∃ n, c.toNat = n := ⟨_, rfl⟩
  have hc : c = Char.ofNat n := by rw [← hn, Char.ofNat_toNat]
  rw [hn] at hvalid
  rw [encodeChar, hn]
  split_ifs with hone
  · generalize hu : n.toUInt16 = u
    rw [← UInt16.toNat_inj, UInt16.toNat_ofNat'] at hu
    have hvalue : u.toNat = n := by omega
    rw [hc, ← hvalue]
    exact .one (by rw [Bool.eq_false_iff, ne_eq, isHigh_iff]; omega)
      (by rw [Bool.eq_false_iff, ne_eq, isLow_iff]; omega)
  · generalize hu : (0xD800 + (n - 0x10000) / 1024).toUInt16 = u
    generalize hv : (0xDC00 + (n - 0x10000) % 1024).toUInt16 = v
    rw [← UInt16.toNat_inj, UInt16.toNat_ofNat'] at hu hv
    have hvalue : 0x10000 + (u.toNat - 0xD800) * 1024 + (v.toNat - 0xDC00) = n := by omega
    rw [hc, ← hvalue]
    exact .two (by rw [isHigh_iff]; omega) (by rw [isLow_iff]; omega)

theorem decodeFrom_encodeChar_append (c : Char) (position : Nat) (rest : List UInt16) :
    decodeFrom position (encodeChar c ++ rest) =
      (decodeFrom (position + (encodeChar c).length) rest).map (c :: ·) := by
  have hform := form_encodeChar c
  generalize encodeChar c = units at hform
  cases hform with
  | one hhigh hlow => cases rest <;> simp [decodeFrom, hhigh, hlow, Except.map]
  | two hhigh hlow => simp [decodeFrom, hhigh, hlow]

theorem decodeFrom_encode (position : Nat) (text : List Char) :
    decodeFrom position (encode text) = .ok text := by
  induction text generalizing position with
  | nil => rfl
  | cons c text ih =>
      rw [encode_cons, decodeFrom_encodeChar_append, ih]
      rfl

theorem encode_of_decodeFrom (h : decodeFrom position units = .ok text) :
    encode text = units := by
  fun_induction decodeFrom position units generalizing text with
  | case1 =>
      cases h
      rfl
  | case2 => cases h
  | case3 position u hsurrogate =>
      obtain ⟨hhigh, hlow⟩ : isHigh u = false ∧ isLow u = false := by simpa using hsurrogate
      cases h
      rw [encode_cons, ← (Form.one hhigh hlow).eq_encodeChar, encode_nil, List.append_nil]
  | case4 position u v rest hhigh hlow ih =>
      obtain ⟨text', hrest, rfl⟩ := Utf8.exists_of_map_eq_ok h
      rw [encode_cons, ← (Form.two hhigh hlow).eq_encodeChar, ih hrest]
      rfl
  | case5 => cases h
  | case6 => cases h
  | case7 position u v rest hhigh hlow ih =>
      obtain ⟨text', hrest, rfl⟩ := Utf8.exists_of_map_eq_ok h
      rw [Bool.not_eq_true] at hhigh hlow
      rw [encode_cons, ← (Form.one hhigh hlow).eq_encodeChar, ih hrest]
      rfl

/-- The only unit string that decodes to a text is the form of that text. -/
theorem decode_eq_ok_iff : decode units = .ok text ↔ units = encode text := by
  constructor
  · intro h
    exact (encode_of_decodeFrom h).symm
  · rintro rfl
    exact decodeFrom_encode 0 text

end Hosted.Utf16
