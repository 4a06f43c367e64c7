import Hosted.Facet.Transcoder
import Hosted.Proofs.Text.Utf8
import Hosted.Proofs.Text.Utf16

/-!
# Transcoding there and back

Both conversions go through the text, which has one form in each encoding. So each undoes
the other, and each accepts the forms of texts and nothing else.
-/

namespace Hosted.Transcoder

variable {bytes : List UInt8} {units : List UInt16}

theorem toUtf16_eq_ok_iff :
    toUtf16 bytes = .ok units ↔
      ∃ text, bytes = Utf8.encode text ∧ units = Utf16.encode text := by
  constructor
  · intro h
    unfold toUtf16 at h
    cases hdecode : Utf8.decode bytes with
    | error position => simp [hdecode] at h
    | ok text =>
        rw [hdecode] at h
        exact ⟨text, Utf8.decode_eq_ok_iff.1 hdecode, (Except.ok.inj h).symm⟩
  · rintro ⟨text, rfl, rfl⟩
    rw [toUtf16, Utf8.decode_encode]

theorem toText_eq_ok_iff {text : List Char} :
    toText units = .ok text ↔ units = Utf16.encode text := by
  rw [← Utf16.decode_eq_ok_iff, toText]
  cases Utf16.decode units <;> simp

theorem toUtf8_eq_ok_iff :
    toUtf8 units = .ok bytes ↔
      ∃ text, bytes = Utf8.encode text ∧ units = Utf16.encode text := by
  constructor
  · intro h
    obtain ⟨text, htext, rfl⟩ := Utf8.exists_of_map_eq_ok h
    exact ⟨text, rfl, toText_eq_ok_iff.1 htext⟩
  · rintro ⟨text, rfl, hunits⟩
    rw [toUtf8, toText_eq_ok_iff.2 hunits]
    rfl

/-- The conversions are inverse to each other, and are defined on the forms of texts. -/
theorem toUtf16_toUtf8_bijective :
    (∀ bytes units, toUtf16 bytes = .ok units ↔ toUtf8 units = .ok bytes) ∧
      (∀ bytes, (∃ units, toUtf16 bytes = .ok units) ↔ ∃ text, bytes = Utf8.encode text) ∧
        ∀ units, (∃ bytes, toUtf8 units = .ok bytes) ↔ ∃ text, units = Utf16.encode text := by
  refine ⟨fun bytes units => ?_, fun bytes => ?_, fun units => ?_⟩
  · rw [toUtf16_eq_ok_iff, toUtf8_eq_ok_iff]
  · simp only [toUtf16_eq_ok_iff]
    exact ⟨fun ⟨_, text, hbytes, _⟩ => ⟨text, hbytes⟩,
      fun ⟨text, hbytes⟩ => ⟨Utf16.encode text, text, hbytes, rfl⟩⟩
  · simp only [toUtf8_eq_ok_iff]
    exact ⟨fun ⟨_, text, _, hunits⟩ => ⟨text, hunits⟩,
      fun ⟨text, hunits⟩ => ⟨Utf8.encode text, text, rfl, hunits⟩⟩

/-- The last character of three bytes takes one unit, the first of four bytes takes two. -/
example : toUtf16 [0xEF, 0xBF, 0xBF, 0xF0, 0x90, 0x80, 0x80] =
    .ok [0xFFFF, 0xD800, 0xDC00] := rfl

end Hosted.Transcoder
