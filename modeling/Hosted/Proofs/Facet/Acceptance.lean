import Hosted.Proofs.Facet.Transcoder
import Hosted.Proofs.Text.Reach
import Hosted.Proofs.Text.WellFormed

/-!
# What transcoding accepts

A conversion succeeds just on well-formed input. Otherwise it names the length of the longest
part at the front of its input that it would have converted.
-/

namespace Hosted.Transcoder

variable {α β : Type} {bytes : List UInt8} {units : List UInt16} {p : Nat}

/-- `position` is the length of the longest prefix of `input` that is converted. -/
def IsReach (convert : List α → Except ConversionError (List β)) (input : List α)
    (position : Nat) : Prop :=
  IsGreatest
    {n | ∃ front, front <+: input ∧ front.length = n ∧ ∃ result, convert front = .ok result}
    position

/-- If a conversion accepts the forms of texts, it reaches as far as these do. -/
theorem isReach_of_isGreatest {convert : List α → Except ConversionError (List β)}
    {encode : List Char → List α}
    (haccepts : ∀ front, (∃ result, convert front = .ok result) ↔ ∃ text, front = encode text)
    {input : List α} (h : IsGreatest (textLengths encode input) p) : IsReach convert input p := by
  have hlengths : {n | ∃ front, front <+: input ∧ front.length = n ∧
      ∃ result, convert front = .ok result} = textLengths encode input := by
    ext n
    constructor
    · rintro ⟨front, hfront, hn, hresult⟩
      obtain ⟨text, rfl⟩ := (haccepts front).1 hresult
      exact ⟨text, hfront, hn⟩
    · rintro ⟨text, htext, hn⟩
      exact ⟨encode text, htext, hn, (haccepts _).2 ⟨text, rfl⟩⟩
  rw [IsReach, hlengths]
  exact h

/-- A conversion that fails tells how far it reaches, and it tells nothing else. -/
theorem eq_error_iff {convert : List α → Except ConversionError (List β)} {input : List α}
    {Accepted : Prop} (haccepts : (∃ result, convert input = .ok result) ↔ Accepted)
    (hreach : ∀ e, convert input = .error e → IsReach convert input e.position)
    (e : ConversionError) :
    convert input = .error e ↔ ¬Accepted ∧ IsReach convert input e.position := by
  constructor
  · intro h
    refine ⟨fun hok => ?_, hreach e h⟩
    obtain ⟨result, hresult⟩ := haccepts.2 hok
    rw [h] at hresult
    cases hresult
  · rintro ⟨hnot, he⟩
    cases hconvert : convert input with
    | ok result => exact absurd (haccepts.1 ⟨result, hconvert⟩) hnot
    | error e' =>
        have hposition : e'.position = e.position := (hreach e' hconvert).unique he
        have he' : e' = e := congrArg ConversionError.mk hposition
        rw [he']

theorem exists_toUtf16_iff : (∃ units, toUtf16 bytes = .ok units) ↔ Utf8.WellFormed bytes := by
  rw [Utf8.wellFormed_iff]
  simp only [toUtf16_eq_ok_iff]
  constructor
  · rintro ⟨_, text, hbytes, _⟩
    exact ⟨text, hbytes⟩
  · rintro ⟨text, hbytes⟩
    exact ⟨Utf16.encode text, text, hbytes, rfl⟩

theorem exists_toUtf8_iff : (∃ bytes, toUtf8 units = .ok bytes) ↔ Utf16.Paired units := by
  rw [Utf16.paired_iff]
  simp only [toUtf8_eq_ok_iff]
  constructor
  · rintro ⟨_, text, _, hunits⟩
    exact ⟨text, hunits⟩
  · rintro ⟨text, hunits⟩
    exact ⟨Utf8.encode text, text, rfl, hunits⟩

theorem isReach_toUtf16 {e : ConversionError} (h : toUtf16 bytes = .error e) :
    IsReach toUtf16 bytes e.position := by
  unfold toUtf16 at h
  cases hdecode : Utf8.decode bytes with
  | ok text => simp [hdecode] at h
  | error p =>
      rw [hdecode] at h
      obtain rfl : ⟨p⟩ = e := Except.error.inj h
      exact isReach_of_isGreatest (fun _ => exists_toUtf16_iff.trans Utf8.wellFormed_iff)
        (Utf8.isGreatest_of_decode_eq_error hdecode)

theorem isReach_toUtf8 {e : ConversionError} (h : toUtf8 units = .error e) :
    IsReach toUtf8 units e.position := by
  have htext : toText units = .error e := exists_of_map_eq_error h
  unfold toText at htext
  cases hdecode : Utf16.decode units with
  | ok text => simp [hdecode] at htext
  | error p =>
      rw [hdecode] at htext
      obtain rfl : ⟨p⟩ = e := Except.error.inj htext
      exact isReach_of_isGreatest (fun _ => exists_toUtf8_iff.trans Utf16.paired_iff)
        (Utf16.isGreatest_of_decode_eq_error hdecode)

/-- The conversions accept well-formed input and nothing else, and where they fail, they name
the length of the longest prefix that they accept. -/
theorem acceptance :
    (∀ bytes, (∃ units, toUtf16 bytes = .ok units) ↔ Utf8.WellFormed bytes) ∧
      (∀ units, (∃ bytes, toUtf8 units = .ok bytes) ↔ Utf16.Paired units) ∧
        (∀ bytes e, toUtf16 bytes = .error e ↔
          ¬Utf8.WellFormed bytes ∧ IsReach toUtf16 bytes e.position) ∧
          ∀ units e, toUtf8 units = .error e ↔
            ¬Utf16.Paired units ∧ IsReach toUtf8 units e.position :=
  ⟨fun _ => exists_toUtf16_iff, fun _ => exists_toUtf8_iff,
    fun _ => eq_error_iff exists_toUtf16_iff fun _ => isReach_toUtf16,
    fun _ => eq_error_iff exists_toUtf8_iff fun _ => isReach_toUtf8⟩

/-- A surrogate in UTF-8, and a high surrogate between a character and another one. -/
example : toUtf16 [0x61, 0xED, 0xA0, 0x80] = .error ⟨1⟩ ∧
    toUtf8 [0xE9, 0xD800, 0xDBFF, 0xDC00] = .error ⟨1⟩ := by decide

end Hosted.Transcoder
