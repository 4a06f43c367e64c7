import Hosted.Proofs.Terminated.Content
import Hosted.Proofs.Terminated.InPlace

/-!
# Bounded copies

A bounded copy fills a field of a fixed number of units at the front of a buffer: with the
content of the source, cut to the field, and then with zeros. Behind the field the buffer stays
as it was. Bytes and wide units are copied alike, although the length of the content is measured
differently: bytes only up to the end of the field, wide units to their own end. A copy with its
terminator is the bounded copy into a field of just that size.
-/

namespace Hosted

/-- A field of `count` units that begins with the units of `text`, as far as they fit, and ends
with zeros. -/
def filledField {α : Type} [OfNat α 0] (count : Nat) (text : List α) : List α :=
  (text.take count).rightpad count 0

section

variable {α : Type} [OfNat α 0]

theorem length_filledField (count : Nat) (text : List α) :
    (filledField count text).length = count := by
  rw [filledField, List.rightpad, List.length_append, List.length_take, List.length_replicate]
  omega

variable [DecidableEq α]

/-- A buffer with the content of the source in a field at its front, if it has room for one. -/
def fill (dest source : List α) (count : Nat) : Except CountTooLarge (List α) :=
  if count ≤ dest.length then .ok (filledField count (content source) ++ dest.drop count)
  else .error ⟨count, dest.length⟩

theorem fill_of_le {dest : List α} {count : Nat} (h : count ≤ dest.length) (source : List α) :
    fill dest source count = .ok (filledField count (content source) ++ dest.drop count) :=
  if_pos h

/-- Taking as much of the source as of its content that fits, then zeros, fills the field. -/
theorem take_append_replicate (source : List α) (count : Nat) :
    source.take (min (terminatedLength source) count) ++
        List.replicate (count - min (terminatedLength source) count) 0 =
      filledField count (content source) := by
  have hlength : ((content source).take count).length = min (terminatedLength source) count := by
    rw [List.length_take, length_content, Nat.min_comm]
  rw [filledField, List.rightpad, hlength, content, List.take_take, Nat.min_comm count]

end

/-! ## Narrow and wide -/

namespace Narrow

theorem boundedLength_eq (source : List UInt8) (count : Nat) :
    boundedLength source count = min (terminatedLength source) count :=
  terminatedLength_take source count

theorem boundedCopy_eq_fill (dest source : List UInt8) (count : Nat) :
    boundedCopy dest source count = fill dest source count := by
  simp only [boundedCopy, fill, boundedLength_eq, take_append_replicate]

theorem copy_eq (dest source : List UInt8) :
    copy dest source =
      if length source < dest.length then
        .ok (length source + 1, content source ++ 0 :: dest.drop (length source + 1))
      else .error ⟨length source, dest.length⟩ := rfl

end Narrow

theorem Wide.boundedCopy_eq_fill (dest source : List UInt16) (count : Nat) :
    boundedCopy dest source count = fill dest source count := by
  simp only [boundedCopy, fill, length, ← List.append_assoc, take_append_replicate]

section

variable {ε σ β : Type}

end

namespace Narrow

variable {dest source : List UInt8} {count : Nat}

/-- What a copy answers as a function it does in place. -/
theorem run_boundedCopyInPlace {after : List UInt8}
    (h : boundedCopy dest source count = .ok after) :
    (boundedCopyInPlace source count).run dest = .ok () after := by
  rw [boundedCopyInPlace_eq, run_transaction, h]
  rfl

theorem run_copyInPlace {written : Nat} {after : List UInt8}
    (h : copy dest source = .ok (written, after)) :
    (copyInPlace source).run dest = .ok written after := by
  rw [copyInPlace_eq, run_transaction, h]
  rfl

end Narrow

namespace Wide

variable {dest source : List UInt16} {count : Nat}

theorem run_boundedCopyInPlace {after : List UInt16}
    (h : boundedCopy dest source count = .ok after) :
    (boundedCopyInPlace source count).run dest = .ok () after := by
  rw [boundedCopyInPlace_eq, run_transaction, h]
  rfl

end Wide

/-! ## How the copies agree -/

example : Narrow.boundedCopy [0xFF, 0xFF, 0xFF, 0xFF] [0x61, 0, 0x62] 3 =
    .ok [0x61, 0, 0, 0xFF] := by
  decide

end Hosted
