import Hosted.Proofs.Transactions
import Hosted.Terminated.Narrow
import Hosted.Terminated.Wide

/-!
# Copies in place

A copy checks the room in the buffer first and then writes to it piece by piece. Each write
panics on its own if it does not fit. As none does once the check has been passed, a copy
that panics has written nothing.
-/

namespace Hosted

/-- Why a copy panics. -/
inductive Panic (ε : Type) where
  /-- The check of the buffer refused the copy. -/
  | refused (e : ε)
  /-- A piece of the source or of the buffer was out of range. -/
  | outOfRange
  deriving DecidableEq, Repr

variable {ε σ α : Type}

/-- The first `n` units of the source. -/
def firstUnits (source : List α) (n : Nat) : EStateM (Panic ε) σ (List α) := do
  unless n ≤ source.length do throw .outOfRange
  return source.take n

/-- Overwrites units of the buffer, from `start` on. -/
def write (start : Nat) (units : List α) : EStateM (Panic ε) (List α) Unit := do
  unless start + units.length ≤ (← get).length do throw .outOfRange
  modify fun dest => dest.take start ++ units ++ dest.drop (start + units.length)

/-- Writes `n` units of the source to the front of the buffer, and `rest` after them. -/
def writeFront (n : Nat) (source rest : List α) : EStateM (Panic ε) (List α) Unit := do
  write 0 (← firstUnits source n)
  write n rest

theorem run_firstUnits {source : List α} {n : Nat} (hn : n ≤ source.length) (s : σ) :
    (firstUnits (ε := ε) source n).run s = .ok (source.take n) s := by
  simp [firstUnits, hn]

theorem run_write {start : Nat} {units dest : List α}
    (h : start + units.length ≤ dest.length) :
    (write (ε := ε) start units).run dest =
      .ok () (dest.take start ++ units ++ dest.drop (start + units.length)) := by
  simp [write, h]

/-- With enough room, no write is out of range. -/
theorem run_writeFront {n : Nat} {source rest dest : List α} (hsource : n ≤ source.length)
    (hroom : n + rest.length ≤ dest.length) :
    (writeFront (ε := ε) n source rest).run dest =
      .ok () (source.take n ++ (rest ++ dest.drop (n + rest.length))) := by
  have htake : (source.take n).length = n := List.length_take_of_le hsource
  have hfirst : 0 + (source.take n).length ≤ dest.length := by omega
  have hwritten : (writeFront (ε := ε) n source rest).run dest =
      (write n rest).run (source.take n ++ dest.drop n) := by
    simp [writeFront, run_firstUnits hsource, run_write hfirst, htake]
  have hrest : n + rest.length ≤ (source.take n ++ dest.drop n).length := by
    rw [List.length_append, htake, List.length_drop]
    omega
  rw [hwritten, run_write hrest]
  simp [htake, List.drop_append]

/-- Fills the first `count` units of the buffer: `n` units of the source, then zeros. -/
def fillInPlace [OfNat α 0] (n count : Nat) (source : List α) :
    EStateM (Panic CountTooLarge) (List α) Unit := do
  let dest ← get
  unless count ≤ dest.length do throw (.refused ⟨count, dest.length⟩)
  writeFront n source (List.replicate (count - n) 0)

theorem fillInPlace_eq [OfNat α 0] {n count : Nat} {source : List α} (hcount : n ≤ count)
    (hsource : n ≤ source.length) :
    fillInPlace n count source = transaction fun dest =>
      if count ≤ dest.length then
        .ok ((), source.take n ++ (List.replicate (count - n) 0 ++ dest.drop count))
      else .error (.refused ⟨count, dest.length⟩) := by
  funext dest
  change (fillInPlace n count source).run dest = (transaction _).run dest
  rw [run_transaction]
  have hlast : n + (List.replicate (count - n) (0 : α)).length = count := by
    rw [List.length_replicate, Nat.add_sub_cancel' hcount]
  by_cases hroom : count ≤ dest.length
  · have hwritten := run_writeFront (ε := CountTooLarge) hsource (hlast ▸ hroom)
    rw [hlast] at hwritten
    simp [fillInPlace, hroom, hwritten]
  · simp [fillInPlace, hroom]

/-- Filling fails for want of room, and then nothing has been written. -/
theorem run_fillInPlace_eq_error [OfNat α 0] {n count : Nat} {source dest left : List α}
    {e : Panic CountTooLarge} (hcount : n ≤ count) (hsource : n ≤ source.length) :
    (fillInPlace n count source).run dest = .error e left ↔
      dest.length < count ∧ e = .refused ⟨count, dest.length⟩ ∧ left = dest := by
  rw [fillInPlace_eq hcount hsource, run_transaction_eq_error, ← and_assoc]
  refine and_congr_left' ?_
  by_cases hroom : count ≤ dest.length
  · simp [hroom, Nat.not_lt.2 hroom]
  · simp [hroom, Nat.lt_of_not_le hroom, eq_comm]

/-! ## Narrow strings -/

namespace Narrow

/-- A copy in place: the content of the source, then the terminator. -/
def copyInPlace (source : List UInt8) : EStateM (Panic StringTooLong) (List UInt8) Nat := do
  let dest ← get
  unless length source < dest.length do throw (.refused ⟨length source, dest.length⟩)
  writeFront (length source) source [0]
  return length source + 1

theorem copyInPlace_eq (source : List UInt8) :
    copyInPlace source = transaction fun dest => (copy dest source).mapError .refused := by
  funext dest
  change (copyInPlace source).run dest = (transaction _).run dest
  rw [run_transaction, copy]
  have hsource : length source ≤ source.length := terminatedLength_le source
  by_cases hroom : length source < dest.length
  · have hwritten : (writeFront (ε := StringTooLong) (length source) source [0]).run dest =
        .ok () (source.take (length source) ++ 0 :: dest.drop (length source + 1)) :=
      run_writeFront hsource hroom
    have hrun : (copyInPlace source).run dest = .ok (length source + 1)
        (source.take (length source) ++ 0 :: dest.drop (length source + 1)) := by
      simp [copyInPlace, hroom, hwritten, -bind_pure_comp]
    rw [if_pos hroom]
    exact hrun
  · have hrun : (copyInPlace source).run dest =
        .error (.refused ⟨length source, dest.length⟩) dest := by
      simp [copyInPlace, hroom]
    rw [if_neg hroom]
    exact hrun

/-- A copy fails for want of room, and then nothing has been written. -/
theorem run_copyInPlace_eq_error {source dest left : List UInt8} {e : Panic StringTooLong} :
    (copyInPlace source).run dest = .error e left ↔
      dest.length ≤ length source ∧ e = .refused ⟨length source, dest.length⟩ ∧
        left = dest := by
  rw [copyInPlace_eq, run_transaction_eq_error, ← and_assoc, copy]
  refine and_congr_left' ?_
  by_cases hroom : length source < dest.length
  · rw [if_pos hroom]
    exact iff_of_false (fun h => nomatch h) fun h => absurd h.1 (Nat.not_le.2 hroom)
  · rw [if_neg hroom]
    constructor
    · intro h
      cases h
      exact ⟨Nat.le_of_not_lt hroom, rfl⟩
    · rintro ⟨-, rfl⟩
      rfl

/-- A bounded copy in place. -/
def boundedCopyInPlace (source : List UInt8) (count : Nat) :
    EStateM (Panic CountTooLarge) (List UInt8) Unit :=
  fillInPlace (boundedLength source count) count source

theorem boundedLength_le (source : List UInt8) (count : Nat) :
    boundedLength source count ≤ count ∧ boundedLength source count ≤ source.length := by
  have hlength : boundedLength source count ≤ (source.take count).length :=
    terminatedLength_le _
  rwa [List.length_take, Nat.le_min] at hlength

theorem boundedCopyInPlace_eq (source : List UInt8) (count : Nat) :
    boundedCopyInPlace source count = transaction fun dest =>
      ((boundedCopy dest source count).map ((), ·)).mapError .refused := by
  obtain ⟨hcount, hsource⟩ := boundedLength_le source count
  rw [boundedCopyInPlace, fillInPlace_eq hcount hsource]
  congr 1
  funext dest
  simp only [boundedCopy, List.append_assoc]
  split <;> rfl

end Narrow

/-! ## Wide strings -/

namespace Wide

/-- A bounded copy in place. -/
def boundedCopyInPlace (source : List UInt16) (count : Nat) :
    EStateM (Panic CountTooLarge) (List UInt16) Unit :=
  fillInPlace (min (length source) count) count source

theorem min_length_le (source : List UInt16) (count : Nat) :
    min (length source) count ≤ source.length :=
  Nat.le_trans (Nat.min_le_left _ _) (terminatedLength_le source)

theorem boundedCopyInPlace_eq (source : List UInt16) (count : Nat) :
    boundedCopyInPlace source count = transaction fun dest =>
      ((boundedCopy dest source count).map ((), ·)).mapError .refused := by
  rw [boundedCopyInPlace, fillInPlace_eq (Nat.min_le_right _ _) (min_length_le source count)]
  congr 1
  funext dest
  simp only [boundedCopy]
  split <;> rfl

end Wide

end Hosted
