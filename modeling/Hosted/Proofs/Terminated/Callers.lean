import Hosted.Proofs.Terminated.Addresses
import Hosted.Proofs.Terminated.Copies
import Hosted.Proofs.Terminated.LastOccurrence
import Hosted.Terminated.Caller

/-!
# Calls from C

An entry point for callers in C measures the string at an address, cuts the source and the
buffer to the extent that it needs, and has the one copied into the other. On a terminated string
and a buffer with room for what is asked, that comes to the copy between the whole of both: no
address is read or written outside of them, no copy panics, the buffer is left as the copy
leaves it and all other memory as it was.
-/

namespace Hosted

variable {α : Type}

/-- What a caller passes: the address of a terminated string, with any units behind its
terminator, and the address of a buffer apart from it. -/
structure Call (α : Type) [OfNat α 0] where
  memory : Memory α
  source : Nat
  text : List α
  rest : List α
  dest : Nat
  buffer : List α
  zero_not_mem : 0 ∉ text
  /-- The size of an object is a machine word. -/
  size_lt : (text ++ 0 :: rest).length < UInt64.size
  holds_source : memory.Holds source (text ++ 0 :: rest)
  holds_dest : memory.Holds dest buffer
  apart : dest + buffer.length ≤ source ∨ source + (text ++ 0 :: rest).length ≤ dest

namespace Call

section

variable [OfNat α 0] (c : Call α)

/-- The units at the address of the source. -/
def units : List α := c.text ++ 0 :: c.rest

/-- The program returns the address of the buffer, in which it leaves `after`. All other memory,
the source with it, is as it was. -/
def Leaves {ε : Type} (p : EStateM (Trap ε) (Memory α) Nat) (after : List α) : Prop :=
  ∃ m : Memory α, p.run c.memory = .ok c.dest m ∧
    m.Holds c.dest after ∧ after.length = c.buffer.length ∧
    m.Holds c.source c.units ∧
    ∀ address, address < c.dest ∨ c.dest + c.buffer.length ≤ address →
      m.unit? address = c.memory.unit? address

/-- What is written to the front of the buffer changes no other memory. -/
theorem leaves_of_run {ε : Type} {p : EStateM (Trap ε) (Memory α) Nat} {front : List α}
    (hle : front.length ≤ c.buffer.length)
    (hp : p.run c.memory = .ok c.dest (c.memory.store c.dest front)) :
    c.Leaves p (front ++ c.buffer.drop front.length) := by
  refine ⟨_, hp, c.holds_dest.store_front hle, ?_, ?_, ?_⟩
  · rw [List.length_append, List.length_drop]
    omega
  · have hapart := c.apart
    apply c.holds_source.congr
    intro address hge hlt
    exact Memory.unit?_store (by omega)
  · intro address houtside
    exact Memory.unit?_store (by omega)

theorem take_units : c.units.take (c.text.length + 1) = c.text ++ [0] := by
  have hunits : c.units = (c.text ++ [0]) ++ c.rest := by simp [units]
  rw [hunits]
  exact List.take_left' (by rw [List.length_append]; rfl)

theorem text_length_le : c.text.length ≤ Caller.unbounded := by
  have hsize := c.size_lt
  rw [List.length_append, List.length_cons] at hsize
  unfold Caller.unbounded
  omega

variable [DecidableEq α]

theorem terminatedLength_units : terminatedLength c.units = c.text.length := by
  rw [units, terminatedLength_append_zero, terminatedLength_of_zero_not_mem c.zero_not_mem]

theorem content_units : content c.units = c.text := by
  rw [content, terminatedLength_units, units, List.take_left]

end

end Call

/-! ## Measuring and cutting -/

theorem Caller.scan_eq [DecidableEq α] [OfNat α 0] (bound : Nat) (source : List α) :
    scan bound source = min (terminatedLength source) bound := by
  induction source generalizing bound with
  | nil => simp [scan]
  | cons u rest ih =>
      rw [scan, terminatedLength_cons]
      by_cases hstops : bound = 0 ∨ u = 0
      · rw [if_pos hstops]
        rcases hstops with rfl | rfl <;> simp
      · rw [if_neg hstops, ih]
        rw [not_or] at hstops
        rw [if_neg hstops.2]
        omega

namespace Call

section

variable {ε : Type} [OfNat α 0] (c : Call α)

/-- The slice of the string with its terminator. -/
theorem run_sliceAt_text :
    (sliceAt (ε := ε) c.source (c.text.length + 1)).run c.memory =
      .ok (c.text ++ [0]) c.memory := by
  have hheld : c.memory.Holds c.source ((c.text ++ [0]) ++ c.rest) := by
    simpa using c.holds_source
  have hslice := run_sliceAt (ε := ε) hheld
  rwa [List.length_append, List.length_singleton] at hslice

/-- The slice of as much of the string as comes before a bound. -/
theorem run_sliceAt_take (bound : Nat) :
    (sliceAt (ε := ε) c.source (min c.text.length bound)).run c.memory =
      .ok (c.text.take bound) c.memory := by
  have hheld : c.memory.Holds c.source
      (c.text.take bound ++ (c.text.drop bound ++ 0 :: c.rest)) := by
    rw [← List.append_assoc, List.take_append_drop]
    exact c.holds_source
  have hslice := run_sliceAt (ε := ε) hheld
  rwa [List.length_take, Nat.min_comm] at hslice

/-- A program that comes to its end on the front of the buffer leaves there what it leaves in a
buffer of that size. -/
theorem run_onSlice_take {β : Type} {p : EStateM (Panic ε) (List α) β} {answer : β} {count : Nat}
    {front : List α} (hroom : count ≤ c.buffer.length)
    (hp : p.run (c.buffer.take count) = .ok answer front) :
    (onSlice c.dest count p).run c.memory = .ok answer (c.memory.store c.dest front) := by
  have hheld : c.memory.Holds c.dest (c.buffer.take count ++ c.buffer.drop count) := by
    rw [List.take_append_drop]
    exact c.holds_dest
  have hslice := run_onSlice hheld hp
  rwa [List.length_take_of_le hroom] at hslice

end

section

variable {ε : Type} [DecidableEq α] [OfNat α 0] (c : Call α)

theorem run_scanAt (bound : Nat) :
    (scanAt (ε := ε) c.source bound).run c.memory = .ok (min c.text.length bound) c.memory := by
  rw [Hosted.run_scanAt c.holds_source (.inr (by simp)), ← units, c.terminatedLength_units]

theorem run_scanAt_unbounded :
    (scanAt (ε := ε) c.source Caller.unbounded).run c.memory = .ok c.text.length c.memory := by
  rw [c.run_scanAt, Nat.min_eq_left c.text_length_le]

theorem scan_eq (bound : Nat) : Caller.scan bound c.units = min c.text.length bound := by
  rw [Caller.scan_eq, c.terminatedLength_units]

theorem scan_unbounded : Caller.scan Caller.unbounded c.units = c.text.length := by
  rw [c.scan_eq, Nat.min_eq_left c.text_length_le]

end

end Call

/-! ## The entry points by address -/

namespace Caller

/-- The length of the string at an address. -/
def lengthAt [DecidableEq α] [OfNat α 0] (source : Nat) : EStateM (Trap Empty) (Memory α) Nat :=
  scanAt source unbounded

/-- Copies the byte string at an address, with its terminator. -/
def copyAt (dest source : Nat) : EStateM (Trap Narrow.StringTooLong) (Memory UInt8) Nat := do
  let length ← scanAt source unbounded
  let units ← sliceAt source (length + 1)
  let _ ← onSlice dest (length + 1) (Narrow.copyInPlace units)
  return dest

/-- Fills `count` units from the string at an address by a bounded copy. -/
def fillAt [DecidableEq α] [OfNat α 0]
    (copy : List α → Nat → EStateM (Panic CountTooLarge) (List α) Unit)
    (dest source count : Nat) : EStateM (Trap CountTooLarge) (Memory α) Nat := do
  let length ← scanAt source count
  let units ← sliceAt source length
  onSlice dest count (copy units count)
  return dest

/-- Fills `count` bytes from the byte string at an address. -/
def boundedCopyAt : Nat → Nat → Nat → EStateM (Trap CountTooLarge) (Memory UInt8) Nat :=
  fillAt Narrow.boundedCopyInPlace

/-- Fills `count` units from the wide string at an address. -/
def wideBoundedCopyAt : Nat → Nat → Nat → EStateM (Trap CountTooLarge) (Memory UInt16) Nat :=
  fillAt Wide.boundedCopyInPlace

/-- The address of the last `u` in the wide string at an address, the terminator included. -/
def wideLastOccurrenceAt (source : Nat) (u : UInt16) :
    EStateM (Trap Empty) (Memory UInt16) (Option Nat) := do
  let length ← scanAt source unbounded
  let units ← sliceAt source (length + 1)
  return (Wide.lastOccurrence? units u).map (source + ·)

end Caller

/-! ## Bounded copies -/

namespace Call

section

variable [DecidableEq α] [OfNat α 0] (c : Call α) {count : Nat}

/-- What a bounded copy is given of the source. -/
theorem take_scan (count : Nat) :
    c.units.take (Caller.scan count c.units) = c.text.take count := by
  rw [c.scan_eq, units, List.take_append_of_le_length (Nat.min_le_left _ _), Nat.min_comm,
    ← List.take_take, List.take_length]

/-- The copy between the whole of source and buffer. -/
theorem fill_units (hroom : count ≤ c.buffer.length) :
    fill c.buffer c.units count = .ok (filledField count c.text ++ c.buffer.drop count) := by
  rw [fill_of_le hroom, c.content_units]

/-- The copy between the parts that the caller's entry point cuts out. -/
theorem fill_cut (hroom : count ≤ c.buffer.length) :
    fill (c.buffer.take count) (c.text.take count) count = .ok (filledField count c.text) := by
  have hcut : (c.buffer.take count).length = count := List.length_take_of_le hroom
  have hzero : 0 ∉ c.text.take count := fun h => c.zero_not_mem (List.mem_of_mem_take h)
  rw [fill_of_le hcut.ge, content_of_zero_not_mem hzero, List.drop_of_length_le hcut.le,
    List.append_nil, filledField, filledField, List.take_take, Nat.min_self]

/-- A bounded copy by address returns the buffer, as the copy between the whole of source and
buffer leaves it. Whatever the units are, the copy between them need only fill a field, and do the
same in place. -/
theorem leaves_fillAt {copy : List α → List α → Nat → Except CountTooLarge (List α)}
    {copyInPlace : List α → Nat → EStateM (Panic CountTooLarge) (List α) Unit}
    (hfill : ∀ dest source count, copy dest source count = fill dest source count)
    (hinPlace : ∀ {dest source after : List α} {count : Nat}, copy dest source count = .ok after →
      (copyInPlace source count).run dest = .ok () after)
    (hroom : count ≤ c.buffer.length) :
    ∃ after, copy c.buffer c.units count = .ok after ∧
      (copy (c.buffer.take count) (c.units.take (Caller.scan count c.units)) count).map
        (· ++ c.buffer.drop count) = .ok after ∧
      c.Leaves (Caller.fillAt copyInPlace c.dest c.source count) after := by
  have hcut : copy (c.buffer.take count) (c.text.take count) count =
      .ok (filledField count c.text) := by
    rw [hfill, c.fill_cut hroom]
  refine ⟨filledField count c.text ++ c.buffer.drop count, ?_, ?_, ?_⟩
  · rw [hfill, c.fill_units hroom]
  · rw [c.take_scan, hcut]
    rfl
  · have hrun : (Caller.fillAt copyInPlace c.dest c.source count).run c.memory =
        .ok c.dest (c.memory.store c.dest (filledField count c.text)) := by
      simp [Caller.fillAt, c.run_scanAt, c.run_sliceAt_take,
        c.run_onSlice_take hroom (hinPlace hcut), -bind_pure_comp]
    have hlength : (filledField count c.text).length = count := length_filledField _ _
    have hleaves := c.leaves_of_run (hlength.trans_le hroom) hrun
    rwa [hlength] at hleaves

end

/-! ## Copies with their terminator -/

/-- A copy by address. -/
theorem leaves_copyAt (c : Call UInt8) (hroom : c.text.length < c.buffer.length) :
    ∃ after, Narrow.copy c.buffer c.units = .ok (c.text.length + 1, after) ∧
      Caller.copy c.buffer c.units = .ok after ∧
      c.Leaves (Caller.copyAt c.dest c.source) after := by
  have hlength : (c.text ++ [0]).length = c.text.length + 1 := List.length_append
  have hmeasured : Narrow.length (c.text ++ [0]) = c.text.length := by
    rw [Narrow.length, terminatedLength_append_zero,
      terminatedLength_of_zero_not_mem c.zero_not_mem]
  have hcut : Narrow.copy (c.buffer.take (c.text.length + 1)) (c.text ++ [0]) =
      .ok (c.text.length + 1, c.text ++ [0]) := by
    rw [Narrow.copy_eq, hmeasured, List.length_take_of_le hroom, if_pos (Nat.lt_succ_self _),
      content_append_zero, content_of_zero_not_mem c.zero_not_mem,
      List.drop_of_length_le (List.length_take_of_le hroom).le]
  refine ⟨(c.text ++ [0]) ++ c.buffer.drop (c.text.length + 1), ?_, ?_, ?_⟩
  · rw [Narrow.copy_eq, Narrow.length, c.terminatedLength_units, if_pos hroom, c.content_units,
      List.append_assoc]
    rfl
  · rw [Caller.copy, c.scan_unbounded, c.take_units, hcut]
    rfl
  · have hrun : (Caller.copyAt c.dest c.source).run c.memory =
        .ok c.dest (c.memory.store c.dest (c.text ++ [0])) := by
      simp [Caller.copyAt, c.run_scanAt_unbounded, c.run_sliceAt_text,
        c.run_onSlice_take hroom (Narrow.run_copyInPlace hcut), -bind_pure_comp]
    have hleaves := c.leaves_of_run (hlength.trans_le hroom) hrun
    rwa [hlength] at hleaves

end Call

/-! ## The last occurrence -/

namespace Call

variable (c : Call UInt16) (u : UInt16)

theorem wideLastOccurrence?_units :
    Caller.wideLastOccurrence? c.units u = Wide.lastOccurrence? (c.text ++ [0]) u := by
  rw [Caller.wideLastOccurrence?, c.scan_unbounded, c.take_units]

theorem run_wideLastOccurrenceAt :
    (Caller.wideLastOccurrenceAt c.source u).run c.memory =
      .ok ((Wide.lastOccurrence? (c.text ++ [0]) u).map (c.source + ·)) c.memory := by
  simp [Caller.wideLastOccurrenceAt, c.run_scanAt_unbounded, c.run_sliceAt_text, -bind_pure_comp]

end Call

/-! ## How the entry points agree with the functions of whole buffers -/

/-- How the entry points for C callers agree, on a call with bytes and on one with wide units, with
the functions of whole strings and buffers. -/
structure CallsAgree (c : Call UInt8) (w : Call UInt16) : Prop where
  /-- The length is that of the string before the first zero. -/
  length : Caller.length c.units = Narrow.length c.text ∧
    (Caller.lengthAt c.source).run c.memory = .ok (Narrow.length c.text) c.memory
  wideLength : Caller.wideLength w.units = Wide.length w.text ∧
    (Caller.lengthAt w.source).run w.memory = .ok (Wide.length w.text) w.memory
  /-- A copy into a buffer with room for the terminator returns the buffer as the copy between
  the whole of both leaves it. -/
  copy : c.text.length < c.buffer.length → ∃ after,
    Narrow.copy c.buffer c.units = .ok (c.text.length + 1, after) ∧
      Caller.copy c.buffer c.units = .ok after ∧
      c.Leaves (Caller.copyAt c.dest c.source) after
  /-- So does a bounded copy into a buffer with room for the count, -/
  boundedCopy : ∀ count ≤ c.buffer.length, ∃ after,
    Narrow.boundedCopy c.buffer c.units count = .ok after ∧
      Caller.boundedCopy c.buffer c.units count = .ok after ∧
      c.Leaves (Caller.boundedCopyAt c.dest c.source count) after
  /-- and one of wide units. -/
  wideBoundedCopy : ∀ count ≤ w.buffer.length, ∃ after,
    Wide.boundedCopy w.buffer w.units count = .ok after ∧
      Caller.wideBoundedCopy w.buffer w.units count = .ok after ∧
      w.Leaves (Caller.wideBoundedCopyAt w.dest w.source count) after
  /-- A unit is looked for in the string with its terminator, and its address is returned. -/
  wideLastOccurrence : ∀ u,
    Caller.wideLastOccurrence? w.units u = Wide.lastOccurrence? (w.text ++ [0]) u ∧
      (Caller.wideLastOccurrenceAt w.source u).run w.memory =
        .ok ((Caller.wideLastOccurrence? w.units u).map (w.source + ·)) w.memory
  /-- The zero is found at the terminator. -/
  wideLastOccurrence_zero : Caller.wideLastOccurrence? w.units 0 = some w.text.length
  /-- Any other unit is found where it last occurs before the terminator, -/
  wideLastOccurrence_some : ∀ u ≠ 0, ∀ i, Caller.wideLastOccurrence? w.units u = some i ↔
    IsGreatest {i | w.text[i]? = some u} i
  /-- and not found if it does not occur. -/
  wideLastOccurrence_none : ∀ u,
    Caller.wideLastOccurrence? w.units u = none ↔ u ≠ 0 ∧ u ∉ w.text

theorem calls_agree (c : Call UInt8) (w : Call UInt16) : CallsAgree c w where
  length := by
    rw [Narrow.length, terminatedLength_of_zero_not_mem c.zero_not_mem]
    exact ⟨c.scan_unbounded, c.run_scanAt_unbounded⟩
  wideLength := by
    rw [Wide.length, terminatedLength_of_zero_not_mem w.zero_not_mem]
    exact ⟨w.scan_unbounded, w.run_scanAt_unbounded⟩
  copy := c.leaves_copyAt
  boundedCopy _ := c.leaves_fillAt Narrow.boundedCopy_eq_fill Narrow.run_boundedCopyInPlace
  wideBoundedCopy _ := w.leaves_fillAt Wide.boundedCopy_eq_fill Wide.run_boundedCopyInPlace
  wideLastOccurrence u := by
    have hfound := w.wideLastOccurrence?_units u
    exact ⟨hfound, hfound ▸ w.run_wideLastOccurrenceAt u⟩
  wideLastOccurrence_zero := by
    rw [w.wideLastOccurrence?_units, Wide.lastOccurrence?_concat_zero w.zero_not_mem, if_pos rfl]
  wideLastOccurrence_some u hu i := by
    rw [w.wideLastOccurrence?_units, Wide.lastOccurrence?_concat_zero w.zero_not_mem, if_neg hu,
      Wide.lastIndex?_eq_some_iff]
  wideLastOccurrence_none u := by
    rw [w.wideLastOccurrence?_units, Wide.lastOccurrence?_concat_zero w.zero_not_mem]
    split_ifs with hu
    · simp [hu]
    · simp [hu, Wide.lastIndex?_eq_none_iff]

/-- A call in a memory that holds nothing else: the buffer stands right behind the source. -/
def Call.adjacent [OfNat α 0] (text rest buffer : List α) (hzero : 0 ∉ text)
    (hsize : (text ++ 0 :: rest).length < UInt64.size) : Call α where
  memory := Memory.store ⟨fun _ => none⟩ 0 ((text ++ 0 :: rest) ++ buffer)
  source := 0
  text := text
  rest := rest
  dest := 0 + (text ++ 0 :: rest).length
  buffer := buffer
  zero_not_mem := hzero
  size_lt := hsize
  holds_source := (Memory.holds_append.1 (Memory.holds_store _ _ _)).1
  holds_dest := (Memory.holds_append.1 (Memory.holds_store _ _ _)).2
  apart := .inr (Nat.le_refl _)

theorem calls_agree_adjacent :
    CallsAgree
      (.adjacent [0x61, 0x62] [0x63] (List.replicate 6 0x55) (by decide) (by decide))
      (.adjacent [0x61, 0x2E, 0x62] [0x2E] (List.replicate 3 0xFFFF) (by decide) (by decide)) :=
  calls_agree _ _

example : Caller.boundedCopy (List.replicate 6 0x55) [0x61, 0x62, 0, 0x63] 4 =
    .ok [0x61, 0x62, 0, 0, 0x55, 0x55] := by
  decide

end Hosted
