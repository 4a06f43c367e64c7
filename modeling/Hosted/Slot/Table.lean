import Hosted.Fault

/-!
# Slot tables

A table hands out the lowest free index. Every allocation of any table carries a
sequence number of its own, so that a handle to an index that has been given to
somebody else since is told apart from a live one. The number 0 marks a free index.
-/

namespace Hosted

/-- One allocation of a slot: its index and its sequence number. -/
structure SlotHandle where
  index : Nat
  seq : Nat
  deriving DecidableEq, Repr

/-- A table of slots: for each index it has grown to, the number of the allocation
that holds it, or 0. -/
structure SlotTable where
  seqs : List Nat := []
  limit : Nat
  deriving DecidableEq, Repr

namespace SlotTable

/-- The number of slots that are held. -/
def inUse (t : SlotTable) : Nat := t.seqs.countP (· ≠ 0)

/-- The index that the next allocation gets: the first free one, else one beyond
the end, as long as the limit allows it. -/
def freeIndex? (t : SlotTable) : Option Nat :=
  match t.seqs.findIdx? (· = 0) with
  | some i =>
    if i < t.limit then some i
    else if t.seqs.length < t.limit then some t.seqs.length
    else none
  | none => if t.seqs.length < t.limit then some t.seqs.length else none

/-- Marks an index with a sequence number, growing the table by one if need be. -/
def mark (t : SlotTable) (index seq : Nat) : SlotTable :=
  if index < t.seqs.length then { t with seqs := t.seqs.set index seq }
  else { t with seqs := t.seqs ++ [seq] }

/-- Allocates a slot under the sequence number `seq`. -/
def allocate (t : SlotTable) (seq : Nat) : Except Fault (SlotHandle × SlotTable) :=
  match t.freeIndex? with
  | some index => .ok (⟨index, seq⟩, t.mark index seq)
  | none => .error (.slotsExhausted t.limit)

/-- The handle carries the number that its index is marked with. -/
def isLive (t : SlotTable) (h : SlotHandle) : Bool := t.seqs[h.index]? = some h.seq

/-- Frees the index of a live handle; any other handle changes nothing. Answers
whether it did. -/
def release (t : SlotTable) (h : SlotHandle) : SlotTable × Bool :=
  if t.isLive h then ({ t with seqs := t.seqs.set h.index 0 }, true) else (t, false)

end SlotTable

end Hosted
