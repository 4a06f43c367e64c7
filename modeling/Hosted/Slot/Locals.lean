import Hosted.Slot.Table

/-!
# Thread locals

A thread local owns a slot and the values that threads have bound through it. Each
thread keeps a row of bindings, one place for each slot index; a binding counts
only for the allocation whose number it carries. A value lives in a cell of its
own. It is freed when the thread that bound it ends, or when its thread local is
dropped, whichever comes first.

The content of the cells is left open here.
-/

namespace Hosted

/-- Threads are numbered in the order they start. -/
abbrev ThreadId := Nat

/-- Thread locals are numbered in the order they are made. -/
abbrev LocalId := Nat

/-- Cells are numbered in the order they are filled. -/
abbrev CellId := Nat

/-- A thread's record of a value: the allocation it was bound under, the value's
cell and the thread local that owns it. -/
structure Binding where
  seq : Nat
  cell : CellId
  owner : LocalId
  deriving DecidableEq, Repr

/-- A thread as its slots see it: one that never used a slot, one with bindings by
slot index, or one whose bindings are gone for good. -/
inductive Thread where
  | untouched
  | running (bindings : List (Option Binding))
  | ended
  deriving DecidableEq, Repr

namespace Thread

/-- The binding at an index. -/
def at? (t : Thread) (index : Nat) : Option Binding :=
  match t with
  | running bindings => bindings[index]?.join
  | _ => none

/-- The binding for an allocation. -/
def binding? (t : Thread) (h : SlotHandle) : Option Binding :=
  match t.at? h.index with
  | some b => if b.seq = h.seq then some b else none
  | none => none

/-- The thread after its first use of a slot. -/
def touched : Thread → Thread
  | untouched => running []
  | t => t

/-- Puts a binding at an index, growing the row as far as needed. -/
def putAt (bindings : List (Option Binding)) (index : Nat) (b : Option Binding) :
    List (Option Binding) :=
  if index < bindings.length then bindings.set index b
  else bindings ++ List.replicate (index - bindings.length) none ++ [b]

/-- Records a binding at an index. An ended thread records nothing. -/
def bind? (t : Thread) (index : Nat) (b : Binding) : Option Thread :=
  match t with
  | untouched => some (running (putAt [] index (some b)))
  | running bindings => some (running (putAt bindings index (some b)))
  | ended => none

/-- Forgets the binding for an allocation, if there is one. -/
def clear (t : Thread) (h : SlotHandle) : Thread :=
  match t, t.binding? h with
  | running bindings, some _ => running (bindings.set h.index none)
  | t, _ => t

/-- The bindings a thread leaves behind, by slot index. -/
def remaining : Thread → List Binding
  | running bindings => bindings.filterMap id
  | _ => []

end Thread

/-- A live thread local: its slot and the cells of its values. -/
structure Local where
  handle : SlotHandle
  cells : List CellId := []
  deriving DecidableEq, Repr

/-- All thread locals of a process over its slot table. -/
structure Locals (α : Type) where
  /-- The table that thread locals and raw handles are taken from. -/
  table : SlotTable
  /-- The number the next allocation gets, in this table or any other. -/
  nextSeq : Nat := 1
  threads : List Thread := []
  /-- The thread locals ever made; the dropped ones are empty. -/
  locals : List (Option Local) := []
  /-- The cells ever filled; the freed ones are empty. -/
  cells : List (Option α) := []

/-- Removes `a` from a list and puts the last element in its place. -/
def swapErase {α : Type} [DecidableEq α] (l : List α) (a : α) : List α :=
  match l.idxOf? a, l.getLast? with
  | some i, some last => (l.set i last).dropLast
  | _, _ => l

namespace Locals

variable {α : Type}

/-- The thread of a number; one that never used a slot need not be listed. -/
def thread (s : Locals α) (t : ThreadId) : Thread := s.threads[t]?.getD .untouched

/-- Replaces a thread, listing those before it. -/
def setThread (s : Locals α) (t : ThreadId) (thread : Thread) : Locals α :=
  let threads := s.threads ++ List.replicate (t + 1 - s.threads.length) .untouched
  { s with threads := threads.set t thread }

/-- The thread local of a number, while it is live. -/
def local? (s : Locals α) (id : LocalId) : Option Local := s.locals[id]?.join

/-- The content of a cell, until it is freed. -/
def cell? (s : Locals α) (c : CellId) : Option α := s.cells[c]?.join

/-- Notes that a thread uses a slot. -/
def touch (s : Locals α) (t : ThreadId) : Locals α := s.setThread t (s.thread t).touched

/-- Empties a cell. -/
def freeCell (s : Locals α) (c : CellId) : Locals α := { s with cells := s.cells.set c none }

/-- Replaces the cells of a live thread local. -/
def setCells (s : Locals α) (id : LocalId) (cells : List CellId) : Locals α :=
  match s.local? id with
  | some l => { s with locals := s.locals.set id (some { l with cells }) }
  | none => s

/-! ## Raw slots -/

/-- Takes a slot from the table. -/
def allocate (s : Locals α) : Locals α × Except Fault SlotHandle :=
  match s.table.allocate s.nextSeq with
  | .ok (h, table) => ({ s with table, nextSeq := s.nextSeq + 1 }, .ok h)
  | .error f => (s, .error f)

/-- Gives a slot back to the table. Answers whether it was held under that handle. -/
def release (s : Locals α) (h : SlotHandle) : Locals α × Bool :=
  let (table, released) := s.table.release h
  ({ s with table }, released)

/-! ## Values -/

/-- The cell that a thread sees through a thread local. -/
def cellOf? (s : Locals α) (t : ThreadId) (id : LocalId) : Option CellId :=
  match s.local? id with
  | some l => ((s.thread t).binding? l.handle).map (·.cell)
  | none => none

/-- The value that a thread sees through a thread local. -/
def get? (s : Locals α) (t : ThreadId) (id : LocalId) : Option α :=
  (s.cellOf? t id).bind s.cell?

/-- A thread sees a value through a thread local. -/
def isBound (s : Locals α) (t : ThreadId) (id : LocalId) : Bool := (s.cellOf? t id).isSome

/-- The cells of a thread local, in the order they are visited. -/
def cellsOf (s : Locals α) (id : LocalId) : List CellId :=
  match s.local? id with
  | some l => l.cells
  | none => []

/-- The values bound through a thread local, whichever thread bound them. -/
def valuesOf (s : Locals α) (id : LocalId) : List α := (s.cellsOf id).filterMap s.cell?

/-- The number of values bound through a thread local. -/
def boundCount (s : Locals α) (id : LocalId) : Nat := (s.cellsOf id).length

/-- Binds a value for a thread. A thread whose bindings are gone refuses, and the
value is not kept. -/
def bind (s : Locals α) (t : ThreadId) (id : LocalId) (v : α) : Locals α × Except Fault Unit :=
  match s.local? id with
  | none => (s, .ok ())
  | some l =>
    let cell := s.cells.length
    match (s.thread t).bind? l.handle.index ⟨l.handle.seq, cell, id⟩ with
    | none => (s, .error (.bindFailed l.handle.index))
    | some thread =>
      (({ s with cells := s.cells ++ [some v] }.setThread t thread).setCells id
        (l.cells ++ [cell]), .ok ())

/-- Makes a thread local over a slot already taken, with nothing bound. -/
def create (s : Locals α) (h : SlotHandle) : Locals α × LocalId :=
  ({ s with locals := s.locals ++ [some { handle := h }] }, s.locals.length)

/-- Changes every value bound through a thread local; `f` also gets the place of the
value in the order of visits. -/
def modifyAll (s : Locals α) (id : LocalId) (f : Nat → α → α) : Locals α :=
  let visit (cells : List (Option α)) (place : CellId × Nat) : List (Option α) :=
    cells.modify place.1 (·.map (f place.2))
  { s with cells := (s.cellsOf id).zipIdx.foldl visit s.cells }

/-- Forgets a thread's binding for a thread local and takes the thread local away,
with its values in the order they are visited and its slot. -/
def detach (s : Locals α) (t : ThreadId) (id : LocalId) : Locals α × Option (List α × SlotHandle) :=
  match s.local? id with
  | none => (s, none)
  | some l =>
    let values := s.valuesOf id
    let s := s.setThread t ((s.thread t).touched.clear l.handle)
    let s := l.cells.foldl freeCell s
    ({ s with locals := s.locals.set id none }, some (values, l.handle))

/-- Hands a value back to the thread local that owns it, which frees it if it still
has it. -/
def reclaim (s : Locals α) (b : Binding) : Locals α × Option α :=
  if b.cell ∈ s.cellsOf b.owner then
    ((s.setCells b.owner (swapErase (s.cellsOf b.owner) b.cell)).freeCell b.cell, s.cell? b.cell)
  else (s, none)

/-- Hands back values one after the other. Answers those that were freed. -/
def reclaimAll (s : Locals α) : List Binding → Locals α × List α
  | [] => (s, [])
  | b :: rest =>
    let (s, freed) := s.reclaim b
    let (s, more) := s.reclaimAll rest
    (s, freed.toList ++ more)

/-- Ends a thread: its bindings go, and every value it has bound and that is still
owned is freed, in the order of slot indices. -/
def endThread (s : Locals α) (t : ThreadId) : Locals α × List α :=
  (s.setThread t .ended).reclaimAll (s.thread t).remaining

end Locals

end Hosted
