import Hosted.Proofs.Terminated.InPlace
import Mathlib.Logic.Function.Basic

/-!
# Memory by address

A caller in C passes addresses. Each address has a unit, as far as it is mapped, and an access
to any other has no meaning. A string is measured unit by unit up to its end; a slice is a list
of units read from an address on, on which a program for buffers is run in place.
-/

namespace Hosted

/-- What stands at each address, where it can be read and written. -/
structure Memory (α : Type) where
  unit? : Nat → Option α

/-- Why a call by address does not answer. -/
inductive Trap (ε : Type) where
  /-- Some address from this one on is not mapped. -/
  | unmapped (address : Nat)
  /-- The program that was run on a slice panicked. -/
  | panic (e : Panic ε)
  deriving DecidableEq, Repr

namespace Memory

variable {α : Type}

/-- The units stand at the addresses from this one on. -/
def Holds (m : Memory α) : Nat → List α → Prop
  | _, [] => True
  | address, u :: units => m.unit? address = some u ∧ m.Holds (address + 1) units

/-- The `n` units from an address on. -/
def slice? (m : Memory α) : Nat → Nat → Option (List α)
  | _, 0 => some []
  | address, n + 1 => do
    let u ← m.unit? address
    let units ← m.slice? (address + 1) n
    return u :: units

/-- Writes units to the addresses from this one on. -/
def store (m : Memory α) : Nat → List α → Memory α
  | _, [] => m
  | address, u :: units =>
    ⟨Function.update (m.store (address + 1) units).unit? address (some u)⟩

section

variable {m m' : Memory α} {address other n : Nat} {u : α} {units units' : List α}

@[simp] theorem holds_nil (m : Memory α) (address : Nat) : m.Holds address [] := trivial

theorem holds_cons : m.Holds address (u :: units) ↔
    m.unit? address = some u ∧ m.Holds (address + 1) units := Iff.rfl

theorem holds_append : m.Holds address (units ++ units') ↔
    m.Holds address units ∧ m.Holds (address + units.length) units' := by
  induction units generalizing address with
  | nil => simp
  | cons u units ih =>
      have hnext : address + 1 + units.length = address + (u :: units).length := by
        rw [List.length_cons]
        omega
      rw [List.cons_append, holds_cons, holds_cons, ih, hnext, and_assoc]

/-- Only the addresses of the units count. -/
theorem Holds.congr (h : m.Holds address units)
    (heq : ∀ a, address ≤ a → a < address + units.length → m'.unit? a = m.unit? a) :
    m'.Holds address units := by
  induction units generalizing address with
  | nil => trivial
  | cons u units ih =>
      rw [List.length_cons] at heq
      refine ⟨(heq address (Nat.le_refl _) (by omega)).trans h.1, ih h.2 ?_⟩
      intro a hge hlt
      exact heq a (by omega) (by omega)

theorem Holds.slice?_eq (h : m.Holds address (units ++ units')) :
    m.slice? address units.length = some units := by
  induction units generalizing address with
  | nil => rfl
  | cons u units ih =>
      rw [List.cons_append, holds_cons] at h
      rw [List.length_cons, slice?, h.1, ih h.2]
      rfl

theorem unit?_store (h : other < address ∨ address + units.length ≤ other) :
    (m.store address units).unit? other = m.unit? other := by
  induction units generalizing address with
  | nil => rfl
  | cons u units ih =>
      rw [List.length_cons] at h
      exact (Function.update_of_ne (by omega) _ _).trans (ih (by omega))

theorem holds_store (m : Memory α) (address : Nat) (units : List α) :
    (m.store address units).Holds address units := by
  induction units generalizing address with
  | nil => trivial
  | cons u units ih =>
      refine ⟨Function.update_self _ _ _, (ih (address + 1)).congr ?_⟩
      intro a hge _
      exact Function.update_of_ne (by omega) _ _

/-- Behind what is written to its front a buffer is as it was. -/
theorem Holds.store_front {buffer front : List α} (h : m.Holds address buffer)
    (hle : front.length ≤ buffer.length) :
    (m.store address front).Holds address (front ++ buffer.drop front.length) := by
  rw [holds_append]
  refine ⟨holds_store m address front, ?_⟩
  rw [← List.take_append_drop front.length buffer, holds_append,
    List.length_take_of_le hle] at h
  apply h.2.congr
  intro a hge _
  exact unit?_store (.inr hge)

end

end Memory

/-! ## Access by address -/

section

variable {ε α β : Type}

/-- Reads the unit at an address. -/
def load (address : Nat) : EStateM (Trap ε) (Memory α) α := do
  match (← get).unit? address with
  | some u => return u
  | none => throw (.unmapped address)

/-- The number of units before the first zero from an address on, at most `bound`. -/
def scanAt [DecidableEq α] [OfNat α 0] (address : Nat) :
    Nat → EStateM (Trap ε) (Memory α) Nat
  | 0 => return 0
  | bound + 1 => do
    if (← load address) = 0 then return 0
    return (← scanAt (address + 1) bound) + 1

/-- The slice of `n` units at an address. -/
def sliceAt (address n : Nat) : EStateM (Trap ε) (Memory α) (List α) := do
  match (← get).slice? address n with
  | some units => return units
  | none => throw (.unmapped address)

/-- Runs a program in place on the slice of `n` units at an address. -/
def onSlice (address n : Nat) (p : EStateM (Panic ε) (List α) β) :
    EStateM (Trap ε) (Memory α) β := do
  match p.run (← sliceAt address n) with
  | .ok answer units =>
    modify (·.store address units)
    return answer
  | .error e units =>
    modify (·.store address units)
    throw (.panic e)

variable {m : Memory α} {address n bound : Nat} {u : α} {units : List α}

theorem run_load (h : m.unit? address = some u) :
    (load (ε := ε) address).run m = .ok u m := by
  simp [load, h]

/-- A scan reads nothing behind the end of the string, and nothing behind its bound. -/
theorem run_scanAt [DecidableEq α] [OfNat α 0] (h : m.Holds address units)
    (hends : bound ≤ units.length ∨ 0 ∈ units) :
    (scanAt (ε := ε) address bound).run m = .ok (min (terminatedLength units) bound) m := by
  induction bound generalizing address units with
  | zero => simp [scanAt]
  | succ bound ih =>
      obtain _ | ⟨u, units⟩ := units
      · simp at hends
      obtain ⟨hunit, hrest⟩ := h
      rw [terminatedLength]
      by_cases hu : u = 0
      · simp [scanAt, run_load hunit, hu]
      · have hends' : bound ≤ units.length ∨ 0 ∈ units := by
          simpa [Ne.symm hu] using hends
        simp [scanAt, run_load hunit, hu, ih hrest hends', Nat.succ_min_succ, -bind_pure_comp]

theorem run_sliceAt {units' : List α} (h : m.Holds address (units ++ units')) :
    (sliceAt (ε := ε) address units.length).run m = .ok units m := by
  simp [sliceAt, h.slice?_eq]

/-- A program that comes to its end on a slice leaves there what it leaves in a buffer. -/
theorem run_onSlice {p : EStateM (Panic ε) (List α) β} {answer : β} {after units' : List α}
    (h : m.Holds address (units ++ units')) (hp : p.run units = .ok answer after) :
    (onSlice address units.length p).run m = .ok answer (m.store address after) := by
  simp [onSlice, run_sliceAt h, hp, -bind_pure_comp]

end

end Hosted
