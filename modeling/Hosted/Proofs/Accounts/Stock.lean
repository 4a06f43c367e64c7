import Hosted.Proofs.References.Census
import Hosted.Proofs.References.Weight
import Mathlib.Algebra.Group.Pi.Lemmas

/-!
# Stock and accounts

The stock of a process is what it has of the things that are counted: live locales, recorded
facets, slots and values. `Accounts n t s s'` says that counting as often as `n` says is what
brings the stock `s` to `s'`, where `t` keeps the receipts of callers, which the state does
not show. Counters are added up apart from that, since in the middle of an operation the
state may be ahead of them: `w.Shifts k n t w'` says that counters went up by `k` while the
stock went the way that `n` says.
-/

namespace Hosted

theorem Shared.length_live {α : Type} (s : Shared α) :
    s.live.length = (s.objects.map fun o => if o.refs = 0 then 0 else 1).sum := by
  unfold live
  induction s.objects with
  | nil => rfl
  | cons o objects ih =>
      rw [List.map_cons, List.sum_cons, ← ih, List.filterMap_cons]
      by_cases hz : o.refs = 0
      · simp [hz]
      · simp [hz, Nat.add_comm]

/-! ## Accounts -/

/-- What a process has of the things that are counted. -/
structure Stock where
  /-- The locales that have ever been built. -/
  built : Nat
  /-- The locales that have not been destroyed. -/
  live : Nat
  /-- The facets that are recorded in registries. -/
  entries : Nat
  /-- The number that the next allocation of a slot gets. -/
  numbers : Nat
  /-- The slots of the process that are in use. -/
  slots : Nat
  /-- The cells that have ever been filled. -/
  cells : Nat
  /-- The values that are bound through live thread locals. -/
  values : Nat

/-- What callers know of. -/
inductive Receipt where
  /-- A facet was recorded. -/
  | recorded
  /-- A facet was created on demand. -/
  | created
  /-- A recorded facet went together with the registry of a caller's own that it was in. -/
  | lost
  /-- A run of an exit table answered that it had run one more handler. -/
  | ran
  /-- A table of a caller's own gave out a slot. -/
  | numbered
  deriving DecidableEq

/-- How many receipts of each kind callers have. -/
abbrev Ledger := Receipt → Nat

/-- Counting `n` times is what brings `s` to `s'`. -/
structure Accounts (n : Counter → Nat) (t : Ledger) (s s' : Stock) : Prop where
  built : s.built + n .localesConstructed = s'.built
  live : s.live + n .localesConstructed = s'.live + n .localesDestroyed
  recorded : n .facetsRegistered = t .recorded
  entries : s.entries + n .facetsRegistered = s'.entries + n .facetsReleased + t .lost
  created : n .lazyFacetsCreated = t .created
  numbers : s.numbers + n .slotsAllocated + t .numbered = s'.numbers
  slots : s.slots + n .slotsAllocated = s'.slots + n .slotsReleased
  cells : s.cells + n .valuesBound = s'.cells
  values : s.values + n .valuesBound = s'.values + n .valuesFreed
  ran : n .exitHandlersRun = t .ran

section Accounts

variable {n n' : Counter → Nat} {t t' : Ledger} {s s' s'' : Stock}

theorem Accounts.refl (s : Stock) : Accounts 0 0 s s := by
  constructor <;> rfl

theorem Accounts.trans (h : Accounts n t s s') (h' : Accounts n' t' s' s'') :
    Accounts (n + n') (t + t') s s'' := by
  obtain ⟨h₁, h₂, h₃, h₄, h₅, h₆, h₇, h₈, h₉, h₁₀⟩ := h
  obtain ⟨h₁', h₂', h₃', h₄', h₅', h₆', h₇', h₈', h₉', h₁₀'⟩ := h'
  constructor <;> simp only [Pi.add_apply] <;> omega

end Accounts

namespace World

/-- The stock of a process, as far as its own registries go. -/
def stock (w : World) : Stock where
  built := w.locales.objects.length
  live := w.locales.live.length
  entries := (w.registries.map (·.entries.length)).sum
  numbers := w.locals.nextSeq
  slots := w.locals.table.inUse
  cells := w.locals.cells.length
  values := w.locals.weigh fun _ => 1

/-- Between `w` and `w'` each counter went up as often as `k` says, and the stock went the way
that counting `n` times accounts for. -/
structure Shifts (w : World) (k n : Counter → Nat) (t : Ledger) (w' : World) : Prop where
  counted : ∀ c, w'.counters.get c = w.counters.get c + (k c).toUInt64
  balanced : Accounts n t w.stock w'.stock

variable {w w' w'' : World} {k k' n n' : Counter → Nat} {t t' : Ledger}

theorem Shifts.refl (w : World) : w.Shifts 0 0 0 w :=
  ⟨fun _ => (UInt64.add_zero _).symm, Accounts.refl _⟩

theorem Shifts.trans (h : w.Shifts k n t w') (h' : w'.Shifts k' n' t' w'') :
    w.Shifts (k + k') (n + n') (t + t') w'' where
  counted c := by
    rw [h'.counted, h.counted, UInt64.add_assoc, Pi.add_apply]
    exact congrArg _ (UInt64.ofNat_add _ _).symm
  balanced := h.balanced.trans h'.balanced

/-- The stock goes ahead of the counters. -/
theorem Shifts.ahead (hcounters : w'.counters = w.counters)
    (haccounts : Accounts n t w.stock w'.stock) : w.Shifts 0 n t w' :=
  ⟨fun c => by rw [hcounters]; exact (UInt64.add_zero _).symm, haccounts⟩

theorem Shifts.of_eq (hcounters : w'.counters = w.counters) (hstock : w'.stock = w.stock) :
    w.Shifts 0 0 0 w' := .ahead hcounters (hstock ▸ Accounts.refl _)

theorem counted_single (c : Counter) (j : Nat) (c' : Counter) :
    (w.counters.add c j.toUInt64).get c' =
      w.counters.get c' + (Pi.single (M := fun _ => Nat) c j c').toUInt64 := by
  rw [Counters.get_add]
  by_cases hc : c' = c
  · rw [if_pos hc, hc, Pi.single_eq_same]
  · rw [if_neg hc, Pi.single_eq_of_ne hc]
    exact (UInt64.add_zero _).symm

/-- The counters catch up. -/
theorem shifts_count (w : World) (c : Counter) (j : Nat) :
    w.Shifts (Pi.single c j) 0 0 (w.count c j) := ⟨counted_single c j, Accounts.refl _⟩

theorem shifts_tally (w : World) (c : Counter) : w.Shifts (Pi.single c 1) 0 0 (w.tally c) :=
  w.shifts_count c 1

end World

end Hosted
