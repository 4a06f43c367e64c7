import Hosted.Exit.Table
import Hosted.Slot.Table

/-!
# Changes in place

An operation that may fail is given elsewhere as a function from what it changes to what
becomes of that, and a failure is an error and nothing else. In place it is a program: its
steps take effect one after the other, and the traces of the steps before a failure would
stay. It is a `transaction` if there are none.
-/

namespace Hosted

variable {ε σ α : Type}

/-- The program that changes a state as `f` says, and not at all where `f` fails. -/
def transaction (f : σ → Except ε (α × σ)) : EStateM ε σ α := fun s =>
  match f s with
  | .ok (a, s') => .ok a s'
  | .error e => .error e s

theorem run_transaction (f : σ → Except ε (α × σ)) (s : σ) :
    (transaction f).run s =
      match f s with
      | .ok (a, s') => .ok a s'
      | .error e => .error e s := rfl

/-- The state that a failed transaction leaves is the one it began with. -/
theorem run_transaction_eq_error {f : σ → Except ε (α × σ)} {s left : σ} {e : ε} :
    (transaction f).run s = .error e left ↔ f s = .error e ∧ left = s := by
  rw [run_transaction]
  cases f s with
  | ok p => simp
  | error e' => simp [eq_comm]

/-! ## Slot tables -/

namespace SlotTable

/-- Every index below the limit is held. -/
def Full (t : SlotTable) : Prop := ∀ i < t.limit, ∃ seq, t.seqs[i]? = some seq ∧ seq ≠ 0

theorem full_iff (t : SlotTable) : t.Full ↔ t.freeIndex? = none := by
  unfold Full freeIndex?
  cases hf : t.seqs.findIdx? (· = 0) with
  | some k =>
      obtain ⟨hlt, hzero, hbelow⟩ := List.findIdx?_eq_some_iff_getElem.1 hf
      have hmark : t.seqs[k]? = some 0 := by
        rw [List.getElem?_eq_getElem hlt, of_decide_eq_true hzero]
      by_cases hk : k < t.limit
      · simp only [hk, if_true, reduceCtorEq, iff_false]
        intro hfull
        obtain ⟨seq, hseq, hpos⟩ := hfull k hk
        rw [hmark, Option.some.injEq] at hseq
        exact hpos hseq.symm
      · have hlen : ¬t.seqs.length < t.limit := by omega
        simp only [hk, hlen, if_false, iff_true]
        intro i hi
        have hik : i < k := by omega
        exact ⟨_, List.getElem?_eq_getElem (Nat.lt_trans hik hlt), by simpa using hbelow i hik⟩
  | none =>
      have hpos := List.findIdx?_eq_none_iff.1 hf
      by_cases hlen : t.seqs.length < t.limit
      · simp only [hlen, if_true, reduceCtorEq, iff_false]
        intro hfull
        obtain ⟨seq, hseq, -⟩ := hfull _ hlen
        simp at hseq
      · simp only [hlen, if_false, iff_true]
        intro i hi
        have hlt : i < t.seqs.length := by omega
        exact ⟨_, List.getElem?_eq_getElem hlt, by simpa using hpos _ (List.getElem_mem hlt)⟩

theorem allocate_eq_error_iff (t : SlotTable) (seq : Nat) {f : Fault} :
    t.allocate seq = .error f ↔ t.Full ∧ f = .slotsExhausted t.limit := by
  rw [full_iff, allocate]
  cases t.freeIndex? with
  | none => simp [eq_comm]
  | some i => simp

theorem release_eq_false (t : SlotTable) (h : SlotHandle) :
    ((t.release h).2 = false ↔ t.isLive h = false) ∧
      ((t.release h).2 = false → (t.release h).1 = t) := by
  cases hlive : t.isLive h <;> simp [release, hlive]

/-- Adds a free index at the end of a table that has not grown to its limit. -/
def grow : EStateM Fault (SlotTable × Nat) Nat := do
  let (t, _) ← get
  unless t.seqs.length < t.limit do throw (.slotsExhausted t.limit)
  modify fun (t, next) => ({ t with seqs := t.seqs ++ [0] }, next)
  return t.seqs.length

/-- An allocation in place, in a table and the source of sequence numbers: the index is
looked up or made, then the number is drawn, then the index is marked with it. -/
def allocateInPlace : EStateM Fault (SlotTable × Nat) SlotHandle := do
  let (t, _) ← get
  let index ← match t.seqs.findIdx? (· = 0) with
    | some i => if i < t.limit then pure i else grow
    | none => grow
  let (_, seq) ← get
  modify fun (t, next) => (t, next + 1)
  modify fun (t, next) => ({ t with seqs := t.seqs.set index seq }, next)
  return ⟨index, seq⟩

theorem run_grow (t : SlotTable) (next : Nat) :
    grow.run (t, next) =
      if t.seqs.length < t.limit then .ok t.seqs.length ({ t with seqs := t.seqs ++ [0] }, next)
      else .error (.slotsExhausted t.limit) (t, next) := by
  by_cases hlen : t.seqs.length < t.limit <;> simp [grow, hlen, -bind_pure_comp]

/-- Nothing is grown or drawn in a full table. -/
theorem allocateInPlace_eq :
    allocateInPlace =
      transaction fun (t, next) => (t.allocate next).map fun (h, t') => (h, t', next + 1) := by
  funext ⟨t, next⟩
  change allocateInPlace.run (t, next) = (transaction _).run (t, next)
  rw [run_transaction]
  unfold allocateInPlace allocate freeIndex?
  cases hf : t.seqs.findIdx? (· = 0) with
  | some k =>
      obtain ⟨hlt, -, -⟩ := List.findIdx?_eq_some_iff_getElem.1 hf
      by_cases hk : k < t.limit
      · simp [hf, hk, mark, hlt, Except.map, -bind_pure_comp]
      · -- the free index is no use, and the table is longer still
        have hlen : ¬t.seqs.length < t.limit := by omega
        simp [hf, hk, run_grow, hlen, Except.map]
  | none =>
      by_cases hlen : t.seqs.length < t.limit
      · simp [hf, run_grow, hlen, mark, Except.map, -bind_pure_comp]
      · simp [hf, run_grow, hlen, Except.map]

/-- An allocation fails for a full table, and then the table and the source of numbers are
as they were. -/
theorem run_allocateInPlace_eq_error {t : SlotTable} {next : Nat} {f : Fault}
    {left : SlotTable × Nat} :
    allocateInPlace.run (t, next) = .error f left ↔
      t.Full ∧ f = .slotsExhausted t.limit ∧ left = (t, next) := by
  rw [allocateInPlace_eq, run_transaction_eq_error, ← and_assoc,
    ← allocate_eq_error_iff t next]
  refine and_congr_left' ?_
  cases hd : t.allocate next with
  | ok p => simp [hd, Except.map]
  | error f' => simp [hd, Except.map]

end SlotTable

/-! ## Exit tables -/

namespace ExitTable

variable {H : Type}

/-- A registration in place, in a table beside the handlers that have been discarded. The
handler is the call's own until the table takes it, and a call that returns without having
passed it on discards it. -/
def registerInPlace (h : H) : EStateM Fault (ExitTable H × List H) Unit := do
  let (t, _) ← get
  if t.ran then
    modify fun (t, discarded) => (t, discarded ++ [h])
    throw .exitTableClosed
  modify fun (t, discarded) => ({ t with handlers := t.handlers ++ [h] }, discarded)

theorem run_registerInPlace (h : H) (t : ExitTable H) (discarded : List H) :
    (registerInPlace h).run (t, discarded) =
      match t.register h with
      | .ok t' => .ok () (t', discarded)
      | .error f => .error f (t, discarded ++ [h]) := by
  cases hran : t.ran <;> simp [registerInPlace, register, hran, -bind_pure_comp]

/-- A registration fails for a table that has started to run. The table is as it was then, and
the handler has been discarded. -/
theorem run_registerInPlace_eq_error {h : H} {t : ExitTable H} {discarded : List H} {f : Fault}
    {left : ExitTable H × List H} :
    (registerInPlace h).run (t, discarded) = .error f left ↔
      t.ran = true ∧ f = .exitTableClosed ∧ left = (t, discarded ++ [h]) := by
  rw [run_registerInPlace, register]
  cases t.ran <;> simp [eq_comm]

end ExitTable

end Hosted
