import Hosted.Facet.Collation
import Mathlib.Algebra.Group.Units.Equiv
import Mathlib.Data.UInt

/-!
# What a byte does to the hash

A byte moves the states of the hash as a permutation: the exclusive or undoes itself, and the
factor, being odd, has an inverse modulo `2 ^ 64`. So does a whole string, one byte after the
other. What follows two strings therefore neither joins nor parts their hashes, and two strings
that differ in a single byte never have the same one.
-/

namespace Hosted.Collation

/-- The factor, with its inverse modulo `2 ^ 64`. -/
def factorUnit : UInt64ˣ where
  val := hashFactor
  inv := 0xce965057aff6957b
  val_inv := by decide
  inv_val := by decide

theorem xor_involutive (w : UInt64) : Function.Involutive (· ^^^ w) := by
  intro h
  change h ^^^ w ^^^ w = h
  rw [UInt64.xor_assoc, UInt64.xor_self, UInt64.xor_zero]

/-- What a byte does to the states of the hash. -/
def stepPerm (b : UInt8) : Equiv.Perm UInt64 :=
  (xor_involutive b.toUInt64).toPerm.trans factorUnit.mulRight

theorem stepPerm_apply (b : UInt8) (h : UInt64) : stepPerm b h = hashStep h b := rfl

/-- What a string does to the states of the hash. -/
def stringPerm : List UInt8 → Equiv.Perm UInt64
  | [] => Equiv.refl UInt64
  | b :: s => (stepPerm b).trans (stringPerm s)

theorem stringPerm_apply (s : List UInt8) (h : UInt64) :
    stringPerm s h = s.foldl hashStep h := by
  induction s generalizing h with
  | nil => rfl
  | cons b s ih => rw [stringPerm, Equiv.trans_apply, ih, stepPerm_apply, List.foldl_cons]

/-- The end of a string permutes the hashes of its beginnings. -/
theorem hash_append_eq (p s : List UInt8) : hash (p ++ s) = stringPerm s (hash p) := by
  rw [hash_append, stringPerm_apply]

/-- Different bytes lead from one state to different ones. -/
theorem hashStep_injective (h : UInt64) : Function.Injective (hashStep h) := by
  intro x y hxy
  have hstates : h ^^^ x.toUInt64 = h ^^^ y.toUInt64 := factorUnit.mulRight.injective hxy
  exact UInt8.toUInt64_inj.1 ((UInt64.xor_right_inj h).1 hstates)

theorem hash_concat (p : List UInt8) (x : UInt8) : hash (p ++ [x]) = hashStep (hash p) x :=
  hash_append p [x]

/-- One byte changed at any place changes the hash, and what two strings end in together leaves
their hashes apart or equal as they were. -/
theorem hash_separates :
    (∀ (p s : List UInt8) (x y : UInt8),
      hash (p ++ [x] ++ s) = hash (p ++ [y] ++ s) ↔ x = y) ∧
      ∀ p q s : List UInt8, hash (p ++ s) = hash (q ++ s) ↔ hash p = hash q := by
  have hends (p q s : List UInt8) : hash (p ++ s) = hash (q ++ s) ↔ hash p = hash q := by
    rw [hash_append_eq, hash_append_eq]
    exact (stringPerm s).injective.eq_iff
  refine ⟨fun p s x y => ?_, hends⟩
  rw [hends, hash_concat, hash_concat]
  exact (hashStep_injective (hash p)).eq_iff

end Hosted.Collation
