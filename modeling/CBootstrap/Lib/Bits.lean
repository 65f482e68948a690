import Mathlib.Data.Nat.Bitwise
import Mathlib.Data.Nat.Size
import Mathlib.Tactic.NormNum.Basic

/-!
# Rounding up to a power of two

The usual way to round `n` up to a power of two is to copy the highest bit of `n - 1` to all bits
below it, and to add one.  The copying is done by shifts: after `x ||| x >>> s` a bit is set if it
was set at its own place or `s` places above, so a sequence of shifts that doubles each time looks
at a window that doubles (`testBit_smear`).

A window of 32 bits is all of a number below `2 ^ 32`, and the result is the least power of two
that is not below `n` (`smear_succ_le_iff`).  For larger numbers it need not be a power of two, but
it still is not below `n`.
-/

namespace Bits

/-- `x |= x >> s` for each `s` in turn. -/
def smear (shifts : List ℕ) (x : ℕ) : ℕ := shifts.foldl (fun x s => x ||| x >>> s) x

/-- The shifts of a window of `2 ^ k` bits. -/
def doublings (k : ℕ) : List ℕ := (List.range k).map (2 ^ ·)

lemma smear_doublings_succ (k x : ℕ) :
    smear (doublings (k + 1)) x =
      smear (doublings k) x ||| smear (doublings k) x >>> 2 ^ k := by
  rw [smear, doublings, List.range_succ, List.map_append, List.foldl_append]
  rfl

/-- **The window.**  A bit is set exactly if one of the `2 ^ k` bits from its place on was. -/
lemma testBit_smear (k x i : ℕ) :
    (smear (doublings k) x).testBit i = true ↔ ∃ j < 2 ^ k, x.testBit (i + j) = true := by
  induction k generalizing i with
  | zero =>
      constructor
      · intro h
        exact ⟨0, by norm_num, h⟩
      · rintro ⟨j, hj, h⟩
        obtain rfl : j = 0 := by omega
        exact h
  | succ k ih =>
      rw [smear_doublings_succ, Nat.testBit_or, Nat.testBit_shiftRight, Bool.or_eq_true, ih, ih]
      constructor
      · rintro (⟨j, hj, h⟩ | ⟨j, hj, h⟩)
        · exact ⟨j, by rw [pow_succ]; omega, h⟩
        · refine ⟨2 ^ k + j, by rw [pow_succ]; omega, ?_⟩
          rwa [← Nat.add_assoc, Nat.add_comm i]
      · rintro ⟨j, hj, h⟩
        by_cases hlow : j < 2 ^ k
        · exact Or.inl ⟨j, hlow, h⟩
        · refine Or.inr ⟨j - 2 ^ k, by rw [pow_succ] at hj; omega, ?_⟩
          rw [show 2 ^ k + i + (j - 2 ^ k) = i + j by omega]
          exact h

/-- The result is not below the number. -/
lemma le_smear (shifts : List ℕ) (x : ℕ) : x ≤ smear shifts x := by
  induction shifts generalizing x with
  | nil => exact le_refl _
  | cons s shifts ih => exact le_trans Nat.left_le_or (ih _)

/-- The result has no bit above the number's highest. -/
lemma smear_lt {shifts : List ℕ} {x n : ℕ} (h : x < 2 ^ n) : smear shifts x < 2 ^ n := by
  induction shifts generalizing x with
  | nil => exact h
  | cons s shifts ih =>
      apply ih
      exact Nat.or_lt_two_pow h (lt_of_le_of_lt (Nat.shiftRight_le _ _) h)

/-- A window as wide as the number sets all bits below its highest. -/
lemma smear_eq {k x : ℕ} (h : x.size ≤ 2 ^ k) : smear (doublings k) x = 2 ^ x.size - 1 := by
  apply Nat.eq_of_testBit_eq
  intro i
  rw [Nat.testBit_two_pow_sub_one, Bool.eq_iff_iff, testBit_smear, decide_eq_true_eq]
  constructor
  · rintro ⟨j, -, hbit⟩
    have hsize : i + j < x.size := by
      rw [Nat.lt_size]
      exact Nat.ge_two_pow_of_testBit hbit
    omega
  · intro hi
    -- the number has a bit at the place below its size, or above
    have htop : 2 ^ (x.size - 1) ≤ x := Nat.lt_size.mp (by omega)
    obtain ⟨j, hj, hbit⟩ := Nat.exists_ge_and_testBit_of_ge_two_pow htop
    have hsize : j < x.size := Nat.lt_size.mpr (Nat.ge_two_pow_of_testBit hbit)
    refine ⟨j - i, by omega, ?_⟩
    rw [show i + (j - i) = j by omega]
    exact hbit

/-- **Rounding up.**  With a window as wide as the number, the result plus one is the least power
of two above it. -/
lemma smear_succ_le_iff {k x : ℕ} (h : x.size ≤ 2 ^ k) :
    smear (doublings k) x + 1 = 2 ^ x.size ∧ ∀ m, x + 1 ≤ 2 ^ m ↔ x.size ≤ m := by
  constructor
  · have hpos : 0 < 2 ^ x.size := Nat.two_pow_pos _
    rw [smear_eq h]
    omega
  · intro m
    rw [Nat.size_le]
    exact Nat.lt_iff_add_one_le.symm

end Bits
