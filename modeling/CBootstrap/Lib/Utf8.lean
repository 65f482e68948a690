import Mathlib.Algebra.Ring.Nat
import Mathlib.Tactic.Common

/-!
# The sequences of UTF-8

A sequence of `n` bytes holds a number below `2 ^ 7`, `2 ^ 11`, `2 ^ 16` or `2 ^ 21`: its high bits
in the first byte, behind a mark that tells `n`, and six bits in each of the others.  `code n c` is
the sequence, and `value` reads it back; both know nothing of which numbers are characters, and of
which of the possible lengths is the one to be used.

UTF-8 uses the shortest (`size`), and `utf8EncodeChar_eq` is that Lean's encoding of a character is
`code` at that length.
-/

namespace Utf8

/-- The bytes behind the first: the low `6 * k` bits of `c`. -/
def tail : ℕ → ℕ → List UInt8
  | 0, _ => []
  | k + 1, c => UInt8.ofNat (128 + c / 64 ^ k % 64) :: tail k c

/-- The first byte of a sequence of `n` bytes: its mark, and the bits `f`. -/
def lead (n f : ℕ) : UInt8 :=
  match n with
  | 1 => UInt8.ofNat f
  | 2 => UInt8.ofNat (192 + f)
  | 3 => UInt8.ofNat (224 + f)
  | _ => UInt8.ofNat (240 + f)

/-- The first byte of a sequence of `n` bytes holds a number below this one. -/
def leadBound (n : ℕ) : ℕ :=
  match n with
  | 1 => 128
  | 2 => 32
  | 3 => 16
  | 4 => 8
  | _ => 0

/-- The sequence of `n` bytes for `c`. -/
def code (n c : ℕ) : List UInt8 := lead n (c / 64 ^ (n - 1)) :: tail (n - 1) c

/-- The number of bytes of the shortest sequence. -/
def size (c : ℕ) : ℕ := if c ≤ 0x7F then 1 else if c ≤ 0x7FF then 2 else if c ≤ 0xFFFF then 3 else 4

/-- Whether a byte can stand behind the first one. -/
def IsTail (b : UInt8) : Prop := 128 ≤ b.toNat ∧ b.toNat < 192

instance (b : UInt8) : Decidable (IsTail b) := inferInstanceAs (Decidable (_ ∧ _))

/-- The number with the bits `f` in front and six more bits in each byte. -/
def value : ℕ → List UInt8 → ℕ
  | f, [] => f
  | f, b :: bs => value (f * 64 + b.toNat % 64) bs

@[simp] lemma length_tail (k c : ℕ) : (tail k c).length = k := by
  induction k with
  | zero => rfl
  | succ k ih => rw [tail, List.length_cons, ih]

lemma length_code {n : ℕ} (hn : 0 < n) (c : ℕ) : (code n c).length = n := by
  rw [code, List.length_cons, length_tail]
  omega

lemma toNat_tailByte (x : ℕ) : (UInt8.ofNat (128 + x % 64)).toNat = 128 + x % 64 := by
  rw [UInt8.toNat_ofNat']
  omega

lemma isTail_of_mem {k c : ℕ} {b : UInt8} (h : b ∈ tail k c) : IsTail b := by
  induction k with
  | zero => cases h
  | succ k ih =>
      rw [tail, List.mem_cons] at h
      rcases h with rfl | h
      · rw [IsTail, toNat_tailByte]
        omega
      · exact ih h

/-- Reading the bytes behind the first gives the number back. -/
lemma value_tail (k c : ℕ) : value (c / 64 ^ k) (tail k c) = c := by
  induction k with
  | zero => simp [tail, value]
  | succ k ih =>
      have hbits : c / 64 ^ (k + 1) * 64 + (UInt8.ofNat (128 + c / 64 ^ k % 64)).toNat % 64 =
          c / 64 ^ k := by
        rw [toNat_tailByte, Nat.pow_succ, ← Nat.div_div_eq_div_mul]
        omega
      rw [tail, value, hbits, ih]

/-- What the bytes put behind a number does not touch the number. -/
lemma value_div (f : ℕ) (bs : List UInt8) : value f bs / 64 ^ bs.length = f := by
  induction bs generalizing f with
  | nil => simp [value]
  | cons b bs ih =>
      rw [value, List.length_cons, Nat.pow_succ, ← Nat.div_div_eq_div_mul, ih]
      omega

/-- The bytes behind the first are those of the number they hold. -/
lemma tail_value {f : ℕ} {bs : List UInt8} (h : ∀ b ∈ bs, IsTail b) :
    tail bs.length (value f bs) = bs := by
  induction bs generalizing f with
  | nil => rfl
  | cons b bs ih =>
      have hb := h b List.mem_cons_self
      have hbyte : UInt8.ofNat (128 + (f * 64 + b.toNat % 64) % 64) = b := by
        have hnat : 128 + (f * 64 + b.toNat % 64) % 64 = b.toNat := by
          rw [IsTail] at hb
          omega
        rw [hnat, UInt8.ofNat_toNat]
      rw [List.length_cons, tail, value, value_div, hbyte,
        ih fun b hmem => h b (List.mem_cons_of_mem _ hmem)]

/-- Lean's encoding of a character. -/
lemma utf8EncodeChar_eq (c : Char) :
    String.utf8EncodeChar c = code (size c.toNat) c.toNat := by
  have hv : c.val.toNat = c.toNat := rfl
  have hlt : c.toNat < 0x110000 := by
    rcases c.valid with h | h
    · exact Nat.lt_trans h (by decide)
    · exact h.2
  rw [String.utf8EncodeChar, size]
  simp only [hv]
  split_ifs
  · simp [code, lead, tail]
  · have hmod : c.toNat / 64 % 32 = c.toNat / 64 := Nat.mod_eq_of_lt (by omega)
    simp [code, lead, tail, hmod, Nat.add_comm]
  · have hmod : c.toNat / 4096 % 16 = c.toNat / 4096 := Nat.mod_eq_of_lt (by omega)
    simp [code, lead, tail, hmod, Nat.add_comm]
  · have hmod : c.toNat / 262144 % 8 = c.toNat / 262144 := Nat.mod_eq_of_lt (by omega)
    simp [code, lead, tail, hmod, Nat.add_comm]

end Utf8
