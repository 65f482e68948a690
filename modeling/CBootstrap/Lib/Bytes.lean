import Mathlib.Data.Nat.Digits.Lemmas
import Mathlib.Tactic.Ring
import Mathlib.Tactic.NormNum

/-!
# Fixed-width integers as byte strings

The wire formats of this development all carry their lengths and numbers as fixed-width
integers, some big-endian and some little-endian.  This file fixes the two writers
`toBE`/`toLE` and the two readers `ofBE`/`ofLE`, and proves what the format proofs use: the
width of what is written (`length_toLE`, `length_toBE`), the two round trips
(`ofLE_toLE`, `ofBE_toBE`), and the bound on what is read (`ofLE_lt`, `ofBE_lt`).

A writer truncates: `toLE w n` writes `n mod 256 ^ w`, which is what storing a number into a
`w`-byte field does.  The readers are `Nat.ofDigits` at base `256`, so Mathlib's digit lemmas
apply to them.

A reader that works with offsets knows a field by what is behind the offset, `data.drop o`; the
lemmas `drop_behind`, `length_of_drop` and `getD_of_drop` go from one field to the next.

`ascii` turns the text of a format string into bytes, and `decimal`, `hexByte` are the two
number renderings (`%d`, `%02x`) the printers need.
-/

namespace Bytes

/-- A statement about the elements of a list is decided by going through the list, also where the
type is finite and one could go through that. -/
instance (priority := 2000) decidableForallMem {α : Type} (l : List α) (P : α → Prop)
    [DecidablePred P] : Decidable (∀ a ∈ l, P a) := l.decidableBAll P

/-! ## Little-endian -/

/-- The `w` low-order bytes of `n`, least significant first. -/
def toLE : ℕ → ℕ → List UInt8
  | 0, _ => []
  | w + 1, n => UInt8.ofNat n :: toLE w (n / 256)

/-- The number a byte string denotes, least significant byte first. -/
def ofLE (bs : List UInt8) : ℕ := Nat.ofDigits 256 (bs.map UInt8.toNat)

@[simp] lemma length_toLE (w n : ℕ) : (toLE w n).length = w := by
  induction w generalizing n with
  | zero => rfl
  | succ w ih => simp [toLE, ih]

@[simp] lemma ofLE_cons (b : UInt8) (bs : List UInt8) :
    ofLE (b :: bs) = b.toNat + 256 * ofLE bs := by
  simp [ofLE, Nat.ofDigits_cons]

/-- **The little-endian round trip**: what is read back is the number modulo the field. -/
lemma ofLE_toLE (w n : ℕ) : ofLE (toLE w n) = n % 256 ^ w := by
  induction w generalizing n with
  | zero => simp [toLE, ofLE, Nat.mod_one]
  | succ w ih =>
      rw [toLE, ofLE_cons, ih, Nat.pow_succ', Nat.mod_mul]
      simp

lemma ofLE_toLE_of_lt {w n : ℕ} (h : n < 256 ^ w) : ofLE (toLE w n) = n := by
  rw [ofLE_toLE, Nat.mod_eq_of_lt h]

/-- A field written back is the field that was read. -/
lemma toLE_ofLE (bs : List UInt8) : toLE bs.length (ofLE bs) = bs := by
  induction bs with
  | nil => rfl
  | cons b bs ih =>
      have hb : b.toNat < 256 := b.toNat_lt
      have hdiv : (b.toNat + 256 * ofLE bs) / 256 = ofLE bs := by omega
      have hlow : UInt8.ofNat (b.toNat + 256 * ofLE bs) = b := by
        rw [← UInt8.toNat_inj, UInt8.toNat_ofNat']
        omega
      rw [List.length_cons, ofLE_cons, toLE, hdiv, ih, hlow]

/-- A field determines the number written into it. -/
lemma toLE_injective {w m n : ℕ} (hm : m < 256 ^ w) (hn : n < 256 ^ w)
    (h : toLE w m = toLE w n) : m = n := by
  rw [← ofLE_toLE_of_lt hm, h, ofLE_toLE_of_lt hn]

/-- A field takes a number modulo its size. -/
lemma toLE_mod (w n : ℕ) : toLE w (n % 256 ^ w) = toLE w n := by
  have h := toLE_ofLE (toLE w n)
  rwa [length_toLE, ofLE_toLE] at h

/-- Two fields next to each other are one. -/
lemma toLE_add (v w n : ℕ) : toLE (v + w) n = toLE v n ++ toLE w (n / 256 ^ v) := by
  induction v generalizing n with
  | zero => simp [toLE]
  | succ v ih =>
      rw [Nat.add_right_comm, toLE, ih, toLE, List.cons_append, Nat.div_div_eq_div_mul,
        Nat.pow_succ']

lemma ofLE_lt (bs : List UInt8) : ofLE bs < 256 ^ bs.length := by
  have h := Nat.ofDigits_lt_base_pow_length (b := 256) (l := bs.map UInt8.toNat)
    (by norm_num) (by
      intro d hd
      obtain ⟨b, -, rfl⟩ := List.mem_map.mp hd
      exact b.toNat_lt)
  simpa [ofLE] using h

/-! ## Big-endian -/

/-- The `w` low-order bytes of `n`, most significant first. -/
def toBE (w n : ℕ) : List UInt8 := (toLE w n).reverse

/-- The number a byte string denotes, most significant byte first. -/
def ofBE (bs : List UInt8) : ℕ := ofLE bs.reverse

@[simp] lemma length_toBE (w n : ℕ) : (toBE w n).length = w := by
  simp [toBE]

/-- **The big-endian round trip.** -/
lemma ofBE_toBE (w n : ℕ) : ofBE (toBE w n) = n % 256 ^ w := by
  simp [ofBE, toBE, ofLE_toLE]

lemma ofBE_toBE_of_lt {w n : ℕ} (h : n < 256 ^ w) : ofBE (toBE w n) = n := by
  rw [ofBE_toBE, Nat.mod_eq_of_lt h]

lemma toBE_mod (w n : ℕ) : toBE w (n % 256 ^ w) = toBE w n := by
  rw [toBE, toBE, toLE_mod]

lemma toBE_add (v w n : ℕ) : toBE (v + w) n = toBE v (n / 256 ^ w) ++ toBE w n := by
  rw [toBE, Nat.add_comm, toLE_add, List.reverse_append]
  rfl

lemma ofBE_lt (bs : List UInt8) : ofBE bs < 256 ^ bs.length := by
  simpa [ofBE] using ofLE_lt bs.reverse

/-! ## Fields at an offset -/

section Offset

variable {data a rest : List UInt8} {o : ℕ}

/-- What is behind a field. -/
lemma drop_behind (h : data.drop o = a ++ rest) : data.drop (o + a.length) = rest := by
  rw [← List.drop_drop, h, List.drop_left]

/-- A field with something behind it ends before the data does. -/
lemma length_of_drop (h : data.drop o = a ++ rest) (hrest : rest ≠ []) :
    data.length = o + a.length + rest.length := by
  have hlen := congrArg List.length h
  have hpos := List.length_pos_of_ne_nil hrest
  rw [List.length_drop, List.length_append] at hlen
  omega

lemma getD_of_drop {b : UInt8} (h : data.drop o = b :: rest) : data.getD o 0 = b := by
  have hget : data[o]? = some b := by
    rw [← List.head?_drop, h, List.head?_cons]
  rw [List.getD_eq_getElem?_getD, hget, Option.getD_some]

end Offset

/-! ## Text -/

/-- The bytes of an ASCII text. -/
def ascii (s : String) : List UInt8 := s.toList.map (fun c => UInt8.ofNat c.toNat)

/-- A character encoded in bytes below 128 is encoded in one. -/
lemma utf8EncodeChar_of_lt {c : Char} (h : ∀ b ∈ String.utf8EncodeChar c, b.toNat < 128) :
    String.utf8EncodeChar c = [UInt8.ofNat c.toNat] := by
  rw [String.utf8EncodeChar] at *
  by_cases hc : c.val.toNat ≤ 0x7f
  · rw [if_pos hc]
    rfl
  · -- a longer encoding ends in a continuation byte, which is at least 128
    have hlast : UInt8.ofNat (c.val.toNat % 0x40 + 0x80) ∈ String.utf8EncodeChar c := by
      rw [String.utf8EncodeChar, if_neg hc]
      split_ifs <;> simp
    have hlt := h _ hlast
    rw [UInt8.toNat_ofNat'] at hlt
    omega

/-- An ASCII text is its own UTF-8 encoding.  This is the form in which long tables of texts
are quick to check. -/
lemma ascii_eq_utf8 {s : String} (h : ∀ b ∈ s.toByteArray.data.toList, b.toNat < 128) :
    ascii s = s.toByteArray.data.toList := by
  rw [← String.utf8Encode_toList, List.utf8Encode, List.toList_data_toByteArray] at *
  rw [ascii, List.map_eq_flatMap]
  refine List.flatMap_congr (fun c hc => (utf8EncodeChar_of_lt ?_).symm)
  exact fun b hb => h b (List.mem_flatMap.mpr ⟨c, hc, hb⟩)

/-- `%d`, `%u` and `%zu`: an integer in decimal. -/
def decimal (i : ℤ) : List UInt8 := ascii (toString i)

/-- The bytes of a decimal number are digits, and perhaps a sign. -/
lemma mem_decimal {i : ℤ} {b : UInt8} (hb : b ∈ decimal i) :
    b = 45 ∨ 48 ≤ b.toNat ∧ b.toNat ≤ 57 := by
  have hdigit (n : ℕ) (c : Char) (hc : c ∈ n.repr.toList) :
      48 ≤ (UInt8.ofNat c.toNat).toNat ∧ (UInt8.ofNat c.toNat).toNat ≤ 57 := by
    rw [Nat.toList_repr] at hc
    have hc := Char.isDigit_iff_toNat.mp (Nat.isDigit_of_mem_toDigits (by norm_num) le_rfl hc)
    have h0 : '0'.toNat = 48 := rfl
    have h9 : '9'.toNat = 57 := rfl
    rw [UInt8.toNat_ofNat']
    omega
  rw [decimal, ascii, Int.toString_eq_repr, Int.repr_eq_if] at hb
  obtain ⟨c, hc, rfl⟩ := List.mem_map.mp hb
  split_ifs at hc with hi
  · exact Or.inr (hdigit _ c hc)
  · rw [String.toList_append] at hc
    rcases List.mem_append.mp hc with hc | hc
    · have hc : c = '-' := by simpa using hc
      subst hc
      exact Or.inl rfl
    · exact Or.inr (hdigit _ c hc)

/-- The lower-case hexadecimal digit of a number below sixteen. -/
def hexDigit (n : ℕ) : UInt8 := UInt8.ofNat (if n < 10 then 48 + n else 87 + n)

/-- `%02x` of a byte. -/
def hexByte (n : ℕ) : List UInt8 := [hexDigit (n / 16 % 16), hexDigit (n % 16)]

end Bytes
