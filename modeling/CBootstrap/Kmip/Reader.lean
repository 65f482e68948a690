import CBootstrap.Lib.Bytes
import Mathlib.Tactic.SplitIfs

/-!
# The vendored TTLV reader

`vendor_kms_reader_writer.c` reads KMIP messages through a cursor `kmip_reader_t` — a pointer,
a position and a length — and a family of `kmip_reader_read_*` calls.  A call returns a `bool`
and writes its result through an out-parameter; a call that returns `false` may still have
moved the position (`kmip_reader_read_tag`, `kmip_reader_read_integer`) or written the
out-parameter.  `Read` carries all three: what the call returned, the out-parameter after it,
and the reader after it.  The out-parameter's content before the call is an argument, because
a failed call leaves it as it was.

`size_t` arithmetic is written modulo `2 ^ 64` and the `uint32_t` arithmetic of
`kmip_reader_next` modulo `2 ^ 32`, as the C types have it.

The proofs never look at the position again after this file.  `KmipReader.rest` is the part of
the reader's buffer not yet read, and each call has one specification lemma `..._eq` that says
what it does to `rest`: take so many bytes, leave the others.  `KmipReader.Valid` is the
invariant under which those lemmas hold: the position is inside the buffer, the buffer is
inside the memory behind `ptr`, and no object reaches `2 ^ 63` bytes.
-/

namespace CBootstrap.Kmip

open Bytes

/-! ## The cursor -/

/-- `kmip_reader_t`.  `ptr` is the memory from the pointer on. -/
structure KmipReader where
  ptr : List UInt8
  pos : ℕ
  len : ℕ
  deriving DecidableEq, Repr

/-- `kmip_reader_new`. -/
def kmipReaderNew (ptr : List UInt8) (len : ℕ) : KmipReader := ⟨ptr, 0, len⟩

/-- What one reader call leaves behind: the `bool` it returned, its out-parameter, and the
reader. -/
structure Read (α : Type) where
  ok : Bool
  out : α
  reader : KmipReader

/-- `compute_padded_length`: round up to a multiple of eight, in `size_t`. -/
def computePaddedLength (len : ℕ) : ℕ :=
  if len % 8 = 0 then len
  else
    let padding := 8 - len % 8
    (len + padding) % 2 ^ 64

/-- The test behind `CHECK_REMAINING_BUFFER_AND_RET`, in `size_t`. -/
def KmipReader.checkRemaining (reader : KmipReader) (readSize : ℕ) : Bool :=
  decide ((reader.pos + readSize) % 2 ^ 64 ≤ reader.len)

/-- `reader->pos += n`. -/
def KmipReader.advance (reader : KmipReader) (n : ℕ) : KmipReader :=
  { reader with pos := (reader.pos + n) % 2 ^ 64 }

/-! ## The calls -/

/-- `kmip_reader_in_place`.  The new reader's pointer is the old one's *current* position, not
the `pos` argument the bound is checked for. -/
def kmipReaderInPlace (reader : KmipReader) (pos len : ℕ) (outReader : KmipReader) :
    Read KmipReader :=
  let len := computePaddedLength len
  if (pos + len) % 2 ^ 64 > reader.len then ⟨false, outReader, reader⟩
  else ⟨true, ⟨reader.ptr.drop reader.pos, 0, len⟩, reader⟩

/-- The common body of `kmip_reader_read_u8` … `kmip_reader_read_u64`. -/
def kmipReaderReadUint (width : ℕ) (reader : KmipReader) (value : ℕ) : Read ℕ :=
  if reader.checkRemaining width then
    ⟨true, ofBE ((reader.ptr.drop reader.pos).take width), reader.advance width⟩
  else ⟨false, value, reader⟩

/-- `kmip_reader_read_u8`. -/
def kmipReaderReadU8 := kmipReaderReadUint 1

/-- `kmip_reader_read_u16`. -/
def kmipReaderReadU16 := kmipReaderReadUint 2

/-- `kmip_reader_read_u32`. -/
def kmipReaderReadU32 := kmipReaderReadUint 4

/-- `kmip_reader_read_u64`. -/
def kmipReaderReadU64 := kmipReaderReadUint 8

/-- `kmip_reader_read_bytes`: the out-parameter is a pointer into the buffer, here the memory
from it on. -/
def kmipReaderReadBytes (reader : KmipReader) (ptr : List UInt8) (length : ℕ) :
    Read (List UInt8) :=
  let advanceLength := computePaddedLength length
  if reader.checkRemaining advanceLength then
    ⟨true, reader.ptr.drop reader.pos, reader.advance advanceLength⟩
  else ⟨false, ptr, reader⟩

/-- `kmip_reader_read_tag`.  A first byte other than `0x42` is consumed all the same. -/
def kmipReaderReadTag (reader : KmipReader) (tag : ℕ) : Read ℕ :=
  let first := kmipReaderReadU8 reader 0
  if !first.ok then ⟨false, tag, first.reader⟩
  else if first.out ≠ 0x42 then ⟨false, tag, first.reader⟩
  else
    let second := kmipReaderReadU16 first.reader 0
    if !second.ok then ⟨false, tag, second.reader⟩
    else ⟨true, 0x420000 + second.out, second.reader⟩

/-- `kmip_reader_read_length`. -/
def kmipReaderReadLength := kmipReaderReadU32

/-- `kmip_reader_read_type`, before the cast to `kmip_item_type_t`. -/
def kmipReaderReadType := kmipReaderReadU8

/-- A `uint32_t` or `uint64_t` reinterpreted as the signed type of `bits` bits. -/
def toSigned (bits n : ℕ) : ℤ := Int.bmod n (2 ^ bits)

/-- The common body of `kmip_reader_read_enumeration` and `kmip_reader_read_integer`: four
bytes of value, stored through `cast`, and four of padding, read and ignored.  When only the
padding is missing the value has been stored although the call returns `false`. -/
def kmipReaderReadPadded {α : Type} (cast : ℕ → α) (reader : KmipReader) (value : α) : Read α :=
  let bits := kmipReaderReadU32 reader 0
  if !bits.ok then ⟨false, value, bits.reader⟩
  else
    let ignored := kmipReaderReadU32 bits.reader 0
    ⟨ignored.ok, cast bits.out, ignored.reader⟩

/-- `kmip_reader_read_enumeration`. -/
def kmipReaderReadEnumeration : KmipReader → ℕ → Read ℕ := kmipReaderReadPadded id

/-- `kmip_reader_read_integer`. -/
def kmipReaderReadInteger : KmipReader → ℤ → Read ℤ := kmipReaderReadPadded (toSigned 32)

/-- `kmip_reader_read_long_integer`. -/
def kmipReaderReadLongInteger (reader : KmipReader) (value : ℤ) : Read ℤ :=
  let bits := kmipReaderReadU64 reader 0
  if bits.ok then ⟨true, toSigned 64 bits.out, bits.reader⟩ else ⟨false, value, bits.reader⟩

/-- `kmip_reader_read_string`. -/
def kmipReaderReadString := kmipReaderReadBytes

/-- `kmip_reader_next`: skip an item's value.  The padded length is stored back into a
`uint32_t` before the bound is checked. -/
def kmipReaderNext (reader : KmipReader) (readLength : ℕ) : Read Unit :=
  let advanceLength := computePaddedLength readLength % 2 ^ 32
  if reader.checkRemaining advanceLength then ⟨true, (), reader.advance advanceLength⟩
  else ⟨false, (), reader⟩

/-- `kmip_reader_has_data`. -/
def kmipReaderHasData (reader : KmipReader) : Bool := decide (reader.pos < reader.len)

/-- The skip at the end of an iteration of `kmip_reader_find`.  Here the padded length is kept
in a `size_t`. -/
def kmipReaderFindSkip (reader : KmipReader) (readLength : ℕ) : Read Unit :=
  let advanceLength := computePaddedLength readLength
  if reader.checkRemaining advanceLength then ⟨true, (), reader.advance advanceLength⟩
  else ⟨false, (), reader⟩

/-- The `while` loop of `kmip_reader_find`; the out-parameters are the pair of `pos` and
`length`.  One unit of fuel for each iteration. -/
def kmipReaderFindLoop (searchTag type : ℕ) (found : ℕ × ℕ) : ℕ → KmipReader → Option (Read (ℕ × ℕ))
  | 0, _ => none
  | fuel + 1, reader =>
      if !kmipReaderHasData reader then some ⟨false, found, reader⟩
      else
        let readTag := kmipReaderReadTag reader 0
        if !readTag.ok then some ⟨false, found, readTag.reader⟩
        else
          let readType := kmipReaderReadType readTag.reader 0
          if !readType.ok then some ⟨false, found, readType.reader⟩
          else
            let readLength := kmipReaderReadLength readType.reader 0
            if !readLength.ok then some ⟨false, found, readLength.reader⟩
            else if readTag.out = searchTag ∧ readType.out = type then
              some ⟨true, (readLength.reader.pos, readLength.out), readLength.reader⟩
            else
              let skip := kmipReaderFindSkip readLength.reader readLength.out
              if !skip.ok then some ⟨false, found, skip.reader⟩
              else kmipReaderFindLoop searchTag type found fuel skip.reader

/-- `kmip_reader_find`.  The search starts at the beginning of the buffer. -/
def kmipReaderFind (reader : KmipReader) (searchTag type : ℕ) (found : ℕ × ℕ) :
    Option (Read (ℕ × ℕ)) :=
  kmipReaderFindLoop searchTag type found (reader.len + 1) { reader with pos := 0 }

/-! ## The unread part of the buffer -/

/-- The bytes between the position and the end of the buffer. -/
def KmipReader.rest (reader : KmipReader) : List UInt8 :=
  (reader.ptr.drop reader.pos).take (reader.len - reader.pos)

/-- The reader stays inside its buffer, and the buffer inside the memory behind `ptr`. -/
structure KmipReader.Valid (reader : KmipReader) : Prop where
  pos_le : reader.pos ≤ reader.len
  len_le : reader.len ≤ reader.ptr.length
  len_lt : reader.len < 2 ^ 63

lemma kmipReaderNew_valid {data : List UInt8} (h : data.length < 2 ^ 63) :
    (kmipReaderNew data data.length).Valid :=
  ⟨Nat.zero_le _, le_refl _, h⟩

@[simp] lemma rest_kmipReaderNew (data : List UInt8) :
    (kmipReaderNew data data.length).rest = data := by
  simp [KmipReader.rest, kmipReaderNew]

@[simp] lemma KmipReader.advance_len (reader : KmipReader) (n : ℕ) :
    (reader.advance n).len = reader.len := rfl

@[simp] lemma KmipReader.advance_ptr (reader : KmipReader) (n : ℕ) :
    (reader.advance n).ptr = reader.ptr := rfl

@[simp] lemma KmipReader.advance_advance (reader : KmipReader) (m n : ℕ) :
    (reader.advance m).advance n = reader.advance (m + n) := by
  simp [KmipReader.advance, Nat.add_assoc]

namespace KmipReader.Valid

variable {reader : KmipReader} (hv : reader.Valid)

include hv

lemma length_rest : reader.rest.length = reader.len - reader.pos := by
  have := hv.pos_le
  have := hv.len_le
  simp only [KmipReader.rest, List.length_take, List.length_drop]
  omega

/-- Reading at most the unread bytes reads from the window. -/
lemma take_drop_ptr {n : ℕ} (hn : n ≤ reader.rest.length) :
    (reader.ptr.drop reader.pos).take n = reader.rest.take n := by
  rw [hv.length_rest] at hn
  rw [KmipReader.rest, List.take_take, min_eq_left hn]

lemma advance_pos {n : ℕ} (hn : n ≤ reader.rest.length) :
    (reader.advance n).pos = reader.pos + n := by
  rw [hv.length_rest] at hn
  have := hv.pos_le
  have := hv.len_lt
  exact Nat.mod_eq_of_lt (by omega)

lemma advance_zero : reader.advance 0 = reader := by
  have := hv.pos_le
  have := hv.len_lt
  rw [KmipReader.advance, Nat.add_zero, Nat.mod_eq_of_lt (by omega)]

lemma advance {n : ℕ} (hn : n ≤ reader.rest.length) : (reader.advance n).Valid := by
  have hpos := hv.advance_pos hn
  rw [hv.length_rest] at hn
  have := hv.pos_le
  exact ⟨by rw [hpos, KmipReader.advance_len]; omega, hv.len_le, hv.len_lt⟩

lemma rest_advance {n : ℕ} (hn : n ≤ reader.rest.length) :
    (reader.advance n).rest = reader.rest.drop n := by
  rw [KmipReader.rest, hv.advance_pos hn, KmipReader.advance_len, KmipReader.advance_ptr,
    KmipReader.rest, List.drop_take, List.drop_drop]
  congr 1
  omega

/-- The bound check does not wrap for a size a 32-bit length can ask for. -/
lemma checkRemaining_eq {n : ℕ} (hn : n ≤ 2 ^ 32) :
    reader.checkRemaining n = decide (n ≤ reader.rest.length) := by
  have := hv.pos_le
  have := hv.len_lt
  rw [KmipReader.checkRemaining, hv.length_rest, Nat.mod_eq_of_lt (by omega)]
  exact decide_eq_decide.mpr (by omega)

end KmipReader.Valid

/-! ## What each call does to the unread part -/

/-- A 32-bit length is padded without wrapping in `size_t`. -/
lemma computePaddedLength_eq {len : ℕ} (h : len < 2 ^ 32) :
    computePaddedLength len = (len + 7) / 8 * 8 := by
  unfold computePaddedLength
  split_ifs with h8
  · omega
  · simp only
    rw [Nat.mod_eq_of_lt (by omega)]
    omega

lemma computePaddedLength_le {len : ℕ} (h : len < 2 ^ 32) : computePaddedLength len ≤ 2 ^ 32 := by
  rw [computePaddedLength_eq h]
  omega

lemma le_computePaddedLength {len : ℕ} (h : len < 2 ^ 32) : len ≤ computePaddedLength len := by
  rw [computePaddedLength_eq h]
  omega

section Specs

variable {reader : KmipReader} (hv : reader.Valid)

include hv

lemma kmipReaderReadUint_eq {width : ℕ} (hw : width ≤ 8) (value : ℕ) :
    kmipReaderReadUint width reader value =
      if width ≤ reader.rest.length then
        ⟨true, ofBE (reader.rest.take width), reader.advance width⟩
      else ⟨false, value, reader⟩ := by
  unfold kmipReaderReadUint
  rw [hv.checkRemaining_eq (by omega)]
  by_cases h : width ≤ reader.rest.length
  · simp [h, hv.take_drop_ptr h]
  · simp [h]

lemma kmipReaderReadBytes_eq {length : ℕ} (hl : length < 2 ^ 32) (ptr : List UInt8) :
    kmipReaderReadBytes reader ptr length =
      if computePaddedLength length ≤ reader.rest.length then
        ⟨true, reader.ptr.drop reader.pos, reader.advance (computePaddedLength length)⟩
      else ⟨false, ptr, reader⟩ := by
  unfold kmipReaderReadBytes
  simp only [hv.checkRemaining_eq (computePaddedLength_le hl), decide_eq_true_eq]

/-- Four bytes of value and four of padding: eight bytes or a failure.  A failure still
consumes four of them when at least four are there. -/
lemma kmipReaderReadPadded_eq {α : Type} (cast : ℕ → α) (value : α) :
    kmipReaderReadPadded cast reader value =
      if 8 ≤ reader.rest.length then
        ⟨true, cast (ofBE (reader.rest.take 4)), reader.advance 8⟩
      else if 4 ≤ reader.rest.length then
        ⟨false, cast (ofBE (reader.rest.take 4)), reader.advance 4⟩
      else ⟨false, value, reader⟩ := by
  unfold kmipReaderReadPadded kmipReaderReadU32
  rw [kmipReaderReadUint_eq hv (by norm_num)]
  by_cases h4 : 4 ≤ reader.rest.length
  · have hrest : (reader.advance 4).rest.length = reader.rest.length - 4 := by
      rw [hv.rest_advance h4, List.length_drop]
    simp only [h4, if_true, Bool.not_true, Bool.false_eq_true, if_false,
      kmipReaderReadUint_eq (hv.advance h4) (by norm_num : 4 ≤ 8), hrest]
    by_cases h8 : 8 ≤ reader.rest.length
    · rw [if_pos h8, if_pos (by omega), KmipReader.advance_advance]
    · rw [if_neg h8, if_neg (by omega)]
  · have h8 : ¬ 8 ≤ reader.rest.length := by omega
    simp [h4, h8]

lemma kmipReaderReadLongInteger_eq (value : ℤ) :
    kmipReaderReadLongInteger reader value =
      if 8 ≤ reader.rest.length then
        ⟨true, toSigned 64 (ofBE (reader.rest.take 8)), reader.advance 8⟩
      else ⟨false, value, reader⟩ := by
  unfold kmipReaderReadLongInteger kmipReaderReadU64
  rw [kmipReaderReadUint_eq hv (by norm_num)]
  by_cases h : 8 ≤ reader.rest.length <;> simp [h]

lemma kmipReaderNext_eq {readLength : ℕ} :
    kmipReaderNext reader readLength =
      if computePaddedLength readLength % 2 ^ 32 ≤ reader.rest.length then
        ⟨true, (), reader.advance (computePaddedLength readLength % 2 ^ 32)⟩
      else ⟨false, (), reader⟩ := by
  unfold kmipReaderNext
  simp only [hv.checkRemaining_eq (Nat.mod_lt _ (by norm_num)).le, decide_eq_true_eq]

lemma kmipReaderInPlace_eq {len : ℕ} (hl : len < 2 ^ 32) (outReader : KmipReader) :
    kmipReaderInPlace reader reader.pos len outReader =
      if computePaddedLength len ≤ reader.rest.length then
        ⟨true, ⟨reader.ptr.drop reader.pos, 0, computePaddedLength len⟩, reader⟩
      else ⟨false, outReader, reader⟩ := by
  have := computePaddedLength_le hl
  have := hv.pos_le
  have := hv.len_lt
  unfold kmipReaderInPlace
  simp only
  rw [Nat.mod_eq_of_lt (by omega), hv.length_rest]
  split_ifs with h1 h2 <;> first | rfl | omega

/-- The subreader's buffer is the next part of its parent's unread bytes. -/
lemma rest_inPlace {n : ℕ} (hn : n ≤ reader.rest.length) :
    (KmipReader.mk (reader.ptr.drop reader.pos) 0 n).rest = reader.rest.take n := by
  rw [← hv.take_drop_ptr hn]
  simp [KmipReader.rest]

lemma inPlace_valid {n : ℕ} (hn : n ≤ reader.rest.length) :
    (KmipReader.mk (reader.ptr.drop reader.pos) 0 n).Valid := by
  rw [hv.length_rest] at hn
  have := hv.len_le
  have := hv.len_lt
  have := hv.pos_le
  refine ⟨Nat.zero_le _, ?_, ?_⟩
  · simp only [List.length_drop]
    omega
  · simp only
    omega

/-- `kmip_reader_read_tag` answers `false` at the end of the buffer, at a byte other than
`0x42`, and at a `0x42` with fewer than two bytes behind it; the last two consume a byte. -/
lemma kmipReaderReadTag_eq (tag : ℕ) :
    kmipReaderReadTag reader tag =
      match reader.rest with
      | [] => ⟨false, tag, reader⟩
      | 0x42 :: a :: b :: _ => ⟨true, 0x420000 + ofBE [a, b], reader.advance 3⟩
      | _ :: _ => ⟨false, tag, reader.advance 1⟩ := by
  unfold kmipReaderReadTag kmipReaderReadU8 kmipReaderReadU16
  rw [kmipReaderReadUint_eq hv (by norm_num)]
  cases hrest : reader.rest with
  | nil => simp
  | cons x xs =>
      have h1 : 1 ≤ reader.rest.length := by simp [hrest]
      have hadv : (reader.advance 1).rest = xs := by rw [hv.rest_advance h1, hrest]; rfl
      have hx : ofBE [x] = x.toNat := by simp [ofBE, ofLE]
      by_cases h42 : x = 0x42
      · subst h42
        have hsecond := kmipReaderReadUint_eq (hv.advance h1) (by norm_num : 2 ≤ 8) 0
        rw [hadv] at hsecond
        rcases xs with _ | ⟨a, _ | ⟨b, l⟩⟩
        · simp [hx, hsecond]
        · simp [hx, hsecond]
        · simp [hx, hsecond]
      · have hne : x.toNat ≠ 0x42 := by
          intro h
          exact h42 (UInt8.toNat_inj.mp h)
        simp [hx, hne, h42]

end Specs

/-! ## Searching -/

section Find

variable {reader : KmipReader} (hv : reader.Valid)

include hv

/-- A fixed-width read that succeeds has consumed its bytes, and read a number they can hold. -/
lemma kmipReaderReadUint_of_ok {width : ℕ} (hw : width ≤ 8) {value : ℕ}
    (hok : (kmipReaderReadUint width reader value).ok = true) :
    width ≤ reader.rest.length ∧
      (kmipReaderReadUint width reader value).reader = reader.advance width ∧
      (kmipReaderReadUint width reader value).out < 256 ^ width := by
  rw [kmipReaderReadUint_eq hv hw] at hok ⊢
  split_ifs at hok ⊢ with h
  have hlt := ofBE_lt (reader.rest.take width)
  rw [List.length_take, min_eq_left h] at hlt
  exact ⟨h, rfl, hlt⟩

/-- A tag read that succeeds has consumed three bytes. -/
lemma kmipReaderReadTag_of_ok {tag : ℕ} (hok : (kmipReaderReadTag reader tag).ok = true) :
    3 ≤ reader.rest.length ∧ (kmipReaderReadTag reader tag).reader = reader.advance 3 := by
  rw [kmipReaderReadTag_eq hv] at hok ⊢
  split at hok
  · cases hok
  · next hrest => exact ⟨by simp [hrest], rfl⟩
  · cases hok

/-- A skip of `kmip_reader_find` that succeeds moves forward inside the buffer. -/
lemma kmipReaderFindSkip_of_ok {readLength : ℕ} (hl : readLength < 2 ^ 32)
    (hok : (kmipReaderFindSkip reader readLength).ok = true) :
    ∃ m ≤ reader.rest.length, (kmipReaderFindSkip reader readLength).reader = reader.advance m := by
  unfold kmipReaderFindSkip at hok ⊢
  simp only [hv.checkRemaining_eq (computePaddedLength_le hl), decide_eq_true_eq] at hok ⊢
  split_ifs at hok ⊢ with h
  exact ⟨_, h, rfl⟩

end Find

/-- A search iteration that reaches its skip has consumed a header of eight bytes, and its
length is a 32-bit one. -/
lemma header_of_ok {reader : KmipReader} (hv : reader.Valid)
    (htag : (kmipReaderReadTag reader 0).ok = true)
    (htype : (kmipReaderReadType (kmipReaderReadTag reader 0).reader 0).ok = true)
    (hlen : (kmipReaderReadLength
      (kmipReaderReadType (kmipReaderReadTag reader 0).reader 0).reader 0).ok = true) :
    8 ≤ reader.rest.length ∧
      (kmipReaderReadLength
        (kmipReaderReadType (kmipReaderReadTag reader 0).reader 0).reader 0).reader =
          reader.advance 8 ∧
      (kmipReaderReadLength
        (kmipReaderReadType (kmipReaderReadTag reader 0).reader 0).reader 0).out < 2 ^ 32 := by
  obtain ⟨h3, hr3⟩ := kmipReaderReadTag_of_ok hv htag
  rw [hr3] at htype hlen ⊢
  have hv3 := hv.advance h3
  obtain ⟨h1, hr1, -⟩ := kmipReaderReadUint_of_ok hv3 (by norm_num) htype
  have hr4 : (kmipReaderReadType (reader.advance 3) 0).reader = reader.advance 4 := by
    rw [kmipReaderReadType, kmipReaderReadU8, hr1, KmipReader.advance_advance]
  rw [hv.rest_advance h3, List.length_drop] at h1
  have hv4 := hv.advance (show 4 ≤ reader.rest.length by omega)
  rw [hr4] at hlen ⊢
  obtain ⟨h4, hr8, hlt⟩ := kmipReaderReadUint_of_ok hv4 (by norm_num) hlen
  rw [hv.rest_advance (by omega), List.length_drop] at h4
  refine ⟨by omega, ?_, ?_⟩
  · rw [kmipReaderReadLength, kmipReaderReadU32, hr8, KmipReader.advance_advance]
  · exact lt_of_lt_of_eq hlt (by norm_num)

/-- **The search ends.**  An iteration that goes on has consumed a header. -/
lemma kmipReaderFindLoop_isSome (searchTag type : ℕ) (found : ℕ × ℕ) {fuel : ℕ}
    {reader : KmipReader} (hv : reader.Valid) (hfuel : reader.rest.length < fuel) :
    (kmipReaderFindLoop searchTag type found fuel reader).isSome := by
  induction fuel generalizing reader with
  | zero => omega
  | succ fuel ih =>
      unfold kmipReaderFindLoop
      simp only
      split_ifs with hdata htag htype hlen hmatch hskip
      · rfl
      · rfl
      · rfl
      · rfl
      · rfl
      · rfl
      · simp only [Bool.not_eq_eq_eq_not, Bool.not_true, Bool.not_eq_false] at htag htype hlen hskip
        obtain ⟨h8, hreader, hl⟩ := header_of_ok hv htag htype hlen
        rw [hreader] at hskip ⊢
        have hv8 := hv.advance h8
        obtain ⟨m, hm, hr⟩ := kmipReaderFindSkip_of_ok hv8 hl hskip
        rw [hr]
        apply ih (hv8.advance hm)
        rw [hv8.rest_advance hm, hv.rest_advance h8, List.length_drop, List.length_drop]
        omega

/-- `kmip_reader_find` returns, on every valid reader. -/
lemma kmipReaderFind_isSome {reader : KmipReader} (hv : reader.Valid) (searchTag type : ℕ)
    (found : ℕ × ℕ) : (kmipReaderFind reader searchTag type found).isSome := by
  have hv0 : KmipReader.Valid { reader with pos := 0 } := ⟨Nat.zero_le _, hv.len_le, hv.len_lt⟩
  apply kmipReaderFindLoop_isSome searchTag type found hv0
  rw [hv0.length_rest]
  simp

/-! ## Skipping an item -/

/-- `kmip_reader_next` skips an item of this length as its name says: it fails, without moving,
exactly when the length rounded up to a multiple of eight does not fit into the rest of the
buffer, and otherwise advances by the rounded length; and it ends where the skip step of
`kmip_reader_find` and `kmip_reader_read_bytes` end. -/
structure NextSkips (reader : KmipReader) (length : ℕ) : Prop where
  fails : (kmipReaderNext reader length).ok = false ↔
    reader.len - reader.pos < (length + 7) / 8 * 8
  unchanged : (kmipReaderNext reader length).ok = false →
    (kmipReaderNext reader length).reader = reader
  advances : (kmipReaderNext reader length).ok = true →
    (kmipReaderNext reader length).reader =
      { reader with pos := reader.pos + (length + 7) / 8 * 8 }
  find : (kmipReaderNext reader length).ok = (kmipReaderFindSkip reader length).ok ∧
    (kmipReaderNext reader length).reader = (kmipReaderFindSkip reader length).reader
  readBytes : ∀ ptr,
    (kmipReaderNext reader length).ok = (kmipReaderReadBytes reader ptr length).ok ∧
    (kmipReaderNext reader length).reader = (kmipReaderReadBytes reader ptr length).reader

section Skip

variable {reader : KmipReader} (hpos : reader.pos ≤ reader.len) (hlen : reader.len < 2 ^ 63)

include hpos hlen

/-- The bound check and the advance do not wrap, whatever memory is behind `ptr`. -/
lemma checkRemaining_of_lt {n : ℕ} (hn : n ≤ 2 ^ 32) :
    reader.checkRemaining n = decide (n ≤ reader.len - reader.pos) := by
  rw [KmipReader.checkRemaining, Nat.mod_eq_of_lt (by omega)]
  exact decide_eq_decide.mpr (by omega)

lemma advance_of_lt {n : ℕ} (hn : n ≤ 2 ^ 32) :
    reader.advance n = { reader with pos := reader.pos + n } := by
  rw [KmipReader.advance, Nat.mod_eq_of_lt (by omega)]

/-- A padded length that survives the store into a `uint32_t` makes the three skips one. -/
lemma nextSkips_of_le {length : ℕ} (hle : length ≤ 2 ^ 32 - 8) : NextSkips reader length := by
  have hpad : computePaddedLength length = (length + 7) / 8 * 8 :=
    computePaddedLength_eq (by omega)
  have hmod : computePaddedLength length % 2 ^ 32 = (length + 7) / 8 * 8 := by
    rw [hpad, Nat.mod_eq_of_lt (by omega)]
  have hn : (length + 7) / 8 * 8 ≤ 2 ^ 32 := by omega
  have hcheck := checkRemaining_of_lt hpos hlen hn
  have hadvance := advance_of_lt hpos hlen hn
  have hnext : kmipReaderNext reader length =
      if (length + 7) / 8 * 8 ≤ reader.len - reader.pos then
        ⟨true, (), { reader with pos := reader.pos + (length + 7) / 8 * 8 }⟩
      else ⟨false, (), reader⟩ := by
    simp only [kmipReaderNext, hmod, hcheck, hadvance, decide_eq_true_eq]
  have hfind : kmipReaderFindSkip reader length = kmipReaderNext reader length := by
    rw [kmipReaderFindSkip, kmipReaderNext, hmod, hpad]
  have hbytes : ∀ ptr, (kmipReaderReadBytes reader ptr length).ok =
      (kmipReaderNext reader length).ok ∧ (kmipReaderReadBytes reader ptr length).reader =
      (kmipReaderNext reader length).reader := by
    intro ptr
    rw [kmipReaderReadBytes, kmipReaderNext, hmod, hpad]
    split_ifs
    · exact ⟨rfl, rfl⟩
    · exact ⟨rfl, rfl⟩
  refine ⟨?_, ?_, ?_, by rw [hfind]; exact ⟨rfl, rfl⟩,
    fun ptr => ⟨(hbytes ptr).1.symm, (hbytes ptr).2.symm⟩⟩
  all_goals
    rw [hnext]
    split_ifs with h
  · simpa using h
  · simpa using h
  · intro hok
    cases hok
  · exact fun _ => rfl
  · exact fun _ => rfl
  · intro hok
    cases hok

/-- **Skipping an item.**  `kmip_reader_next` skips as its siblings do exactly for the lengths
whose padding fits into a `uint32_t`: from `2 ^ 32 - 7` on the padded length is stored as zero,
and the call succeeds without moving. -/
theorem nextSkips_iff {length : ℕ} (hl : length < 2 ^ 32) :
    NextSkips reader length ↔ length ≤ 2 ^ 32 - 8 := by
  constructor
  · intro hskips
    by_contra hgt
    have hpad : computePaddedLength length = 2 ^ 32 := by
      rw [computePaddedLength_eq hl]
      omega
    have hnext : kmipReaderNext reader length = ⟨true, (), reader.advance 0⟩ := by
      rw [kmipReaderNext, hpad, Nat.mod_self, checkRemaining_of_lt hpos hlen (Nat.zero_le _)]
      simp
    have hadv := hskips.advances (by rw [hnext])
    rw [hnext, advance_of_lt hpos hlen (Nat.zero_le _)] at hadv
    have hsame := congrArg KmipReader.pos hadv
    simp only at hsame
    omega
  · exact nextSkips_of_le hpos hlen

end Skip

/-- The header of a BigInteger that says its value has `2 ^ 32 - 1` bytes. -/
def hugeBigInteger : List UInt8 := [0x42, 0x00, 0x6a, 0x04, 0xff, 0xff, 0xff, 0xff]

/-- At the end of `hugeBigInteger` there is nothing left to skip: `kmip_reader_find` and
`kmip_reader_read_bytes` fail there, and `kmip_reader_next` succeeds. -/
theorem hugeBigInteger_not_nextSkips :
    (kmipReaderNext ⟨hugeBigInteger, 8, 8⟩ 0xffffffff).ok = true ∧
      (kmipReaderFindSkip ⟨hugeBigInteger, 8, 8⟩ 0xffffffff).ok = false ∧
      (kmipReaderReadBytes ⟨hugeBigInteger, 8, 8⟩ [] 0xffffffff).ok = false ∧
      ¬ NextSkips ⟨hugeBigInteger, 8, 8⟩ 0xffffffff := by
  have hnext : (kmipReaderNext ⟨hugeBigInteger, 8, 8⟩ 0xffffffff).ok = true := by decide
  have hfind : (kmipReaderFindSkip ⟨hugeBigInteger, 8, 8⟩ 0xffffffff).ok = false := by decide
  refine ⟨hnext, hfind, by decide, ?_⟩
  intro hskips
  have hsame := hskips.find.1
  rw [hnext, hfind] at hsame
  cases hsame

/-- The value of an Integer, eight bytes with its padding, is skipped. -/
theorem nextSkips_integer : (8 : ℕ) ≤ 16 ∧ NextSkips ⟨List.replicate 16 0, 8, 16⟩ 4 :=
  ⟨by norm_num, (nextSkips_iff (by norm_num) (by norm_num) (by norm_num)).mpr (by norm_num)⟩

end CBootstrap.Kmip
