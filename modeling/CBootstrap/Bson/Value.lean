import CBootstrap.Bson.Internal

/-!
# Reading the value of an element

`bson_iter_value` and the functions behind it: they follow the offsets that
`_bson_iter_next_internal` has left in the iterator and check nothing again.  So what they read is
inside the document only because of what was checked there.

`iterValue_atElement` is that it is, at every element of any bytes, and `Reached` puts the calls
together: whatever sequence of steps, descents and reads a caller makes, none leaves the bytes of
the iterator it is made on (`reached_safe`).

`reached_refines` is that the calls do what those of `Bson.Iter` do, which compute without
wrapping and without checks.
-/

namespace CBootstrap.Bson

open Bytes

/-! ## The functions -/

/-- `bson_value_t`.  Numbers are their bits, and what is a pointer and a length is the bytes. -/
inductive RawValue
  | double (bits : ℕ)
  | utf8 (str : List UInt8)
  | document (data : List UInt8)
  | array (data : List UInt8)
  | binary (subtype : UInt8) (data : List UInt8)
  | undefined
  | oid (bytes : List UInt8)
  | bool (value : Bool)
  | dateTime (milliseconds : ℕ)
  | null
  | regex (regex options : List UInt8)
  | dbpointer (collection oid : List UInt8)
  | code (code : List UInt8)
  | symbol (symbol : List UInt8)
  | codewscope (code scope : List UInt8)
  | int32 (value : ℕ)
  | timestamp (timestamp increment : ℕ)
  | int64 (value : ℕ)
  | decimal128 (low high : ℕ)
  | maxkey
  | minkey
  deriving DecidableEq, Repr

/-- A little-endian number of `n` bytes. -/
def numberAt (data : List UInt8) (o n : ℕ) : Option ℕ := (Block.read data o n).map ofLE

/-- A string as far as its NUL. -/
def cstringAt (data : List UInt8) (o : ℕ) : Option (List UInt8) :=
  (scanNul data data.length o).bind fun nul => nul.bind fun z => Block.read data o (z - o)

/-- `bson_iter_utf8_len_unsafe`. -/
def utf8LenUnsafe (data : List UInt8) (d1 : ℕ) : Option ℕ :=
  (u32At data d1).map fun (l : ℕ) => if Int.bmod l (2 ^ 32) ≤ 0 then 0 else l - 1

/-- `bson_iter_utf8`, `bson_iter_code` and `bson_iter_symbol`. -/
def stringAt (data : List UInt8) (d1 d2 : ℕ) : Option (List UInt8) :=
  (utf8LenUnsafe data d1).bind fun len => Block.read data d2 len

/-- `bson_iter_document` and `bson_iter_array`. -/
def documentAt (data : List UInt8) (d1 : ℕ) : Option (List UInt8) :=
  (u32At data d1).bind fun len => Block.read data d1 len

/-- `bson_iter_binary`. -/
def binaryAt (data : List UInt8) (d1 d2 d3 : ℕ) : Option (UInt8 × List UInt8) :=
  (u8At data d2).bind fun subtype =>
    (u32At data d1).bind fun binaryLen =>
      if subtype = 2 then
        (Block.read data (d3 + 4) (sub32 binaryLen 4)).map fun binary => (subtype, binary)
      else (Block.read data d3 binaryLen).map fun binary => (subtype, binary)

/-- `bson_iter_dbpointer`. -/
def dbpointerAt (data : List UInt8) (d1 d2 d3 : ℕ) : Option (List UInt8 × List UInt8) :=
  (u32At data d1).bind fun l =>
    (Block.read data d2 (if l > 0 then l - 1 else l)).bind fun collection =>
      (Block.read data d3 12).map fun oid => (collection, oid)

/-- `bson_iter_codewscope`, with its assertion. -/
def codewscopeAt (data : List UInt8) (d2 d3 d4 : ℕ) : Option (List UInt8 × List UInt8) :=
  (u32At data d2).bind fun len =>
    if len > 0 then
      (u32At data d4).bind fun scopeLen =>
        (Block.read data d4 scopeLen).bind fun scope =>
          (Block.read data d3 (len - 1)).map fun code => (code, scope)
    else none

/-- `bson_iter_value`, for a type and the offsets in the iterator; the result is `NULL` for
`BSON_TYPE_EOD`. -/
def valueAt (data : List UInt8) (type : BsonType) (d1 d2 d3 d4 : ℕ) : Option (Option RawValue) :=
  match type with
  | .double => (numberAt data d1 8).map fun bits => some (.double bits)
  | .utf8 => (stringAt data d1 d2).map fun str => some (.utf8 str)
  | .document => (documentAt data d1).map fun doc => some (.document doc)
  | .array => (documentAt data d1).map fun doc => some (.array doc)
  | .binary => (binaryAt data d1 d2 d3).map fun binary => some (.binary binary.1 binary.2)
  | .oid => (Block.read data d1 12).map fun bytes => some (.oid bytes)
  | .bool => (u8At data d1).map fun val => some (.bool (val != 0))
  | .dateTime => (numberAt data d1 8).map fun ms => some (.dateTime ms)
  | .regex =>
      (cstringAt data d1).bind fun regex =>
        (cstringAt data d2).map fun options => some (.regex regex options)
  | .dbpointer =>
      (dbpointerAt data d1 d2 d3).map fun pointer => some (.dbpointer pointer.1 pointer.2)
  | .code => (stringAt data d1 d2).map fun code => some (.code code)
  | .symbol => (stringAt data d1 d2).map fun symbol => some (.symbol symbol)
  | .codewscope =>
      (codewscopeAt data d2 d3 d4).map fun codewscope =>
        some (.codewscope codewscope.1 codewscope.2)
  | .int32 => (numberAt data d1 4).map fun value => some (.int32 value)
  | .timestamp =>
      (numberAt data d1 4).bind fun increment =>
        (numberAt data (d1 + 4) 4).map fun timestamp => some (.timestamp timestamp increment)
  | .int64 => (numberAt data d1 8).map fun value => some (.int64 value)
  | .decimal128 =>
      (numberAt data d1 8).bind fun low =>
        (numberAt data (d1 + 8) 8).map fun high => some (.decimal128 low high)
  | .null => some (some .null)
  | .undefined => some (some .undefined)
  | .maxkey => some (some .maxkey)
  | .minkey => some (some .minkey)
  | .eod => some none

/-- `bson_iter_value`. -/
def iterValue (iter : BsonIterT) : Option (Option RawValue) :=
  iter.raw.bind fun data =>
    (u8At data iter.type).bind fun b =>
      match BsonType.ofByte b with
      | none => some none
      | some type => valueAt data type iter.d1 iter.d2 iter.d3 iter.d4

/-- `bson_iter_key`. -/
def iterKey (iter : BsonIterT) : Option (List UInt8) :=
  iter.raw.bind fun data => cstringAt data iter.key

/-- `bson_iter_init`. -/
def iterInit (data : List UInt8) : BsonIterT := ⟨some data, 0, 0, 0, 0, 0, 0, 0, 4, 0⟩

/-- `bson_iter_recurse`, which returns false where there is no document or array. -/
def iterRecurse (iter : BsonIterT) : Option (Option BsonIterT) :=
  iter.raw.bind fun data =>
    (u8At data iter.type).bind fun b =>
      match BsonType.ofByte b with
      | some .document | some .array =>
          (documentAt data iter.d1).map fun child => some (iterInit child)
      | _ => some none

/-! ## Inside any bytes -/

/-- What is known of an element that was stepped to. -/
lemma bsonIterNext_inv {prev next : BsonIter} (h : bsonIterNext prev = some next) :
    next.raw = prev.raw ∧ next.off = prev.nextOff ∧
      findNul next.raw (next.off + 1) = some (next.d1 - 1) ∧ 0 < next.d1 ∧
      BsonType.ofByte (next.raw.getD next.off 0) = some (bsonIterType next) ∧
      fillDataFields next.raw (bsonIterType next) next.d1 = some next.nextOff ∧
      next.nextOff < next.raw.length := by
  rw [bsonIterNext] at h
  split at h
  · cases h
  · next z hz =>
    split at h
    · cases h
    · next type htype =>
      split at h
      · cases h
      · next nextOff hfill =>
        split_ifs at h with hlen
        cases h
        have htype' : bsonIterType ⟨prev.raw, prev.nextOff, z + 1, nextOff⟩ = type := by
          rw [bsonIterType, htype, Option.getD_some]
        rw [htype']
        exact ⟨rfl, rfl, hz, Nat.succ_pos z, htype, hfill, not_le.mp hlen⟩

section Inside

variable {data : List UInt8} {o n : ℕ}

lemma exists_read (h : o + n ≤ data.length) : ∃ bytes, Block.read data o n = some bytes :=
  ⟨_, if_pos h⟩

lemma exists_numberAt (h : o + n ≤ data.length) : ∃ value, numberAt data o n = some value := by
  obtain ⟨bytes, hbytes⟩ := exists_read h
  exact ⟨ofLE bytes, congrArg (Option.map ofLE) hbytes⟩

lemma cstringAt_inside {z : ℕ} (h : findNul data o = some z) :
    cstringAt data o = some ((data.drop o).take (z - o)) := by
  have hz := findNul_lt h
  have hle := le_of_findNul h
  rw [cstringAt, scanNul_eq, Option.bind_some, h, Option.bind_some, Block.read,
    if_pos (by omega)]

variable {next : ℕ}

lemma stringAt_inside (h : fillDataFields data .utf8 o = some next) :
    ∃ str, stringAt data o (o + 4) = some str := by
  simp only [fillDataFields] at h
  split_ifs at h with hroom hlong hend hlast
  push Not at hroom hend
  rw [stringAt, utf8LenUnsafe, u32At_eq (by omega), Option.map_some, Option.bind_some]
  generalize readU32le data o = l at hlong hend
  refine exists_read ?_
  split_ifs
  · omega
  · omega

lemma documentAt_inside (h : fillDataFields data .document o = some next)
    (hlt : next < data.length) :
    documentAt data o = some ((data.drop o).take (readU32le data o)) ∧
      o + readU32le data o ≤ data.length := by
  simp only [fillDataFields] at h
  split_ifs at h with hroom hlong
  cases h
  rw [documentAt, u32At_eq (by omega), Option.bind_some, Block.read, if_pos (by omega)]
  exact ⟨rfl, by omega⟩

lemma binaryAt_inside (h : fillDataFields data .binary o = some next) :
    ∃ binary, binaryAt data o (o + 4) (o + 5) = some binary := by
  have hl := readU32le_lt data o
  simp only [fillDataFields] at h
  rw [binaryAt]
  split_ifs at h with hroom hlong hsubtype hshort
  · rw [u8At_eq (by omega), Option.bind_some, u32At_eq (by omega), Option.bind_some,
      if_pos hsubtype, sub32_eq (by omega) hl]
    obtain ⟨binary, hbinary⟩ :
        ∃ bytes, Block.read data (o + 5 + 4) (readU32le data o - 4) = some bytes :=
      exists_read (by omega)
    exact ⟨_, congrArg (Option.map _) hbinary⟩
  · rw [u8At_eq (by omega), Option.bind_some, u32At_eq (by omega), Option.bind_some,
      if_neg hsubtype]
    obtain ⟨binary, hbinary⟩ : ∃ bytes, Block.read data (o + 5) (readU32le data o) = some bytes :=
      exists_read (by omega)
    exact ⟨_, congrArg (Option.map _) hbinary⟩

lemma dbpointerAt_inside (h : fillDataFields data .dbpointer o = some next)
    (hlt : next < data.length) :
    ∃ pointer, dbpointerAt data o (o + 4) (o + 4 + readU32le data o) = some pointer := by
  simp only [fillDataFields] at h
  split_ifs at h with hroom hlong hlast
  cases h
  push Not at hlong
  rw [dbpointerAt, u32At_eq (by omega), Option.bind_some]
  generalize readU32le data o = l at hlong hlt
  rw [if_pos (Nat.pos_of_ne_zero hlong.1)]
  obtain ⟨collection, hcollection⟩ : ∃ bytes, Block.read data (o + 4) (l - 1) = some bytes :=
    exists_read (by omega)
  obtain ⟨oid, hoid⟩ : ∃ bytes, Block.read data (o + 4 + l) 12 = some bytes :=
    exists_read (by omega)
  rw [hcollection, Option.bind_some, hoid]
  exact ⟨_, rfl⟩

lemma codewscopeAt_inside (h : fillDataFields data .codewscope o = some next)
    (hlt : next < data.length) :
    ∃ codewscope, codewscopeAt data (o + 4) (o + 8) (o + 4 + 4 + readU32le data (o + 4)) =
      some codewscope := by
  simp only [fillDataFields] at h
  split_ifs at h with hroom hlong hend htext hscope hother
  cases h
  push Not at hroom hlong htext hscope hother
  rw [codewscopeAt, u32At_eq (by omega), Option.bind_some, if_pos (Nat.pos_of_ne_zero htext.1),
    u32At_eq (by omega), Option.bind_some]
  generalize readU32le data (o + 4) = l at *
  obtain ⟨scope, hread⟩ : ∃ bytes, Block.read data (o + 4 + 4 + l)
      (readU32le data (o + 4 + 4 + l)) = some bytes := exists_read (by omega)
  obtain ⟨code, hcode⟩ : ∃ bytes, Block.read data (o + 8) (l - 1) = some bytes :=
    exists_read (by omega)
  rw [hread, Option.bind_some, hcode]
  exact ⟨_, rfl⟩

/-- **The value of an element is inside the bytes**, whatever its type. -/
lemma valueAt_inside {type : BsonType} (h : fillDataFields data type o = some next)
    (hlt : next < data.length) :
    ∃ value, valueAt data type o (dataFields data type o).1 (dataFields data type o).2.1
      (dataFields data type o).2.2 = some (some value) := by
  have hle := le_of_fillDataFields h
  cases type with
  | eod => cases h
  | null | undefined | maxkey | minkey => exact ⟨_, rfl⟩
  | utf8 =>
      obtain ⟨str, hstr⟩ := stringAt_inside h
      exact ⟨_, congrArg (Option.map _) hstr⟩
  | code =>
      obtain ⟨str, hstr⟩ := stringAt_inside h
      exact ⟨_, congrArg (Option.map _) hstr⟩
  | symbol =>
      obtain ⟨str, hstr⟩ := stringAt_inside h
      exact ⟨_, congrArg (Option.map _) hstr⟩
  | document => exact ⟨_, congrArg (Option.map _) (documentAt_inside h hlt).1⟩
  | array => exact ⟨_, congrArg (Option.map _) (documentAt_inside h hlt).1⟩
  | binary =>
      obtain ⟨binary, hbinary⟩ := binaryAt_inside h
      exact ⟨_, congrArg (Option.map _) hbinary⟩
  | dbpointer =>
      obtain ⟨pointer, hpointer⟩ := dbpointerAt_inside h hlt
      exact ⟨_, congrArg (Option.map _) hpointer⟩
  | codewscope =>
      obtain ⟨codewscope, hcodewscope⟩ := codewscopeAt_inside h hlt
      exact ⟨_, congrArg (Option.map _) hcodewscope⟩
  | bool => exact ⟨_, congrArg (Option.map _) (u8At_eq (by omega))⟩
  | regex =>
      simp only [fillDataFields] at h
      split at h
      · cases h
      · next eor heor =>
        obtain ⟨eoo, heoo, rfl⟩ := Option.map_eq_some_iff.mp h
        simp only [valueAt, dataFields, heor, Option.getD_some]
        rw [cstringAt_inside heor, Option.bind_some, cstringAt_inside heoo]
        exact ⟨_, rfl⟩
  | double | dateTime | int64 =>
      cases h
      obtain ⟨value, hvalue⟩ : ∃ value, numberAt data o 8 = some value :=
        exists_numberAt (by omega)
      exact ⟨_, congrArg (Option.map _) hvalue⟩
  | int32 =>
      cases h
      obtain ⟨value, hvalue⟩ : ∃ value, numberAt data o 4 = some value :=
        exists_numberAt (by omega)
      exact ⟨_, congrArg (Option.map _) hvalue⟩
  | oid =>
      cases h
      obtain ⟨bytes, hbytes⟩ : ∃ bytes, Block.read data o 12 = some bytes :=
        exists_read (by omega)
      exact ⟨_, congrArg (Option.map _) hbytes⟩
  | timestamp =>
      cases h
      obtain ⟨increment, hincrement⟩ : ∃ value, numberAt data o 4 = some value :=
        exists_numberAt (by omega)
      obtain ⟨timestamp, htimestamp⟩ : ∃ value, numberAt data (o + 4) 4 = some value :=
        exists_numberAt (by omega)
      simp only [valueAt]
      rw [hincrement, Option.bind_some, htimestamp]
      exact ⟨_, rfl⟩
  | decimal128 =>
      cases h
      obtain ⟨low, hlow⟩ : ∃ value, numberAt data o 8 = some value := exists_numberAt (by omega)
      obtain ⟨high, hhigh⟩ : ∃ value, numberAt data (o + 8) 8 = some value :=
        exists_numberAt (by omega)
      simp only [valueAt]
      rw [hlow, Option.bind_some, hhigh]
      exact ⟨_, rfl⟩

end Inside

/-! ## Any sequence of calls -/

/-- The iterators a caller can have: from `bson_iter_init`, from a call of `bson_iter_next`, and
from `bson_iter_recurse` at an element.  The flag is whether the iterator is at an element, that
is, whether `bson_iter_next` has returned true. -/
inductive Reached (bson : List UInt8) : Bool → BsonIterT → Prop
  | init : Reached bson false (iterInit bson)
  | next {b iter result} (h : Reached bson b iter) (hnext : nextInternal iter 0 = some result) :
      Reached bson result.ok result.iter
  | recurse {iter child} (h : Reached bson true iter)
      (hrecurse : iterRecurse iter = some (some child)) : Reached bson false child

/-- An iterator is invalid, or it is valid and, if it is to be at an element, was stepped there. -/
def Sound (b : Bool) (iter : BsonIterT) : Prop :=
  (iter.raw = none ∧ b = false) ∨
    ∃ data, iter.Valid data ∧ iter.errOff = 0 ∧
      (b = true → ∃ prev next, bsonIterNext prev = some next ∧ 4 ≤ next.off ∧
        iter = .atElement next)

lemma valid_iterInit {data : List UInt8} (hsize : data.length < 2 ^ 31) :
    (iterInit data).Valid data :=
  ⟨rfl, hsize, le_refl 4, lt_max_of_lt_right (Nat.lt_succ_self 4)⟩

section Element

variable {prev next : BsonIter} (h : bsonIterNext prev = some next)

include h

lemma u8At_element :
    u8At next.raw next.off = some (next.raw.getD next.off 0) := by
  obtain ⟨-, -, hnul, -, -, -, -⟩ := bsonIterNext_inv h
  have hlt := findNul_lt hnul
  have hle := le_of_findNul hnul
  exact u8At_eq (by omega)

lemma iterValue_atElement : ∃ value, iterValue (.atElement next) = some (some value) := by
  obtain ⟨-, -, -, -, htype, hfill, hlt⟩ := bsonIterNext_inv h
  obtain ⟨value, hvalue⟩ := valueAt_inside hfill hlt
  refine ⟨value, ?_⟩
  simp only [iterValue, BsonIterT.atElement, Option.bind_some, u8At_element h, htype]
  exact hvalue

lemma iterRecurse_atElement : iterRecurse (.atElement next) =
    some (if bsonIterType next = .document ∨ bsonIterType next = .array then
      some (iterInit (bsonIterRecurse next).raw) else none) := by
  obtain ⟨-, -, -, -, htype, hfill, hlt⟩ := bsonIterNext_inv h
  simp only [iterRecurse, BsonIterT.atElement, Option.bind_some, u8At_element h, htype]
  generalize bsonIterType next = type at hfill
  cases type with
  | document =>
      rw [(documentAt_inside hfill hlt).1, if_pos (.inl rfl)]
      rfl
  | array =>
      rw [(documentAt_inside hfill hlt).1, if_pos (.inr rfl)]
      rfl
  | _ => simp

end Element

lemma take_of_findIdx? {text : List UInt8} {k : ℕ} (h : text.findIdx? (· == 0) = some k) :
    text.take k = text.takeWhile (· ≠ 0) := by
  induction text generalizing k with
  | nil => cases h
  | cons b text ih =>
      rw [List.findIdx?_cons] at h
      by_cases hb : b = 0
      · subst hb
        cases h
        rfl
      · rw [beq_eq_false_iff_ne.mpr hb] at h
        obtain ⟨j, hj, rfl⟩ := Option.map_eq_some_iff.mp h
        have hkeep : decide (b ≠ 0) = true := decide_eq_true hb
        rw [List.take_succ_cons, ih hj, List.takeWhile_cons, hkeep, if_pos rfl]

lemma iterKey_atElement {prev next : BsonIter} (h : bsonIterNext prev = some next) :
    iterKey (.atElement next) = some (bsonIterKey next) := by
  obtain ⟨-, -, hnul, -, -, -, -⟩ := bsonIterNext_inv h
  simp only [iterKey, BsonIterT.atElement, Option.bind_some]
  rw [cstringAt_inside hnul, bsonIterKey]
  obtain ⟨k, hk, hz⟩ := Option.map_eq_some_iff.mp hnul
  rw [← hz, Nat.add_sub_cancel_left, take_of_findIdx? hk]

/-- **The invariant of the iterators a caller can have.** -/
lemma Reached.sound {bson : List UInt8} {b : Bool} {iter : BsonIterT} (h : Reached bson b iter)
    (hsize : bson.length < 2 ^ 31) : Sound b iter := by
  induction h with
  | init =>
      refine .inr ⟨bson, valid_iterInit hsize, rfl, fun hb => ?_⟩
      cases hb
  | @next b iter result h hnext ih =>
      rcases ih with ⟨hraw, -⟩ | ⟨data, hvalid, herr, -⟩
      · rw [nextInternal, hraw] at hnext
        cases hnext
        exact .inl ⟨hraw, rfl⟩
      · obtain ⟨next, hpure, heq⟩ | ⟨-, result', heq, hok, hraw, -⟩ := nextInternal_eq hvalid
        · cases hnext.symm.trans heq
          have hoff : 4 ≤ next.off := (bsonIterNext_inv hpure).2.1 ▸ hvalid.started
          exact .inr ⟨data, hvalid.atElement hpure, rfl, fun _ => ⟨_, next, hpure, hoff, rfl⟩⟩
        · cases hnext.symm.trans heq
          exact .inl ⟨hraw, hok⟩
  | @recurse iter child h hrecurse ih =>
      rcases ih with ⟨-, hb⟩ | ⟨data, hvalid, -, helement⟩
      · cases hb
      obtain ⟨prev, next, hnext, -, rfl⟩ := helement rfl
      cases hvalid.raw
      rw [iterRecurse_atElement hnext] at hrecurse
      by_cases htype : bsonIterType next = .document ∨ bsonIterType next = .array
      swap
      · rw [if_neg htype] at hrecurse
        cases hrecurse
      rw [if_pos htype] at hrecurse
      cases hrecurse
      refine .inr ⟨_, valid_iterInit ?_, rfl, fun hb => absurd hb Bool.false_ne_true⟩
      have hle : (bsonIterRecurse next).raw.length ≤ next.raw.length := by
        rw [bsonIterRecurse, List.length_take, List.length_drop]
        omega
      exact hle.trans_lt hvalid.size

lemma length_of_bsonInitStatic {bson : List UInt8} (h : bsonInitStatic bson = true) :
    5 ≤ bson.length ∧ bson.length < 2 ^ 31 ∧ bson.getLastD 0 = 0 := by
  simp only [bsonInitStatic, Bool.and_eq_true, Bool.not_eq_true', Bool.or_eq_false_iff,
    decide_eq_false_iff_not, beq_iff_eq] at h
  exact ⟨by omega, by omega, h.2⟩

/-- **No call reads outside.**  Take any bytes that `bson_init_static` accepts, and any sequence of
steps and descents.  The next step reads inside the bytes of the iterator it is made on, and at an
element so do the functions that read its key and its value and descend into it. -/
theorem reached_safe {bson : List UInt8} (hbson : bsonInitStatic bson = true) {b : Bool}
    {iter : BsonIterT} (h : Reached bson b iter) :
    (∃ result, nextInternal iter 0 = some result) ∧
      (b = true → (∃ key, iterKey iter = some key) ∧
        (∃ value, iterValue iter = some (some value)) ∧
        ∃ child, iterRecurse iter = some child) := by
  rcases h.sound (length_of_bsonInitStatic hbson).2.1 with ⟨hraw, hb⟩ | ⟨data, hvalid, -, helement⟩
  · refine ⟨⟨⟨iter, false, false⟩, ?_⟩, fun htrue => ?_⟩
    · rw [nextInternal, hraw]
    · rw [hb] at htrue
      cases htrue
  · refine ⟨?_, fun htrue => ?_⟩
    · obtain ⟨next, -, heq⟩ | ⟨-, result, heq, -⟩ := nextInternal_eq hvalid
      · exact ⟨_, heq⟩
      · exact ⟨_, heq⟩
    · obtain ⟨prev, next, hnext, -, rfl⟩ := helement htrue
      exact ⟨⟨_, iterKey_atElement hnext⟩, iterValue_atElement hnext,
        ⟨_, iterRecurse_atElement hnext⟩⟩

/-- A document that says it has no bytes, inside another: it is accepted and descended into. -/
theorem reached_safe_empty :
    (∃ result, nextInternal (iterInit []) 0 = some result) ∧
      Reached [12, 0, 0, 0, 3, 97, 0, 0, 0, 0, 0, 0] false (iterInit []) := by
  have hnext : nextInternal (iterInit [12, 0, 0, 0, 3, 97, 0, 0, 0, 0, 0, 0]) 0 =
      some ⟨.atElement ⟨[12, 0, 0, 0, 3, 97, 0, 0, 0, 0, 0, 0], 4, 7, 7⟩, true, false⟩ := by
    simp only [nextInternal, iterInit, keyEnd, if_true, scanNul_eq]
    decide
  have hreached : Reached [12, 0, 0, 0, 3, 97, 0, 0, 0, 0, 0, 0] false (iterInit []) :=
    .recurse (.next .init hnext) (by decide)
  exact ⟨(reached_safe (by decide) hreached).1, hreached⟩

/-- **The 32-bit arithmetic and the checks change nothing.**  On the iterators a caller can have,
`_bson_iter_next_internal` is `bsonIterNext`, and the key and the document inside are those of
`bsonIterKey` and `bsonIterRecurse`. -/
theorem reached_refines {bson : List UInt8} (hbson : bsonInitStatic bson = true) {b : Bool}
    {iter : BsonIterT} (h : Reached bson b iter) {data : List UInt8}
    (hraw : iter.raw = some data) :
    (nextInternal iter 0).map
        (fun result => if result.ok then some (result.iter.position data) else none) =
      some (bsonIterNext (iter.position data)) ∧
    (b = true → iterKey iter = some (bsonIterKey (iter.position data)) ∧
      iterRecurse iter = some (if bsonIterType (iter.position data) = .document ∨
          bsonIterType (iter.position data) = .array then
        some (iterInit (bsonIterRecurse (iter.position data)).raw) else none)) := by
  obtain ⟨hnull, -⟩ | ⟨data', hvalid, -, helement⟩ :=
    h.sound (length_of_bsonInitStatic hbson).2.1
  · cases hnull.symm.trans hraw
  cases hvalid.raw.symm.trans hraw
  refine ⟨?_, fun htrue => ?_⟩
  · obtain ⟨next, hpure, heq⟩ | ⟨hpure, result, heq, hok, -⟩ := nextInternal_eq hvalid
    · have hdata : next.raw = data := (bsonIterNext_inv hpure).1
      rw [heq, hpure]
      simp only [Option.map_some, if_true, BsonIterT.position, BsonIterT.atElement, ← hdata]
    · rw [heq, hpure, Option.map_some, hok]
      rfl
  · obtain ⟨prev, next, hnext, -, rfl⟩ := helement htrue
    cases hvalid.raw
    exact ⟨iterKey_atElement hnext, iterRecurse_atElement hnext⟩

/-- The first step in that document. -/
theorem reached_refines_empty :
    (nextInternal (iterInit [12, 0, 0, 0, 3, 97, 0, 0, 0, 0, 0, 0]) 0).map
        (fun result => if result.ok then
          some (result.iter.position [12, 0, 0, 0, 3, 97, 0, 0, 0, 0, 0, 0]) else none) =
      some (bsonIterNext ⟨[12, 0, 0, 0, 3, 97, 0, 0, 0, 0, 0, 0], 0, 0, 4⟩) :=
  (reached_refines (by decide) .init rfl).1

end CBootstrap.Bson
