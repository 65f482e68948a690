import CBootstrap.Bson.Document

/-!
# libbson's reader and iterator

The two ways `print-invalid-arrays` looks at bytes, from the libbson vendored with it.

`bson_reader_read` cuts a file into documents, by their length headers.  It fills a buffer from
the file as it goes, which is left out here: `bsonReaderRead` sees what is left of the file.  A
header below five or a document that does not end in a zero byte is a failure.  A file that ends
inside a document is not; it is an end of file like any other.

`bson_iter_next` steps to the next element, finding where it ends from its type.  It returns
false at the end of the document and also where there is no element it can step over, and the
caller cannot tell which.  All offsets stay below the length of the document, which is below
`2 ^ 31`, so the 32-bit arithmetic never wraps and is done in `ℕ`.

`BsonIter.At` is what the iterator is for: in the encoding of a document it is at its elements
(`at_init`), steps from each to the next (`next_cons`, `behind`) and stops behind the last
(`next_nil`).
-/

namespace CBootstrap.Bson

open Bytes

/-! ## The reader -/

/-- The three outcomes of `bson_reader_read`: a document and the rest of the file; `NULL` with
`reached_eof`; `NULL` without. -/
inductive ReadResult
  | document (bson rest : List UInt8)
  | eof
  | failed

/-- `bson_init_static`. -/
def bsonInitStatic (data : List UInt8) : Bool :=
  !(decide (data.length < 5) || decide (data.length > 2 ^ 31 - 1)) &&
    ofLE (data.take 4) == data.length && data.getLastD 0 == 0

/-- `bson_reader_read`, on what is left of the file. -/
def bsonReaderRead (rest : List UInt8) : ReadResult :=
  if rest.length < 4 then .eof
  else
    let blen := Int.bmod (ofLE (rest.take 4)) (2 ^ 32)
    if blen < 5 then .failed
    else if blen > rest.length then .eof
    else if bsonInitStatic (rest.take blen.toNat) then
      .document (rest.take blen.toNat) (rest.drop blen.toNat)
    else .failed

/-! ## The iterator -/

/-- `bson_iter_t`, as far as it is used: `raw` are the `len` bytes it iterates over, `off` the
offset of the current element, `d1` that of its value and `nextOff` that of the next element. -/
structure BsonIter where
  raw : List UInt8
  off : ℕ
  d1 : ℕ
  nextOff : ℕ
  deriving DecidableEq, Repr

/-- `bson_iter_init`. -/
def bsonIterInit (data : List UInt8) : BsonIter := ⟨data, 0, 0, 4⟩

/-- `mlib_read_u32le(data + o)`. -/
def readU32le (data : List UInt8) (o : ℕ) : ℕ := ofLE ((data.drop o).take 4)

/-- The offset of the first zero byte from `o` on. -/
def findNul (data : List UInt8) (o : ℕ) : Option ℕ :=
  ((data.drop o).findIdx? (· == 0)).map (o + ·)

/-- The offset behind a value of the given type at `o`: the `switch` of
`_bson_iter_next_internal`. -/
def fillDataFields (data : List UInt8) (type : BsonType) (o : ℕ) : Option ℕ :=
  let len := data.length
  match type with
  | .dateTime | .double | .int64 | .timestamp => some (o + 8)
  | .code | .symbol | .utf8 =>
      if o + 4 ≥ len then none
      else
        let l := readU32le data o
        if l > len - (o + 4) then none
        else if l = 0 ∨ o + 4 + l ≥ len then none
        else if data.getD (o + 4 + (l - 1)) 0 ≠ 0 then none
        else some (o + 4 + l)
  | .binary =>
      if o ≥ len - 4 then none
      else
        let l := readU32le data o
        if l ≥ len - o - 4 then none
        else if data.getD (o + 4) 0 = 2 then
          if l < 4 then none
          else if Int.bmod (readU32le data (o + 5)) (2 ^ 32) ≠ l - 4 then none
          else some (o + 5 + l)
        else some (o + 5 + l)
  | .array | .document =>
      if o ≥ len - 4 then none
      else
        let l := readU32le data o
        if l > len ∨ l > len - o then none else some (o + l)
  | .oid => some (o + 12)
  | .bool =>
      if o ≥ len then none
      else if data.getD o 0 ≠ 0 ∧ data.getD o 0 ≠ 1 then none
      else some (o + 1)
  | .regex =>
      match findNul data o with
      | none => none
      | some eor => (findNul data (eor + 1)).map (· + 1)
  | .dbpointer =>
      if o ≥ len - 4 then none
      else
        let l := readU32le data o
        if l = 0 ∨ l > len - o - 4 then none
        else if data.getD (o + l + 3) 0 ≠ 0 then none
        else some (o + 4 + l + 12)
  | .codewscope =>
      if len < 19 ∨ o ≥ len - 14 then none
      else
        let l1 := readU32le data o
        if l1 < 14 ∨ l1 ≥ len - o then none
        else if o + l1 ≥ len then none
        else
          let l2 := readU32le data (o + 4)
          if l2 = 0 ∨ l2 ≥ len - o - 4 - 4 then none
          else if o + 4 + 4 + l2 + 4 ≥ o + l1 then none
          else if o + 4 + 4 + l2 + readU32le data (o + 4 + 4 + l2) ≠ o + l1 then none
          else some (o + l1)
  | .int32 => some (o + 4)
  | .decimal128 => some (o + 16)
  | .maxkey | .minkey | .null | .undefined => some o
  | .eod => none

/-- `bson_iter_next`: the iterator at the next element, `none` where it returns false. -/
def bsonIterNext (iter : BsonIter) : Option BsonIter :=
  match findNul iter.raw (iter.nextOff + 1) with
  | none => none
  | some z =>
      match BsonType.ofByte (iter.raw.getD iter.nextOff 0) with
      | none => none
      | some type =>
          match fillDataFields iter.raw type (z + 1) with
          | none => none
          | some nextOff =>
              if nextOff ≥ iter.raw.length then none
              else some ⟨iter.raw, iter.nextOff, z + 1, nextOff⟩

/-- `bson_iter_key`, up to its NUL. -/
def bsonIterKey (iter : BsonIter) : List UInt8 :=
  (iter.raw.drop (iter.off + 1)).takeWhile (· ≠ 0)

/-- `bson_iter_type`. -/
def bsonIterType (iter : BsonIter) : BsonType :=
  (BsonType.ofByte (iter.raw.getD iter.off 0)).getD .eod

/-- `bson_iter_recurse` on a document or an array. -/
def bsonIterRecurse (iter : BsonIter) : BsonIter :=
  ⟨(iter.raw.drop iter.d1).take (readU32le iter.raw iter.d1), 0, 0, 4⟩

/-! ## Reading at an offset -/

section Drop

variable {data rest : List UInt8} {o : ℕ}

lemma readU32le_of_drop {n : ℕ} (h : data.drop o = toLE 4 n ++ rest) (hn : n < 2 ^ 32) :
    readU32le data o = n := by
  rw [readU32le, h, List.take_left' (length_toLE 4 n), ofLE_toLE_of_lt (by omega)]

lemma findNul_of_drop {text : List UInt8} (h : data.drop o = text ++ 0 :: rest)
    (htext : 0 ∉ text) : findNul data o = some (o + text.length) := by
  have hidx : (text ++ 0 :: rest).findIdx? (· == 0) = some text.length := by
    rw [List.findIdx?_append, List.findIdx?_eq_none_iff.mpr, Option.none_or]
    · simp [List.findIdx?_cons]
    · intro b hb
      rw [beq_eq_false_iff_ne]
      intro h0
      exact htext (h0 ▸ hb)
  rw [findNul, h, hidx, Option.map_some]

end Drop

/-! ## Stepping over a value -/

section Values

variable {data rest : List UInt8} {o : ℕ}

/-- A text, with something behind it. -/
lemma fillDataFields_string {text : List UInt8} (h : data.drop o = encodeString text ++ rest)
    (hrest : rest ≠ []) (hsize : data.length < 2 ^ 31) (type : BsonType)
    (htype : type = .utf8 ∨ type = .code ∨ type = .symbol) :
    fillDataFields data type o = some (o + (encodeString text).length) := by
  have hlen := length_of_drop h hrest
  have hpos := List.length_pos_of_ne_nil hrest
  rw [length_encodeString] at hlen
  rw [encodeString, List.append_assoc] at h
  have hl : readU32le data o = text.length + 1 := readU32le_of_drop h (by omega)
  have htext := drop_behind h
  rw [length_toLE, List.append_assoc] at htext
  have hnul : data.getD (o + 4 + text.length) 0 = 0 := getD_of_drop (drop_behind htext)
  have hstring : (if o + 4 ≥ data.length then none
      else if readU32le data o > data.length - (o + 4) then none
      else if readU32le data o = 0 ∨ o + 4 + readU32le data o ≥ data.length then none
      else if data.getD (o + 4 + (readU32le data o - 1)) 0 ≠ 0 then none
      else some (o + 4 + readU32le data o)) = some (o + (encodeString text).length) := by
    rw [hl, Nat.add_sub_cancel, hnul, if_neg (by omega), if_neg (by omega), if_neg (by omega),
      if_neg (not_not.mpr rfl), length_encodeString]
    exact congrArg some (by omega)
  rcases htype with rfl | rfl | rfl
  · exact hstring
  · exact hstring
  · exact hstring

/-- A document, with something behind it. -/
lemma fillDataFields_frame {body : List UInt8} (h : data.drop o = frame body ++ rest)
    (hrest : rest ≠ []) (hsize : data.length < 2 ^ 31) (type : BsonType)
    (htype : type = .document ∨ type = .array) :
    fillDataFields data type o = some (o + (frame body).length) := by
  have hlen := length_of_drop h hrest
  have hpos := List.length_pos_of_ne_nil hrest
  rw [length_frame] at hlen
  rw [frame, List.append_assoc] at h
  have hl : readU32le data o = body.length + 5 := readU32le_of_drop h (by omega)
  have hframe : (if o ≥ data.length - 4 then none
      else if readU32le data o > data.length ∨ readU32le data o > data.length - o then none
      else some (o + readU32le data o)) = some (o + (frame body).length) := by
    rw [hl, if_neg (by omega), if_neg (by omega), length_frame]
  rcases htype with rfl | rfl
  · exact hframe
  · exact hframe

lemma fillDataFields_binary {subtype : UInt8} {payload : List UInt8}
    (h : data.drop o = (toLE 4 payload.length ++ subtype :: payload) ++ rest) (hrest : rest ≠ [])
    (hsize : data.length < 2 ^ 31) (hsubtype : subtype ≠ 2) :
    fillDataFields data .binary o =
      some (o + (toLE 4 payload.length ++ subtype :: payload).length) := by
  have hlen := length_of_drop h hrest
  have hpos := List.length_pos_of_ne_nil hrest
  rw [List.length_append, List.length_cons, length_toLE] at hlen ⊢
  rw [List.append_assoc] at h
  have hl : readU32le data o = payload.length := readU32le_of_drop h (by omega)
  have hbehind := drop_behind h
  rw [length_toLE, List.cons_append] at hbehind
  simp only [fillDataFields]
  rw [hl, getD_of_drop hbehind, if_neg (by omega), if_neg (by omega), if_neg hsubtype]
  exact congrArg some (by omega)

lemma fillDataFields_binaryDeprecated {payload : List UInt8}
    (h : data.drop o = (toLE 4 (payload.length + 4) ++ 2 :: (toLE 4 payload.length ++ payload)) ++
      rest) (hrest : rest ≠ []) (hsize : data.length < 2 ^ 31) :
    fillDataFields data .binary o =
      some (o + (toLE 4 (payload.length + 4) ++
        2 :: (toLE 4 payload.length ++ payload)).length) := by
  have hlen := length_of_drop h hrest
  have hpos := List.length_pos_of_ne_nil hrest
  simp only [List.length_append, List.length_cons, length_toLE] at hlen ⊢
  rw [List.append_assoc] at h
  have hl : readU32le data o = payload.length + 4 := readU32le_of_drop h (by omega)
  have hbehind := drop_behind h
  rw [length_toLE, List.cons_append] at hbehind
  have hinner : data.drop (o + 5) = toLE 4 payload.length ++ (payload ++ rest) := by
    rw [← List.append_assoc]
    exact drop_behind (a := [2]) hbehind
  have hbinLen : Int.bmod (readU32le data (o + 5)) (2 ^ 32) = payload.length := by
    rw [readU32le_of_drop hinner (by omega)]
    exact Int.bmod_eq_of_le_mul_two (by omega) (by omega)
  simp only [fillDataFields]
  rw [hl, getD_of_drop hbehind, hbinLen, if_neg (by omega), if_neg (by omega), if_pos rfl,
    if_neg (by omega), if_neg (by omega)]
  exact congrArg some (by omega)

lemma fillDataFields_regex {pattern options : CString}
    (h : data.drop o = (pattern.bytes ++ 0 :: (options.bytes ++ [0])) ++ rest) :
    fillDataFields data .regex o =
      some (o + (pattern.bytes ++ 0 :: (options.bytes ++ [0])).length) := by
  have hpattern : data.drop o = pattern.bytes ++ 0 :: (options.bytes ++ 0 :: rest) := by
    rw [h]
    simp
  have hoptions : data.drop (o + pattern.bytes.length + 1) = options.bytes ++ 0 :: rest :=
    drop_behind (a := [0]) (drop_behind hpattern)
  simp only [fillDataFields]
  rw [findNul_of_drop hpattern pattern.nul_free]
  simp only
  rw [findNul_of_drop hoptions options.nul_free, Option.map_some]
  simp only [List.length_append, List.length_cons, List.length_nil]
  exact congrArg some (by omega)

lemma fillDataFields_dbpointer {collection : List UInt8} {oid : Vector UInt8 12}
    (h : data.drop o = (encodeString collection ++ oid.toList) ++ rest) (hrest : rest ≠ [])
    (hsize : data.length < 2 ^ 31) :
    fillDataFields data .dbpointer o =
      some (o + (encodeString collection ++ oid.toList).length) := by
  have hlen := length_of_drop h hrest
  have hpos := List.length_pos_of_ne_nil hrest
  rw [List.length_append, length_encodeString, Vector.length_toList] at hlen ⊢
  rw [List.append_assoc, encodeString, List.append_assoc] at h
  have hl : readU32le data o = collection.length + 1 := readU32le_of_drop h (by omega)
  have htext := drop_behind h
  rw [length_toLE, List.append_assoc] at htext
  have hnul : data.getD (o + 4 + collection.length) 0 = 0 := getD_of_drop (drop_behind htext)
  have hoff : o + (collection.length + 1) + 3 = o + 4 + collection.length := by omega
  simp only [fillDataFields]
  rw [hl, hoff, hnul, if_neg (by omega), if_neg (by omega), if_neg (not_not.mpr rfl)]
  exact congrArg some (by omega)

lemma fillDataFields_codewscope {text body : List UInt8}
    (h : data.drop o = (toLE 4 (4 + (encodeString text).length + (frame body).length) ++
      (encodeString text ++ frame body)) ++ rest) (hrest : rest ≠ []) (ho : 4 ≤ o)
    (hsize : data.length < 2 ^ 31) :
    fillDataFields data .codewscope o =
      some (o + (toLE 4 (4 + (encodeString text).length + (frame body).length) ++
        (encodeString text ++ frame body)).length) := by
  have hlen := length_of_drop h hrest
  have hpos := List.length_pos_of_ne_nil hrest
  simp only [List.length_append, length_encodeString, length_toLE, length_frame] at hlen h ⊢
  rw [List.append_assoc] at h
  have hl1 : readU32le data o = 4 + (text.length + 5) + (body.length + 5) :=
    readU32le_of_drop h (by omega)
  have hcode := drop_behind h
  rw [length_toLE, List.append_assoc] at hcode
  have hscope : data.drop (o + 4 + 4 + (text.length + 1)) = frame body ++ rest := by
    have hbehind := drop_behind hcode
    rw [length_encodeString] at hbehind
    rw [← hbehind]
    exact congrArg data.drop (by omega)
  rw [encodeString, List.append_assoc] at hcode
  rw [frame, List.append_assoc] at hscope
  have hl2 : readU32le data (o + 4) = text.length + 1 := readU32le_of_drop hcode (by omega)
  have hdoclen : readU32le data (o + 4 + 4 + (text.length + 1)) = body.length + 5 :=
    readU32le_of_drop hscope (by omega)
  simp only [fillDataFields]
  rw [hl1, hl2, hdoclen, if_neg (by omega), if_neg (by omega), if_neg (by omega),
    if_neg (by omega), if_neg (by omega), if_neg (by omega)]
  exact congrArg some (by omega)

/-- **A value is stepped over**, whatever its type. -/
lemma fillDataFields_value (v : Value) (h : data.drop o = v.encode ++ rest) (hrest : rest ≠ [])
    (ho : 4 ≤ o) (hsize : data.length < 2 ^ 31) :
    fillDataFields data v.type o = some (o + v.encode.length) := by
  cases v with
  | double bits => simp [fillDataFields, Value.type, Value.encode]
  | utf8 text => exact fillDataFields_string h hrest hsize _ (by simp [Value.type])
  | document fields => exact fillDataFields_frame h hrest hsize _ (by simp [Value.type])
  | array fields => exact fillDataFields_frame h hrest hsize _ (by simp [Value.type])
  | binary subtype hsubtype payload => exact fillDataFields_binary h hrest hsize hsubtype
  | binaryDeprecated payload => exact fillDataFields_binaryDeprecated h hrest hsize
  | undefined => simp [fillDataFields, Value.type, Value.encode]
  | oid bytes => simp [fillDataFields, Value.type, Value.encode]
  | bool value =>
      have hlen := length_of_drop h hrest
      have hval : data.getD o 0 = if value then 1 else 0 := getD_of_drop h
      simp only [Value.encode, List.length_singleton] at hlen
      simp only [fillDataFields, Value.type, Value.encode, List.length_singleton]
      rw [hval, if_neg (by omega), if_neg (by cases value <;> decide)]
  | dateTime milliseconds => simp [fillDataFields, Value.type, Value.encode]
  | null => simp [fillDataFields, Value.type, Value.encode]
  | regex pattern options => exact fillDataFields_regex h
  | dbpointer collection oid => exact fillDataFields_dbpointer h hrest hsize
  | code text => exact fillDataFields_string h hrest hsize _ (by simp [Value.type])
  | symbol text => exact fillDataFields_string h hrest hsize _ (by simp [Value.type])
  | codewscope text scope => exact fillDataFields_codewscope h hrest ho hsize
  | int32 value => simp [fillDataFields, Value.type, Value.encode]
  | timestamp value => simp [fillDataFields, Value.type, Value.encode]
  | int64 value => simp [fillDataFields, Value.type, Value.encode]
  | decimal128 bytes => simp [fillDataFields, Value.type, Value.encode]
  | maxkey => simp [fillDataFields, Value.type, Value.encode]
  | minkey => simp [fillDataFields, Value.type, Value.encode]

end Values

/-! ## Stepping through a document -/

/-- What is left to the iterator are the elements of `d`. -/
structure BsonIter.At (iter : BsonIter) (d : Document) : Prop where
  elements : iter.raw.drop iter.nextOff = d.body ++ [0]
  started : 4 ≤ iter.nextOff
  fits : iter.raw.length < 2 ^ 31

/-- The iterator at an element, as `bson_iter_next` leaves it. -/
def atElement (iter : BsonIter) (key : CString) (value : Value) : BsonIter :=
  ⟨iter.raw, iter.nextOff, iter.nextOff + 1 + key.bytes.length + 1,
    iter.nextOff + 1 + key.bytes.length + 1 + value.encode.length⟩

lemma at_init (d : Document) (hsize : (frame d.body).length < 2 ^ 31) :
    (bsonIterInit (frame d.body)).At d := by
  refine ⟨?_, le_refl 4, hsize⟩
  exact List.drop_left' (length_toLE 4 _)

namespace BsonIter.At

/-- The end of a document. -/
lemma next_nil {iter : BsonIter} (h : iter.At .nil) : bsonIterNext iter = none := by
  have hend : iter.raw.drop (iter.nextOff + 1) = [] := drop_behind (a := [0]) h.elements
  rw [bsonIterNext, findNul, hend]
  rfl

variable {iter : BsonIter} {key : CString} {value : Value} {rest : Document}

lemma drop_nextOff (h : iter.At (.cons key value rest)) :
    iter.raw.drop iter.nextOff =
      value.type.toByte :: (key.bytes ++ 0 :: (value.encode ++ (rest.body ++ [0]))) := by
  rw [h.elements, Document.body]
  simp

lemma drop_key (h : iter.At (.cons key value rest)) :
    iter.raw.drop (iter.nextOff + 1) =
      key.bytes ++ 0 :: (value.encode ++ (rest.body ++ [0])) :=
  drop_behind (a := [value.type.toByte]) h.drop_nextOff

lemma drop_value (h : iter.At (.cons key value rest)) :
    iter.raw.drop (iter.nextOff + 1 + key.bytes.length + 1) =
      value.encode ++ (rest.body ++ [0]) :=
  drop_behind (a := [0]) (drop_behind h.drop_key)

/-- **Stepping to an element.** -/
lemma next_cons (h : iter.At (.cons key value rest)) :
    bsonIterNext iter = some (atElement iter key value) := by
  have htail : rest.body ++ [0] ≠ [] := by simp
  have hoff := h.started
  have hfill := fillDataFields_value value h.drop_value htail (by omega) h.fits
  have hlen := length_of_drop h.drop_value htail
  have hpos := List.length_pos_of_ne_nil htail
  rw [bsonIterNext, findNul_of_drop h.drop_key key.nul_free, getD_of_drop h.drop_nextOff,
    BsonType.ofByte_toByte]
  simp only
  rw [hfill]
  simp only
  rw [if_neg (by omega), atElement]

/-- Behind an element are the rest. -/
lemma behind (h : iter.At (.cons key value rest)) : (atElement iter key value).At rest := by
  have hoff := h.started
  refine ⟨drop_behind h.drop_value, ?_, h.fits⟩
  simp only [atElement]
  omega

lemma key_eq (h : iter.At (.cons key value rest)) :
    bsonIterKey (atElement iter key value) = key.bytes := by
  have hall : ∀ b ∈ key.bytes, decide (b ≠ 0) = true := by
    intro b hb
    exact decide_eq_true fun h0 => key.nul_free (h0 ▸ hb)
  rw [bsonIterKey, atElement]
  simp only
  rw [h.drop_key, List.takeWhile_append_of_pos hall]
  simp

lemma type_eq (h : iter.At (.cons key value rest)) :
    bsonIterType (atElement iter key value) = value.type := by
  rw [bsonIterType, atElement]
  simp only
  rw [getD_of_drop h.drop_nextOff, BsonType.ofByte_toByte, Option.getD_some]

/-- **Descending into a value that is a document.** -/
lemma recurse_eq {body : List UInt8} (h : iter.At (.cons key value rest))
    (hvalue : value.encode = frame body) :
    bsonIterRecurse (atElement iter key value) = bsonIterInit (frame body) := by
  have hd1 := h.drop_value
  rw [hvalue] at hd1
  have hlen := length_of_drop hd1 (by simp)
  have hfits := h.fits
  rw [length_frame] at hlen
  have hl : readU32le iter.raw (iter.nextOff + 1 + key.bytes.length + 1) = body.length + 5 := by
    have hframe := hd1
    rw [frame, List.append_assoc] at hframe
    exact readU32le_of_drop hframe (by omega)
  rw [bsonIterRecurse, atElement]
  simp only
  rw [hl, hd1, List.take_left' (length_frame body), bsonIterInit]

end BsonIter.At

/-! ## On any bytes -/

lemma le_of_findNul {data : List UInt8} {o z : ℕ} (h : findNul data o = some z) : o ≤ z := by
  obtain ⟨k, -, rfl⟩ := Option.map_eq_some_iff.mp h
  exact Nat.le_add_right o k

lemma le_of_fillDataFields {data : List UInt8} {type : BsonType} {o nextOff : ℕ}
    (h : fillDataFields data type o = some nextOff) : o ≤ nextOff := by
  cases type with
  | regex =>
      simp only [fillDataFields] at h
      split at h
      · cases h
      · next eor heor =>
        obtain ⟨eoo, heoo, rfl⟩ := Option.map_eq_some_iff.mp h
        have h1 := le_of_findNul heor
        have h2 := le_of_findNul heoo
        omega
  | code | symbol | utf8 | binary | array | document | bool | dbpointer | codewscope =>
      simp only [fillDataFields] at h
      split_ifs at h <;> cases h <;> omega
  | eod => cases h
  | _ =>
      cases h
      omega

/-- **The iterator advances**, and stays within its bytes. -/
lemma bsonIterNext_advances {iter next : BsonIter} (h : bsonIterNext iter = some next) :
    next.raw = iter.raw ∧ iter.nextOff + 2 ≤ next.d1 ∧ next.d1 ≤ next.nextOff ∧
      next.nextOff < iter.raw.length := by
  rw [bsonIterNext] at h
  split at h
  · cases h
  · next z hz =>
    split at h
    · cases h
    · next type htype =>
      split at h
      · cases h
      · next nextOff hfill =>
        split_ifs at h with hlen
        cases h
        have hnul := le_of_findNul hz
        have hvalue := le_of_fillDataFields hfill
        exact ⟨rfl, by simp only; omega, hvalue, not_le.mp hlen⟩

end CBootstrap.Bson
