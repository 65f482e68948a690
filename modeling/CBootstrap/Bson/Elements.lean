import CBootstrap.Bson.Value

/-!
# The elements of a document

A loop over a document with `bson_iter_next` that takes the key and the value of each element
(`collect`).  Three things are said of it.

On the encoding of a document it gives the keys and the values that were encoded
(`collect_encode`).

On any bytes that `bson_init_static` accepts it ends, and `err_off` then tells whether the
elements filled the document up to its last byte (`collect_errOff`).  The loop in
`print-invalid-arrays` does not look at it.  For a document inside another the test says less:
nothing has checked that it ends in a zero byte, and without one the loop over the key runs to the
end of the bytes and leaves `err_off` alone.

An iterator can be made again later from the offset of its element and the length of its key
(`iterInitFromDataAtOffset_resume`).
-/

namespace CBootstrap.Bson

open Bytes

/-- `while (bson_iter_next (&iter))`, with the key and the value of each element, and the iterator
the loop ends with.  `fuel` bounds the passes. -/
def collect : ℕ → BsonIterT → Option (List (List UInt8 × RawValue) × BsonIterT)
  | 0, _ => none
  | fuel + 1, iter =>
      (nextInternal iter 0).bind fun result =>
        if result.ok then
          (iterKey result.iter).bind fun key =>
            (iterValue result.iter).bind fun value =>
              value.bind fun value =>
                (collect fuel result.iter).map fun rest => ((key, value) :: rest.1, rest.2)
        else some ([], result.iter)

lemma collect_of_stop {iter : BsonIterT} {result : NextResult} {fuel : ℕ}
    (hnext : nextInternal iter 0 = some result) (hok : result.ok = false) :
    collect (fuel + 1) iter = some ([], result.iter) := by
  rw [collect, hnext, Option.bind_some, hok, if_neg Bool.false_ne_true]

lemma collect_of_element {iter next : BsonIterT} {key : List UInt8} {value : RawValue} {fuel : ℕ}
    (hnext : nextInternal iter 0 = some ⟨next, true, false⟩) (hkey : iterKey next = some key)
    (hvalue : iterValue next = some (some value)) :
    collect (fuel + 1) iter =
      (collect fuel next).map fun rest => ((key, value) :: rest.1, rest.2) := by
  rw [collect, hnext, Option.bind_some, if_pos rfl, hkey, Option.bind_some, hvalue,
    Option.bind_some, Option.bind_some]

/-! ## Encodings -/

/-- The value as `bson_iter_value` has it. -/
def Value.raw : Value → RawValue
  | .double bits => .double bits.toNat
  | .utf8 text => .utf8 text
  | .document fields => .document (frame fields.body)
  | .array fields => .array (frame fields.body)
  | .binary subtype _ data => .binary subtype data
  | .binaryDeprecated data => .binary 2 data
  | .undefined => .undefined
  | .oid bytes => .oid bytes.toList
  | .bool value => .bool value
  | .dateTime milliseconds => .dateTime milliseconds.toNat
  | .null => .null
  | .regex pattern options => .regex pattern.bytes options.bytes
  | .dbpointer collection id => .dbpointer collection id.toList
  | .code text => .code text
  | .symbol text => .symbol text
  | .codewscope text scope => .codewscope text (frame scope.body)
  | .int32 value => .int32 value.toNat
  | .timestamp value => .timestamp (value.toNat / 2 ^ 32) (value.toNat % 2 ^ 32)
  | .int64 value => .int64 value.toNat
  | .decimal128 bytes =>
      .decimal128 (ofLE (bytes.toList.take 8)) (ofLE (bytes.toList.drop 8))
  | .maxkey => .maxkey
  | .minkey => .minkey

/-- The keys and values of a document. -/
def Document.rawElements : Document → List (List UInt8 × RawValue)
  | .nil => []
  | .cons key value rest => (key.bytes, value.raw) :: rest.rawElements

section Encodings

variable {data a rest : List UInt8} {o : ℕ}

lemma read_of_drop (h : data.drop o = a ++ rest) (hrest : rest ≠ []) :
    Block.read data o a.length = some a := by
  have hlen := length_of_drop h hrest
  rw [Block.read, if_pos (by omega), h, List.take_left]

lemma numberAt_of_drop {n v : ℕ} (h : data.drop o = toLE n v ++ rest) (hrest : rest ≠ [])
    (hv : v < 256 ^ n) : numberAt data o n = some v := by
  have hread := read_of_drop h hrest
  rw [length_toLE] at hread
  rw [numberAt, hread, Option.map_some, ofLE_toLE_of_lt hv]

lemma u32At_of_drop {v : ℕ} (h : data.drop o = toLE 4 v ++ rest) (hrest : rest ≠ [])
    (hv : v < 2 ^ 32) : u32At data o = some v := by
  have hnumber := numberAt_of_drop h hrest (by omega)
  exact hnumber

lemma cstringAt_of_drop {text : List UInt8} (h : data.drop o = text ++ 0 :: rest)
    (htext : 0 ∉ text) : cstringAt data o = some text := by
  rw [cstringAt_inside (findNul_of_drop h htext), Nat.add_sub_cancel_left, h, List.take_left]

lemma stringAt_of_drop {text : List UInt8} (h : data.drop o = encodeString text ++ rest)
    (hrest : rest ≠ []) (hsize : data.length < 2 ^ 31) :
    stringAt data o (o + 4) = some text := by
  have hlen := length_of_drop h hrest
  rw [length_encodeString] at hlen
  rw [encodeString, List.append_assoc] at h
  have hbehind := drop_behind h
  rw [length_toLE, List.append_assoc] at hbehind
  have hpos : ¬Int.bmod ((text.length + 1 : ℕ) : ℤ) (2 ^ 32) ≤ 0 := by
    rw [Int.bmod_eq_of_le_mul_two (by omega) (by omega)]
    omega
  rw [stringAt, utf8LenUnsafe, u32At_of_drop h (by simp) (by omega), Option.map_some,
    Option.bind_some, if_neg hpos, Nat.add_sub_cancel]
  exact read_of_drop hbehind (by simp)

lemma documentAt_of_drop {body : List UInt8} (h : data.drop o = frame body ++ rest)
    (hrest : rest ≠ []) (hsize : data.length < 2 ^ 31) :
    documentAt data o = some (frame body) := by
  have hlen := length_of_drop h hrest
  have hread := read_of_drop h hrest
  rw [length_frame] at hlen hread
  rw [frame, List.append_assoc] at h
  rw [documentAt, u32At_of_drop h (by simp) (by omega), Option.bind_some]
  exact hread

lemma binaryAt_of_drop {subtype : UInt8} {payload : List UInt8}
    (h : data.drop o = (toLE 4 payload.length ++ subtype :: payload) ++ rest) (hrest : rest ≠ [])
    (hsize : data.length < 2 ^ 31) (hsubtype : subtype ≠ 2) :
    binaryAt data o (o + 4) (o + 5) = some (subtype, payload) := by
  have hlen := length_of_drop h hrest
  rw [List.length_append, List.length_cons, length_toLE] at hlen
  rw [List.append_assoc] at h
  have hbehind := drop_behind h
  rw [length_toLE, List.cons_append] at hbehind
  have hpayload : data.drop (o + 5) = payload ++ rest := drop_behind (a := [subtype]) hbehind
  rw [binaryAt, u8At_eq (by omega), getD_of_drop hbehind, Option.bind_some,
    u32At_of_drop h (by simp) (by omega), Option.bind_some, if_neg hsubtype,
    read_of_drop hpayload hrest, Option.map_some]

lemma binaryAt_of_drop_deprecated {payload : List UInt8}
    (h : data.drop o = (toLE 4 (payload.length + 4) ++ 2 :: (toLE 4 payload.length ++ payload)) ++
      rest) (hrest : rest ≠ []) (hsize : data.length < 2 ^ 31) :
    binaryAt data o (o + 4) (o + 5) = some (2, payload) := by
  have hlen := length_of_drop h hrest
  simp only [List.length_append, List.length_cons, length_toLE] at hlen
  rw [List.append_assoc] at h
  have hbehind := drop_behind h
  rw [length_toLE, List.cons_append] at hbehind
  have hinner : data.drop (o + 5) = toLE 4 payload.length ++ (payload ++ rest) := by
    rw [← List.append_assoc]
    exact drop_behind (a := [2]) hbehind
  have hpayload := drop_behind hinner
  rw [length_toLE] at hpayload
  rw [binaryAt, u8At_eq (by omega), getD_of_drop hbehind, Option.bind_some,
    u32At_of_drop h (by simp) (by omega), Option.bind_some, if_pos rfl,
    sub32_eq (by omega) (by omega), Nat.add_sub_cancel, read_of_drop hpayload hrest,
    Option.map_some]

lemma dbpointerAt_of_drop {collection : List UInt8} {oid : Vector UInt8 12}
    (h : data.drop o = (encodeString collection ++ oid.toList) ++ rest) (hrest : rest ≠ [])
    (hsize : data.length < 2 ^ 31) :
    dbpointerAt data o (o + 4) (o + 4 + readU32le data o) = some (collection, oid.toList) := by
  have hlen := length_of_drop h hrest
  rw [List.length_append, length_encodeString, Vector.length_toList] at hlen
  rw [List.append_assoc] at h
  have hoid := drop_behind h
  rw [length_encodeString] at hoid
  rw [encodeString, List.append_assoc] at h
  have hl : readU32le data o = collection.length + 1 := readU32le_of_drop h (by omega)
  have hbehind := drop_behind h
  rw [length_toLE, List.append_assoc] at hbehind
  have hread := read_of_drop hoid hrest
  rw [Vector.length_toList] at hread
  have hoffset : o + 4 + (collection.length + 1) = o + (collection.length + 5) := by omega
  rw [dbpointerAt, u32At_of_drop h (by simp) (by omega), Option.bind_some,
    if_pos (Nat.succ_pos _), Nat.add_sub_cancel, read_of_drop hbehind (by simp),
    Option.bind_some, hl, hoffset, hread, Option.map_some]

lemma codewscopeAt_of_drop {text body : List UInt8}
    (h : data.drop o = (toLE 4 (4 + (encodeString text).length + (frame body).length) ++
      (encodeString text ++ frame body)) ++ rest) (hrest : rest ≠ [])
    (hsize : data.length < 2 ^ 31) :
    codewscopeAt data (o + 4) (o + 8) (o + 4 + 4 + readU32le data (o + 4)) =
      some (text, frame body) := by
  have hlen := length_of_drop h hrest
  simp only [List.length_append, length_encodeString, length_toLE, length_frame] at hlen
  rw [List.append_assoc] at h
  have hstring := drop_behind h
  rw [length_toLE, List.append_assoc] at hstring
  have hscope := drop_behind hstring
  rw [length_encodeString] at hscope
  have htext := hstring
  rw [encodeString, List.append_assoc] at htext
  have hl : readU32le data (o + 4) = text.length + 1 := readU32le_of_drop htext (by omega)
  have hcode := drop_behind htext
  rw [length_toLE, List.append_assoc] at hcode
  have hdocument := documentAt_of_drop hscope hrest hsize
  have hoffset : o + 4 + 4 + (text.length + 1) = o + 4 + (text.length + 5) := by omega
  rw [codewscopeAt, u32At_of_drop htext (by simp) (by omega), Option.bind_some,
    if_pos (Nat.succ_pos _), hl, hoffset]
  rw [documentAt] at hdocument
  obtain ⟨len, hscopeLen, hread⟩ := Option.bind_eq_some_iff.mp hdocument
  rw [hscopeLen, Option.bind_some, hread, Option.bind_some, Nat.add_sub_cancel,
    read_of_drop hcode (by simp), Option.map_some]

/-- **The value that is read is the value that was written.** -/
lemma valueAt_of_drop (v : Value) (h : data.drop o = v.encode ++ rest) (hrest : rest ≠ [])
    (hsize : data.length < 2 ^ 31) :
    valueAt data v.type o (dataFields data v.type o).1 (dataFields data v.type o).2.1
      (dataFields data v.type o).2.2 = some (some v.raw) := by
  cases v with
  | undefined | null | maxkey | minkey => rfl
  | double bits =>
      exact congrArg (Option.map _) (numberAt_of_drop h hrest bits.toNat_lt)
  | dateTime ms => exact congrArg (Option.map _) (numberAt_of_drop h hrest ms.toNat_lt)
  | int64 value => exact congrArg (Option.map _) (numberAt_of_drop h hrest value.toNat_lt)
  | int32 value => exact congrArg (Option.map _) (numberAt_of_drop h hrest value.toNat_lt)
  | utf8 text => exact congrArg (Option.map _) (stringAt_of_drop h hrest hsize)
  | code text => exact congrArg (Option.map _) (stringAt_of_drop h hrest hsize)
  | symbol text => exact congrArg (Option.map _) (stringAt_of_drop h hrest hsize)
  | document fields => exact congrArg (Option.map _) (documentAt_of_drop h hrest hsize)
  | array fields => exact congrArg (Option.map _) (documentAt_of_drop h hrest hsize)
  | binary subtype hsubtype payload =>
      exact congrArg (Option.map _) (binaryAt_of_drop h hrest hsize hsubtype)
  | binaryDeprecated payload =>
      exact congrArg (Option.map _) (binaryAt_of_drop_deprecated h hrest hsize)
  | oid bytes =>
      have hread : Block.read data o bytes.toList.length = some bytes.toList := read_of_drop h hrest
      rw [Vector.length_toList] at hread
      exact congrArg (Option.map _) hread
  | bool value =>
      have hbyte : data.drop o = (if value then 1 else 0) :: rest := h
      have hlen := length_of_drop h hrest
      have hpos := List.length_pos_of_ne_nil hrest
      simp only [Value.type, Value.raw, valueAt]
      rw [u8At_eq (by omega), getD_of_drop hbyte, Option.map_some]
      cases value
      · rfl
      · rfl
  | regex pattern options =>
      have hpattern : data.drop o = pattern.bytes ++ 0 :: (options.bytes ++ 0 :: rest) := by
        rw [h]
        simp [Value.encode]
      have hoptions : data.drop (o + pattern.bytes.length + 1) = options.bytes ++ 0 :: rest :=
        drop_behind (a := [0]) (drop_behind hpattern)
      have hnul := findNul_of_drop hpattern pattern.nul_free
      simp only [Value.type, Value.raw, valueAt, dataFields, hnul, Option.getD_some]
      rw [cstringAt_of_drop hpattern pattern.nul_free, Option.bind_some,
        cstringAt_of_drop hoptions options.nul_free, Option.map_some]
  | dbpointer collection oid =>
      exact congrArg (Option.map _) (dbpointerAt_of_drop h hrest hsize)
  | codewscope text scope =>
      exact congrArg (Option.map _) (codewscopeAt_of_drop h hrest hsize)
  | timestamp value =>
      have hlt : value.toNat < 2 ^ 64 := value.toNat_lt
      have hbase : (2 : ℕ) ^ 32 = 256 ^ 4 := by norm_num
      have hhalves : data.drop o =
          toLE 4 (value.toNat % 2 ^ 32) ++ (toLE 4 (value.toNat / 2 ^ 32) ++ rest) := by
        rw [h, hbase, toLE_mod, ← List.append_assoc, ← toLE_add]
        rfl
      have hhigh := drop_behind hhalves
      rw [length_toLE] at hhigh
      simp only [Value.type, Value.raw, valueAt]
      rw [numberAt_of_drop hhalves (by simp [hrest]) (by omega), Option.bind_some,
        numberAt_of_drop hhigh hrest (by omega), Option.map_some]
  | decimal128 bytes =>
      have hhalves : data.drop o = bytes.toList.take 8 ++ (bytes.toList.drop 8 ++ rest) := by
        rw [← List.append_assoc, List.take_append_drop]
        exact h
      have hlow : (bytes.toList.take 8).length = 8 := by simp
      have hhigh : (bytes.toList.drop 8).length = 8 := by simp
      have hbehind := drop_behind hhalves
      have hread := read_of_drop hhalves (by simp [hrest])
      have hread' := read_of_drop hbehind hrest
      rw [hlow] at hread hread'
      rw [hhigh] at hread'
      simp only [Value.type, Value.raw, valueAt, numberAt]
      rw [hread, Option.map_some, Option.bind_some, hread', Option.map_some, Option.map_some]

end Encodings

/-- The iterator at an element of an encoding. -/
lemma iterValue_of_at {iter : BsonIter} {key : CString} {value : Value} {rest : Document}
    (h : iter.At (.cons key value rest)) :
    iterValue (.atElement (atElement iter key value)) = some (some value.raw) := by
  have hnext := h.next_cons
  obtain ⟨-, -, -, -, htype, -, -⟩ := bsonIterNext_inv hnext
  simp only [iterValue, BsonIterT.atElement, Option.bind_some, u8At_element hnext, htype,
    h.type_eq]
  exact valueAt_of_drop value h.drop_value (by simp) h.fits

lemma length_of_at {iter : BsonIter} {d : Document} (h : iter.At d) :
    iter.raw.length = iter.nextOff + d.body.length + 1 := by
  have hlen := congrArg List.length h.elements
  rw [List.length_drop, List.length_append, List.length_singleton] at hlen
  omega

/-- At the end of a document there is no further key. -/
lemma findNul_of_last {data : List UInt8} {o : ℕ} (h : data.length ≤ o) :
    findNul data o = none := by
  rw [findNul, List.drop_eq_nil_iff.mpr h]
  rfl

/-- The loop over the rest of an encoding. -/
lemma collect_of_at {iter : BsonIterT} {data : List UInt8} (hvalid : iter.Valid data)
    (herr : iter.errOff = 0) {d : Document} (h : (iter.position data).At d) {fuel : ℕ}
    (hfuel : data.length ≤ fuel + iter.nextOff) :
    ∃ final, collect fuel iter = some (d.rawElements, final) ∧ final.errOff = 0 := by
  induction fuel generalizing iter d with
  | zero =>
      have hlen : data.length = iter.nextOff + d.body.length + 1 := length_of_at h
      omega
  | succ fuel ih =>
      have hlen : data.length = iter.nextOff + d.body.length + 1 := length_of_at h
      obtain ⟨next, hpure, hnext⟩ | ⟨hpure, result, hnext, hok, -, herrOff⟩ :=
        nextInternal_eq hvalid
      · cases d with
        | nil => cases h.next_nil.symm.trans hpure
        | cons key value rest =>
            cases h.next_cons.symm.trans hpure
            have hkey := iterKey_atElement hpure
            rw [h.key_eq] at hkey
            have hfuel' : data.length ≤ fuel +
                (iter.nextOff + 1 + key.bytes.length + 1 + value.encode.length) := by omega
            obtain ⟨final, hcollect, hfinal⟩ := ih (hvalid.atElement hpure) rfl h.behind hfuel'
            refine ⟨final, ?_, hfinal⟩
            rw [collect_of_element hnext hkey (iterValue_of_at h), hcollect]
            rfl
      · cases d with
        | nil =>
            have hnone : findNul data (iter.nextOff + 1) = none :=
              findNul_of_last (by simp only [Document.body, List.length_nil] at hlen; omega)
            rcases herrOff with ⟨-, hsame⟩ | ⟨hsome, -⟩
            · exact ⟨result.iter, collect_of_stop hnext hok, hsame.trans herr⟩
            · rw [hnone] at hsome
              cases hsome
        | cons key value rest => cases hpure.symm.trans h.next_cons

/-- **What is written can be read.**  The loop over the encoding of a document gives its keys and
values, in order, and ends without an error. -/
theorem collect_encode (root : Root) {fuel : ℕ} (hfuel : root.document.encode.length ≤ fuel) :
    ∃ final, collect fuel (iterInit root.document.encode) =
      some (root.document.rawElements, final) ∧ final.errOff = 0 :=
  collect_of_at (valid_iterInit root.fits) rfl (at_init root.document root.fits)
    (hfuel.trans (Nat.le_add_right _ _))

/-- The document with one number. -/
theorem collect_encode_number :
    ∃ final, collect 12 (iterInit
        (Document.encode (.cons ⟨[97], by decide⟩ (.int32 7) .nil))) =
      some ([([97], .int32 7)], final) ∧ final.errOff = 0 :=
  collect_encode ⟨.cons ⟨[97], by decide⟩ (.int32 7) .nil, by decide⟩ (by decide)

/-! ## Where the loop ends -/

/-- The elements from an offset on fill a document up to its last byte. -/
inductive Fills (data : List UInt8) : ℕ → Prop
  | last {o} (h : o + 1 = data.length) : Fills data o
  | element {o next} (h : bsonIterNext ⟨data, 0, 0, o⟩ = some next)
      (hrest : Fills data next.nextOff) : Fills data o

/-- The offsets of the current element do not matter for the next. -/
lemma bsonIterNext_position (iter : BsonIterT) (data : List UInt8) :
    bsonIterNext (iter.position data) = bsonIterNext ⟨data, 0, 0, iter.nextOff⟩ :=
  rfl

/-- In bytes that end in a zero, a key is found unless it would start behind them. -/
lemma findNul_isSome {data : List UInt8} {o : ℕ} (hlast : data.getLastD 0 = 0)
    (ho : o < data.length) : (findNul data o).isSome := by
  have hne : data.drop o ≠ [] := by
    rw [Ne, List.drop_eq_nil_iff]
    omega
  have hmem : (0 : UInt8) ∈ data.drop o := by
    have hlast' : (data.drop o).getLast hne = 0 := by
      rw [List.getLast_drop, ← hlast, List.getLastD_eq_getLast?, List.getLast?_eq_getLast_of_ne_nil,
        Option.getD_some]
    exact hlast' ▸ List.getLast_mem hne
  rw [findNul, Option.isSome_map, List.findIdx?_isSome, List.any_eq_true]
  exact ⟨0, hmem, rfl⟩

/-- The loop over the rest of a document that ends in a zero byte. -/
lemma collect_fills {iter : BsonIterT} {data : List UInt8} (hvalid : iter.Valid data)
    (herr : iter.errOff = 0) (hlast : data.getLastD 0 = 0) (hinside : iter.nextOff < data.length)
    {fuel : ℕ} (hfuel : data.length ≤ fuel + iter.nextOff) :
    ∃ elements final, collect fuel iter = some (elements, final) ∧
      (final.errOff = 0 ↔ Fills data iter.nextOff) := by
  induction fuel generalizing iter with
  | zero => omega
  | succ fuel ih =>
      obtain ⟨next, hpure, hnext⟩ | ⟨hpure, result, hnext, hok, -, herrOff⟩ :=
        nextInternal_eq hvalid
      · obtain ⟨hraw, hd1, hle, hlt⟩ := bsonIterNext_advances hpure
        simp only [BsonIterT.position] at hraw hd1 hlt
        obtain ⟨value, hvalue⟩ := iterValue_atElement hpure
        obtain ⟨elements, final, hcollect, hfinal⟩ := ih (hvalid.atElement hpure) rfl
          (by simp only [BsonIterT.atElement]; omega) (by simp only [BsonIterT.atElement]; omega)
        refine ⟨(bsonIterKey next, value) :: elements, final, ?_,
          hfinal.trans ⟨.element hpure, fun hfills => ?_⟩⟩
        · rw [collect_of_element hnext (iterKey_atElement hpure) hvalue, hcollect, Option.map_some]
        · cases hfills with
          | last hend => omega
          | element hother hrest =>
              cases hpure.symm.trans hother
              exact hrest
      · refine ⟨[], result.iter, collect_of_stop hnext hok, ?_⟩
        have hnot : Fills data iter.nextOff → iter.nextOff + 1 = data.length := by
          intro hfills
          cases hfills with
          | last hend => exact hend
          | element hother => cases hpure.symm.trans hother
        rcases herrOff with ⟨hnone, hsame⟩ | ⟨hsome, hpos⟩
        · refine iff_of_true (hsame.trans herr) (.last ?_)
          by_contra hmore
          have hsome := findNul_isSome hlast (show iter.nextOff + 1 < data.length by omega)
          rw [hnone] at hsome
          cases hsome
        · refine iff_of_false (Nat.ne_of_gt hpos) fun hfills => ?_
          rw [findNul_of_last (hnot hfills).ge] at hsome
          cases hsome

/-- **`err_off` tells an error from the end.**  On any bytes that `bson_init_static` accepts the
loop ends, and the iterator has `err_off` zero exactly if the elements it went through fill the
document up to its last byte. -/
theorem collect_errOff {bson : List UInt8} (hbson : bsonInitStatic bson = true) {fuel : ℕ}
    (hfuel : bson.length ≤ fuel) :
    ∃ elements final, collect fuel (iterInit bson) = some (elements, final) ∧
      (final.errOff = 0 ↔ Fills bson 4) := by
  obtain ⟨hfive, hsize, hlast⟩ := length_of_bsonInitStatic hbson
  exact collect_fills (valid_iterInit hsize) rfl hlast (by simp only [iterInit]; omega)
    (hfuel.trans (Nat.le_add_right _ _))

/-- Two bytes behind the elements: they are an element of a type that does not exist. -/
theorem collect_errOff_trailing :
    ∃ elements final, collect 7 (iterInit [7, 0, 0, 0, 0, 1, 0]) = some (elements, final) ∧
      (final.errOff = 0 ↔ Fills [7, 0, 0, 0, 0, 1, 0] 4) :=
  collect_errOff (by decide) (le_refl 7)

/-! ## Making an iterator again -/

/-- `bson_iter_key_len`, with its assertion. -/
def iterKeyLen (iter : BsonIterT) : Option ℕ :=
  if iter.d1 > iter.key then some (sub32 (sub32 iter.d1 iter.key) 1) else none

/-- `bson_iter_init_from_data_at_offset`, which returns false where there is no element. -/
def iterInitFromDataAtOffset (data : List UInt8) (offset keylen : ℕ) :
    Option (Option BsonIterT) :=
  if data.length < 5 ∨ data.length > 2 ^ 31 - 1 then some none
  else
    (nextInternal ⟨some data, 0, 0, 0, 0, 0, 0, 0, offset, 0⟩ keylen).map fun result =>
      if result.ok then some result.iter else none

/-- A step with the length of the key given, if that is its length. -/
lemma nextInternal_keylen {iter : BsonIterT} {data : List UInt8} (hraw : iter.raw = some data)
    {keylen : ℕ} (hkey : keyEnd data (add32 iter.nextOff 1) keylen =
      keyEnd data (add32 iter.nextOff 1) 0) : nextInternal iter keylen = nextInternal iter 0 := by
  rw [nextInternal, nextInternal, hraw]
  simp only [hkey]

/-- **An iterator can be made again** from its bytes, the offset of its element and the length of
its key, with all its fields as they were. -/
theorem iterInitFromDataAtOffset_resume {bson : List UInt8} (hbson : bsonInitStatic bson = true)
    {iter : BsonIterT} (h : Reached bson true iter) {data : List UInt8}
    (hraw : iter.raw = some data) :
    ∃ keylen, iterKeyLen iter = some keylen ∧
      iterInitFromDataAtOffset data iter.off keylen = some (some iter) := by
  obtain ⟨hnull, -⟩ | ⟨data', hvalid, -, helement⟩ :=
    h.sound (length_of_bsonInitStatic hbson).2.1
  · cases hnull.symm.trans hraw
  cases hvalid.raw.symm.trans hraw
  obtain ⟨prev, next, hnext, hfour, rfl⟩ := helement rfl
  cases hvalid.raw
  obtain ⟨hprev, hoff, hnul, hpos, -, hfill, hlt⟩ := bsonIterNext_inv hnext
  have hsize := hvalid.size
  have hz := findNul_lt hnul
  have hle := le_of_findNul hnul
  have hkey : add32 next.off 1 = next.off + 1 := add32_eq (by omega)
  have hkeylen : iterKeyLen (.atElement next) = some (next.d1 - (next.off + 1) - 1) := by
    have hgt : (BsonIterT.atElement next).d1 > (BsonIterT.atElement next).key := by
      simp only [BsonIterT.atElement]
      omega
    rw [iterKeyLen, if_pos hgt]
    simp only [BsonIterT.atElement]
    have hlen : sub32 next.d1 (next.off + 1) = next.d1 - (next.off + 1) :=
      sub32_eq (by omega) (by omega)
    rw [hlen, sub32_eq (by omega) (by omega)]
  refine ⟨_, hkeylen, ?_⟩
  -- the iterator it starts from stands in front of the same element
  obtain ⟨fresh, hfresh⟩ :
      ∃ fresh : BsonIterT, fresh = ⟨some next.raw, 0, 0, 0, 0, 0, 0, 0, next.off, 0⟩ := ⟨_, rfl⟩
  have hvalid' : fresh.Valid next.raw := by
    rw [hfresh]
    exact ⟨rfl, hsize, hfour, by simp only; omega⟩
  have hpure : bsonIterNext (fresh.position next.raw) = some next := by
    rw [hfresh, BsonIterT.position, ← hnext, hprev, hoff]
    rfl
  have hend : keyEnd next.raw (add32 next.off 1) 0 = some (some next.d1) := by
    rw [hkey, keyEnd, if_pos rfl, scanNul_eq, Option.map_some, hnul, Option.map_some,
      add32_eq (by omega), Nat.sub_add_cancel hpos]
  have hend' : keyEnd next.raw (add32 next.off 1) (next.d1 - (next.off + 1) - 1) =
      some (some next.d1) := by
    by_cases hempty : next.d1 - (next.off + 1) - 1 = 0
    · rw [hempty, hend]
    · have hsum : add32 (next.off + 1) (next.d1 - (next.off + 1) - 1) = next.d1 - 1 := by
        rw [add32_eq (by omega)]
        omega
      rw [hkey, keyEnd, if_neg hempty, hsum, add32_eq (by omega), Nat.sub_add_cancel hpos]
  have hstep : nextInternal fresh (next.d1 - (next.off + 1) - 1) = nextInternal fresh 0 := by
    refine nextInternal_keylen hvalid'.raw ?_
    rw [hfresh]
    exact hend'.trans hend.symm
  have hoff' : (BsonIterT.atElement next).off = next.off := rfl
  rw [iterInitFromDataAtOffset, if_neg (by omega), hoff', ← hfresh, hstep]
  obtain ⟨next', hpure', heq⟩ | ⟨hnone, -⟩ := nextInternal_eq hvalid'
  · cases hpure.symm.trans hpure'
    rw [heq, Option.map_some, if_pos rfl]
  · cases hpure.symm.trans hnone

/-- The element of the document with one number. -/
theorem iterInitFromDataAtOffset_resume_number :
    ∃ keylen, iterKeyLen (.atElement ⟨[12, 0, 0, 0, 16, 97, 0, 7, 0, 0, 0, 0], 4, 7, 11⟩) =
        some keylen ∧
      iterInitFromDataAtOffset [12, 0, 0, 0, 16, 97, 0, 7, 0, 0, 0, 0] 4 keylen =
        some (some (.atElement ⟨[12, 0, 0, 0, 16, 97, 0, 7, 0, 0, 0, 0], 4, 7, 11⟩)) := by
  have hnext : nextInternal (iterInit [12, 0, 0, 0, 16, 97, 0, 7, 0, 0, 0, 0]) 0 =
      some ⟨.atElement ⟨[12, 0, 0, 0, 16, 97, 0, 7, 0, 0, 0, 0], 4, 7, 11⟩, true, false⟩ := by
    simp only [nextInternal, iterInit, keyEnd, if_true, scanNul_eq]
    decide
  exact iterInitFromDataAtOffset_resume (by decide) (.next .init hnext) rfl

end CBootstrap.Bson
