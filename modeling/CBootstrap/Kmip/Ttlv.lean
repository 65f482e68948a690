import CBootstrap.Kmip.DumpRuns
import Mathlib.Data.List.TakeWhile

/-!
# KMIP items, their TTLV encoding, and what a dump of them says

The dumper is for messages, and a message is a forest of KMIP items.  This file says what those
are, independently of the dumper: `Item` is a Structure or one of the nine kinds of value,
`Item.encode` is its TTLV encoding (three bytes of tag, one of type, four of length, the value
padded with zeros to a multiple of eight), and `Item.render` is how a forest should read:
items in order, indented by their depth, a Structure as an opening and a closing line around
its children and every value on a line of its own.

`kmipDumpRecursiveXml_render`: on the encoding of any forest the dumper consumes the whole
buffer and appends exactly the rendering.  The proof is an induction over the run of the
dumper (`DumpRun`), with the forest still to come as the invariant: the unread bytes of each
level are the encoding of the items that level has not printed yet.
-/

namespace CBootstrap.Kmip

open Bytes

/-! ## Items -/

/-- The bytes of a TextString; KMIP text holds no NUL. -/
structure Text where
  bytes : List UInt8
  nul_free : 0 ∉ bytes

/-- A value other than a Structure. -/
inductive Value
  | integer (value : Int32)
  | longInteger (value : Int64)
  | bigInteger (bytes : List UInt8)
  | enumeration (value : UInt32)
  | boolean (value : Bool)
  | textString (text : Text)
  | byteString (bytes : List UInt8)
  | dateTime (time : Int64)
  | interval (seconds : UInt32)

/-- A KMIP item; the tag is `0x420000` plus the given sixteen bits. -/
inductive Item
  | value (tag : UInt16) (value : Value)
  | struct (tag : UInt16) (children : List Item)

/-- The tag of an item, as a number. -/
def tagOf (tag : UInt16) : ℕ := 0x420000 + tag.toNat

/-- The item type of a value. -/
def Value.type : Value → KmipItemType
  | .integer _ => .integer
  | .longInteger _ => .longInteger
  | .bigInteger _ => .bigInteger
  | .enumeration _ => .enumeration
  | .boolean _ => .boolean
  | .textString _ => .textString
  | .byteString _ => .byteString
  | .dateTime _ => .dateTime
  | .interval _ => .interval

/-- The bytes of a value, before padding. -/
def Value.bytes : Value → List UInt8
  | .integer value => toBE 4 value.toBitVec.toNat
  | .longInteger value => toBE 8 value.toBitVec.toNat
  | .bigInteger bytes => bytes
  | .enumeration value => toBE 4 value.toNat
  | .boolean value => toBE 8 value.toNat
  | .textString text => text.bytes
  | .byteString bytes => bytes
  | .dateTime time => toBE 8 time.toBitVec.toNat
  | .interval seconds => toBE 4 seconds.toNat

/-! ## The encoding -/

/-- Fill up with zeros to a multiple of eight bytes. -/
def pad (bytes : List UInt8) : List UInt8 :=
  bytes ++ List.replicate ((8 - bytes.length % 8) % 8) 0

/-- Tag, type and length of an item. -/
def itemHeader (tag : UInt16) (type : KmipItemType) (len : ℕ) : List UInt8 :=
  toBE 3 (tagOf tag) ++ toBE 1 type.toU8 ++ toBE 4 len

mutual

/-- The TTLV encoding of an item. -/
def Item.encode : Item → List UInt8
  | .value tag v => itemHeader tag v.type v.bytes.length ++ pad v.bytes
  | .struct tag children =>
      itemHeader tag .struct (encodeAll children).length ++ encodeAll children

/-- The encodings of the items, one after the other. -/
def encodeAll : List Item → List UInt8
  | [] => []
  | item :: items => item.encode ++ encodeAll items

end

mutual

/-- Every length fits its 32-bit field. -/
def Item.Fits : Item → Prop
  | .value _ v => v.bytes.length < 2 ^ 32
  | .struct _ children => (encodeAll children).length < 2 ^ 32 ∧ FitsAll children

/-- Every length in the forest fits its field. -/
def FitsAll : List Item → Prop
  | [] => True
  | item :: items => item.Fits ∧ FitsAll items

end

mutual

/-- The values of an item, at any depth. -/
def Item.values : Item → List Value
  | .value _ v => [v]
  | .struct _ children => valuesAll children

/-- The values of a forest, at any depth. -/
def valuesAll : List Item → List Value
  | [] => []
  | item :: items => item.values ++ valuesAll items

end

/-! ## The rendering -/

/-- The part of a value's line after its type.  A BigInteger or an Interval comes out as
`(TODO)`, and its element is left open. -/
def Value.attribute (env : Env) (tag : ℕ) : Value → List UInt8
  | .integer value => valueAttribute (decimal value.toInt)
  | .longInteger value => valueAttribute (decimal value.toInt)
  | .enumeration value =>
      valueAttribute (decimal value.toNat) ++ addCommentDescribingEnumValue tag value.toNat
  | .boolean value => valueAttribute (ascii (if value then "true" else "false"))
  | .textString text => valueAttribute text.bytes
  | .byteString bytes => valueAttribute (bytes.flatMap (fun b => hexByte b.toNat))
  | .dateTime time => valueAttribute ((env.strftime time.toInt).getD [])
  | .bigInteger _ | .interval _ => ascii " value=\"(TODO)\""

mutual

/-- How an item should read at a given depth. -/
def Item.render (env : Env) (level : ℕ) : Item → List UInt8
  | .value tag v =>
      prefixLevel level ++ openTag (tagOf tag) ++ typeAttribute v.type ++
        v.attribute env (tagOf tag) ++ ascii "\n"
  | .struct tag children =>
      prefixLevel level ++ openTag (tagOf tag) ++ typeAttribute .struct ++ ascii ">\n" ++
        renderAll env (level + 1) children ++ prefixLevel level ++ closeTag (tagOf tag)

/-- How a forest should read at a given depth. -/
def renderAll (env : Env) (level : ℕ) : List Item → List UInt8
  | [] => []
  | item :: items => item.render env level ++ renderAll env level items

end

/-- `gmtime` can break the date down. -/
def Value.Representable (env : Env) : Value → Prop
  | .dateTime time => (env.strftime time.toInt).isSome
  | _ => True

/-! ## Reading an item back -/

lemma length_pad {bytes : List UInt8} (h : bytes.length < 2 ^ 32) :
    (pad bytes).length = computePaddedLength bytes.length := by
  rw [computePaddedLength_eq h, pad, List.length_append, List.length_replicate]
  omega

lemma take_pad (bytes w : List UInt8) : (pad bytes ++ w).take bytes.length = bytes := by
  rw [pad, List.append_assoc, List.take_left]

@[simp] lemma length_itemHeader (tag : UInt16) (type : KmipItemType) (len : ℕ) :
    (itemHeader tag type len).length = 8 := by
  simp [itemHeader]

/-- The tag in a header: the byte `0x42`, and sixteen bits. -/
lemma toBE_tagOf (tag : UInt16) : toBE 3 (tagOf tag) = toBE 1 0x42 ++ toBE 2 tag.toNat := by
  have htag : tag.toNat < 2 ^ 16 := tag.toNat_lt
  have hhigh : tagOf tag / 256 ^ 2 = 0x42 := by
    unfold tagOf
    omega
  have hlow : tagOf tag % 256 ^ 2 = tag.toNat := by
    unfold tagOf
    omega
  rw [show 3 = 1 + 2 from rfl, toBE_add, hhigh, ← toBE_mod 2 (tagOf tag), hlow]

/-- **A header reads back** as the tag, type and length it was written from. -/
lemma headOf_itemHeader (tag : UInt16) {type : KmipItemType} {len : ℕ} (w : List UInt8)
    (ht : KmipItemType.ofU8 (type.toU8 % 256) = type) (hl : len < 2 ^ 32) :
    headOf (itemHeader tag type len ++ w) = .item (tagOf tag) type len := by
  have htag : tag.toNat < 2 ^ 16 := tag.toNat_lt
  have h0 : UInt8.ofNat (tagOf tag / 256 / 256) = 0x42 := by
    have : tagOf tag / 256 / 256 = 0x42 := by unfold tagOf; omega
    rw [this]
    rfl
  have hab : ofBE [UInt8.ofNat (tagOf tag / 256), UInt8.ofNat (tagOf tag)] = tag.toNat := by
    have : toBE 2 (tagOf tag) = [UInt8.ofNat (tagOf tag / 256), UInt8.ofNat (tagOf tag)] := rfl
    rw [← this, ofBE_toBE]
    unfold tagOf
    omega
  have hlen : ofBE (toBE 4 len) = len := ofBE_toBE_of_lt (by omega)
  have htype : (UInt8.ofNat type.toU8).toNat = type.toU8 % 256 := by simp
  have hheader : itemHeader tag type len ++ w =
      0x42 :: UInt8.ofNat (tagOf tag / 256) :: UInt8.ofNat (tagOf tag) ::
        UInt8.ofNat type.toU8 :: UInt8.ofNat (len / 256 / 256 / 256) ::
        UInt8.ofNat (len / 256 / 256) :: UInt8.ofNat (len / 256) :: UInt8.ofNat len :: w := by
    rw [← h0]
    rfl
  rw [hheader, headOf, hab, htype, ht]
  exact congrArg _ hlen

/-- The type byte of a value. -/
lemma Value.ofU8_toU8 (v : Value) : KmipItemType.ofU8 (v.type.toU8 % 256) = v.type := by
  cases v <;> rfl

lemma Value.type_ne_struct (v : Value) : v.type ≠ .struct := by
  cases v <;> simp [Value.type]

/-- The values whose bytes the dumper skips instead of printing them. -/
def Value.Todo : Value → Prop
  | .bigInteger _ | .interval _ => True
  | _ => False

/-- The values the dumper can print at all. -/
def Value.Printable (env : Env) : Value → Prop
  | .bigInteger _ | .interval _ => False
  | .textString text => text.bytes.length + 1 < 2 ^ 32
  | .dateTime time => (env.strftime time.toInt).isSome
  | _ => True

lemma toSigned_int32 (value : Int32) :
    toSigned 32 (ofBE (toBE 4 value.toBitVec.toNat)) = value.toInt := by
  rw [ofBE_toBE_of_lt value.toBitVec.isLt, toSigned]
  exact (BitVec.toInt_eq_toNat_bmod value.toBitVec).symm

lemma toSigned_int64 (value : Int64) :
    toSigned 64 (ofBE (toBE 8 value.toBitVec.toNat)) = value.toInt := by
  rw [ofBE_toBE_of_lt value.toBitVec.isLt, toSigned]
  exact (BitVec.toInt_eq_toNat_bmod value.toBitVec).symm

lemma cstr_of_nul_free (text : Text) : cstr text.bytes = text.bytes := by
  rw [cstr, List.takeWhile_eq_self_iff]
  intro b hb
  have : b ≠ 0 := fun h => text.nul_free (h ▸ hb)
  simpa using this

/-- A fixed-width field at the front of the value. -/
lemma take_pad_toBE (width n : ℕ) (w : List UInt8) :
    (pad (toBE width n) ++ w).take width = toBE width n := by
  have h := take_pad (toBE width n) w
  rwa [length_toBE] at h

/-- The demand of the types whose value is one eight-byte field. -/
lemma demandOf_eight {type : KmipItemType} {n len : ℕ} (hd : demandOf type len = .bytes 8 8) :
    demandOf type len = .bytes 8 (computePaddedLength (toBE 8 n).length) := by
  rw [hd, length_toBE, computePaddedLength_eq (by norm_num)]

/-- **A printable value**: the branch asks for exactly the padded bytes, and prints the value's
rendering. -/
lemma Value.valueText_eq {env : Env} {v : Value} (hp : v.Printable env)
    (hl : v.bytes.length < 2 ^ 32) (tag : ℕ) (w : List UInt8) :
    (∃ size, demandOf v.type v.bytes.length = .bytes size (pad v.bytes).length) ∧
      valueText env tag v.type v.bytes.length (pad v.bytes ++ w) = some (v.attribute env tag) := by
  rw [length_pad hl]
  cases v with
  | integer value =>
      refine ⟨⟨8, rfl⟩, ?_⟩
      simp only [Value.type, Value.bytes, valueText, Value.attribute]
      rw [take_pad_toBE 4, toSigned_int32]
  | longInteger value =>
      refine ⟨⟨8, demandOf_eight rfl⟩, ?_⟩
      simp only [Value.type, Value.bytes, valueText, Value.attribute]
      rw [take_pad_toBE 8, toSigned_int64]
  | bigInteger bytes => exact hp.elim
  | interval seconds => exact hp.elim
  | enumeration value =>
      have hvalue : value.toNat < 256 ^ 4 := value.toNat_lt
      refine ⟨⟨8, rfl⟩, ?_⟩
      simp only [Value.type, Value.bytes, valueText, Value.attribute]
      rw [take_pad_toBE 4, ofBE_toBE_of_lt hvalue]
  | boolean value =>
      have hvalue : value.toNat < 256 ^ 8 := lt_of_le_of_lt value.toNat_le (by norm_num)
      refine ⟨⟨8, demandOf_eight rfl⟩, ?_⟩
      have hfield : ofBE ((pad (toBE 8 value.toNat) ++ w).take 8) = value.toNat := by
        rw [take_pad_toBE 8, ofBE_toBE_of_lt hvalue]
      simp only [Value.type, Value.bytes, valueText, Value.attribute, hfield]
      cases value <;> simp
  | dateTime time =>
      refine ⟨⟨8, demandOf_eight rfl⟩, ?_⟩
      obtain ⟨timestr, htime⟩ := Option.isSome_iff_exists.mp hp
      simp only [Value.type, Value.bytes, valueText, Value.attribute]
      rw [take_pad_toBE 8, toSigned_int64, htime]
      rfl
  | textString text =>
      have hmax : ¬ (text.bytes.length + 1) % 2 ^ 32 ≤ text.bytes.length := by
        rw [Nat.mod_eq_of_lt hp]
        omega
      refine ⟨⟨text.bytes.length, if_neg hmax⟩, ?_⟩
      simp only [Value.type, Value.bytes, valueText, Value.attribute]
      rw [take_pad, cstr_of_nul_free]
  | byteString bytes =>
      refine ⟨⟨bytes.length, rfl⟩, ?_⟩
      simp only [Value.type, Value.bytes, valueText, Value.attribute]
      rw [take_pad]

section Branches

variable (env : Env) {v : Value} {reader : KmipReader} {w : List UInt8} (hv : reader.Valid)
  (hrest : reader.rest = pad v.bytes ++ w) (hl : v.bytes.length < 2 ^ 32) (tag : ℕ) (out : Out)

include hv hrest hl

/-- A printable value is printed and consumed with its padding. -/
lemma dumpValue_of_printable (hp : v.Printable env) :
    ∃ out', dumpValue env tag v.type v.bytes.length reader out =
        .next out' (reader.advance (pad v.bytes).length) ∧
      out'.str = out.str ++ v.attribute env tag := by
  obtain ⟨⟨size, hd⟩, htext⟩ := Value.valueText_eq hp hl tag w
  have hn : (pad v.bytes).length ≤ reader.rest.length := by
    rw [hrest, List.length_append]
    exact Nat.le_add_right _ _
  rw [dumpValue_of_fits hv env tag out hl hd hn, hrest, htext]
  exact ⟨_, rfl, rfl⟩

/-- A value of one of the two skipped types is announced, and its element left open. -/
lemma dumpValue_of_todo (ht : v.Todo) :
    dumpValue env tag v.type v.bytes.length reader out =
      .next (out.append (v.attribute env tag))
        (reader.advance ((pad v.bytes).length % 2 ^ 32)) := by
  have hd : demandOf v.type v.bytes.length = .skip := by
    cases v with
    | bigInteger | interval => rfl
    | _ => exact ht.elim
  have hattr : v.attribute env tag = ascii " value=\"(TODO)\"" := by
    cases v with
    | bigInteger | interval => rfl
    | _ => exact ht.elim
  have hn : computePaddedLength v.bytes.length % 2 ^ 32 ≤ reader.rest.length := by
    apply le_trans (Nat.mod_le _ _)
    rw [← length_pad hl, hrest, List.length_append]
    exact Nat.le_add_right _ _
  rw [dumpValue_of_skip env tag out hd, hattr, kmipReaderNext_eq hv, if_pos hn, length_pad hl]

/-- Any other value ends the process, before anything of it is printed. -/
lemma dumpValue_of_unprintable (hp : ¬ v.Printable env) (ht : ¬ v.Todo) :
    ∃ out' reader', dumpValue env tag v.type v.bytes.length reader out = .fault out' reader' ∧
      out'.str = out.str := by
  cases v with
  | bigInteger | interval => exact absurd trivial ht
  | textString text =>
      have hlen : text.bytes.length + 1 = 2 ^ 32 := by
        simp only [Value.Printable, Value.bytes] at hp hl
        omega
      refine ⟨out, reader, ?_, rfl⟩
      have hmax : (text.bytes.length + 1) % 2 ^ 32 ≤ text.bytes.length := by
        rw [hlen, Nat.mod_self]
        exact Nat.zero_le _
      exact if_pos hmax
  | dateTime time =>
      have htime : env.strftime time.toInt = none := by simpa [Value.Printable] using hp
      have hn : 8 ≤ reader.rest.length := by
        rw [hrest, List.length_append, length_pad hl, Value.bytes, length_toBE,
          computePaddedLength_eq (by norm_num)]
        exact Nat.le_add_right 8 _
      have hfits := dumpValue_of_fits hv env tag out hl (show demandOf (Value.dateTime time).type
        (Value.dateTime time).bytes.length = .bytes 8 8 from rfl) hn
      simp only [Value.type, Value.bytes, valueText, hrest, take_pad_toBE 8, toSigned_int64,
        htime, Option.map_none] at hfits ⊢
      rw [hfits]
      exact ⟨_, _, rfl, rfl⟩
  | _ => exact absurd trivial hp

end Branches

/-! ## Reading a forest back -/

lemma length_encode_value (tag : UInt16) (v : Value) :
    (Item.value tag v).encode.length = 8 + (pad v.bytes).length := by
  simp [Item.encode]

lemma length_encode_struct (tag : UInt16) (children : List Item) :
    (Item.struct tag children).encode.length = 8 + (encodeAll children).length := by
  simp [Item.encode]

lemma encodeAll_append (items more : List Item) :
    encodeAll (items ++ more) = encodeAll items ++ encodeAll more := by
  induction items with
  | nil => rfl
  | cons item items ih => rw [List.cons_append, encodeAll, encodeAll, ih, List.append_assoc]

/-- Every encoding is a multiple of eight bytes, so a Structure needs no padding. -/
lemma dvd_length_encodeAll : ∀ forest : List Item, 8 ∣ (encodeAll forest).length
  | [] => by simp [encodeAll]
  | .value tag v :: items => by
      have hpad : 8 ∣ (pad v.bytes).length := by
        simp only [pad, List.length_append, List.length_replicate]
        omega
      rw [encodeAll, List.length_append, length_encode_value]
      exact Nat.dvd_add (Nat.dvd_add (Nat.dvd_refl 8) hpad) (dvd_length_encodeAll items)
  | .struct tag children :: items => by
      rw [encodeAll, List.length_append, length_encode_struct]
      exact Nat.dvd_add (Nat.dvd_add (Nat.dvd_refl 8) (dvd_length_encodeAll children))
        (dvd_length_encodeAll items)

lemma computePaddedLength_encodeAll {children : List Item}
    (h : (encodeAll children).length < 2 ^ 32) :
    computePaddedLength (encodeAll children).length = (encodeAll children).length := by
  have hdvd := dvd_length_encodeAll children
  rw [computePaddedLength_eq h]
  omega

section Front

variable {reader : KmipReader} (hv : reader.Valid) {tag : UInt16} {items : List Item}

include hv

/-- **A value at the front**: its header is found, and its padded bytes come next. -/
lemma front_value {v : Value} (hrest : reader.rest = encodeAll (.value tag v :: items))
    (hl : v.bytes.length < 2 ^ 32) :
    headOf reader.rest = .item (tagOf tag) v.type v.bytes.length ∧
      (reader.advance 8).Valid ∧ (reader.advance 8).rest = pad v.bytes ++ encodeAll items := by
  have hfront : reader.rest =
      itemHeader tag v.type v.bytes.length ++ (pad v.bytes ++ encodeAll items) := by
    rw [hrest, encodeAll, Item.encode, List.append_assoc]
  have h8 : 8 ≤ reader.rest.length := by
    rw [hfront, List.length_append, length_itemHeader]
    exact Nat.le_add_right _ _
  refine ⟨?_, hv.advance h8, ?_⟩
  · rw [hfront]
    exact headOf_itemHeader tag _ v.ofU8_toU8 hl
  · rw [hv.rest_advance h8, hfront, List.drop_left' (length_itemHeader ..)]

/-- **A Structure at the front**: its header is found, the subreader is exactly its children,
and `kmip_reader_next` goes exactly behind them. -/
lemma front_struct {children : List Item}
    (hrest : reader.rest = encodeAll (.struct tag children :: items))
    (hl : (encodeAll children).length < 2 ^ 32) (subreader : KmipReader) :
    headOf reader.rest = .item (tagOf tag) .struct (encodeAll children).length ∧
      (callee (reader.advance 8) subreader (encodeAll children).length).rest =
        encodeAll children ∧
      (kmipReaderNext (reader.advance 8) (encodeAll children).length).reader =
        reader.advance (8 + (encodeAll children).length) ∧
      (reader.advance (8 + (encodeAll children).length)).rest = encodeAll items := by
  have hfront : reader.rest = itemHeader tag .struct (encodeAll children).length ++
      (encodeAll children ++ encodeAll items) := by
    rw [hrest, encodeAll, Item.encode, List.append_assoc]
  have h8 : 8 ≤ reader.rest.length := by
    rw [hfront, List.length_append, length_itemHeader]
    exact Nat.le_add_right _ _
  have hv8 := hv.advance h8
  have hrest8 : (reader.advance 8).rest = encodeAll children ++ encodeAll items := by
    rw [hv.rest_advance h8, hfront, List.drop_left' (length_itemHeader ..)]
  have hn : computePaddedLength (encodeAll children).length ≤ (reader.advance 8).rest.length := by
    rw [computePaddedLength_encodeAll hl, hrest8, List.length_append]
    exact Nat.le_add_right _ _
  have hnext : (kmipReaderNext (reader.advance 8) (encodeAll children).length).reader =
      (reader.advance 8).advance (encodeAll children).length := by
    rw [kmipReaderNext_eq hv8, computePaddedLength_encodeAll hl, Nat.mod_eq_of_lt hl]
    rw [computePaddedLength_encodeAll hl] at hn
    rw [if_pos hn]
  rw [KmipReader.advance_advance] at hnext
  refine ⟨?_, ?_, hnext, ?_⟩
  · rw [hfront]
    exact headOf_itemHeader tag _ rfl hl
  · rw [callee_eq hv8 subreader hl, if_pos hn, rest_inPlace hv8 hn, hrest8,
      computePaddedLength_encodeAll hl, List.take_left]
  · rw [← KmipReader.advance_advance, hv8.rest_advance (by
      rw [hrest8, List.length_append]
      exact Nat.le_add_right _ _), hrest8, List.drop_left]

end Front

/-! ## Runs over a forest

What a run over the encoding of a forest does first is decided by the first item; the three
lemmas below take a run apart accordingly. -/

section Inversion

variable {env : Env} {out : Out} {reader subreader : KmipReader} {level : ℕ} {r : Level}
  (h : DumpRun env out reader subreader level r) {tag : UInt16} {items : List Item}

include h

/-- The end of the forest is the end of the level. -/
lemma DumpRun.of_nil (hrest : reader.rest = encodeAll []) :
    r.exit = .eof ∧ r.out.str = out.str ∧ r.reader = reader := by
  have hhead : headOf reader.rest = .eof 0 := by rw [hrest]; rfl
  cases h with
  | eof hv hh =>
      rw [hhead] at hh
      cases hh
      exact ⟨rfl, rfl, hv.advance_zero⟩
  | cut hv hh | error hv hh | fault hv hh | value hv hh | structFault hv hh | struct hv hh =>
      rw [hhead] at hh
      cases hh

/-- A value is dumped by its branch, and the run goes on from there, or dies there. -/
lemma DumpRun.of_value {v : Value} (hrest : reader.rest = encodeAll (.value tag v :: items))
    (hl : v.bytes.length < 2 ^ 32) :
    (reader.advance 8).Valid ∧ (reader.advance 8).rest = pad v.bytes ++ encodeAll items ∧
      match dumpValue env (tagOf tag) v.type v.bytes.length (reader.advance 8)
        (out.header reader level (tagOf tag) v.type) with
      | .next out' after =>
          DumpRun env ((out'.append (ascii "\n")).note (.turn reader after)) after subreader level r
      | .fault out' reader' => r = ⟨.fault, out', reader'⟩
      | .error _ _ => True := by
  have hs := v.type_ne_struct
  have hhead (hv : reader.Valid) := front_value hv hrest hl
  cases h with
  | eof hv hh | cut hv hh =>
      rw [(hhead hv).1] at hh
      cases hh
  | structFault hv hh | struct hv hh =>
      rw [(hhead hv).1, Head.item.injEq] at hh
      exact absurd hh.2.1 hs
  | error hv hh _ hd =>
      obtain ⟨hfront, hv8, hrest8⟩ := hhead hv
      rw [hfront] at hh
      cases hh
      refine ⟨hv8, hrest8, ?_⟩
      rw [hd]
      trivial
  | fault hv hh _ hd =>
      obtain ⟨hfront, hv8, hrest8⟩ := hhead hv
      rw [hfront] at hh
      cases hh
      refine ⟨hv8, hrest8, ?_⟩
      rw [hd]
  | value hv hh _ hd hrun =>
      obtain ⟨hfront, hv8, hrest8⟩ := hhead hv
      rw [hfront] at hh
      cases hh
      refine ⟨hv8, hrest8, ?_⟩
      rw [hd]
      exact hrun

/-- A Structure is a run over its children and then, unless the process died there, a run over
the items behind it. -/
lemma DumpRun.of_struct {children : List Item}
    (hrest : reader.rest = encodeAll (.struct tag children :: items))
    (hl : (encodeAll children).length < 2 ^ 32) :
    (∃ body callee sub, DumpRun env body callee KmipReader.unset ((level + 1) % 2 ^ 32) sub ∧
      body.str = out.str ++ prefixLevel level ++ openTag (tagOf tag) ++ typeAttribute .struct ++
        ascii ">\n" ∧
      callee.rest = encodeAll children ∧
      (sub.exit = .fault → r.exit = .fault ∧ r.out = sub.out) ∧
      (sub.exit ≠ .fault → ∃ out', DumpRun env out'
          (reader.advance (8 + (encodeAll children).length)) sub.reader level r ∧
        out'.str = sub.out.str ++ prefixLevel level ++ closeTag (tagOf tag))) ∧
      (reader.advance (8 + (encodeAll children).length)).rest = encodeAll items := by
  have hhead (hv : reader.Valid) := front_struct hv hrest hl subreader
  cases h with
  | eof hv hh | cut hv hh =>
      rw [(hhead hv).1] at hh
      cases hh
  | error hv hh hs | fault hv hh hs | value hv hh hs =>
      rw [(hhead hv).1, Head.item.injEq] at hh
      exact absurd hh.2.1.symm hs
  | structFault hv hh hsub hf =>
      obtain ⟨hfront, hcallee, -, hitems⟩ := hhead hv
      rw [hfront] at hh
      cases hh
      refine ⟨⟨_, _, _, hsub, rfl, hcallee, fun _ => ⟨rfl, rfl⟩, fun hne => ?_⟩, hitems⟩
      exact absurd hf hne
  | struct hv hh hsub hne hrun =>
      obtain ⟨hfront, hcallee, hnext, hitems⟩ := hhead hv
      rw [hfront] at hh
      cases hh
      rw [hnext] at hrun
      exact ⟨⟨_, _, _, hsub, rfl, hcallee, fun hf => absurd hf hne, fun _ => ⟨_, hrun, rfl⟩⟩,
        hitems⟩

end Inversion

/-- The bytes of a value at the front are among the unread bytes. -/
lemma length_front_value {tag : UInt16} {v : Value} {items : List Item} {w : List UInt8}
    (h : w = encodeAll (.value tag v :: items)) :
    w.length = 8 + (pad v.bytes).length + (encodeAll items).length := by
  rw [h, encodeAll, List.length_append, length_encode_value]

lemma length_front_struct {tag : UInt16} {children items : List Item} {w : List UInt8}
    (h : w = encodeAll (.struct tag children :: items)) :
    w.length = 8 + (encodeAll children).length + (encodeAll items).length := by
  rw [h, encodeAll, List.length_append, length_encode_struct]

lemma length_le_pad (bytes : List UInt8) : bytes.length ≤ (pad bytes).length := by
  rw [pad, List.length_append]
  exact Nat.le_add_right _ _

/-- Behind the padded bytes of a value come the other items. -/
lemma rest_behind_value {reader : KmipReader} {v : Value} {items : List Item} (hv : reader.Valid)
    (hrest : reader.rest = pad v.bytes ++ encodeAll items) :
    (reader.advance (pad v.bytes).length).rest = encodeAll items := by
  have hle : (pad v.bytes).length ≤ reader.rest.length := by
    rw [hrest, List.length_append]
    exact Nat.le_add_right _ _
  rw [hv.rest_advance hle, hrest, List.drop_left]

/-- A value of moderate size, of any of the nine types, is announced as its rendering says and
consumed. -/
lemma dumpValue_of_representable {env : Env} {v : Value} {reader : KmipReader} {w : List UInt8}
    (hv : reader.Valid) (hrest : reader.rest = pad v.bytes ++ w)
    (hl : (pad v.bytes).length + 1 < 2 ^ 32) (hrep : v.Representable env) (tag : ℕ) (out : Out) :
    ∃ out', dumpValue env tag v.type v.bytes.length reader out =
        .next out' (reader.advance (pad v.bytes).length) ∧
      out'.str = out.str ++ v.attribute env tag := by
  have hle := length_le_pad v.bytes
  by_cases ht : v.Todo
  · have htodo := dumpValue_of_todo env hv hrest (by omega) tag out ht
    rw [Nat.mod_eq_of_lt (by omega)] at htodo
    exact ⟨_, htodo, rfl⟩
  · apply dumpValue_of_printable env hv hrest (by omega) tag out
    cases v with
    | bigInteger | interval => exact ht trivial
    | textString text =>
        simp only [Value.bytes] at hle hl
        simp only [Value.Printable]
        omega
    | dateTime time => exact hrep
    | _ => trivial

/-- **The rendering of a run.**  A run over the encoding of a forest prints the forest and
consumes it.  The recursion is on the forest; what each item does to the run is taken from the
three inversion lemmas. -/
lemma DumpRun.renders {env : Env} : ∀ {forest : List Item} {out : Out}
    {reader subreader : KmipReader} {level : ℕ} {r : Level},
    DumpRun env out reader subreader level r → reader.rest = encodeAll forest →
    level + reader.rest.length < 2 ^ 32 → (∀ v ∈ valuesAll forest, v.Representable env) →
    r.exit = .eof ∧ r.out.str = out.str ++ renderAll env level forest ∧ r.reader.rest = []
  | [], out, reader, subreader, level, r, h, hrest, _, _ => by
      obtain ⟨hexit, hstr, hreader⟩ := h.of_nil hrest
      refine ⟨hexit, ?_, ?_⟩
      · rw [hstr, renderAll, List.append_nil]
      · rw [hreader, hrest, encodeAll]
  | .value tag v :: items, out, reader, subreader, level, r, h, hrest, hlen, hrep => by
      have hsize := length_front_value hrest
      have hle := length_le_pad v.bytes
      obtain ⟨hv8, hrest8, hnext⟩ := h.of_value hrest (by omega)
      obtain ⟨out', hvalue, hstr⟩ := dumpValue_of_representable hv8 hrest8 (by omega)
        (hrep v (by simp [valuesAll, Item.values])) (tagOf tag)
        (out.header reader level (tagOf tag) v.type)
      rw [hvalue] at hnext
      have hitems := rest_behind_value hv8 hrest8
      obtain ⟨hexit, hstr', hend⟩ := DumpRun.renders hnext hitems (by rw [hitems]; omega)
        (fun v hv => hrep v (by simp [valuesAll, hv]))
      refine ⟨hexit, ?_, hend⟩
      rw [hstr']
      simp [hstr, renderAll, Item.render, Out.header]
  | .struct tag children :: items, out, reader, subreader, level, r, h, hrest, hlen, hrep => by
      have hsize := length_front_struct hrest
      obtain ⟨⟨body, callee, sub, hsub, hbody, hcallee, -, hgo⟩, hitems⟩ :=
        h.of_struct hrest (by omega)
      have hlevel : (level + 1) % 2 ^ 32 = level + 1 := Nat.mod_eq_of_lt (by omega)
      rw [hlevel] at hsub
      obtain ⟨hexit, hstr, -⟩ := DumpRun.renders hsub hcallee (by rw [hcallee]; omega)
        (fun v hv => hrep v (by simp [valuesAll, Item.values, hv]))
      obtain ⟨out', hrun, hout'⟩ := hgo (by simp [hexit])
      obtain ⟨hexit', hstr', hend⟩ := DumpRun.renders hrun hitems (by rw [hitems]; omega)
        (fun v hv => hrep v (by simp [valuesAll, hv]))
      refine ⟨hexit', ?_, hend⟩
      rw [hstr', hout', hstr, hbody]
      simp [renderAll, Item.render]

/-- **The dump of a message.**  On the TTLV encoding of any forest of items of fewer than
`2 ^ 30` bytes, whose dates the C library can format, `kmip_dump_recursive_xml` returns at the
end of its input, has consumed all of it, and has appended exactly the rendering of the
forest. -/
theorem kmipDumpRecursiveXml_render (env : Env) (forest : List Item) (out : Out)
    (hsize : (encodeAll forest).length < 2 ^ 30)
    (hdates : ∀ v ∈ valuesAll forest, v.Representable env) :
    ∃ r, kmipDumpRecursiveXml env (dumpFuel (encodeAll forest).length) out
        (kmipReaderNew (encodeAll forest) (encodeAll forest).length) 0 = some r ∧
      r.exit = .eof ∧ r.reader.pos = r.reader.len ∧ r.reader.len = (encodeAll forest).length ∧
      r.out.str = out.str ++ renderAll env 0 forest := by
  have hv := kmipReaderNew_valid (show (encodeAll forest).length < 2 ^ 63 by omega)
  obtain ⟨r, hr, hrun⟩ := kmipDumpRecursiveXml_run env out hv
  have hrest := rest_kmipReaderNew (encodeAll forest)
  obtain ⟨hexit, hstr, hend⟩ := hrun.renders hrest (by rw [hrest]; omega) hdates
  obtain ⟨hvr, hlen⟩ := hrun.reader
  have hpos := hvr.pos_le
  have hzero := hvr.length_rest
  rw [hend, List.length_nil] at hzero
  exact ⟨r, hr, hexit, by omega, hlen, hstr⟩

/-- A C library at the one date it is asked for below. -/
def epochEnv : Env :=
  ⟨fun t => if t = 0 then some (ascii "1970-01-01T00:00:00+0000") else none, 0, 0, []⟩

/-- An Operation and a date inside a Structure, and an Integer behind it. -/
def sampleMessage : List Item :=
  [.struct 0x77 [.value 0x5c (.enumeration 1), .value 0x92 (.dateTime 0)],
    .value 0x6a (.integer (-1))]

/-- The dump of `sampleMessage`. -/
theorem sampleMessage_render :
    (∃ r, kmipDumpRecursiveXml epochEnv (dumpFuel (encodeAll sampleMessage).length) ⟨[], []⟩
        (kmipReaderNew (encodeAll sampleMessage) (encodeAll sampleMessage).length) 0 = some r ∧
      r.exit = .eof ∧ r.reader.pos = r.reader.len ∧
      r.reader.len = (encodeAll sampleMessage).length ∧
      r.out.str = [] ++ renderAll epochEnv 0 sampleMessage) ∧
    renderAll epochEnv 0 sampleMessage =
      ascii "<RequestHeader tag=\"0x420077\" type=\"Structure\">\n" ++
      ascii " <Operation tag=\"0x42005c\" type=\"Enumeration\" value=\"1\"/><!-- Create -->\n" ++
      ascii " <TimeStamp tag=\"0x420092\" type=\"DateTime\"" ++
      ascii " value=\"1970-01-01T00:00:00+0000\"/>\n" ++
      ascii "</RequestHeader>\n" ++
      ascii "<ProtocolVersionMajor tag=\"0x42006a\" type=\"Integer\" value=\"-1\"/>\n" := by
  constructor
  · refine kmipDumpRecursiveXml_render epochEnv sampleMessage ⟨[], []⟩ (by decide +kernel) ?_
    simp [sampleMessage, valuesAll, Item.values, Value.Representable, epochEnv]
  · decide +kernel

end CBootstrap.Kmip
