import CBootstrap.Kmip.Ttlv

/-!
# Looking things up in a message

Besides the dumper there are callers that want one value of a message.  They search the items of a
buffer for a tag and a type (`kmip_reader_find`), make a Structure found that way the new buffer
(`kmip_reader_find_and_recurse`), and read an Enumeration or a ByteString
(`kmip_reader_find_and_read_enum`, `kmip_reader_find_and_read_bytes`).

On the encoding of a forest that is navigation in the tree.  A search finds the first item with
this tag and type and stops behind its header (`Encodes.find`), so a path of tags leads into the
children of the first Structure on each level, or fails where there is none (`Encodes.recurse`),
and what is read there is the value (`Encodes.readEnum`, `Encodes.readBytes`).  `navigate_lookup`
puts these together.  The length of a Structure found is not compared with the buffer it is found
in; on encodings it always fits.
-/

namespace CBootstrap.Kmip

open Bytes

/-! ## The functions -/

/-- `kmip_reader_find_and_recurse`. -/
def kmipReaderFindAndRecurse (reader : KmipReader) (tag : ℕ) : Option (Read Unit) := do
  let find ← kmipReaderFind reader tag KmipItemType.struct.toU8 (0, 0)
  if !find.ok then pure ⟨false, (), find.reader⟩
  else pure ⟨true, (), ⟨find.reader.ptr.drop find.out.1, 0, find.out.2⟩⟩

/-- `kmip_reader_find_and_read_enum`. -/
def kmipReaderFindAndReadEnum (reader : KmipReader) (tag value : ℕ) : Option (Read ℕ) := do
  let find ← kmipReaderFind reader tag KmipItemType.enumeration.toU8 (0, 0)
  if !find.ok then pure ⟨false, value, find.reader⟩
  else
    let temp := kmipReaderInPlace find.reader find.out.1 find.out.2 ⟨[], 0, 0⟩
    if !temp.ok then pure ⟨false, value, find.reader⟩
    else
      let read := kmipReaderReadEnumeration temp.out value
      pure ⟨read.ok, read.out, find.reader⟩

/-- `kmip_reader_find_and_read_bytes`; the out-parameters are the pair of `out_ptr` and
`out_len`.  The length is stored before the bytes are read. -/
def kmipReaderFindAndReadBytes (reader : KmipReader) (tag : ℕ) (out : List UInt8 × ℕ) :
    Option (Read (List UInt8 × ℕ)) := do
  let find ← kmipReaderFind reader tag KmipItemType.byteString.toU8 (0, out.2)
  if !find.ok then pure ⟨false, (out.1, find.out.2), find.reader⟩
  else
    let temp := kmipReaderInPlace find.reader find.out.1 find.out.2 ⟨[], 0, 0⟩
    if !temp.ok then pure ⟨false, (out.1, find.out.2), find.reader⟩
    else
      let read := kmipReaderReadBytes temp.out out.1 find.out.2
      pure ⟨read.ok, (read.out, find.out.2), find.reader⟩

/-- A caller that recurses along a path of tags, and stops at the first that fails. -/
def navigate (reader : KmipReader) : List ℕ → Option (Read Unit)
  | [] => some ⟨true, (), reader⟩
  | tag :: tags => do
      let sub ← kmipReaderFindAndRecurse reader tag
      if !sub.ok then pure sub else navigate sub.reader tags

/-! ## Searching a forest -/

/-- The tag of an item, as a number. -/
def Item.tag : Item → ℕ
  | .value tag _ => tagOf tag
  | .struct tag _ => tagOf tag

/-- The type of an item. -/
def Item.type : Item → KmipItemType
  | .value _ v => v.type
  | .struct _ _ => .struct

/-- The length in an item's header. -/
def Item.length : Item → ℕ
  | .value _ v => v.bytes.length
  | .struct _ children => (encodeAll children).length

/-- What follows an item's header. -/
def Item.body : Item → List UInt8
  | .value _ v => pad v.bytes
  | .struct _ children => encodeAll children

/-- The item a search is for. -/
def Item.Matches (tag type : ℕ) (item : Item) : Prop := item.tag = tag ∧ item.type.toU8 = type

instance (tag type : ℕ) : DecidablePred (Item.Matches tag type) :=
  fun _ => inferInstanceAs (Decidable (_ ∧ _))

lemma Item.type_toU8 (item : Item) : item.type.toU8 % 256 = item.type.toU8 := by
  rcases item with ⟨tag, v⟩ | ⟨tag, children⟩
  · rcases v with _ | _ | _ | _ | _ | _ | _ | _ | _ <;> rfl
  · rfl

lemma Item.length_body {item : Item} (h : item.Fits) :
    item.length < 2 ^ 32 ∧ item.body.length = computePaddedLength item.length := by
  rcases item with ⟨tag, v⟩ | ⟨tag, children⟩
  · rw [Item.Fits] at h
    exact ⟨h, length_pad h⟩
  · rw [Item.Fits] at h
    exact ⟨h.1, (computePaddedLength_encodeAll h.1).symm⟩

/-- An item is its header and its body. -/
lemma Item.encode_eq (item : Item) :
    ∃ tag : UInt16, tagOf tag = item.tag ∧
      item.encode = itemHeader tag item.type item.length ++ item.body := by
  rcases item with ⟨tag, v⟩ | ⟨tag, children⟩
  · exact ⟨tag, rfl, by rw [Item.encode]; rfl⟩
  · exact ⟨tag, rfl, by rw [Item.encode]; rfl⟩

lemma Item.length_encode (item : Item) : item.encode.length = 8 + item.body.length := by
  obtain ⟨tag, -, hencode⟩ := item.encode_eq
  rw [hencode, List.length_append, length_itemHeader]

section Header

variable {reader : KmipReader} (hv : reader.Valid)

include hv

/-- A field at the front of the unread part. -/
lemma kmipReaderReadUint_field {width n : ℕ} {w : List UInt8} (hw : width ≤ 8)
    (hrest : reader.rest = toBE width n ++ w) (value : ℕ) :
    kmipReaderReadUint width reader value = ⟨true, n % 256 ^ width, reader.advance width⟩ ∧
      (reader.advance width).Valid ∧ (reader.advance width).rest = w := by
  have hlen : width ≤ reader.rest.length := by
    rw [hrest, List.length_append, length_toBE]
    exact Nat.le_add_right _ _
  refine ⟨?_, hv.advance hlen, ?_⟩
  · rw [kmipReaderReadUint_eq hv hw, if_pos hlen, hrest, List.take_left' (length_toBE _ _),
      ofBE_toBE]
  · rw [hv.rest_advance hlen, hrest, List.drop_left' (length_toBE _ _)]

/-- **Reading a header** gives the tag, the type and the length, and moves behind it. -/
lemma readHeader_eq {tag : UInt16} {type : KmipItemType} {len : ℕ} {w : List UInt8}
    (hrest : reader.rest = itemHeader tag type len ++ w) (hlen : len < 2 ^ 32) :
    kmipReaderReadTag reader 0 = ⟨true, tagOf tag, reader.advance 3⟩ ∧
      kmipReaderReadType (reader.advance 3) 0 = ⟨true, type.toU8 % 256, reader.advance 4⟩ ∧
      kmipReaderReadLength (reader.advance 4) 0 = ⟨true, len, reader.advance 8⟩ ∧
      (reader.advance 8).Valid ∧ (reader.advance 8).rest = w := by
  have htag : tag.toNat < 2 ^ 16 := tag.toNat_lt
  rw [itemHeader, toBE_tagOf] at hrest
  simp only [List.append_assoc] at hrest
  obtain ⟨hfirst, hv1, hrest1⟩ := kmipReaderReadUint_field hv (by norm_num) hrest 0
  obtain ⟨hsecond, hv3, hrest3⟩ := kmipReaderReadUint_field hv1 (by norm_num) hrest1 0
  rw [KmipReader.advance_advance] at hsecond hv3 hrest3
  obtain ⟨htype, hv4, hrest4⟩ := kmipReaderReadUint_field hv3 (by norm_num) hrest3 0
  rw [KmipReader.advance_advance] at htype hv4 hrest4
  obtain ⟨hlength, hv8, hrest8⟩ := kmipReaderReadUint_field hv4 (by norm_num) hrest4 0
  rw [KmipReader.advance_advance, Nat.mod_eq_of_lt (by omega)] at hlength
  rw [KmipReader.advance_advance] at hv8 hrest8
  rw [Nat.mod_eq_of_lt (by omega)] at hsecond
  refine ⟨?_, htype, hlength, hv8, hrest8⟩
  simp [kmipReaderReadTag, kmipReaderReadU8, kmipReaderReadU16, hfirst, hsecond, tagOf]

variable {item : Item} {w : List UInt8} (hrest : reader.rest = item.encode ++ w)
  (hfits : item.Fits) (tag type : ℕ) (found : ℕ × ℕ) (fuel : ℕ)

include hrest hfits

/-- The reader behind the header of the next item, and behind the item. -/
lemma rest_behind_item :
    (reader.advance 8).Valid ∧ (reader.advance 8).rest = item.body ++ w ∧
      (reader.advance (8 + item.body.length)).Valid ∧
      (reader.advance (8 + item.body.length)).rest = w := by
  obtain ⟨hlen, -⟩ := item.length_body hfits
  obtain ⟨itag, -, hencode⟩ := item.encode_eq
  rw [hencode, List.append_assoc] at hrest
  obtain ⟨-, -, -, hv8, hrest8⟩ := readHeader_eq hv hrest hlen
  have hbody : item.body.length ≤ (reader.advance 8).rest.length := by
    rw [hrest8, List.length_append]
    exact Nat.le_add_right _ _
  refine ⟨hv8, hrest8, ?_, ?_⟩
  · rw [← KmipReader.advance_advance]
    exact hv8.advance hbody
  · rw [← KmipReader.advance_advance, hv8.rest_advance hbody, hrest8, List.drop_left]

/-- **One turn of a search**: the item is found, or skipped. -/
lemma kmipReaderFindLoop_item :
    kmipReaderFindLoop tag type found (fuel + 1) reader =
      if item.Matches tag type then
        some ⟨true, (reader.pos + 8, item.length), reader.advance 8⟩
      else kmipReaderFindLoop tag type found fuel (reader.advance (8 + item.body.length)) := by
  obtain ⟨hlen, hbody⟩ := item.length_body hfits
  obtain ⟨hv8, hrest8, hv', -⟩ := rest_behind_item hv hrest hfits
  obtain ⟨itag, htag, hencode⟩ := item.encode_eq
  have hdata : kmipReaderHasData reader = true := by
    have hlength := hv.length_rest
    rw [hrest, hencode, List.length_append, List.length_append, length_itemHeader] at hlength
    exact decide_eq_true (by omega)
  have hpos : (reader.advance 8).pos = reader.pos + 8 := by
    apply hv.advance_pos
    rw [hrest, hencode, List.length_append, List.length_append, length_itemHeader]
    omega
  have hskip : kmipReaderFindSkip (reader.advance 8) item.length =
      ⟨true, (), reader.advance (8 + item.body.length)⟩ := by
    have hfit : computePaddedLength item.length ≤ (reader.advance 8).rest.length := by
      rw [hrest8, List.length_append, hbody]
      exact Nat.le_add_right _ _
    have hcheck := hv8.checkRemaining_eq (computePaddedLength_le hlen)
    rw [decide_eq_true hfit] at hcheck
    rw [hbody, ← KmipReader.advance_advance]
    exact if_pos hcheck
  rw [hencode, List.append_assoc] at hrest
  obtain ⟨hread, htype, hlength, -, -⟩ := readHeader_eq hv hrest hlen
  rw [htag] at hread
  rw [item.type_toU8] at htype
  rw [kmipReaderFindLoop]
  simp only [hdata, hread, htype, hlength, hskip, hpos, Bool.not_true, Bool.false_eq_true, if_false]
  rfl

end Header

/-- **Searching a forest** finds the first item that matches, and ends behind its header. -/
lemma kmipReaderFindLoop_encodeAll {forest : List Item} (hfits : FitsAll forest) (tag type : ℕ)
    (found : ℕ × ℕ) {fuel : ℕ} {reader : KmipReader} (hv : reader.Valid)
    (hrest : reader.rest = encodeAll forest) (hfuel : reader.rest.length < fuel) :
    (forest.find? (Item.Matches tag type) = none →
        ∃ reader', kmipReaderFindLoop tag type found fuel reader =
          some ⟨false, found, reader'⟩) ∧
      ∀ item, forest.find? (Item.Matches tag type) = some item →
        ∃ before after, forest = before ++ item :: after ∧
          kmipReaderFindLoop tag type found fuel reader =
            some ⟨true, (reader.pos + (encodeAll before).length + 8, item.length),
              reader.advance ((encodeAll before).length + 8)⟩ := by
  induction forest generalizing fuel reader with
  | nil =>
      obtain ⟨fuel, rfl⟩ : ∃ n, fuel = n + 1 := ⟨fuel - 1, by omega⟩
      refine ⟨fun _ => ⟨reader, ?_⟩, fun item hitem => by simp at hitem⟩
      have hlength := hv.length_rest
      rw [hrest, encodeAll, List.length_nil] at hlength
      have hdata : kmipReaderHasData reader = false := decide_eq_false (by omega)
      rw [kmipReaderFindLoop, hdata]
      rfl
  | cons first items ih =>
      obtain ⟨fuel, rfl⟩ : ∃ n, fuel = n + 1 := ⟨fuel - 1, by omega⟩
      rw [encodeAll] at hrest
      rw [FitsAll] at hfits
      have hturn := kmipReaderFindLoop_item hv hrest hfits.1 tag type found fuel
      obtain ⟨-, -, hv', hrest'⟩ := rest_behind_item hv hrest hfits.1
      have hsize := first.length_encode
      rw [hturn]
      by_cases hmatch : first.Matches tag type
      · rw [if_pos hmatch, List.find?_cons_of_pos (by simpa using hmatch)]
        refine ⟨fun hnone => by simp at hnone, ?_⟩
        intro item hitem
        obtain rfl := Option.some.inj hitem
        exact ⟨[], items, rfl, by simp [encodeAll]⟩
      · rw [if_neg hmatch, List.find?_cons_of_neg (by simpa using hmatch)]
        have hlen : (reader.advance (8 + first.body.length)).rest.length < fuel := by
          rw [hrest, List.length_append, hsize] at hfuel
          rw [hrest']
          omega
        obtain ⟨hnone, hsome⟩ := ih hfits.2 hv' hrest' hlen
        refine ⟨hnone, fun item hitem => ?_⟩
        obtain ⟨before, after, hforest, hloop⟩ := hsome item hitem
        refine ⟨first :: before, after, by rw [hforest]; rfl, ?_⟩
        have hpos : (reader.advance (8 + first.body.length)).pos =
            reader.pos + (8 + first.body.length) := by
          apply hv.advance_pos
          rw [hrest, List.length_append, hsize]
          exact Nat.le_add_right _ _
        rw [hloop, hpos, KmipReader.advance_advance, encodeAll, List.length_append, hsize]
        simp only [Nat.add_assoc]

/-! ## Navigating -/

/-- The children of a Structure. -/
def Item.asStruct : Item → Option (List Item)
  | .struct _ children => some children
  | _ => none

/-- The value of an Enumeration. -/
def Item.asEnum : Item → Option UInt32
  | .value _ (.enumeration v) => some v
  | _ => none

/-- The bytes of a ByteString. -/
def Item.asBytes : Item → Option (List UInt8)
  | .value _ (.byteString bytes) => some bytes
  | _ => none

/-- The children of the first Structure with a tag. -/
def childrenOf (tag : ℕ) (forest : List Item) : Option (List Item) :=
  (forest.find? (Item.Matches tag KmipItemType.struct.toU8)).bind Item.asStruct

/-- The value of the first Enumeration with a tag. -/
def enumOf (tag : ℕ) (forest : List Item) : Option UInt32 :=
  (forest.find? (Item.Matches tag KmipItemType.enumeration.toU8)).bind Item.asEnum

/-- The bytes of the first ByteString with a tag. -/
def bytesOf (tag : ℕ) (forest : List Item) : Option (List UInt8) :=
  (forest.find? (Item.Matches tag KmipItemType.byteString.toU8)).bind Item.asBytes

/-- What a search found matches. -/
lemma matches_of_find? {tag type : ℕ} {forest : List Item} {item : Item}
    (h : forest.find? (Item.Matches tag type) = some item) : item.Matches tag type := by
  have hfound := List.find?_some h
  exact of_decide_eq_true hfound

lemma Item.eq_struct {item : Item} (h : item.type.toU8 = KmipItemType.struct.toU8) :
    ∃ tag children, item = .struct tag children := by
  rcases item with ⟨tag, v⟩ | ⟨tag, children⟩
  · rcases v with _ | _ | _ | _ | _ | _ | _ | _ | _ <;>
      exact absurd h (by simp [Item.type, Value.type, KmipItemType.toU8])
  · exact ⟨tag, children, rfl⟩

lemma Item.eq_enumeration {item : Item} (h : item.type.toU8 = KmipItemType.enumeration.toU8) :
    ∃ tag value, item = .value tag (.enumeration value) := by
  rcases item with ⟨tag, v⟩ | ⟨tag, children⟩
  · rcases v with _ | _ | _ | value | _ | _ | _ | _ | _
    case enumeration => exact ⟨tag, value, rfl⟩
    all_goals exact absurd h (by simp [Item.type, Value.type, KmipItemType.toU8])
  · exact absurd h (by simp [Item.type, KmipItemType.toU8])

lemma Item.eq_byteString {item : Item} (h : item.type.toU8 = KmipItemType.byteString.toU8) :
    ∃ tag bytes, item = .value tag (.byteString bytes) := by
  rcases item with ⟨tag, v⟩ | ⟨tag, children⟩
  · rcases v with _ | _ | _ | _ | _ | _ | bytes | _ | _
    case byteString => exact ⟨tag, bytes, rfl⟩
    all_goals exact absurd h (by simp [Item.type, Value.type, KmipItemType.toU8])
  · exact absurd h (by simp [Item.type, KmipItemType.toU8])

/-- The items a path of tags leads to. -/
def descend : List ℕ → List Item → Option (List Item)
  | [], forest => some forest
  | tag :: tags, forest => (childrenOf tag forest).bind (descend tags)

/-- The buffer of a reader is the encoding of a forest; where the reader stands does not matter to
a search. -/
structure Encodes (reader : KmipReader) (forest : List Item) : Prop where
  len_le : reader.len ≤ reader.ptr.length
  len_lt : reader.len < 2 ^ 63
  take_eq : reader.ptr.take reader.len = encodeAll forest
  fits : FitsAll forest

lemma kmipReaderNew_encodes {forest : List Item} (hfits : FitsAll forest)
    (hlt : (encodeAll forest).length < 2 ^ 63) :
    Encodes (kmipReaderNew (encodeAll forest) (encodeAll forest).length) forest :=
  ⟨le_refl _, hlt, List.take_length, hfits⟩

lemma FitsAll.of_mem {forest : List Item} (h : FitsAll forest) {item : Item}
    (hmem : item ∈ forest) : item.Fits := by
  induction forest with
  | nil => exact absurd hmem List.not_mem_nil
  | cons first items ih =>
      rw [FitsAll] at h
      rcases List.mem_cons.mp hmem with rfl | hmem
      · exact h.1
      · exact ih h.2 hmem

section Encodes

variable {reader : KmipReader} {forest : List Item} (h : Encodes reader forest)

include h

/-- **A search in a buffer**: it fails, or it stands behind the header of the item, and the body is
next. -/
lemma Encodes.find (tag type : ℕ) (found : ℕ × ℕ) :
    (forest.find? (Item.Matches tag type) = none →
        ∃ reader', kmipReaderFind reader tag type found = some ⟨false, found, reader'⟩) ∧
      ∀ item, forest.find? (Item.Matches tag type) = some item →
        ∃ (reader' : KmipReader) (w : List UInt8), reader'.Valid ∧ reader'.rest = item.body ++ w ∧
          item.Fits ∧ reader'.ptr = reader.ptr ∧
          kmipReaderFind reader tag type found =
            some ⟨true, (reader'.pos, item.length), reader'⟩ := by
  have hv : KmipReader.Valid { reader with pos := 0 } := ⟨Nat.zero_le _, h.len_le, h.len_lt⟩
  have hrest : KmipReader.rest { reader with pos := 0 } = encodeAll forest := by
    rw [KmipReader.rest, ← h.take_eq]
    rfl
  have hfuel : (KmipReader.rest { reader with pos := 0 }).length < reader.len + 1 := by
    rw [hv.length_rest]
    exact Nat.lt_succ_self _
  obtain ⟨hnone, hsome⟩ := kmipReaderFindLoop_encodeAll h.fits tag type found hv hrest hfuel
  refine ⟨hnone, fun item hitem => ?_⟩
  obtain ⟨before, after, hforest, hloop⟩ := hsome item hitem
  have hfits := h.fits.of_mem (List.mem_of_find?_eq_some hitem)
  have hwhole : KmipReader.rest { reader with pos := 0 } =
      encodeAll before ++ (item.encode ++ encodeAll after) := by
    rw [hrest, hforest, encodeAll_append, encodeAll]
  have hle : (encodeAll before).length ≤ (KmipReader.rest { reader with pos := 0 }).length := by
    rw [hwhole, List.length_append]
    exact Nat.le_add_right _ _
  have hv' := hv.advance hle
  have hrest' := hv.rest_advance hle
  rw [hwhole, List.drop_left] at hrest'
  obtain ⟨hv8, hrest8, -, -⟩ := rest_behind_item hv' hrest' hfits
  rw [KmipReader.advance_advance] at hv8 hrest8
  refine ⟨_, encodeAll after, hv8, hrest8, hfits, rfl, ?_⟩
  have hpos : (KmipReader.advance { reader with pos := 0 } ((encodeAll before).length + 8)).pos =
      0 + ((encodeAll before).length + 8) := by
    apply hv.advance_pos
    rw [hwhole, List.length_append, List.length_append, item.length_encode]
    omega
  rw [hpos, kmipReaderFind, hloop, Nat.add_assoc]

/-- **Recursing** into a Structure. -/
lemma Encodes.recurse (tag : ℕ) :
    (childrenOf tag forest = none → ∃ reader',
        kmipReaderFindAndRecurse reader tag = some ⟨false, (), reader'⟩) ∧
      ∀ children, childrenOf tag forest = some children → ∃ reader',
        kmipReaderFindAndRecurse reader tag = some ⟨true, (), reader'⟩ ∧
          Encodes reader' children := by
  obtain ⟨hnone, hsome⟩ := h.find tag KmipItemType.struct.toU8 (0, 0)
  rcases hfind : forest.find? (Item.Matches tag KmipItemType.struct.toU8) with _ | item
  · rw [childrenOf, hfind]
    refine ⟨fun _ => ?_, fun children hsub => by simp at hsub⟩
    obtain ⟨reader', hreader'⟩ := hnone hfind
    exact ⟨reader', by rw [kmipReaderFindAndRecurse, hreader']; rfl⟩
  · obtain ⟨itag, children, rfl⟩ := Item.eq_struct (matches_of_find? hfind).2
    have hchildren : childrenOf tag forest = some children := by
      rw [childrenOf, hfind]
      rfl
    rw [hchildren]
    refine ⟨fun hsub => by simp at hsub, fun children' hsub => ?_⟩
    obtain rfl := Option.some.inj hsub
    obtain ⟨reader', w, hv, hrest, hfits, hptr, hreader'⟩ := hsome _ hfind
    rw [Item.Fits] at hfits
    have hbody : (encodeAll children).length ≤ reader'.rest.length := by
      rw [hrest, List.length_append]
      exact Nat.le_add_right _ _
    have htake := hv.take_drop_ptr hbody
    rw [hrest] at htake
    have hlength := hv.length_rest
    have hle := hv.len_le
    refine ⟨⟨reader'.ptr.drop reader'.pos, 0, (encodeAll children).length⟩, ?_, ?_, ?_, ?_, hfits.2⟩
    · rw [kmipReaderFindAndRecurse, hreader']
      rfl
    · rw [List.length_drop]
      show (encodeAll children).length ≤ _
      omega
    · exact lt_trans hfits.1 (by norm_num)
    · exact htake.trans List.take_left

/-- **Reading an Enumeration.** -/
lemma Encodes.readEnum (tag value : ℕ) :
    ∃ read, kmipReaderFindAndReadEnum reader tag value = some read ∧
      read.ok = (enumOf tag forest).isSome ∧
      read.out = ((enumOf tag forest).map UInt32.toNat).getD value := by
  obtain ⟨hnone, hsome⟩ := h.find tag KmipItemType.enumeration.toU8 (0, 0)
  rcases hfind : forest.find? (Item.Matches tag KmipItemType.enumeration.toU8) with _ | item
  · rw [enumOf, hfind]
    obtain ⟨reader', hreader'⟩ := hnone hfind
    exact ⟨⟨false, value, reader'⟩, by rw [kmipReaderFindAndReadEnum, hreader']; rfl, rfl, rfl⟩
  · obtain ⟨itag, v, rfl⟩ := Item.eq_enumeration (matches_of_find? hfind).2
    obtain ⟨reader', w, hv, hrest, hfits, hptr, hreader'⟩ := hsome _ hfind
    have hbody : 8 ≤ reader'.rest.length := by
      rw [hrest, List.length_append]
      exact Nat.le_add_right 8 _
    have hplace := kmipReaderInPlace_eq hv (show 4 < 2 ^ 32 by norm_num) ⟨[], 0, 0⟩
    rw [show computePaddedLength 4 = 8 from rfl, if_pos hbody] at hplace
    have hread := kmipReaderReadPadded_eq (inPlace_valid hv hbody) id value
    have hvalue : ofBE ((reader'.rest.take 8).take 4) = v.toNat := by
      rw [List.take_take, hrest]
      exact (congrArg ofBE (take_pad_toBE 4 v.toNat w)).trans (ofBE_toBE_of_lt v.toNat_lt)
    rw [rest_inPlace hv hbody, if_pos (by rw [List.length_take]; omega), hvalue] at hread
    have henum : enumOf tag forest = some v := by
      rw [enumOf, hfind]
      rfl
    rw [henum]
    refine ⟨⟨true, v.toNat, reader'⟩, ?_, rfl, rfl⟩
    rw [show Item.length (.value itag (.enumeration v)) = 4 from rfl] at hreader'
    simp only [kmipReaderFindAndReadEnum, hreader', Option.bind_eq_bind, Option.bind_some, hplace,
      kmipReaderReadEnumeration, hread]
    rfl

/-- **Reading a ByteString**: a pointer to its bytes, and their number. -/
lemma Encodes.readBytes (tag : ℕ) (out : List UInt8 × ℕ) :
    ∃ read, kmipReaderFindAndReadBytes reader tag out = some read ∧
      read.ok = (bytesOf tag forest).isSome ∧
      ∀ bytes, bytesOf tag forest = some bytes →
        read.out.2 = bytes.length ∧ read.out.1.take read.out.2 = bytes := by
  obtain ⟨hnone, hsome⟩ := h.find tag KmipItemType.byteString.toU8 (0, out.2)
  rcases hfind : forest.find? (Item.Matches tag KmipItemType.byteString.toU8) with _ | item
  · rw [bytesOf, hfind]
    obtain ⟨reader', hreader'⟩ := hnone hfind
    refine ⟨⟨false, out, reader'⟩, by rw [kmipReaderFindAndReadBytes, hreader']; rfl, rfl, ?_⟩
    intro bytes hbytes
    simp at hbytes
  · obtain ⟨itag, bytes, rfl⟩ := Item.eq_byteString (matches_of_find? hfind).2
    obtain ⟨reader', w, hv, hrest, hfits, hptr, hreader'⟩ := hsome _ hfind
    rw [Item.Fits] at hfits
    have hlen : bytes.length < 2 ^ 32 := hfits
    have hpad := length_pad hlen
    have hbody : computePaddedLength bytes.length ≤ reader'.rest.length := by
      rw [hrest, List.length_append, ← hpad]
      exact Nat.le_add_right _ _
    have hplace := kmipReaderInPlace_eq hv hlen ⟨[], 0, 0⟩
    rw [if_pos hbody] at hplace
    have hread := kmipReaderReadBytes_eq (inPlace_valid hv hbody) hlen out.1
    rw [rest_inPlace hv hbody, if_pos (by rw [List.length_take]; omega)] at hread
    have hbytes : bytesOf tag forest = some bytes := by
      rw [bytesOf, hfind]
      rfl
    have htake : (reader'.ptr.drop reader'.pos).take bytes.length = bytes := by
      rw [hv.take_drop_ptr (le_trans (le_computePaddedLength hlen) hbody), hrest]
      exact take_pad bytes w
    rw [hbytes]
    refine ⟨⟨true, (reader'.ptr.drop reader'.pos, bytes.length), reader'⟩, ?_, rfl, ?_⟩
    · rw [show Item.length (.value itag (.byteString bytes)) = bytes.length from rfl] at hreader'
      simp only [kmipReaderFindAndReadBytes, hreader', Option.bind_eq_bind, Option.bind_some,
        hplace, hread]
      rfl
    · intro bytes' heq
      obtain rfl := Option.some.inj heq
      exact ⟨rfl, htake⟩

end Encodes

/-- **A path of tags** leads where it leads in the tree. -/
lemma Encodes.navigate (path : List ℕ) {reader : KmipReader} {forest : List Item}
    (h : Encodes reader forest) :
    ∃ r, navigate reader path = some r ∧ r.ok = (descend path forest).isSome ∧
      ∀ items, descend path forest = some items → Encodes r.reader items := by
  induction path generalizing reader forest with
  | nil =>
      refine ⟨⟨true, (), reader⟩, rfl, rfl, fun items hitems => ?_⟩
      obtain rfl := Option.some.inj hitems
      exact h
  | cons tag path ih =>
      obtain ⟨hnone, hsome⟩ := h.recurse tag
      rw [descend, Kmip.navigate]
      rcases hchildren : childrenOf tag forest with _ | children
      · obtain ⟨reader', hreader'⟩ := hnone hchildren
        rw [hreader']
        exact ⟨⟨false, (), reader'⟩, rfl, rfl, fun items hitems => by simp at hitems⟩
      · obtain ⟨reader', hreader', hencodes⟩ := hsome children hchildren
        rw [hreader']
        exact ih hencodes

/-- **Looking things up.**  In the encoding of any forest, a path of tags leads into the Structures
it leads into in the tree and fails where it does there, and the Enumerations and ByteStrings
found behind it are the first with their tag. -/
theorem navigate_lookup {forest : List Item} (hfits : FitsAll forest)
    (hlt : (encodeAll forest).length < 2 ^ 63) (path : List ℕ) :
    ∃ r, navigate (kmipReaderNew (encodeAll forest) (encodeAll forest).length) path = some r ∧
      r.ok = (descend path forest).isSome ∧
      ∀ items, descend path forest = some items →
        r.reader.ptr.take r.reader.len = encodeAll items ∧
        (∀ tag value, ∃ read, kmipReaderFindAndReadEnum r.reader tag value = some read ∧
          read.ok = (enumOf tag items).isSome ∧
          read.out = ((enumOf tag items).map UInt32.toNat).getD value) ∧
        ∀ tag out, ∃ read, kmipReaderFindAndReadBytes r.reader tag out = some read ∧
          read.ok = (bytesOf tag items).isSome ∧
          ∀ bytes, bytesOf tag items = some bytes →
            read.out.2 = bytes.length ∧ read.out.1.take read.out.2 = bytes := by
  obtain ⟨r, hr, hok, hitems⟩ := (kmipReaderNew_encodes hfits hlt).navigate path
  refine ⟨r, hr, hok, fun items hdescend => ?_⟩
  have hencodes := hitems items hdescend
  exact ⟨hencodes.take_eq, hencodes.readEnum, hencodes.readBytes⟩

/-- The Operation in `sampleMessage`. -/
theorem navigate_lookup_operation :
    ∃ r, navigate (kmipReaderNew (encodeAll sampleMessage) (encodeAll sampleMessage).length)
        [0x420077] = some r ∧ r.ok = true ∧
      ∃ read, kmipReaderFindAndReadEnum r.reader 0x42005c 0 = some read ∧ read.ok = true ∧
        read.out = 1 := by
  have hfits : FitsAll sampleMessage := by
    simp [sampleMessage, FitsAll, Item.Fits, encodeAll, Item.encode, Value.bytes, pad]
  obtain ⟨r, hr, hok, hitems⟩ := navigate_lookup hfits (by decide +kernel) [0x420077]
  obtain ⟨-, henum, -⟩ := hitems _ rfl
  obtain ⟨read, hread, hread_ok, hout⟩ := henum 0x42005c 0
  exact ⟨r, hr, hok, read, hread, hread_ok, hout⟩

end CBootstrap.Kmip
