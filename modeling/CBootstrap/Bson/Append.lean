import CBootstrap.Bson.Internal
import CBootstrap.Bson.Document
import CBootstrap.Lib.Bits

/-!
# Building documents

The functions of `bson.c` that write: `bson_append_*`, and the pairs of calls that open and close
a document in another.  A document that is open in another has no bytes of its own.  Its `bson_t`
points into the buffer of the outermost one, which any of them may grow, and what the outer ones
have behind the inner one is written when it is closed.

A small document is in its `bson_t` (`inline`); it moves into a buffer when it outgrows it, or when
a document is opened in it.  Each grow asks for one byte more for each open document around, so
that closing them needs no room that is not there.

`Holds` is what all this keeps up: the bytes in the buffer are those of the documents that are open,
one inside the other.  `appendElement_holds`, `appendBsonBegin_holds` and `appendBsonEnd_holds` are
the three ways on.
-/

namespace CBootstrap.Bson

open Bytes

/-! ## The state -/

/-- `BSON_MAX_SIZE`. -/
def bsonMaxSize : ℕ := 2 ^ 31 - 1

/-- `BSON_INLINE_DATA_SIZE`. -/
def bsonInlineDataSize : ℕ := 120

/-- Subtraction of `size_t`. -/
def sub64 (a b : ℕ) : ℕ := (a + 2 ^ 64 - b) % 2 ^ 64

lemma sub64_eq {a b : ℕ} (h : b ≤ a) (ha : a < 2 ^ 64) : sub64 a b = a - b := by
  rw [sub64]
  omega

/-- A `bson_t` that is written to, with the flags `BSON_FLAG_CHILD` and `BSON_FLAG_IN_CHILD`. -/
structure BsonT where
  len : ℕ
  offset : ℕ
  depth : ℕ
  child : Bool
  inChild : Bool
  deriving DecidableEq, Repr

/-- The documents that are open in one buffer: the innermost, and those around it.  `inline` is the
flag `BSON_FLAG_INLINE` of the outermost, and `buf` then is its `data`. -/
structure Building where
  inline : Bool
  buf : List UInt8
  current : BsonT
  parents : List BsonT
  deriving DecidableEq, Repr

/-- Where `_bson_data` points to in the buffer. -/
def bsonData (b : Building) : ℕ := if b.inline then 0 else b.current.offset

/-- `bson_next_power_of_two`. -/
def bsonNextPowerOfTwo (v : ℕ) : ℕ :=
  (Bits.smear [1, 2, 4, 8, 16, 32] (sub64 v 1) + 1) % 2 ^ 64

/-- `_bson_round_up_alloc_size`. -/
def bsonRoundUpAllocSize (size : ℕ) : ℕ :=
  if size ≤ bsonMaxSize then min (bsonNextPowerOfTwo size) bsonMaxSize else size

section Functions

variable (junk : ℕ → UInt8)

/-- `bson_new`. -/
def bsonNew : Building :=
  { inline := true
    buf := [5, 0, 0, 0, 0] ++ (Block.malloc junk bsonInlineDataSize).drop 5
    current := ⟨5, 0, 0, false, false⟩
    parents := [] }

/-- `_bson_impl_inline_grow`, with its debug assertions. -/
def implInlineGrow (b : Building) (growSize : ℕ) : Option (Bool × Building) :=
  if b.current.len ≤ bsonMaxSize ∧ growSize ≤ bsonMaxSize then
    let req := b.current.len + growSize
    if req ≤ bsonInlineDataSize then some (true, b)
    else
      let req := bsonRoundUpAllocSize req
      if req ≤ bsonMaxSize then
        (Block.read b.buf 0 b.current.len).bind fun data =>
          (Block.write (Block.malloc junk req) 0 data).map fun buf =>
            (true, { b with
              inline := false, buf, current := { b.current with offset := 0, depth := 0 } })
      else some (false, b)
  else none

/-- `_bson_impl_alloc_grow`, with its debug assertions. -/
def implAllocGrow (b : Building) (growSize : ℕ) : Option (Bool × Building) :=
  if b.current.len + b.current.offset + b.current.depth ≤ bsonMaxSize ∧
      growSize ≤ bsonMaxSize then
    let req := b.current.offset + b.current.len + growSize + b.current.depth
    if req ≤ b.buf.length then some (true, b)
    else
      let req := bsonRoundUpAllocSize req
      if req ≤ bsonMaxSize then some (true, { b with buf := Block.realloc junk b.buf req })
      else some (false, b)
  else none

/-- `_bson_grow`, with its assertion. -/
def bsonGrow (b : Building) (growSize : ℕ) : Option (Bool × Building) :=
  if growSize ≤ bsonMaxSize then
    if b.inline then implInlineGrow junk b growSize else implAllocGrow junk b growSize
  else none

/-! ## The lists of arguments -/

/-- A text that is given with its length, or as far as its NUL. -/
inductive Text
  | counted (bytes : List UInt8)
  | terminated (text : CString)

/-- The bytes of a text. -/
def Text.bytes : Text → List UInt8
  | .counted bytes => bytes
  | .terminated text => text.bytes

/-- What is added to a list: bytes, or a text that is not to have a NUL in it. -/
inductive Arg
  | bytes (bytes : List UInt8)
  | string (text : Text)

/-- `BSON_APPEND_BYTES_ADD_ARGUMENT`: the list with the argument, or a failure.  `n_bytes` is the
length of all arguments, and `args` has room for eight of them. -/
def addArgument (args : List (List UInt8)) (bytes : List UInt8) :
    Option (Option (List (List UInt8))) :=
  if bytes.length > sub64 bsonMaxSize args.flatten.length then some none
  else if bytes.length > 0 then
    if args.length < 8 then some (some (args ++ [bytes])) else none
  else some (some args)

/-- `BSON_APPEND_BYTES_ADD_CHECKED_STRING`. -/
def addCheckedString (args : List (List UInt8)) : Text → Option (Option (List (List UInt8)))
  | .terminated text =>
      if text.bytes.length > 2 ^ 32 - 1 then some none else addArgument args text.bytes
  | .counted bytes =>
      if bytes.length > 2 ^ 32 - 1 then some none
      else if 0 ∈ bytes then some none
      else addArgument args bytes

/-- One argument after the other. -/
def addAll : List Arg → List (List UInt8) → Option (Option (List (List UInt8)))
  | [], args => some (some args)
  | arg :: rest, args =>
      let added :=
        match arg with
        | .bytes bytes => addArgument args bytes
        | .string text => addCheckedString args text
      added.bind fun
        | none => some none
        | some args => addAll rest args

/-- The loop of `BSON_APPEND_BYTES_APPLY_ARGUMENTS`, which copies the arguments to `o`. -/
def copyArguments : List (List UInt8) → List UInt8 → ℕ → Option (List UInt8)
  | [], buf, _ => some buf
  | arg :: rest, buf, o =>
      (Block.write buf o arg).bind fun buf => copyArguments rest buf (o + arg.length)

/-- What `BSON_APPEND_BYTES_APPLY_ARGUMENTS` does once there is room. -/
def writeArguments (b : Building) (args : List (List UInt8)) : Option Building :=
  let nBytes := args.flatten.length
  let data := bsonData b + sub32 b.current.len 1
  let len := add32 b.current.len nBytes
  (copyArguments args b.buf data).bind fun buf =>
    (Block.write buf (bsonData b) (toLE 4 len)).bind fun buf =>
      (Block.write buf (data + nBytes) [0]).map fun buf =>
        { b with buf, current := { b.current with len } }

/-- `BSON_APPEND_BYTES_APPLY_ARGUMENTS`. -/
def applyArguments (b : Building) (args : List (List UInt8)) : Option (Bool × Building) :=
  if args.flatten.length > sub64 bsonMaxSize b.current.len then some (false, b)
  else
    (bsonGrow junk b args.flatten.length).bind fun (ok, b) =>
      if ok then (writeArguments b args).map fun b => (true, b) else some (false, b)

/-- What all the functions that append one element do: the type, the key, its NUL, and the arguments
for the value. -/
def appendElement (b : Building) (type : BsonType) (key : Text) (value : List Arg) :
    Option (Bool × Building) :=
  (addAll (.bytes [type.toByte] :: .string key :: .bytes [0] :: value) []).bind fun
    | none => some (false, b)
    | some args => applyArguments junk b args

/-! ## Documents inside -/

/-- What `_bson_append_bson_begin` does first with a document that is in its `bson_t`. -/
def spill (b : Building) : Option (Bool × Building) :=
  if b.inline then
    if b.current.len ≤ 120 then bsonGrow junk b (sub32 128 b.current.len) else none
  else some (true, b)

/-- What `_bson_append_bson_begin` does last: it sets up the child. -/
def setUpChild (b : Building) : Building :=
  let parent := { b.current with inChild := true }
  let child : BsonT :=
    { len := 5
      offset := sub64 (sub64 (parent.offset + parent.len) 1) 5
      depth := if parent.child then add32 parent.depth 1 else 1
      child := true
      inChild := false }
  { b with current := child, parents := parent :: b.parents }

/-- `_bson_append_bson_begin`, with its assertions. -/
def appendBsonBegin (b : Building) (key : Text) (childType : BsonType) :
    Option (Bool × Building) :=
  if b.current.inChild = false ∧ (childType = .document ∨ childType = .array) then
    (addAll [.bytes [childType.toByte], .string key, .bytes [0]] []).bind fun
      | none => some (false, b)
      | some args =>
          (spill junk b).bind fun (ok, b) =>
            if ok = false then some (false, b)
            else if b.inline then none
            else
              (addArgument args [5, 0, 0, 0, 0]).bind fun
                | none => some (false, b)
                | some args =>
                    (applyArguments junk b args).map fun (ok, b) =>
                      (ok, if ok then setUpChild b else b)
  else none

/-- `_bson_append_bson_end`, with its assertions, for the innermost document and the one around
it. -/
def appendBsonEnd (b : Building) : Option (Bool × Building) :=
  match b.parents with
  | [] => none
  | parent :: parents =>
      if parent.inChild ∧ b.current.inChild = false then
        let current : BsonT :=
          { parent with
            inChild := false
            len := sub32 (add32 parent.len b.current.len) 5 }
        let b : Building := { b with current, parents }
        (Block.write b.buf (bsonData b + sub32 current.len 1) [0]).bind fun buf =>
          (Block.write buf (bsonData b) (toLE 4 current.len)).map fun buf => (true, { b with buf })
      else none

/-- What `bson_get_data` points to, as far as the length goes. -/
def bsonGetData (b : Building) : Option (List UInt8) :=
  Block.read b.buf (bsonData b) b.current.len

end Functions

/-! ## What is in the buffer -/

/-- What is around an open document: the elements in front of it, its type and its key. -/
structure Hole where
  before : List UInt8
  array : Bool
  key : CString

/-- The type of the document in a hole. -/
def Hole.type (hole : Hole) : BsonType := if hole.array then .array else .document

/-- The elements in front of a hole, and what is in front of the document in it. -/
def Hole.bytes (hole : Hole) : List UInt8 :=
  hole.before ++ hole.type.toByte :: (hole.key.bytes ++ [0])

/-- The bytes in front of the innermost document.  A length is that of the document when the next
one was opened in it. -/
def front : List Hole → List UInt8
  | [] => []
  | hole :: holes => front holes ++ (toLE 4 (hole.bytes.length + 10) ++ hole.bytes)

/-- The `bson_t` of a document of the given length. -/
def bsonTOf (holes : List Hole) (len : ℕ) (inChild : Bool) : BsonT :=
  ⟨len, (front holes).length, holes.length, !holes.isEmpty, inChild⟩

/-- Those of the documents around. -/
def parentsOf : List Hole → List BsonT
  | [] => []
  | hole :: holes => bsonTOf holes (hole.bytes.length + 10) true :: parentsOf holes

/-- **The buffer holds open documents**: the innermost has the elements `body`.  There is room for
a byte behind each of the others. -/
structure Building.Holds (b : Building) (holes : List Hole) (body : List UInt8) : Prop where
  current : b.current = bsonTOf holes (body.length + 5) false
  parents : b.parents = parentsOf holes
  text : b.buf.take ((front holes).length + (body.length + 5)) = front holes ++ frame body
  room : (front holes).length + (body.length + 5) + holes.length ≤ b.buf.length
  size : b.buf.length ≤ bsonMaxSize
  inline : b.inline = true → holes = [] ∧ b.buf.length = bsonInlineDataSize

section Holds

variable {b : Building} {holes : List Hole} {body : List UInt8} (h : b.Holds holes body)

include h

lemma Building.Holds.bsonData_eq : bsonData b = (front holes).length := by
  rw [bsonData, h.current]
  split_ifs with hinline
  · rw [(h.inline hinline).1]
    rfl
  · rfl

/-- The data of a document that is open is its encoding. -/
lemma Building.Holds.getData : bsonGetData b = some (frame body) := by
  have hroom := h.room
  have hlen : b.current.len = body.length + 5 := by
    rw [h.current]
    rfl
  rw [bsonGetData, h.bsonData_eq, hlen, Block.read, if_pos (by omega), List.take_drop, h.text,
    List.drop_left]

end Holds

lemma bsonNew_holds (junk : ℕ → UInt8) : (bsonNew junk).Holds [] [] where
  current := rfl
  parents := rfl
  text := rfl
  room := by simp [bsonNew, front, bsonInlineDataSize]
  size := by simp [bsonNew, bsonMaxSize, bsonInlineDataSize]
  inline _ := ⟨rfl, by simp [bsonNew, bsonInlineDataSize]⟩

/-! ## Growing -/

lemma le_bsonNextPowerOfTwo {v : ℕ} (hpos : 0 < v) (hv : v ≤ bsonMaxSize) :
    v ≤ bsonNextPowerOfTwo v := by
  rw [bsonMaxSize] at hv
  rw [bsonNextPowerOfTwo, sub64_eq (by omega) (by omega)]
  have hle := Bits.le_smear [1, 2, 4, 8, 16, 32] (v - 1)
  have hlt : Bits.smear [1, 2, 4, 8, 16, 32] (v - 1) < 2 ^ 32 := Bits.smear_lt (by omega)
  rw [Nat.mod_eq_of_lt (by omega)]
  omega

/-- Sizes are rounded up as far as they can be. -/
lemma bsonRoundUpAllocSize_bounds (size : ℕ) (hpos : 0 < size) :
    size ≤ bsonRoundUpAllocSize size ∧
      (bsonRoundUpAllocSize size ≤ bsonMaxSize ↔ size ≤ bsonMaxSize) := by
  rw [bsonRoundUpAllocSize]
  split_ifs with hsize
  · have hle := le_bsonNextPowerOfTwo hpos hsize
    omega
  · exact ⟨le_refl _, Iff.rfl⟩

section Grow

variable (junk : ℕ → UInt8) {b : Building} {holes : List Hole} {body : List UInt8}
  (h : b.Holds holes body) {n : ℕ} (hn : n ≤ bsonMaxSize)

include h hn

/-- A document in its `bson_t`. -/
lemma implInlineGrow_holds (hinline : b.inline = true) :
    (body.length + 5 + n ≤ bsonMaxSize →
      ∃ b', implInlineGrow junk b n = some (true, b') ∧ b'.Holds holes body ∧
        body.length + 5 + n ≤ b'.buf.length) ∧
    (¬body.length + 5 + n ≤ bsonMaxSize → implInlineGrow junk b n = some (false, b)) := by
  obtain ⟨rfl, hbuf⟩ := h.inline hinline
  have hroom := h.room
  have hsize := h.size
  have hcurrent := h.current
  have hlen : b.current.len = body.length + 5 := by
    rw [hcurrent]
    rfl
  have htext := h.text
  simp only [front, List.length_nil, Nat.zero_add, List.nil_append, Nat.add_zero] at hroom htext
  rw [implInlineGrow, if_pos ⟨by omega, hn⟩, hlen]
  have hround := bsonRoundUpAllocSize_bounds (body.length + 5 + n) (by omega)
  by_cases hfew : body.length + 5 + n ≤ bsonInlineDataSize
  · have hmax : bsonInlineDataSize ≤ bsonMaxSize := by decide
    rw [if_pos hfew]
    exact ⟨fun _ => ⟨b, rfl, h, by omega⟩, fun hbig => absurd hfew (by omega)⟩
  rw [if_neg hfew]
  refine ⟨fun hfits => ?_, fun hbig => ?_⟩
  · obtain ⟨req, hreq⟩ : ∃ req, req = bsonRoundUpAllocSize (body.length + 5 + n) := ⟨_, rfl⟩
    rw [← hreq] at hround ⊢
    have hmove : 0 + (frame body).length ≤ (Block.malloc junk req).length := by
      rw [length_frame, Block.length_malloc]
      omega
    rw [if_pos (hround.2.mpr hfits), Block.read, if_pos (by omega), List.drop_zero, htext,
      Option.bind_some]
    have hwrite := Block.write_eq_some hmove
    have hlength := Block.length_write hwrite
    rw [Block.length_malloc] at hlength
    rw [hwrite, Option.map_some]
    refine ⟨_, rfl, ⟨by rw [hcurrent]; rfl, h.parents, ?_, ?_, ?_, fun hfalse => ?_⟩, ?_⟩
    · simp [front]
    · simp only [front, List.length_nil, hlength]
      omega
    · exact hlength.trans_le (hround.2.mpr hfits)
    · cases hfalse
    · simp only [hlength]
      omega
  · rw [if_neg (mt hround.2.mp hbig)]

/-- A document in a buffer. -/
lemma implAllocGrow_holds (hinline : b.inline = false) :
    ((front holes).length + (body.length + 5) + holes.length + n ≤ bsonMaxSize →
      ∃ b', implAllocGrow junk b n = some (true, b') ∧ b'.inline = false ∧ b'.Holds holes body ∧
        (front holes).length + (body.length + 5) + holes.length + n ≤ b'.buf.length) ∧
    (¬(front holes).length + (body.length + 5) + holes.length + n ≤ bsonMaxSize →
      implAllocGrow junk b n = some (false, b)) := by
  have hroom := h.room
  have hsize := h.size
  have hcurrent : b.current.len = body.length + 5 ∧ b.current.offset = (front holes).length ∧
      b.current.depth = holes.length := by
    rw [h.current]
    exact ⟨rfl, rfl, rfl⟩
  rw [implAllocGrow, hcurrent.1, hcurrent.2.1, hcurrent.2.2, if_pos ⟨by omega, hn⟩]
  have hreq : (front holes).length + (body.length + 5) + n + holes.length =
      (front holes).length + (body.length + 5) + holes.length + n := by omega
  rw [hreq]
  have hround := bsonRoundUpAllocSize_bounds
    ((front holes).length + (body.length + 5) + holes.length + n) (by omega)
  by_cases hfew : (front holes).length + (body.length + 5) + holes.length + n ≤ b.buf.length
  · rw [if_pos hfew]
    exact ⟨fun _ => ⟨b, rfl, hinline, h, hfew⟩, fun hbig => absurd hfew (by omega)⟩
  rw [if_neg hfew]
  refine ⟨fun hfits => ?_, fun hbig => ?_⟩
  · rw [if_pos (hround.2.mpr hfits)]
    refine ⟨_, rfl, hinline, ⟨h.current, h.parents, ?_, ?_, ?_, fun htrue => ?_⟩, ?_⟩
    · rw [Block.take_realloc junk (by omega) (by omega)]
      exact h.text
    · rw [Block.length_realloc]
      omega
    · rw [Block.length_realloc]
      exact hround.2.mpr hfits
    · cases hinline.symm.trans htrue
    · rw [Block.length_realloc]
      exact hround.1
  · rw [if_neg (mt hround.2.mp hbig)]

/-- **Growing.**  The documents stay, and there is room for `n` more bytes, unless they would be
too long. -/
lemma bsonGrow_holds :
    ((front holes).length + (body.length + 5) + holes.length + n ≤ bsonMaxSize →
      ∃ b', bsonGrow junk b n = some (true, b') ∧ (b.inline = false → b'.inline = false) ∧
        b'.Holds holes body ∧
          (front holes).length + (body.length + 5) + holes.length + n ≤ b'.buf.length) ∧
    (¬(front holes).length + (body.length + 5) + holes.length + n ≤ bsonMaxSize →
      bsonGrow junk b n = some (false, b)) := by
  rw [bsonGrow, if_pos hn]
  rcases hinline : b.inline with _ | _
  · obtain ⟨hsome, hnone⟩ := implAllocGrow_holds junk h hn hinline
    refine ⟨fun hfits => ?_, hnone⟩
    obtain ⟨b', hgrow, hstill, hholds, hmore⟩ := hsome hfits
    exact ⟨b', hgrow, fun _ => hstill, hholds, hmore⟩
  · have hgrow := implInlineGrow_holds junk h hn hinline
    obtain ⟨rfl, -⟩ := h.inline hinline
    simpa [front] using hgrow

end Grow

/-! ## Appending -/

/-- The arguments one after the other are one write. -/
lemma copyArguments_eq : ∀ (args : List (List UInt8)) (buf : List UInt8) (o : ℕ),
    o + args.flatten.length ≤ buf.length →
      ∃ buf', copyArguments args buf o = some buf' ∧ buf'.length = buf.length ∧
        buf'.take (o + args.flatten.length) = buf.take o ++ args.flatten
  | [], buf, o, _ => ⟨buf, rfl, rfl, by simp⟩
  | arg :: rest, buf, o, hfits => by
      rw [List.flatten_cons, List.length_append] at hfits
      obtain ⟨buf₁, hwrite⟩ : ∃ buf₁, Block.write buf o arg = some buf₁ :=
        ⟨_, Block.write_eq_some (by omega)⟩
      have hlength := Block.length_write hwrite
      obtain ⟨buf', hcopy, hlength', htake⟩ :=
        copyArguments_eq rest buf₁ (o + arg.length) (by omega)
      refine ⟨buf', ?_, hlength'.trans hlength, ?_⟩
      · rw [copyArguments, hwrite, Option.bind_some, hcopy]
      · rw [List.flatten_cons, List.length_append, ← Nat.add_assoc, htake, Block.take_write hwrite,
          List.append_assoc]

section Apply

variable (junk : ℕ → UInt8) {b : Building} {holes : List Hole} {body : List UInt8}
  (h : b.Holds holes body)

include h

/-- The bytes up to the last one. -/
lemma Building.Holds.take_front :
    b.buf.take ((front holes).length + (body.length + 4)) =
      front holes ++ (toLE 4 (body.length + 5) ++ body) := by
  have hfront : (front holes ++ (toLE 4 (body.length + 5) ++ body)).length =
      (front holes).length + (body.length + 4) := by
    simp only [List.length_append, length_toLE]
    omega
  have htext := congrArg (List.take ((front holes).length + (body.length + 4))) h.text
  rw [List.take_take, Nat.min_eq_left (by omega), frame, ← List.append_assoc (toLE 4 _),
    ← List.append_assoc (front holes), List.take_left' hfront] at htext
  exact htext

/-- Writing behind the elements: the arguments, the length, and the last byte. -/
lemma writeArguments_holds {args : List (List UInt8)} (hroom : (front holes).length +
    (body.length + 5) + holes.length + args.flatten.length ≤ b.buf.length) :
    ∃ b', writeArguments b args = some b' ∧ b'.inline = b.inline ∧
      b'.Holds holes (body ++ args.flatten) := by
  have hsize := h.size
  have hmax : bsonMaxSize = 2 ^ 31 - 1 := rfl
  have hlen : b.current.len = body.length + 5 := by
    rw [h.current]
    rfl
  obtain ⟨n, hn⟩ : ∃ n, n = args.flatten.length := ⟨_, rfl⟩
  obtain ⟨o, ho⟩ : ∃ o, o = (front holes).length + (body.length + 4) := ⟨_, rfl⟩
  have htext := h.take_front
  rw [← ho] at htext
  have hdata : (front holes).length + (body.length + 5 - 1) = o := by omega
  rw [writeArguments, hlen, h.bsonData_eq, sub32_eq (by omega) (by omega), add32_eq (by omega),
    hdata, ← hn]
  obtain ⟨buf₁, hcopy, hlength₁, htake₁⟩ := copyArguments_eq args b.buf o (by omega)
  obtain ⟨buf₂, hwrite₂⟩ :
      ∃ buf₂, Block.write buf₁ (front holes).length (toLE 4 (body.length + 5 + n)) = some buf₂ :=
    ⟨_, Block.write_eq_some (by rw [length_toLE]; omega)⟩
  have hlength₂ := Block.length_write hwrite₂
  obtain ⟨buf₃, hwrite₃⟩ : ∃ buf₃, Block.write buf₂ (o + n) [0] = some buf₃ :=
    ⟨_, Block.write_eq_some (by rw [List.length_singleton]; omega)⟩
  have hlength₃ := Block.length_write hwrite₃
  have htake₂ := Block.take_write_inside hwrite₂ (k := o + n) (by rw [length_toLE]; omega)
  rw [hn, htake₁, htext, ← hn, length_toLE] at htake₂
  have hfront : buf₁.take (front holes).length = front holes := by
    have htake := congrArg (List.take (front holes).length) htake₁
    rw [List.take_take, Nat.min_eq_left (by omega), htext, List.append_assoc, List.take_left]
      at htake
    exact htake
  have hbehind : (front holes ++ (toLE 4 (body.length + 5) ++ body) ++ args.flatten).drop
      ((front holes).length + 4) = body ++ args.flatten := by
    have hhead : (front holes ++ toLE 4 (body.length + 5)).length = (front holes).length + 4 := by
      rw [List.length_append, length_toLE]
    rw [← List.append_assoc (front holes), List.append_assoc (front holes ++ _),
      List.drop_left' hhead]
  have htake₃ := Block.take_write hwrite₃
  rw [htake₂, hfront, hbehind] at htake₃
  have hwhole : (body ++ args.flatten).length + 5 = body.length + 5 + n := by
    rw [List.length_append]
    omega
  simp only [hcopy, hwrite₂, hwrite₃, Option.bind_some, Option.map_some]
  refine ⟨_, rfl, rfl, ⟨?_, h.parents, ?_, ?_, ?_, ?_⟩⟩
  · rw [h.current, hwhole]
    rfl
  · have htotal : (front holes).length + ((body ++ args.flatten).length + 5) =
        o + n + [(0 : UInt8)].length := by
      rw [hwhole, List.length_singleton]
      omega
    rw [htotal, htake₃, frame, hwhole]
    simp only [List.append_assoc]
  · rw [hwhole]
    simp only [hlength₃, hlength₂, hlength₁]
    omega
  · simp only [hlength₃, hlength₂, hlength₁]
    exact hsize
  · simp only [hlength₃, hlength₂, hlength₁]
    exact h.inline

/-- **Writing behind the elements**, or refusing to. -/
lemma applyArguments_holds (args : List (List UInt8)) :
    ((front holes).length + (body.length + 5) + holes.length + args.flatten.length ≤ bsonMaxSize →
      ∃ b', applyArguments junk b args = some (true, b') ∧ (b.inline = false → b'.inline = false) ∧
        b'.Holds holes (body ++ args.flatten)) ∧
    (¬(front holes).length + (body.length + 5) + holes.length + args.flatten.length ≤ bsonMaxSize →
      applyArguments junk b args = some (false, b)) := by
  have hroom := h.room
  have hsize := h.size
  have hmax : bsonMaxSize = 2 ^ 31 - 1 := rfl
  have hlen : b.current.len = body.length + 5 := by
    rw [h.current]
    rfl
  rw [applyArguments, hlen, sub64_eq (by omega) (by omega)]
  by_cases hlong : args.flatten.length > bsonMaxSize - (body.length + 5)
  · rw [if_pos hlong]
    exact ⟨fun hfits => absurd hlong (by omega), fun _ => rfl⟩
  rw [if_neg hlong]
  obtain ⟨hgrows, hfails⟩ := bsonGrow_holds junk h (n := args.flatten.length) (by omega)
  refine ⟨fun hfits => ?_, fun hbig => ?_⟩
  · obtain ⟨b', hgrow, hinline, hholds, hmore⟩ := hgrows hfits
    obtain ⟨b'', hwrite, hinline', hholds'⟩ := writeArguments_holds hholds hmore
    refine ⟨b'', ?_, fun hfalse => hinline'.trans (hinline hfalse), hholds'⟩
    rw [hgrow]
    simp only [Option.bind_some, if_true, hwrite, Option.map_some]
  · rw [hfails hbig]
    rfl

end Apply

/-! ## Lists of arguments -/

/-- The bytes of an argument. -/
def Arg.data : Arg → List UInt8
  | .bytes data => data
  | .string text => text.bytes

/-- A text that can be a key: it has no NUL. -/
def Text.cstring? : Text → Option CString
  | .counted bytes => if h : 0 ∈ bytes then none else some ⟨bytes, h⟩
  | .terminated text => some text

/-- A text that is to have no NUL has none. -/
def Arg.Okay : Arg → Prop
  | .bytes _ => True
  | .string text => text.cstring?.isSome

lemma bytes_of_cstring? {text : Text} {s : CString} (h : text.cstring? = some s) :
    s.bytes = text.bytes := by
  cases text with
  | terminated text =>
      cases h
      rfl
  | counted bytes =>
      rw [Text.cstring?] at h
      split_ifs at h
      cases h
      rfl

/-- What one argument does to a list with room. -/
lemma addArgument_eq {args : List (List UInt8)} (hargs : args.flatten.length ≤ bsonMaxSize)
    (hroom : args.length < 8) (bytes : List UInt8) :
    (args.flatten.length + bytes.length ≤ bsonMaxSize →
      ∃ more, addArgument args bytes = some (some more) ∧ more.length ≤ args.length + 1 ∧
        more.flatten = args.flatten ++ bytes) ∧
    (¬args.flatten.length + bytes.length ≤ bsonMaxSize → addArgument args bytes = some none) := by
  have hmax : bsonMaxSize = 2 ^ 31 - 1 := rfl
  rw [addArgument, sub64_eq hargs (by omega)]
  refine ⟨fun hfits => ?_, fun hbig => ?_⟩
  · rw [if_neg (by omega)]
    by_cases hempty : bytes.length > 0
    · rw [if_pos hempty, if_pos hroom]
      exact ⟨_, rfl, by simp, by simp⟩
    · have hnil : bytes = [] := List.eq_nil_of_length_eq_zero (by omega)
      rw [if_neg hempty]
      exact ⟨args, rfl, Nat.le_succ _, by simp [hnil]⟩
  · rw [if_pos (by omega)]

/-- A text is an argument if it has no NUL; one that is too long for a `uint32_t` would not fit
either. -/
lemma addCheckedString_eq {args : List (List UInt8)} (hargs : args.flatten.length ≤ bsonMaxSize)
    (hroom : args.length < 8) (text : Text) :
    (args.flatten.length + text.bytes.length ≤ bsonMaxSize → text.cstring?.isSome →
      addCheckedString args text = addArgument args text.bytes) ∧
    (¬(args.flatten.length + text.bytes.length ≤ bsonMaxSize ∧ text.cstring?.isSome) →
      addCheckedString args text = some none) := by
  have hmax : bsonMaxSize = 2 ^ 31 - 1 := rfl
  have hbig := (addArgument_eq hargs hroom text.bytes).2
  cases text with
  | terminated text =>
      simp only [Text.bytes, addCheckedString, Text.cstring?] at hbig ⊢
      refine ⟨fun hfits _ => if_neg (by omega), fun hnot => ?_⟩
      split_ifs
      · rfl
      · exact hbig fun hfits => hnot ⟨hfits, rfl⟩
  | counted bytes =>
      simp only [Text.bytes, addCheckedString, Text.cstring?] at hbig ⊢
      by_cases hnul : 0 ∈ bytes
      · simp [hnul]
      · rw [if_neg hnul, dif_neg hnul]
        refine ⟨fun hfits _ => if_neg (by omega), fun hnot => ?_⟩
        split_ifs
        · rfl
        · exact hbig fun hfits => hnot ⟨hfits, rfl⟩

/-- **Adding arguments.**  The list has them all, unless one of them has a NUL or they come to too
much. -/
lemma addAll_eq : ∀ (list : List Arg) (args : List (List UInt8)),
    args.flatten.length ≤ bsonMaxSize → args.length + list.length ≤ 8 →
      ((∀ arg ∈ list, arg.Okay) → args.flatten.length + (list.flatMap Arg.data).length ≤ bsonMaxSize →
        ∃ all, addAll list args = some (some all) ∧ all.length ≤ args.length + list.length ∧
          all.flatten = args.flatten ++ list.flatMap Arg.data) ∧
      (¬((∀ arg ∈ list, arg.Okay) ∧
          args.flatten.length + (list.flatMap Arg.data).length ≤ bsonMaxSize) →
        addAll list args = some none)
  | [], args, hargs, hroom => by
      refine ⟨fun _ _ => ⟨args, rfl, Nat.le_refl _, by simp⟩, fun hnot => ?_⟩
      exact absurd ⟨by simp, by simpa using hargs⟩ hnot
  | arg :: rest, args, hargs, hroom => by
      rw [List.length_cons] at hroom
      rw [List.forall_mem_cons, List.flatMap_cons, List.length_append]
      obtain ⟨hadds, hfails⟩ := addArgument_eq hargs (by omega) arg.data
      -- what the first argument does
      obtain ⟨added, hadded, hyes, hno⟩ : ∃ added, addAll (arg :: rest) args = (added.bind fun
          | none => some none
          | some args => addAll rest args) ∧
          (arg.Okay → args.flatten.length + arg.data.length ≤ bsonMaxSize →
            added = addArgument args arg.data) ∧
          (¬(args.flatten.length + arg.data.length ≤ bsonMaxSize ∧ arg.Okay) →
            added = some none) := by
        cases arg with
        | bytes data =>
            exact ⟨_, rfl, fun _ _ => rfl, fun hnot => hfails fun hfits => hnot ⟨hfits, trivial⟩⟩
        | string text =>
            obtain ⟨hsame, hrefused⟩ := addCheckedString_eq hargs (by omega) text
            exact ⟨_, rfl, fun hokay hfits => hsame hfits hokay, hrefused⟩
      by_cases hfirst : args.flatten.length + arg.data.length ≤ bsonMaxSize ∧ arg.Okay
      swap
      · rw [hadded, hno hfirst]
        exact ⟨fun hokay hfits => absurd ⟨by omega, hokay.1⟩ hfirst, fun _ => rfl⟩
      obtain ⟨more, hmore, hlength, hflat⟩ := hadds hfirst.1
      rw [hadded, hyes hfirst.2 hfirst.1, hmore, Option.bind_some]
      have hmoreLength := congrArg List.length hflat
      rw [List.length_append] at hmoreLength
      obtain ⟨hall, hnone⟩ := addAll_eq rest more (by omega) (by omega)
      rw [hmoreLength] at hall hnone
      refine ⟨fun hokay hfits => ?_, fun hnot => hnone fun hrest => hnot ?_⟩
      · obtain ⟨all, hadd, hle, heq⟩ := hall hokay.2 (by omega)
        refine ⟨all, hadd, ?_, ?_⟩
        · rw [List.length_cons]
          omega
        · rw [heq, hflat, List.append_assoc]
      · exact ⟨⟨hfirst.2, hrest.1⟩, by omega⟩

/-! ## Elements, and documents inside -/

/-- The bytes of an element. -/
def elementBytes (type : BsonType) (key value : List UInt8) : List UInt8 :=
  type.toByte :: (key ++ 0 :: value)

section Steps

variable (junk : ℕ → UInt8) {b : Building} {holes : List Hole} {body : List UInt8}
  (h : b.Holds holes body)

include h

/-- **Appending an element.**  It is appended, or nothing is changed: if a text that is not to have
a NUL has one, or the documents would be too long. -/
lemma appendElement_holds (type : BsonType) (key : Text) (value : List Arg)
    (hfew : value.length ≤ 5) :
    (key.cstring?.isSome → (∀ arg ∈ value, arg.Okay) →
      (front holes).length + (body.length + 5) + holes.length +
          (elementBytes type key.bytes (value.flatMap Arg.data)).length ≤ bsonMaxSize →
        ∃ b', appendElement junk b type key value = some (true, b') ∧
          b'.Holds holes (body ++ elementBytes type key.bytes (value.flatMap Arg.data))) ∧
    (¬(key.cstring?.isSome ∧ (∀ arg ∈ value, arg.Okay) ∧
        (front holes).length + (body.length + 5) + holes.length +
          (elementBytes type key.bytes (value.flatMap Arg.data)).length ≤ bsonMaxSize) →
      appendElement junk b type key value = some (false, b)) := by
  have hadd := addAll_eq (.bytes [type.toByte] :: .string key :: .bytes [0] :: value) []
    (by simp) (by simp only [List.length_cons, List.length_nil]; omega)
  have hdata : (Arg.bytes [type.toByte] :: .string key :: .bytes [0] :: value).flatMap Arg.data =
      elementBytes type key.bytes (value.flatMap Arg.data) := by
    simp [elementBytes, Arg.data]
  have hokay : (∀ arg ∈ Arg.bytes [type.toByte] :: .string key :: .bytes [0] :: value, arg.Okay) ↔
      key.cstring?.isSome ∧ ∀ arg ∈ value, arg.Okay := by
    simp [Arg.Okay]
  rw [hdata, hokay, List.flatten_nil, List.length_nil, Nat.zero_add, List.nil_append] at hadd
  obtain ⟨hall, hnone⟩ := hadd
  refine ⟨fun hkey hvalue hfits => ?_, fun hnot => ?_⟩
  · obtain ⟨args, heq, -, hflat⟩ := hall ⟨hkey, hvalue⟩ (by omega)
    obtain ⟨b', happly, -, hholds⟩ :=
      (applyArguments_holds junk h args).1 (by rw [hflat]; exact hfits)
    rw [hflat] at hholds
    refine ⟨b', ?_, hholds⟩
    rw [appendElement, heq, Option.bind_some]
    exact happly
  · rw [appendElement]
    by_cases hargs : (key.cstring?.isSome ∧ ∀ arg ∈ value, arg.Okay) ∧
        (elementBytes type key.bytes (value.flatMap Arg.data)).length ≤ bsonMaxSize
    · obtain ⟨args, heq, -, hflat⟩ := hall hargs.1 hargs.2
      rw [heq, Option.bind_some]
      refine (applyArguments_holds junk h args).2 ?_
      rw [hflat]
      exact fun hfits => hnot ⟨hargs.1.1, hargs.1.2, hfits⟩
    · rw [hnone hargs, Option.bind_some]

/-- A document in its `bson_t` moves into a buffer. -/
lemma spill_holds :
    ∃ b', spill junk b = some (true, b') ∧ b'.inline = false ∧ b'.Holds holes body := by
  rw [spill]
  rcases hinline : b.inline with _ | _
  · exact ⟨b, rfl, hinline, h⟩
  obtain ⟨rfl, hbuf⟩ := h.inline hinline
  have hlen : b.current.len = body.length + 5 := by
    rw [h.current]
    rfl
  have hmax : bsonMaxSize = 2 ^ 31 - 1 := rfl
  have hdata : bsonInlineDataSize = 120 := rfl
  have hroom := h.room
  simp only [front, List.length_nil, Nat.zero_add, Nat.add_zero] at hroom
  have hgrow := (bsonGrow_holds junk h (n := 128 - (body.length + 5)) (by omega)).1
  simp only [front, List.length_nil, Nat.zero_add, Nat.add_zero] at hgrow
  obtain ⟨b', heq, -, hholds, hmore⟩ := hgrow (by omega)
  refine ⟨b', ?_, ?_, hholds⟩
  · rw [if_pos rfl, hlen, if_pos (by omega), sub32_eq (by omega) (by omega), heq]
  · by_contra hstill
    have hsame := (hholds.inline (by simpa using hstill)).2
    omega

omit h in
/-- The child has the bytes of an empty document, which are in the element it is. -/
lemma setUpChild_holds {hole : Hole} (hinline : b.inline = false)
    (h : b.Holds holes (hole.bytes ++ [5, 0, 0, 0, 0])) :
    (setUpChild b).Holds (hole :: holes) [] := by
  have hroom := h.room
  have htext := h.text
  have hsize := h.size
  have hmax : bsonMaxSize = 2 ^ 31 - 1 := rfl
  have hlength : (hole.bytes ++ [5, 0, 0, 0, 0]).length = hole.bytes.length + 5 := by simp
  rw [hlength] at hroom htext
  have hcurrent := h.current
  rw [hlength] at hcurrent
  have hfront : (front (hole :: holes)).length =
      (front holes).length + (hole.bytes.length + 4) := by
    simp only [front, List.length_append, length_toLE]
    omega
  refine ⟨?_, ?_, ?_, ?_, hsize, fun htrue => ?_⟩
  · have hoffset : sub64 (sub64 ((front holes).length + (hole.bytes.length + 5 + 5)) 1) 5 =
        (front (hole :: holes)).length := by
      rw [sub64_eq (a := _ + _) (by omega) (by omega), sub64_eq (by omega) (by omega)]
      omega
    have hdepth : (if (!holes.isEmpty) = true then add32 holes.length 1 else 1) =
        (hole :: holes).length := by
      rw [List.length_cons]
      rcases holes with _ | ⟨outer, holes⟩
      · rfl
      · exact add32_eq (by simp only [List.length_cons] at hroom ⊢; omega)
    simp only [setUpChild, hcurrent, bsonTOf, hdepth, hoffset]
    rfl
  · simp only [setUpChild, hcurrent, h.parents, parentsOf, bsonTOf]
  · have hempty : frame [] = [5, 0, 0, 0, 0] := by decide
    have hsplit : front holes ++ frame (hole.bytes ++ [5, 0, 0, 0, 0]) =
        front (hole :: holes) ++ frame [] ++ [0] := by
      rw [hempty, frame, hlength, front]
      simp only [List.append_assoc]
    have hlen : (front (hole :: holes) ++ frame []).length =
        (front (hole :: holes)).length + (([] : List UInt8).length + 5) := by
      rw [List.length_append, length_frame]
    have htake := congrArg (List.take (front (hole :: holes) ++ frame []).length) htext
    rw [hsplit, List.take_left, List.take_take, hlen, Nat.min_eq_left (by simp; omega)] at htake
    exact htake
  · simp only [setUpChild, List.length_nil, List.length_cons]
    omega
  · cases hinline.symm.trans htrue

/-- **Opening a document.** -/
lemma appendBsonBegin_holds (key : Text) (array : Bool) :
    (∀ s, key.cstring? = some s →
      (front holes).length + (body.length + 5) + holes.length + (key.bytes.length + 7) ≤
        bsonMaxSize →
      ∃ b', appendBsonBegin junk b key (if array then .array else .document) = some (true, b') ∧
        b'.Holds (⟨body, array, s⟩ :: holes) []) ∧
    (¬(key.cstring?.isSome ∧ (front holes).length + (body.length + 5) + holes.length +
        (key.bytes.length + 7) ≤ bsonMaxSize) →
      ∃ b', appendBsonBegin junk b key (if array then .array else .document) = some (false, b') ∧
        b'.Holds holes body) := by
  obtain ⟨type, htype⟩ : ∃ type : BsonType, type = if array then .array else .document := ⟨_, rfl⟩
  have hkind : type = .document ∨ type = .array := by
    rcases array with _ | _
    · exact .inl htype
    · exact .inr htype
  have hchild : b.current.inChild = false := by
    rw [h.current]
    rfl
  rw [← htype, appendBsonBegin, if_pos ⟨hchild, hkind⟩]
  have hadd := addAll_eq [.bytes [type.toByte], .string key, .bytes [0]] [] (by simp) (by simp)
  have hdata : [Arg.bytes [type.toByte], .string key, .bytes [0]].flatMap Arg.data =
      type.toByte :: (key.bytes ++ [0]) := by
    simp [Arg.data]
  have hlength : (type.toByte :: (key.bytes ++ [0])).length = key.bytes.length + 2 := by simp
  have hokay : (∀ arg ∈ [Arg.bytes [type.toByte], .string key, .bytes [0]], arg.Okay) ↔
      key.cstring?.isSome := by
    simp [Arg.Okay]
  rw [hdata, hokay, hlength, List.flatten_nil, List.length_nil, Nat.zero_add, List.nil_append]
    at hadd
  obtain ⟨hall, hnone⟩ := hadd
  by_cases hkey : key.cstring?.isSome ∧ key.bytes.length + 2 ≤ bsonMaxSize
  swap
  · rw [hnone fun hboth => hkey hboth]
    refine ⟨fun s hs hfits => absurd ⟨?_, by omega⟩ hkey, fun _ => ⟨b, rfl, h⟩⟩
    rw [hs]
    rfl
  obtain ⟨args, heq, hargs, hflat⟩ := hall hkey.1 hkey.2
  have hargsLength := congrArg List.length hflat
  rw [hlength] at hargsLength
  obtain ⟨b₁, hspill, hinline, hholds⟩ := spill_holds junk h
  simp only [List.length_cons, List.length_nil] at hargs
  obtain ⟨hmore, hover⟩ := addArgument_eq (show args.flatten.length ≤ bsonMaxSize by omega)
    (by omega) [5, 0, 0, 0, 0]
  simp only [heq, hspill, hinline, Option.bind_some, Bool.true_eq_false, Bool.false_eq_true,
    if_false]
  have hfive : ([5, 0, 0, 0, 0] : List UInt8).length = 5 := rfl
  rw [hfive, hargsLength] at hmore hover
  by_cases hlong : key.bytes.length + 2 + 5 ≤ bsonMaxSize
  swap
  · rw [hover hlong]
    exact ⟨fun s hs hfits => absurd hfits (by omega), fun _ => ⟨b₁, rfl, hholds⟩⟩
  obtain ⟨all, hallEq, -, hallFlat⟩ := hmore hlong
  have hallLength := congrArg List.length hallFlat
  rw [List.length_append, hargsLength, hfive] at hallLength
  obtain ⟨happlies, hrefuses⟩ := applyArguments_holds junk hholds all
  rw [hallLength] at happlies hrefuses
  rw [hallEq]
  simp only [Option.bind_some]
  refine ⟨fun s hs hfits => ?_, fun hnot => ?_⟩
  · obtain ⟨b₂, happly, hinline₂, hholds₂⟩ := happlies (by omega)
    have hbytes : body ++ all.flatten =
        Hole.bytes ⟨body, array, s⟩ ++ [5, 0, 0, 0, 0] := by
      rw [hallFlat, hflat, Hole.bytes, bytes_of_cstring? hs, Hole.type, ← htype]
      simp
    rw [hbytes] at hholds₂
    refine ⟨setUpChild b₂, ?_, setUpChild_holds (hinline₂ hinline) hholds₂⟩
    rw [happly]
    rfl
  · rw [hrefuses (fun hfits => hnot ⟨hkey.1, by omega⟩)]
    exact ⟨b₁, rfl, hholds⟩

omit h in
/-- **Closing a document.**  Its last byte is behind that of the document in it, where each grow
has left room for it. -/
lemma appendBsonEnd_holds {hole : Hole} (h : b.Holds (hole :: holes) body) :
    ∃ b', appendBsonEnd b = some (true, b') ∧ b'.Holds holes (hole.bytes ++ frame body) := by
  have hroom := h.room
  have hsize := h.size
  have hmax : bsonMaxSize = 2 ^ 31 - 1 := rfl
  have hinline : b.inline = false := by
    by_contra htrue
    have hnil := (h.inline (by simpa using htrue)).1
    cases hnil
  have hfront : (front (hole :: holes)).length =
      (front holes).length + (hole.bytes.length + 4) := by
    simp only [front, List.length_append, length_toLE]
    omega
  rw [hfront, List.length_cons] at hroom
  obtain ⟨len, hlen⟩ : ∃ len, len = hole.bytes.length + (body.length + 5) + 5 := ⟨_, rfl⟩
  have hlenEq : sub32 (add32 (hole.bytes.length + 10) (body.length + 5)) 5 = len := by
    rw [add32_eq (by omega), sub32_eq (by omega) (by omega)]
    omega
  -- the last byte, and the length
  obtain ⟨buf₁, hwrite₁⟩ : ∃ buf₁,
      Block.write b.buf ((front holes).length + (len - 1)) [0] = some buf₁ :=
    ⟨_, Block.write_eq_some (by rw [List.length_singleton]; omega)⟩
  have hlength₁ := Block.length_write hwrite₁
  obtain ⟨buf₂, hwrite₂⟩ : ∃ buf₂, Block.write buf₁ (front holes).length (toLE 4 len) = some buf₂ :=
    ⟨_, Block.write_eq_some (by rw [length_toLE]; omega)⟩
  have hlength₂ := Block.length_write hwrite₂
  have htake₁ := Block.take_write hwrite₁
  have hinside : (front holes).length + (len - 1) =
      (front (hole :: holes)).length + (body.length + 5) := by omega
  have htotal : (front (hole :: holes)).length + (body.length + 5) + [(0 : UInt8)].length =
      (front holes).length + len := by
    rw [List.length_singleton]
    omega
  rw [hinside, h.text, htotal] at htake₁
  have htake₂ := Block.take_write_inside hwrite₂ (k := (front holes).length + len)
    (by rw [length_toLE]; omega)
  have hfront₁ : buf₁.take (front holes).length = front holes := by
    have htake := congrArg (List.take (front holes).length) htake₁
    rw [List.take_take, Nat.min_eq_left (by omega), front] at htake
    simp only [List.append_assoc, List.take_left] at htake
    exact htake
  have hbehind : (front (hole :: holes) ++ frame body ++ [0]).drop ((front holes).length + 4) =
      hole.bytes ++ (frame body ++ [0]) := by
    have hhead : (front holes ++ toLE 4 (hole.bytes.length + 10)).length =
        (front holes).length + 4 := by
      rw [List.length_append, length_toLE]
    rw [front, ← List.append_assoc (front holes)]
    simp only [List.append_assoc (front holes ++ _)]
    rw [List.drop_left' hhead, List.append_assoc]
  rw [htake₁, length_toLE, hfront₁, hbehind] at htake₂
  have hparents := h.parents
  rw [parentsOf] at hparents
  have hwhole : (hole.bytes ++ frame body).length + 5 = len := by
    rw [List.length_append, length_frame, hlen]
  have hdata : bsonData { b with
      current := bsonTOf holes len false
      parents := parentsOf holes } = (front holes).length := by
    rw [bsonData]
    simp only [hinline]
    rfl
  have hcurrent : b.current.len = body.length + 5 ∧ b.current.inChild = false := by
    rw [h.current]
    exact ⟨rfl, rfl⟩
  refine ⟨{ b with
    buf := buf₂
    current := bsonTOf holes len false
    parents := parentsOf holes }, ?_, ?_⟩
  · rw [appendBsonEnd, hparents]
    simp only [bsonTOf, hcurrent, hlenEq, and_self, if_true] at hdata ⊢
    rw [hdata, sub32_eq (by omega) (by omega), hwrite₁, Option.bind_some, hwrite₂, Option.map_some]
  · refine ⟨?_, rfl, ?_, ?_, ?_, fun htrue => ?_⟩
    · rw [hwhole]
    · have hframe : frame (hole.bytes ++ frame body) =
          toLE 4 len ++ (hole.bytes ++ frame body ++ [0]) := by
        rw [← hwhole]
        rfl
      rw [hwhole, htake₂, hframe]
      simp only [List.append_assoc]
    · rw [hwhole]
      simp only [hlength₂, hlength₁]
      omega
    · simp only [hlength₂, hlength₁]
      exact hsize
    · cases hinline.symm.trans htrue

end Steps

end CBootstrap.Bson
