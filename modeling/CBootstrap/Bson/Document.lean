import CBootstrap.Lib.Bytes

/-!
# BSON documents

What a BSON document is, independently of the code that reads it: a list of elements, each with
a key and a value, where a value may be a document or an array again, and where the scope of a
code-with-scope value is a document, too.  An array is a document; that its keys are `"0"`,
`"1"`, … is not part of the format that is written, which is what `print-invalid-arrays` is for.

`Document.encode` is the encoding: a little-endian length that counts the whole document, the
elements, and a zero byte.  Keys are without NUL bytes and everything else is any bytes, so
invalid text is within the format here.  A document that can be written has fewer than `2 ^ 31`
bytes (`Root`).
-/

namespace CBootstrap.Bson

open Bytes

/-! ## Types and values -/

/-- `bson_type_t`. -/
inductive BsonType
  | eod
  | double
  | utf8
  | document
  | array
  | binary
  | undefined
  | oid
  | bool
  | dateTime
  | null
  | regex
  | dbpointer
  | code
  | symbol
  | codewscope
  | int32
  | timestamp
  | int64
  | decimal128
  | maxkey
  | minkey
  deriving DecidableEq, Repr

/-- The byte a type is written as. -/
def BsonType.toByte : BsonType → UInt8
  | .eod => 0x00
  | .double => 0x01
  | .utf8 => 0x02
  | .document => 0x03
  | .array => 0x04
  | .binary => 0x05
  | .undefined => 0x06
  | .oid => 0x07
  | .bool => 0x08
  | .dateTime => 0x09
  | .null => 0x0A
  | .regex => 0x0B
  | .dbpointer => 0x0C
  | .code => 0x0D
  | .symbol => 0x0E
  | .codewscope => 0x0F
  | .int32 => 0x10
  | .timestamp => 0x11
  | .int64 => 0x12
  | .decimal128 => 0x13
  | .maxkey => 0x7F
  | .minkey => 0xFF

/-- The type a byte stands for; the other bytes are unsupported types. -/
def BsonType.ofByte (b : UInt8) : Option BsonType :=
  [.eod, .double, .utf8, .document, .array, .binary, .undefined, .oid, .bool, .dateTime, .null,
    .regex, .dbpointer, .code, .symbol, .codewscope, .int32, .timestamp, .int64, .decimal128,
    .maxkey, .minkey].find? (fun type => type.toByte == b)

@[simp] lemma BsonType.ofByte_toByte (type : BsonType) : ofByte type.toByte = some type := by
  cases type <;> rfl

/-- Bytes without a NUL, as they stand before one. -/
structure CString where
  bytes : List UInt8
  nul_free : 0 ∉ bytes

mutual

/-- The value of an element. -/
inductive Value
  | double (bits : UInt64)
  | utf8 (text : List UInt8)
  | document (fields : Document)
  | array (fields : Document)
  /-- A binary of any subtype but 2. -/
  | binary (subtype : UInt8) (hsubtype : subtype ≠ 2) (data : List UInt8)
  /-- A binary of subtype 2, whose length is written twice. -/
  | binaryDeprecated (data : List UInt8)
  | undefined
  | oid (bytes : Vector UInt8 12)
  | bool (value : Bool)
  | dateTime (milliseconds : UInt64)
  | null
  | regex (pattern options : CString)
  | dbpointer (collection : List UInt8) (oid : Vector UInt8 12)
  | code (text : List UInt8)
  | symbol (text : List UInt8)
  | codewscope (text : List UInt8) (scope : Document)
  | int32 (value : UInt32)
  | timestamp (value : UInt64)
  | int64 (value : UInt64)
  | decimal128 (bytes : Vector UInt8 16)
  | maxkey
  | minkey

/-- A document: its elements, in order. -/
inductive Document
  | nil
  | cons (key : CString) (value : Value) (rest : Document)

end

/-- The type of a value. -/
def Value.type : Value → BsonType
  | .double _ => .double
  | .utf8 _ => .utf8
  | .document _ => .document
  | .array _ => .array
  | .binary _ _ _ => .binary
  | .binaryDeprecated _ => .binary
  | .undefined => .undefined
  | .oid _ => .oid
  | .bool _ => .bool
  | .dateTime _ => .dateTime
  | .null => .null
  | .regex _ _ => .regex
  | .dbpointer _ _ => .dbpointer
  | .code _ => .code
  | .symbol _ => .symbol
  | .codewscope _ _ => .codewscope
  | .int32 _ => .int32
  | .timestamp _ => .timestamp
  | .int64 _ => .int64
  | .decimal128 _ => .decimal128
  | .maxkey => .maxkey
  | .minkey => .minkey

/-- The keys of a document, in order. -/
def Document.keys : Document → List (List UInt8)
  | .nil => []
  | .cons key _ rest => key.bytes :: rest.keys

/-! ## The encoding -/

/-- A text with its length in front and a zero byte behind. -/
def encodeString (text : List UInt8) : List UInt8 := toLE 4 (text.length + 1) ++ (text ++ [0])

/-- The elements of a document with its length in front and a zero byte behind. -/
def frame (body : List UInt8) : List UInt8 := toLE 4 (body.length + 5) ++ (body ++ [0])

mutual

/-- The bytes of a value. -/
def Value.encode : Value → List UInt8
  | .double bits => toLE 8 bits.toNat
  | .utf8 text => encodeString text
  | .document fields => frame fields.body
  | .array fields => frame fields.body
  | .binary subtype _ data => toLE 4 data.length ++ subtype :: data
  | .binaryDeprecated data =>
      toLE 4 (data.length + 4) ++ 2 :: (toLE 4 data.length ++ data)
  | .undefined => []
  | .oid bytes => bytes.toList
  | .bool value => [if value then 1 else 0]
  | .dateTime milliseconds => toLE 8 milliseconds.toNat
  | .null => []
  | .regex pattern options => pattern.bytes ++ 0 :: (options.bytes ++ [0])
  | .dbpointer collection oid => encodeString collection ++ oid.toList
  | .code text => encodeString text
  | .symbol text => encodeString text
  | .codewscope text scope =>
      toLE 4 (4 + (encodeString text).length + (frame scope.body).length) ++
        (encodeString text ++ frame scope.body)
  | .int32 value => toLE 4 value.toNat
  | .timestamp value => toLE 8 value.toNat
  | .int64 value => toLE 8 value.toNat
  | .decimal128 bytes => bytes.toList
  | .maxkey => []
  | .minkey => []

/-- The bytes of the elements of a document. -/
def Document.body : Document → List UInt8
  | .nil => []
  | .cons key value rest =>
      value.type.toByte :: (key.bytes ++ 0 :: (value.encode ++ rest.body))

end

/-- The encoding of a document. -/
def Document.encode (d : Document) : List UInt8 := frame d.body

/-- A document whose length fits the field for it. -/
structure Root where
  document : Document
  fits : document.encode.length < 2 ^ 31

@[simp] lemma length_frame (body : List UInt8) : (frame body).length = body.length + 5 := by
  simp only [frame, List.length_append, length_toLE, List.length_singleton]
  omega

@[simp] lemma length_encodeString (text : List UInt8) :
    (encodeString text).length = text.length + 5 := by
  simp only [encodeString, List.length_append, length_toLE, List.length_singleton]
  omega

end CBootstrap.Bson
