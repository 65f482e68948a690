import CBootstrap.Bson.Elements
import CBootstrap.Bson.Utf8
import CBootstrap.Lib.Check

/-!
# libbson's validator

`bson_validate` and the functions of `validate.c` behind it.  They step through a document and
through the documents in it with the iterator of `Bson.Internal`, look at the keys and the texts as
the flags ask for it, and stop at the first thing that is not as it should be.

`Accepts` says what they accept of any bytes: at every depth the elements are to come to an end
without an error, and each key, text and document among them is to pass.  `bsonValidate_accepts` is
that they do just that, that none of their assertions ever fails, and that no error is without a
code.  Each function has a specification of its own, `decides_…`, and these are put together as the
functions are.

Left to the iterator are the sizes and the terminators.  It does not look for the one of the code in
a code-with-scope value, so a document can be accepted that is not the encoding of one.
-/

namespace CBootstrap.Bson

open Bytes Checks

/-! ## Flags and errors -/

/-- The bits of `bson_validate_flags_t`, which are also the codes of the errors. -/
inductive ValidateFlag
  | utf8
  | dollarKeys
  | dotKeys
  | utf8AllowNull
  | emptyKeys
  | corrupt
  deriving DecidableEq, Repr

def ValidateFlag.toNat : ValidateFlag → ℕ
  | .utf8 => 1 <<< 0
  | .dollarKeys => 1 <<< 1
  | .dotKeys => 1 <<< 2
  | .utf8AllowNull => 1 <<< 3
  | .emptyKeys => 1 <<< 4
  | .corrupt => 1 <<< 5

/-- `validation_params`. -/
structure ValidationParams where
  allowInvalidUtf8 : Bool
  allowNullInUtf8 : Bool
  allowEmptyKeys : Bool
  allowDotInKeys : Bool
  checkSpecialDollarKeys : Bool
  deriving DecidableEq, Repr

/-- `bson_error_t`. -/
structure BsonError where
  domain : ℕ
  code : ℕ
  message : List UInt8
  deriving DecidableEq, Repr

/-- `bson_set_error`: the message is cut to fit its buffer. -/
def setError (domain code : ℕ) (message : List UInt8) : BsonError :=
  ⟨domain, code, message.take 502⟩

/-- `error_offset` and `error` of a `validator`. -/
structure Failure where
  errorOffset : ℕ
  error : BsonError
  deriving DecidableEq, Repr

/-- What `require_with_error` sets; the domain is `BSON_ERROR_INVALID`. -/
def failure (offset : ℕ) (code : ValidateFlag) (message : List UInt8) : Failure :=
  ⟨offset, setError 3 code.toNat message⟩

/-- `require_advance`, with what is done at the end of the document and at an element. -/
def requireAdvance (iter : BsonIterT) (atEnd atElement : BsonIterT → Check Failure) :
    Check Failure :=
  (nextInternal iter 0).bind fun result =>
    if result.ok then atElement result.iter
    else if result.iter.errOff ≠ 0 then
      fail (failure result.iter.errOff .corrupt (ascii "corrupt BSON"))
    else atEnd result.iter

/-! ## Texts and keys -/

/-- `_maybe_validate_utf8`. -/
def maybeValidateUtf8 (params : ValidationParams) (offset : ℕ) (u8 : List UInt8) :
    Check Failure :=
  if params.allowInvalidUtf8 then pass
  else if bsonUtf8Validate u8 params.allowNullInUtf8 then pass
  else if params.allowNullInUtf8 = false ∧ bsonUtf8Validate u8 true then
    fail (failure offset .utf8AllowNull
      (ascii "UTF-8 string contains a U+0000 (null) character"))
  else fail (failure offset .utf8 (ascii "Text element is not valid UTF-8"))

/-- `_validate_stringlike_element`. -/
def validateStringlikeElement (params : ValidationParams) (iter : BsonIterT) : Check Failure :=
  iter.raw.bind fun data =>
    (u32At data iter.d1).bind fun len =>
      (Block.read data iter.d2 (sub32 len 1)).bind fun u8 => maybeValidateUtf8 params iter.off u8

/-- `_validate_regex_elem`. -/
def validateRegexElem (params : ValidationParams) (iter : BsonIterT) : Check Failure :=
  iter.raw.bind fun data =>
    (cstringAt data iter.d1).bind fun rx =>
      (cstringAt data iter.d2).bind fun opts =>
        (maybeValidateUtf8 params iter.off rx).andThen (maybeValidateUtf8 params iter.off opts)

/-- The key `$`, which is `'$'`. -/
def dollar : UInt8 := 36

/-- `_validate_element_key`. -/
def validateElementKey (params : ValidationParams) (iter : BsonIterT) : Check Failure :=
  iter.raw.bind fun data =>
    (iterKey iter).bind fun key =>
      (iterKeyLen iter).bind fun keyLen =>
        (Block.read data iter.key keyLen).bind fun u8 =>
          (maybeValidateUtf8 params iter.off u8).andThen <|
            (if params.checkSpecialDollarKeys then
              require (key.head? ≠ some dollar) (failure iter.off .dollarKeys
                (ascii "Disallowed '$' in element key: \"" ++ key ++ ascii "\""))
            else pass).andThen <|
            (if params.allowEmptyKeys = false then
              require (keyLen ≠ 0) (failure iter.off .emptyKeys
                (ascii "Element key cannot be an empty string"))
            else pass).andThen <|
            if params.allowDotInKeys = false then
              require (46 ∉ key) (failure iter.off .dotKeys
                (ascii "Disallowed '.' in element key: \"" ++ key ++ ascii "\""))
            else pass

/-! ## Values and documents -/

/-- `bson_iter_type`. -/
def iterType (iter : BsonIterT) : Option BsonType :=
  iter.raw.bind fun data => (u8At data iter.type).bind BsonType.ofByte

/-- The parameters for the scope of a code-with-scope value. -/
def scopeParams : ValidationParams where
  allowInvalidUtf8 := false
  allowNullInUtf8 := true
  allowEmptyKeys := true
  allowDotInKeys := true
  checkSpecialDollarKeys := false

section Open

variable (validateDoc : ValidationParams → List UInt8 → Check Failure) (params : ValidationParams)

/-- `_validate_codewscope_elem`. -/
def validateCodewscopeElem (iter : BsonIterT) : Check Failure :=
  iter.raw.bind fun data =>
    (codewscopeAt data iter.d2 iter.d3 iter.d4).bind fun (u8, doc) =>
      (require (bsonInitStatic doc = true)
        (failure iter.off .corrupt (ascii "corrupt scope document"))).andThen <|
        (maybeValidateUtf8 params iter.off u8).andThen <|
        (validateDoc scopeParams doc).orElse fun e =>
          (iterKey iter).bind fun key =>
            fail ⟨e.errorOffset + iter.off, setError e.error.domain e.error.code
              (ascii "Error in scope document for element \"" ++ key ++ ascii "\": " ++
                e.error.message)⟩

/-- `_validate_element_value`. -/
def validateElementValue (iter : BsonIterT) : Check Failure :=
  (iterType iter).bind fun
    | .eod => none
    | .double | .null | .oid | .int32 | .int64 | .minkey | .maxkey | .timestamp | .undefined
    | .decimal128 | .dateTime | .bool | .binary => pass
    | .dbpointer | .symbol | .code | .utf8 => validateStringlikeElement params iter
    | .document | .array =>
        iter.raw.bind fun data =>
          (documentAt data iter.d1).bind fun doc =>
            (require (bsonInitStatic doc = true)
              (failure iter.off .corrupt (ascii "corrupt BSON"))).andThen <|
              (validateDoc params doc).orElse fun e =>
                (iterKeyLen iter).bind fun keyLen =>
                  fail ⟨e.errorOffset + (iter.off + keyLen + 2), e.error⟩
    | .regex => validateRegexElem params iter
    | .codewscope => validateCodewscopeElem validateDoc params iter

/-- `_validate_element`. -/
def validateElement (iter : BsonIterT) : Check Failure :=
  (validateElementKey params iter).andThen (validateElementValue validateDoc params iter)

/-- `_validate_remaining_elements`; `fuel` bounds the passes of the loop. -/
def validateRemainingElements : ℕ → BsonIterT → Check Failure
  | 0, _ => none
  | fuel + 1, iter =>
      (validateElement validateDoc params iter).andThen
        (requireAdvance iter (fun _ => pass) (validateRemainingElements fuel))

/-- What `_validate_dbref` does behind `$id`. -/
def validateDbrefDb (fuel : ℕ) (iter : BsonIterT) : Check Failure :=
  (iterKey iter).bind fun key =>
    if key = ascii "$db" then
      (iterType iter).bind fun type =>
        (require (type = .utf8) (failure iter.off .dollarKeys
          (ascii "$db element in DBRef must be a UTF-8 element"))).andThen <|
          (validateElementValue validateDoc params iter).andThen <|
          requireAdvance iter (fun _ => pass) (validateRemainingElements validateDoc params fuel)
    else validateRemainingElements validateDoc params fuel iter

/-- `_validate_dbref`, with its assertion. -/
def validateDbref (fuel : ℕ) (iter : BsonIterT) : Check Failure :=
  (iterKey iter).bind fun key =>
    (iterType iter).bind fun type =>
      if key = ascii "$ref" then
        (require (type = .utf8) (failure iter.off .dollarKeys
          (ascii "$ref element must be a UTF-8 element"))).andThen <|
          (validateElementValue validateDoc params iter).andThen <|
          requireAdvance iter
            (fun iter => fail (failure iter.off .dollarKeys
              (ascii "Expected an $id element following $ref")))
            fun iter =>
              (iterKey iter).bind fun key =>
                (require (key = ascii "$id") (failure iter.off .dollarKeys
                  (ascii "Expected an $id element following $ref"))).andThen <|
                  (validateElementValue validateDoc params iter).andThen <|
                  requireAdvance iter (fun _ => pass) (validateDbrefDb validateDoc params fuel)
      else none

/-- `_validate_dollar_doc`, with its assertion. -/
def validateDollarDoc (fuel : ℕ) (iter : BsonIterT) : Check Failure :=
  (iterKey iter).bind fun key =>
    if key = ascii "$ref" then validateDbref validateDoc params fuel iter
    else
      match validateElementKey params iter with
      | some (.ok ()) => none
      | other => other

end Open

/-- `_validate_doc`.  `fuel` bounds the documents inside one another. -/
def validateDoc : ℕ → ValidationParams → List UInt8 → ℕ → Check Failure
  | 0, _, _, _ => none
  | fuel + 1, params, data, depth =>
      (require (depth ≤ 500) (failure 0 .corrupt
        (ascii "BSON document nesting depth is too deep"))).andThen <|
        (require (¬data.length < 5) (failure 0 .corrupt
          (ascii "Document header corruption, unable to iterate"))).andThen <|
        requireAdvance (iterInit data) (fun _ => pass) fun iter =>
          let nested (params : ValidationParams) (doc : List UInt8) : Check Failure :=
            validateDoc fuel params doc (depth + 1)
          (iterKey iter).bind fun key =>
            if params.checkSpecialDollarKeys ∧ key.head? = some dollar then
              validateDollarDoc nested params data.length iter
            else validateRemainingElements nested params data.length iter

/-- The parameters `_bson_validate_impl_v2` takes from the flags. -/
def paramsOf (flags : ℕ) : ValidationParams where
  allowInvalidUtf8 := flags &&& ValidateFlag.utf8.toNat = 0
  allowNullInUtf8 := flags &&& ValidateFlag.utf8AllowNull.toNat ≠ 0
  checkSpecialDollarKeys := flags &&& ValidateFlag.dollarKeys.toNat ≠ 0
  allowDotInKeys := flags &&& ValidateFlag.dotKeys.toNat = 0
  allowEmptyKeys := flags &&& ValidateFlag.emptyKeys.toNat = 0

/-- `bson_validate_with_error_and_offset`: whether the document is valid, the offset and the error,
and the assertion that there is an error exactly if it is not. -/
def bsonValidate (bson : List UInt8) (flags : ℕ) : Option (Bool × ℕ × BsonError) :=
  (validateDoc 502 (paramsOf flags) bson 0).bind fun result =>
    let (okay, v) : Bool × Failure :=
      match result with
      | .ok () => (true, ⟨0, ⟨0, 0, []⟩⟩)
      | .error e => (false, e)
    if okay = (v.error.code == 0) then some (okay, v.errorOffset, v.error) else none

/-! ## What is accepted -/

/-- A text that passes. -/
def ValidationParams.Text (params : ValidationParams) (u8 : List UInt8) : Prop :=
  params.allowInvalidUtf8 = true ∨ bsonUtf8Validate u8 params.allowNullInUtf8 = true

/-- A key that passes. -/
structure ValidationParams.Key (params : ValidationParams) (key : List UInt8) : Prop where
  text : params.Text key
  dollar : params.checkSpecialDollarKeys = true → key.head? ≠ some dollar
  empty : params.allowEmptyKeys = false → key ≠ []
  dot : params.allowDotInKeys = false → 46 ∉ key

/-- The type of a value. -/
def RawValue.type : RawValue → BsonType
  | .double _ => .double
  | .utf8 _ => .utf8
  | .document _ => .document
  | .array _ => .array
  | .binary _ _ => .binary
  | .undefined => .undefined
  | .oid _ => .oid
  | .bool _ => .bool
  | .dateTime _ => .dateTime
  | .null => .null
  | .regex _ _ => .regex
  | .dbpointer _ _ => .dbpointer
  | .code _ => .code
  | .symbol _ => .symbol
  | .codewscope _ _ => .codewscope
  | .int32 _ => .int32
  | .timestamp _ _ => .timestamp
  | .int64 _ => .int64
  | .decimal128 _ _ => .decimal128
  | .maxkey => .maxkey
  | .minkey => .minkey

/-- The texts in a value. -/
def RawValue.texts : RawValue → List (List UInt8)
  | .utf8 text | .code text | .symbol text | .dbpointer text _ | .codewscope text _ => [text]
  | .regex pattern options => [pattern, options]
  | _ => []

/-- The document in a value, and the parameters it is to be validated with. -/
def RawValue.documents (params : ValidationParams) :
    RawValue → List (ValidationParams × List UInt8)
  | .document doc | .array doc => [(params, doc)]
  | .codewscope _ scope => [(scopeParams, scope)]
  | _ => []

/-- Elements with keys that pass. -/
def PlainKeys (params : ValidationParams) (elements : List (List UInt8 × RawValue)) : Prop :=
  ∀ e ∈ elements, params.Key e.1

/-- The elements of a DBRef behind `$id`. -/
def DbrefRest (params : ValidationParams) : List (List UInt8 × RawValue) → Prop
  | [] => True
  | (key, value) :: rest =>
      if key = ascii "$db" then value.type = .utf8 ∧ PlainKeys params rest
      else PlainKeys params ((key, value) :: rest)

/-- The elements of a DBRef behind `$ref`. -/
def DbrefId (params : ValidationParams) : List (List UInt8 × RawValue) → Prop
  | [] => False
  | (key, _) :: rest => key = ascii "$id" ∧ DbrefRest params rest

/-- The elements of a document, as far as their keys go: a DBRef where the first key is special. -/
def KeysAllowed (params : ValidationParams) : List (List UInt8 × RawValue) → Prop
  | [] => True
  | (key, value) :: rest =>
      if params.checkSpecialDollarKeys ∧ key.head? = some dollar then
        key = ascii "$ref" ∧ value.type = .utf8 ∧ DbrefId params rest
      else PlainKeys params ((key, value) :: rest)

/-- The documents `_validate_doc` accepts: they are not too deep, their elements come to an end
without an error, the keys pass, and so do all texts and all documents in the values. -/
inductive Accepts : ValidationParams → ℕ → List UInt8 → Prop
  | intro {params depth data elements final} (hdepth : depth ≤ 500)
      (helements : collect data.length (iterInit data) = some (elements, final))
      (hend : final.errOff = 0) (hkeys : KeysAllowed params elements)
      (htexts : ∀ e ∈ elements, ∀ text ∈ e.2.texts, params.Text text)
      (hheaders : ∀ e ∈ elements, ∀ doc ∈ e.2.documents params, bsonInitStatic doc.2 = true)
      (hdocuments : ∀ e ∈ elements, ∀ doc ∈ e.2.documents params,
        Accepts doc.1 (depth + 1) doc.2) :
      Accepts params depth data

/-- A value that passes in a document at the given depth. -/
structure ValueAccepted (params : ValidationParams) (depth : ℕ) (value : RawValue) : Prop where
  texts : ∀ text ∈ value.texts, params.Text text
  headers : ∀ doc ∈ value.documents params, bsonInitStatic doc.2 = true
  documents : ∀ doc ∈ value.documents params, Accepts doc.1 (depth + 1) doc.2

/-- An error has a code. -/
def HasCode (e : Failure) : Prop := e.error.code ≠ 0

lemma hasCode_failure (offset : ℕ) (code : ValidateFlag) (message : List UInt8) :
    HasCode (failure offset code message) := by
  cases code <;> simp [HasCode, failure, setError, ValidateFlag.toNat]

/-! ## Its parts -/

lemma decides_maybeValidateUtf8 (params : ValidationParams) (offset : ℕ) (u8 : List UInt8) :
    Decides HasCode (maybeValidateUtf8 params offset u8) (params.Text u8) := by
  rw [maybeValidateUtf8]
  split_ifs with hinvalid hvalid hnull
  · exact decides_pass (.inl hinvalid)
  · exact decides_pass (.inr hvalid)
  · exact decides_fail (not_or.mpr ⟨hinvalid, hvalid⟩) (hasCode_failure _ _ _)
  · exact decides_fail (not_or.mpr ⟨hinvalid, hvalid⟩) (hasCode_failure _ _ _)

/-- The type of what is read. -/
lemma valueAt_type {data : List UInt8} {type : BsonType} {d1 d2 d3 d4 : ℕ} {value : RawValue}
    (h : valueAt data type d1 d2 d3 d4 = some (some value)) : value.type = type := by
  cases type with
  | null | undefined | maxkey | minkey =>
      cases h
      rfl
  | eod => cases h
  | regex =>
      obtain ⟨regex, -, hmap⟩ := Option.bind_eq_some_iff.mp h
      obtain ⟨options, -, hvalue⟩ := Option.map_eq_some_iff.mp hmap
      cases hvalue
      rfl
  | timestamp | decimal128 =>
      obtain ⟨low, -, hmap⟩ := Option.bind_eq_some_iff.mp h
      obtain ⟨high, -, hvalue⟩ := Option.map_eq_some_iff.mp hmap
      cases hvalue
      rfl
  | _ =>
      obtain ⟨x, -, hvalue⟩ := Option.map_eq_some_iff.mp h
      cases hvalue
      rfl

/-- In a value without a document only the texts are looked at. -/
lemma valueAccepted_iff_texts {params : ValidationParams} {depth : ℕ} {value : RawValue}
    (hdocs : value.documents params = []) :
    ValueAccepted params depth value ↔ ∀ text ∈ value.texts, params.Text text := by
  refine ⟨fun h => h.texts, fun h => ⟨h, ?_, ?_⟩⟩
  · rw [hdocs]
    simp
  · rw [hdocs]
    simp

lemma plain_of_type {params : ValidationParams} {value : RawValue}
    (h : value.type ∉ [.utf8, .document, .array, .regex, .dbpointer, .code, .symbol,
      .codewscope]) : value.texts = [] ∧ value.documents params = [] := by
  cases value <;> first | exact ⟨rfl, rfl⟩ | simp [RawValue.type] at h

section Element

variable {prev next : BsonIter} (hnext : bsonIterNext prev = some next)
  (hsize : next.raw.length < 2 ^ 31)

include hnext

lemma iterType_atElement : iterType (.atElement next) = some (bsonIterType next) := by
  obtain ⟨-, -, -, -, htype, -, -⟩ := bsonIterNext_inv hnext
  simp only [iterType, BsonIterT.atElement, Option.bind_some, u8At_element hnext]
  exact htype

lemma valueAt_element {value : RawValue}
    (hvalue : iterValue (.atElement next) = some (some value)) :
    valueAt next.raw (bsonIterType next) next.d1
      (dataFields next.raw (bsonIterType next) next.d1).1
      (dataFields next.raw (bsonIterType next) next.d1).2.1
      (dataFields next.raw (bsonIterType next) next.d1).2.2 = some (some value) := by
  obtain ⟨-, -, -, -, htype, -, -⟩ := bsonIterNext_inv hnext
  simp only [iterValue, BsonIterT.atElement, Option.bind_some, u8At_element hnext, htype] at hvalue
  exact hvalue

include hsize

/-- The key of an element, its length, and the bytes of that length. -/
lemma key_atElement : iterKey (.atElement next) = some (bsonIterKey next) ∧
    iterKeyLen (.atElement next) = some (bsonIterKey next).length ∧
      Block.read next.raw (BsonIterT.atElement next).key (bsonIterKey next).length =
        some (bsonIterKey next) := by
  obtain ⟨-, -, hnul, hpos, -, -, -⟩ := bsonIterNext_inv hnext
  have hlt := findNul_lt hnul
  have hle := le_of_findNul hnul
  have hkey := iterKey_atElement hnext
  have hread := hkey
  simp only [iterKey, BsonIterT.atElement, Option.bind_some] at hread
  rw [cstringAt_inside hnul, Option.some.injEq] at hread
  have hlen : (bsonIterKey next).length = next.d1 - 1 - (next.off + 1) := by
    rw [← hread, List.length_take, List.length_drop]
    omega
  have hgt : (BsonIterT.atElement next).d1 > (BsonIterT.atElement next).key := by
    simp only [BsonIterT.atElement]
    omega
  refine ⟨hkey, ?_, ?_⟩
  · rw [iterKeyLen, if_pos hgt]
    simp only [BsonIterT.atElement]
    rw [sub32_eq (show next.off + 1 ≤ next.d1 by omega) (by omega), sub32_eq (by omega) (by omega),
      hlen]
    exact congrArg some (by omega)
  · simp only [BsonIterT.atElement]
    rw [Block.read, if_pos (by omega), hlen, hread]

lemma decides_validateElementKey (params : ValidationParams) :
    Decides HasCode (validateElementKey params (.atElement next))
      (params.Key (bsonIterKey next)) := by
  obtain ⟨hkey, hlen, hread⟩ := key_atElement hnext hsize
  have hraw : (BsonIterT.atElement next).raw = some next.raw := rfl
  simp only [validateElementKey, hkey, hlen, hread, hraw, Option.bind_some]
  refine ((decides_maybeValidateUtf8 _ _ _).andThen fun _ =>
    (Decides.ite (decides_require (hasCode_failure _ _ _))).andThen fun _ =>
    (Decides.ite (decides_require (hasCode_failure _ _ _))).andThen fun _ =>
    Decides.ite (decides_require (hasCode_failure _ _ _))).congr ?_
  constructor
  · rintro ⟨htext, hdollar, hempty, hdot⟩
    exact ⟨htext, hdollar, fun h => by simpa using hempty h, hdot⟩
  · rintro ⟨htext, hdollar, hempty, hdot⟩
    exact ⟨htext, hdollar, fun h => by simpa using hempty h, hdot⟩

variable {params : ValidationParams} {value : RawValue}
  (hvalue : iterValue (.atElement next) = some (some value))

include hvalue

omit hsize in
lemma type_element : value.type = bsonIterType next := valueAt_type (valueAt_element hnext hvalue)

omit hnext hsize hvalue in
/-- The string of an element that has one where a `utf8` has it. -/
lemma validateStringlikeElement_eq {str : List UInt8}
    (hd2 : (BsonIterT.atElement next).d2 = next.d1 + 4) (hroom : next.d1 + 4 ≤ next.raw.length)
    (hpos : readU32le next.raw next.d1 ≠ 0)
    (hread : Block.read next.raw (next.d1 + 4) (readU32le next.raw next.d1 - 1) = some str) :
    validateStringlikeElement params (.atElement next) = maybeValidateUtf8 params next.off str := by
  have hl := readU32le_lt next.raw next.d1
  have hraw : (BsonIterT.atElement next).raw = some next.raw := rfl
  have hd1 : (BsonIterT.atElement next).d1 = next.d1 := rfl
  have hoff : (BsonIterT.atElement next).off = next.off := rfl
  have hlen : sub32 (readU32le next.raw next.d1) 1 = readU32le next.raw next.d1 - 1 :=
    sub32_eq (by omega) hl
  rw [validateStringlikeElement, hraw, Option.bind_some, hd1, u32At_eq hroom, Option.bind_some,
    hd2, hlen, hread, Option.bind_some, hoff]

/-- A text, a code and a symbol. -/
lemma decides_string (htype : bsonIterType next = .utf8 ∨ bsonIterType next = .code ∨
    bsonIterType next = .symbol) {depth : ℕ} :
    Decides HasCode (validateStringlikeElement params (.atElement next))
      (ValueAccepted params depth value) := by
  obtain ⟨-, -, -, -, -, hfill, -⟩ := bsonIterNext_inv hnext
  have hread := valueAt_element hnext hvalue
  have hfill' : fillDataFields next.raw .utf8 next.d1 = some next.nextOff := by
    rcases htype with h | h | h <;> (rw [h] at hfill; exact hfill)
  have hd2 : (BsonIterT.atElement next).d2 = next.d1 + 4 := by
    rcases htype with h | h | h <;> simp [BsonIterT.atElement, h, dataFields]
  obtain ⟨str, hstr, htexts, hdocs⟩ : ∃ str, stringAt next.raw next.d1 (next.d1 + 4) = some str ∧
      value.texts = [str] ∧ value.documents params = [] := by
    rcases htype with h | h | h
    all_goals
      rw [h] at hread
      obtain ⟨str, hstr, hvalue⟩ := Option.map_eq_some_iff.mp hread
      cases hvalue
      exact ⟨str, hstr, rfl, rfl⟩
  simp only [fillDataFields] at hfill'
  split_ifs at hfill' with hroom hlong hend hlast
  push Not at hroom hend
  have hpositive : ¬Int.bmod (readU32le next.raw next.d1) (2 ^ 32) ≤ 0 := by
    rw [Int.bmod_eq_of_le_mul_two (by omega) (by omega)]
    omega
  rw [stringAt, utf8LenUnsafe, u32At_eq (by omega), Option.map_some, Option.bind_some,
    if_neg hpositive] at hstr
  rw [validateStringlikeElement_eq hd2 (by omega) hend.1 hstr, valueAccepted_iff_texts hdocs,
    htexts]
  exact (decides_maybeValidateUtf8 _ _ _).congr (by simp)

omit hsize in
/-- A DBPointer, whose string is where a text has it. -/
lemma decides_dbpointer (htype : bsonIterType next = .dbpointer) {depth : ℕ} :
    Decides HasCode (validateStringlikeElement params (.atElement next))
      (ValueAccepted params depth value) := by
  obtain ⟨-, -, -, -, -, hfill, hlt⟩ := bsonIterNext_inv hnext
  have hread := valueAt_element hnext hvalue
  rw [htype] at hfill hread
  have hd2 : (BsonIterT.atElement next).d2 = next.d1 + 4 := by
    simp [BsonIterT.atElement, htype, dataFields]
  simp only [fillDataFields] at hfill
  split_ifs at hfill with hroom hlong hlast
  push Not at hroom hlong
  obtain ⟨pointer, hpointer, hvalue'⟩ := Option.map_eq_some_iff.mp hread
  cases hvalue'
  simp only [dataFields, dbpointerAt] at hpointer
  rw [u32At_eq (by omega), Option.bind_some, if_pos (Nat.pos_of_ne_zero hlong.1)] at hpointer
  obtain ⟨collection, hcollection, hmap⟩ := Option.bind_eq_some_iff.mp hpointer
  obtain ⟨oid, -, rfl⟩ := Option.map_eq_some_iff.mp hmap
  rw [validateStringlikeElement_eq hd2 (by omega) hlong.1 hcollection, valueAccepted_iff_texts rfl]
  exact (decides_maybeValidateUtf8 _ _ _).congr (by simp [RawValue.texts])

omit hsize in
/-- A regular expression. -/
lemma decides_regex (htype : bsonIterType next = .regex) {depth : ℕ} :
    Decides HasCode (validateRegexElem params (.atElement next))
      (ValueAccepted params depth value) := by
  have hread := valueAt_element hnext hvalue
  rw [htype] at hread
  obtain ⟨pattern, hpattern, hmap⟩ := Option.bind_eq_some_iff.mp hread
  obtain ⟨options, hoptions, hvalue'⟩ := Option.map_eq_some_iff.mp hmap
  cases hvalue'
  have hd1 : (BsonIterT.atElement next).d1 = next.d1 := rfl
  have hd2 : (BsonIterT.atElement next).d2 = (dataFields next.raw .regex next.d1).1 := by
    simp [BsonIterT.atElement, htype]
  have hraw : (BsonIterT.atElement next).raw = some next.raw := rfl
  simp only [validateRegexElem, hraw, hd1, hd2, hpattern, hoptions, Option.bind_some]
  rw [valueAccepted_iff_texts rfl]
  exact ((decides_maybeValidateUtf8 _ _ _).andThen fun _ => decides_maybeValidateUtf8 _ _ _).congr
    (by simp [RawValue.texts])

variable {validateDoc : ValidationParams → List UInt8 → Check Failure} {depth : ℕ}
  (hrec : ∀ params doc, bsonInitStatic doc = true →
    Decides HasCode (validateDoc params doc) (Accepts params (depth + 1) doc))

include hrec

/-- A document or an array: the errors in it are moved to where it is. -/
lemma decides_document (htype : bsonIterType next = .document ∨ bsonIterType next = .array) :
    Decides HasCode (validateElementValue validateDoc params (.atElement next))
      (ValueAccepted params depth value) := by
  obtain ⟨-, hlen, -⟩ := key_atElement hnext hsize
  have hread := valueAt_element hnext hvalue
  have hraw : (BsonIterT.atElement next).raw = some next.raw := rfl
  have hd1 : (BsonIterT.atElement next).d1 = next.d1 := rfl
  obtain ⟨doc, hdoc, htexts, hdocs⟩ : ∃ doc, documentAt next.raw next.d1 = some doc ∧
      value.texts = [] ∧ value.documents params = [(params, doc)] := by
    rcases htype with h | h
    all_goals
      rw [h] at hread
      obtain ⟨doc, hdoc, hvalue⟩ := Option.map_eq_some_iff.mp hread
      cases hvalue
      exact ⟨doc, hdoc, rfl, rfl⟩
  have hcheck : validateElementValue validateDoc params (.atElement next) =
      (require (bsonInitStatic doc = true)
        (failure next.off .corrupt (ascii "corrupt BSON"))).andThen
        ((validateDoc params doc).orElse fun e =>
          fail ⟨e.errorOffset + (next.off + (bsonIterKey next).length + 2), e.error⟩) := by
    rw [validateElementValue, iterType_atElement hnext, Option.bind_some]
    rcases htype with h | h
    all_goals
      rw [h]
      simp only [hraw, hd1, hdoc, hlen, Option.bind_some]
      rfl
  rw [hcheck]
  refine Decides.congr ((decides_require (hasCode_failure _ _ _)).andThen fun hheader =>
    (hrec params doc hheader).orElse ?_) ?_
  · intro e he
    exact ⟨_, rfl, he⟩
  constructor
  · rintro ⟨hheader, haccepts⟩
    refine ⟨?_, ?_, ?_⟩
    · rw [htexts]
      simp
    · rw [hdocs]
      simpa using hheader
    · rw [hdocs]
      simpa using haccepts
  · intro h
    have hmem : (params, doc) ∈ value.documents params := by
      rw [hdocs]
      exact List.mem_singleton_self _
    exact ⟨h.headers _ hmem, h.documents _ hmem⟩

/-- A code with its scope, which has parameters of its own. -/
lemma decides_codewscope (htype : bsonIterType next = .codewscope) :
    Decides HasCode (validateCodewscopeElem validateDoc params (.atElement next))
      (ValueAccepted params depth value) := by
  obtain ⟨hkey, -, -⟩ := key_atElement hnext hsize
  have hread := valueAt_element hnext hvalue
  have hraw : (BsonIterT.atElement next).raw = some next.raw := rfl
  have hfields : (BsonIterT.atElement next).d2 = (dataFields next.raw .codewscope next.d1).1 ∧
      (BsonIterT.atElement next).d3 = (dataFields next.raw .codewscope next.d1).2.1 ∧
        (BsonIterT.atElement next).d4 = (dataFields next.raw .codewscope next.d1).2.2 := by
    simp [BsonIterT.atElement, htype]
  rw [htype] at hread
  obtain ⟨⟨code, scope⟩, hcode, hvalue'⟩ := Option.map_eq_some_iff.mp hread
  cases hvalue'
  rw [validateCodewscopeElem, hraw, Option.bind_some, hfields.1, hfields.2.1, hfields.2.2, hcode]
  simp only [Option.bind_some, hkey]
  refine Decides.congr ((decides_require (hasCode_failure _ _ _)).andThen fun hheader =>
    (decides_maybeValidateUtf8 _ _ _).andThen fun _ =>
    (hrec scopeParams scope hheader).orElse ?_) ?_
  · intro e he
    exact ⟨_, rfl, he⟩
  constructor
  · rintro ⟨hheader, htext, haccepts⟩
    exact ⟨by simpa [RawValue.texts] using htext, by simpa [RawValue.documents] using hheader,
      by simpa [RawValue.documents] using haccepts⟩
  · intro h
    exact ⟨h.headers (scopeParams, scope) (List.mem_singleton_self _),
      h.texts code (List.mem_singleton_self _),
      h.documents (scopeParams, scope) (List.mem_singleton_self _)⟩

/-- **The value of an element.** -/
lemma decides_validateElementValue :
    Decides HasCode (validateElementValue validateDoc params (.atElement next))
      (ValueAccepted params depth value) := by
  have htype := type_element hnext hvalue
  cases hcase : bsonIterType next with
  | document => exact decides_document hnext hsize hvalue hrec (.inl hcase)
  | array => exact decides_document hnext hsize hvalue hrec (.inr hcase)
  | eod =>
      rw [hcase] at htype
      cases value <;> cases htype
  | utf8 =>
      rw [validateElementValue, iterType_atElement hnext, Option.bind_some, hcase]
      exact decides_string hnext hsize hvalue (.inl hcase)
  | code =>
      rw [validateElementValue, iterType_atElement hnext, Option.bind_some, hcase]
      exact decides_string hnext hsize hvalue (.inr (.inl hcase))
  | symbol =>
      rw [validateElementValue, iterType_atElement hnext, Option.bind_some, hcase]
      exact decides_string hnext hsize hvalue (.inr (.inr hcase))
  | dbpointer =>
      rw [validateElementValue, iterType_atElement hnext, Option.bind_some, hcase]
      exact decides_dbpointer hnext hvalue hcase
  | regex =>
      rw [validateElementValue, iterType_atElement hnext, Option.bind_some, hcase]
      exact decides_regex hnext hvalue hcase
  | codewscope =>
      rw [validateElementValue, iterType_atElement hnext, Option.bind_some, hcase]
      exact decides_codewscope hnext hsize hvalue hrec hcase
  | _ =>
      rw [validateElementValue, iterType_atElement hnext, Option.bind_some, hcase]
      have hplain : value.texts = [] ∧ value.documents params = [] :=
        plain_of_type (by rw [htype, hcase]; simp)
      obtain ⟨htexts, hdocs⟩ := hplain
      exact decides_pass ((valueAccepted_iff_texts hdocs).mpr (by rw [htexts]; simp))

end Element

/-! ## Its loops -/

/-- An iterator at an element with the given value, and what `collect` gives from there. -/
structure AtElement (data : List UInt8) (fuel : ℕ) (next : BsonIter) (value : RawValue)
    (rest : List (List UInt8 × RawValue)) (final : BsonIterT) : Prop where
  stepped : ∃ prev, bsonIterNext prev = some next
  valid : (BsonIterT.atElement next).Valid data
  value : iterValue (.atElement next) = some (some value)
  rest : collect fuel (.atElement next) = some (rest, final)

lemma collect_mono {iter : BsonIterT} {fuel more : ℕ}
    {result : List (List UInt8 × RawValue) × BsonIterT} (h : collect fuel iter = some result)
    (hle : fuel ≤ more) : collect more iter = some result := by
  induction fuel generalizing iter more result with
  | zero => cases h
  | succ fuel ih =>
      obtain ⟨more, rfl⟩ := Nat.exists_eq_add_of_le' hle
      rw [collect] at h
      obtain ⟨next, hnext, h⟩ := Option.bind_eq_some_iff.mp h
      rw [← Nat.add_assoc, collect, hnext, Option.bind_some]
      by_cases hok : next.ok
      swap
      · rw [if_neg hok] at h ⊢
        exact h
      rw [if_pos hok] at h ⊢
      obtain ⟨key, hkey, h⟩ := Option.bind_eq_some_iff.mp h
      obtain ⟨value, hvalue, h⟩ := Option.bind_eq_some_iff.mp h
      obtain ⟨value', hvalue', h⟩ := Option.bind_eq_some_iff.mp h
      obtain ⟨rest, hrest, h⟩ := Option.map_eq_some_iff.mp h
      rw [hkey, Option.bind_some, hvalue, Option.bind_some, hvalue', Option.bind_some,
        ih hrest (by omega), Option.map_some, h]

section Loops

variable {data : List UInt8} {fuel : ℕ} {next : BsonIter} {value : RawValue}
  {elements rest : List (List UInt8 × RawValue)} {final : BsonIterT}

lemma AtElement.mono (h : AtElement data fuel next value rest final) {more : ℕ}
    (hle : fuel ≤ more) : AtElement data more next value rest final :=
  ⟨h.stepped, h.valid, h.value, collect_mono h.rest hle⟩

lemma AtElement.size (h : AtElement data fuel next value rest final) :
    next.raw.length < 2 ^ 31 := by
  have hraw := h.valid.raw
  simp only [BsonIterT.atElement, Option.some.injEq] at hraw
  rw [hraw]
  exact h.valid.size

/-- **One step**: what is done at the end is to decide for no elements, and what is done at an
element for that one and those behind it. -/
lemma decides_requireAdvance {iter : BsonIterT} (hvalid : iter.Valid data)
    (hcollect : collect fuel iter = some (elements, final))
    {P : List (List UInt8 × RawValue) → Prop} {atEnd atElement : BsonIterT → Check Failure}
    (hend : ∀ iter, Decides HasCode (atEnd iter) (P []))
    (helement : ∀ less next value rest, less + 1 = fuel →
      AtElement data less next value rest final →
        Decides HasCode (atElement (.atElement next))
          (final.errOff = 0 ∧ P ((bsonIterKey next, value) :: rest))) :
    Decides HasCode (requireAdvance iter atEnd atElement) (final.errOff = 0 ∧ P elements) := by
  cases fuel with
  | zero => cases hcollect
  | succ fuel =>
      rw [requireAdvance]
      obtain ⟨next, hpure, hnext⟩ | ⟨-, result, hnext, hok, -, -⟩ := nextInternal_eq hvalid
      · obtain ⟨value, hvalue⟩ := iterValue_atElement hpure
        rw [collect_of_element hnext (iterKey_atElement hpure) hvalue] at hcollect
        obtain ⟨⟨rest, final'⟩, hrest, heq⟩ := Option.map_eq_some_iff.mp hcollect
        cases heq
        rw [hnext, Option.bind_some, if_pos rfl]
        exact helement fuel next value rest rfl
          ⟨⟨_, hpure⟩, hvalid.atElement hpure, hvalue, hrest⟩
      · rw [collect_of_stop hnext hok] at hcollect
        cases hcollect
        rw [hnext, Option.bind_some, hok, if_neg Bool.false_ne_true]
        by_cases herr : result.iter.errOff = 0
        · rw [if_neg (not_not.mpr herr)]
          exact (hend result.iter).congr (by simp [herr])
        · rw [if_pos herr]
          exact decides_fail (fun h => herr h.1) (hasCode_failure _ _ _)

variable {validateDoc : ValidationParams → List UInt8 → Check Failure} {params : ValidationParams}
  {depth : ℕ}
  (hrec : ∀ params doc, bsonInitStatic doc = true →
    Decides HasCode (validateDoc params doc) (Accepts params (depth + 1) doc))

include hrec

lemma AtElement.decides_value (h : AtElement data fuel next value rest final) :
    Decides HasCode (validateElementValue validateDoc params (.atElement next))
      (ValueAccepted params depth value) := by
  obtain ⟨prev, hprev⟩ := h.stepped
  exact decides_validateElementValue hprev h.size h.value hrec

/-- The loop over the rest of the elements. -/
lemma decides_validateRemainingElements (h : AtElement data fuel next value rest final) :
    Decides HasCode (validateRemainingElements validateDoc params fuel (.atElement next))
      (final.errOff = 0 ∧ ∀ e ∈ (bsonIterKey next, value) :: rest,
        params.Key e.1 ∧ ValueAccepted params depth e.2) := by
  induction fuel generalizing next value rest with
  | zero => cases h.rest
  | succ fuel ih =>
      obtain ⟨prev, hprev⟩ := h.stepped
      rw [validateRemainingElements, validateElement]
      refine Decides.congr (((decides_validateElementKey hprev h.size params).andThen fun _ =>
        h.decides_value hrec).andThen fun _ => decides_requireAdvance h.valid h.rest
          (P := fun elements => ∀ e ∈ elements, params.Key e.1 ∧ ValueAccepted params depth e.2)
          (fun _ => decides_pass (by simp)) ?_) ?_
      · intro less next value rest hless helement
        cases hless
        exact ih helement
      · rw [List.forall_mem_cons]
        tauto

/-- The elements behind `$id`. -/
lemma decides_validateDbrefDb (h : AtElement data fuel next value rest final) {more : ℕ}
    (hmore : fuel ≤ more) :
    Decides HasCode (validateDbrefDb validateDoc params more (.atElement next))
      (final.errOff = 0 ∧ DbrefRest params ((bsonIterKey next, value) :: rest) ∧
        ∀ e ∈ (bsonIterKey next, value) :: rest, ValueAccepted params depth e.2) := by
  obtain ⟨prev, hprev⟩ := h.stepped
  have htype := type_element hprev h.value
  rw [validateDbrefDb, (key_atElement hprev h.size).1, Option.bind_some, DbrefRest]
  by_cases hkey : bsonIterKey next = ascii "$db"
  · rw [if_pos hkey, if_pos hkey, iterType_atElement hprev, Option.bind_some, ← htype]
    refine Decides.congr ((decides_require (hasCode_failure _ _ _)).andThen fun _ =>
      (h.decides_value hrec).andThen fun _ => decides_requireAdvance h.valid h.rest
        (P := fun elements => ∀ e ∈ elements, params.Key e.1 ∧ ValueAccepted params depth e.2)
        (fun _ => decides_pass (by simp)) ?_) ?_
    · intro less next value rest hless helement
      exact decides_validateRemainingElements hrec (helement.mono (by omega))
    · rw [List.forall_mem_cons, PlainKeys, forall₂_and]
      tauto
  · rw [if_neg hkey, if_neg hkey]
    refine (decides_validateRemainingElements hrec (h.mono hmore)).congr ?_
    rw [PlainKeys, forall₂_and]

/-- A document whose first key is `$ref`. -/
lemma decides_validateDbref (h : AtElement data fuel next value rest final) {more : ℕ}
    (hmore : fuel ≤ more) (hkey : bsonIterKey next = ascii "$ref") :
    Decides HasCode (validateDbref validateDoc params more (.atElement next))
      (final.errOff = 0 ∧ (value.type = .utf8 ∧ DbrefId params rest) ∧
        ∀ e ∈ (bsonIterKey next, value) :: rest, ValueAccepted params depth e.2) := by
  obtain ⟨prev, hprev⟩ := h.stepped
  have htype := type_element hprev h.value
  rw [validateDbref, (key_atElement hprev h.size).1, Option.bind_some, iterType_atElement hprev,
    Option.bind_some, ← htype, if_pos hkey]
  refine Decides.congr ((decides_require (hasCode_failure _ _ _)).andThen fun _ =>
    (h.decides_value hrec).andThen fun _ => decides_requireAdvance h.valid h.rest
      (P := fun elements => DbrefId params elements ∧
        ∀ e ∈ elements, ValueAccepted params depth e.2)
      (fun _ => decides_fail (fun h => h.1) (hasCode_failure _ _ _)) ?_) ?_
  · intro less next value rest hless helement
    obtain ⟨prev, hprev⟩ := helement.stepped
    rw [(key_atElement hprev helement.size).1, Option.bind_some]
    refine Decides.congr ((decides_require (hasCode_failure _ _ _)).andThen fun _ =>
      (helement.decides_value hrec).andThen fun _ =>
      decides_requireAdvance helement.valid helement.rest
        (P := fun elements => DbrefRest params elements ∧
          ∀ e ∈ elements, ValueAccepted params depth e.2)
        (fun _ => decides_pass ⟨trivial, by simp⟩) ?_) ?_
    · intro least next value rest hleast helement
      exact decides_validateDbrefDb hrec helement (by omega)
    · rw [DbrefId, List.forall_mem_cons]
      tauto
  · rw [List.forall_mem_cons]
    tauto

/-- **The elements of a document**, from the first on. -/
lemma decides_elements (h : AtElement data fuel next value rest final) {more : ℕ}
    (hmore : fuel ≤ more) :
    Decides HasCode
      (if params.checkSpecialDollarKeys ∧ (bsonIterKey next).head? = some dollar then
        validateDollarDoc validateDoc params more (.atElement next)
      else validateRemainingElements validateDoc params more (.atElement next))
      (final.errOff = 0 ∧ KeysAllowed params ((bsonIterKey next, value) :: rest) ∧
        ∀ e ∈ (bsonIterKey next, value) :: rest, ValueAccepted params depth e.2) := by
  obtain ⟨prev, hprev⟩ := h.stepped
  rw [KeysAllowed]
  by_cases hspecial : params.checkSpecialDollarKeys ∧ (bsonIterKey next).head? = some dollar
  swap
  · rw [if_neg hspecial, if_neg hspecial]
    refine (decides_validateRemainingElements hrec (h.mono hmore)).congr ?_
    rw [PlainKeys, forall₂_and]
  rw [if_pos hspecial, if_pos hspecial, validateDollarDoc, (key_atElement hprev h.size).1,
    Option.bind_some]
  by_cases hkey : bsonIterKey next = ascii "$ref"
  · rw [if_pos hkey]
    refine (decides_validateDbref hrec h hmore hkey).congr ?_
    tauto
  · -- the check of the key is to fail, and does
    rw [if_neg hkey]
    have hbad : ¬params.Key (bsonIterKey next) :=
      fun hgood => hgood.dollar hspecial.1 hspecial.2
    obtain ⟨-, hgood⟩ | ⟨e, hfail, -, he⟩ := decides_validateElementKey hprev h.size params
    · exact absurd hgood hbad
    · rw [hfail]
      exact decides_fail (fun hall => hkey hall.2.1.1) he

end Loops

/-! ## Any bytes -/

lemma accepts_iff {params : ValidationParams} {depth : ℕ} {data : List UInt8}
    {elements : List (List UInt8 × RawValue)} {final : BsonIterT}
    (hcollect : collect data.length (iterInit data) = some (elements, final)) :
    Accepts params depth data ↔ depth ≤ 500 ∧ final.errOff = 0 ∧ KeysAllowed params elements ∧
      ∀ e ∈ elements, ValueAccepted params depth e.2 := by
  constructor
  · rintro ⟨hdepth, helements, hend, hkeys, htexts, hheaders, hdocuments⟩
    cases hcollect.symm.trans helements
    exact ⟨hdepth, hend, hkeys, fun e he => ⟨htexts e he, hheaders e he, hdocuments e he⟩⟩
  · rintro ⟨hdepth, hend, hkeys, hvalues⟩
    exact ⟨hdepth, hcollect, hend, hkeys, fun e he => (hvalues e he).texts,
      fun e he => (hvalues e he).headers, fun e he => (hvalues e he).documents⟩

/-- What `collect` gives for a document. -/
lemma exists_collect {data : List UInt8} (h : bsonInitStatic data = true) :
    ∃ elements final, collect data.length (iterInit data) = some (elements, final) := by
  obtain ⟨hfive, hsize, hlast⟩ := length_of_bsonInitStatic h
  obtain ⟨elements, final, hcollect, -⟩ := collect_fills (valid_iterInit hsize) rfl hlast
    (by simp only [iterInit]; omega) (Nat.le_add_right _ _)
  exact ⟨elements, final, hcollect⟩

/-- **What is accepted of any bytes**, in terms of the elements that `collect` gives.  A document at
depth 501 is refused at once, so the recursion is bounded. -/
lemma decides_validateDoc {fuel depth : ℕ} {params : ValidationParams} {data : List UInt8}
    (hheader : bsonInitStatic data = true) (hpos : 0 < fuel) (hfuel : 502 ≤ fuel + depth) :
    Decides HasCode (validateDoc fuel params data depth) (Accepts params depth data) := by
  induction fuel generalizing depth params data with
  | zero => omega
  | succ fuel ih =>
      obtain ⟨hfive, hsize, -⟩ := length_of_bsonInitStatic hheader
      obtain ⟨elements, final, hcollect⟩ := exists_collect hheader
      rw [validateDoc, accepts_iff hcollect]
      refine Decides.congr ((decides_require (hasCode_failure _ _ _)).andThen fun hdepth =>
        (decides_require (hasCode_failure _ _ _)).andThen fun _ =>
        decides_requireAdvance (valid_iterInit hsize) hcollect
          (P := fun elements => KeysAllowed params elements ∧
            ∀ e ∈ elements, ValueAccepted params depth e.2)
          (fun _ => decides_pass ⟨trivial, by simp⟩) ?_) ?_
      · intro less next value rest hless helement
        obtain ⟨prev, hprev⟩ := helement.stepped
        simp only [(key_atElement hprev helement.size).1, Option.bind_some]
        refine decides_elements ?_ helement (by omega)
        intro params doc hdoc
        exact ih hdoc (by omega) (by omega)
      · have hlong : ¬data.length < 5 := by omega
        simp [hlong]

/-- What `bson_validate` returns. -/
lemma bsonValidate_of_decides {bson : List UInt8} {flags : ℕ} {P : Prop}
    (h : Decides HasCode (validateDoc 502 (paramsOf flags) bson 0) P) :
    ∃ okay offset error, bsonValidate bson flags = some (okay, offset, error) ∧
      (okay = true ↔ error.code = 0) ∧ (okay = true ↔ P) := by
  obtain ⟨hpass, hP⟩ | ⟨e, hfail, hP, hcode⟩ := h
  · refine ⟨true, 0, ⟨0, 0, []⟩, ?_, iff_of_true rfl rfl, iff_of_true rfl hP⟩
    rw [bsonValidate, hpass]
    rfl
  · refine ⟨false, e.errorOffset, e.error, ?_, iff_of_false Bool.false_ne_true hcode,
      iff_of_false Bool.false_ne_true hP⟩
    have hbeq : (e.error.code == 0) = false := beq_eq_false_iff_ne.mpr hcode
    rw [bsonValidate, hfail]
    simp only [fail, Option.bind_some, hbeq, if_true]

/-- At the root. -/
lemma decides_root {bson : List UInt8} (hbson : bsonInitStatic bson = true)
    (params : ValidationParams) :
    Decides HasCode (validateDoc 502 params bson 0) (Accepts params 0 bson) :=
  decides_validateDoc hbson (by omega) (by omega)

/-- **The validator on any bytes.**  Given any bytes that `bson_init_static` accepts, and any flags,
`bson_validate` ends without a failed assertion and without reading outside them; it reports an
error exactly if it does not accept them, and it accepts them exactly if at every depth the elements
come to an end without an error and their keys, texts and documents pass. -/
theorem bsonValidate_accepts {bson : List UInt8} (hbson : bsonInitStatic bson = true)
    (flags : ℕ) :
    ∃ okay offset error, bsonValidate bson flags = some (okay, offset, error) ∧
      (okay = true ↔ error.code = 0) ∧ (okay = true ↔ Accepts (paramsOf flags) 0 bson) :=
  bsonValidate_of_decides (decides_root hbson _)

/-- The document with one number, and all flags. -/
theorem bsonValidate_accepts_number :
    ∃ okay offset error, bsonValidate [12, 0, 0, 0, 16, 97, 0, 7, 0, 0, 0, 0] 31 =
        some (okay, offset, error) ∧
      (okay = true ↔ error.code = 0) ∧
        (okay = true ↔ Accepts (paramsOf 31) 0 [12, 0, 0, 0, 16, 97, 0, 7, 0, 0, 0, 0]) :=
  bsonValidate_accepts (by decide) 31

end CBootstrap.Bson
