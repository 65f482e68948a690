import CBootstrap.Bson.Validate

/-!
# Validated documents

What `bson_validate` means for a document that was encoded (`bsonValidate_encode`), and what it
means for those who read a document it has accepted: whatever the flags were, no iterator that is
made on it meets an error (`accepted_iterates`), and it would be accepted with fewer flags, too
(`bsonValidate_mono`).
-/

namespace CBootstrap.Bson

open Bytes Checks

/-! ## Encodings -/

/-- A document all of whose keys pass. -/
def Document.PlainKeys (params : ValidationParams) (d : Document) : Prop :=
  ∀ key ∈ d.keys, params.Key key

/-- A DBRef: `$ref` with a text, `$id`, and maybe `$db` with a text; the keys behind pass. -/
def Document.Dbref (params : ValidationParams) (d : Document) : Prop :=
  ∃ ref collection id value rest, d = .cons ref (.utf8 collection) (.cons id value rest) ∧
    ref.bytes = ascii "$ref" ∧ id.bytes = ascii "$id" ∧
      (rest.PlainKeys params ∨ ∃ db name more, rest = .cons db (.utf8 name) more ∧
        db.bytes = ascii "$db" ∧ more.PlainKeys params)

/-- The keys of a document pass, or it is a DBRef where these are looked for. -/
def Document.KeysPass (params : ValidationParams) (d : Document) : Prop :=
  d.PlainKeys params ∨ params.checkSpecialDollarKeys = true ∧ d.Dbref params

mutual

/-- A value whose texts pass, and whose document does at the given depth. -/
def Value.Passes (params : ValidationParams) (depth : ℕ) : Value → Prop
  | .utf8 text | .code text | .symbol text | .dbpointer text _ => params.Text text
  | .regex pattern options => params.Text pattern.bytes ∧ params.Text options.bytes
  | .document fields | .array fields =>
      depth ≤ 500 ∧ fields.KeysPass params ∧ fields.ValuesPass params (depth + 1)
  | .codewscope text scope =>
      params.Text text ∧ depth ≤ 500 ∧ scope.KeysPass scopeParams ∧
        scope.ValuesPass scopeParams (depth + 1)
  | _ => True

/-- A document whose values pass. -/
def Document.ValuesPass (params : ValidationParams) (depth : ℕ) : Document → Prop
  | .nil => True
  | .cons _ value rest => value.Passes params depth ∧ rest.ValuesPass params depth

end

/-- A document that passes at the given depth. -/
def Document.Passes (params : ValidationParams) (depth : ℕ) (d : Document) : Prop :=
  depth ≤ 500 ∧ d.KeysPass params ∧ d.ValuesPass params (depth + 1)

lemma plainKeys_rawElements (params : ValidationParams) :
    ∀ d : Document, Bson.PlainKeys params d.rawElements ↔ d.PlainKeys params
  | .nil => by simp [Bson.PlainKeys, Document.PlainKeys, Document.rawElements, Document.keys]
  | .cons key value rest => by
      have hrest := plainKeys_rawElements params rest
      simp only [Bson.PlainKeys, Document.PlainKeys, Document.rawElements, Document.keys,
        List.forall_mem_cons] at hrest ⊢
      exact and_congr_right fun _ => hrest

lemma raw_type_eq_utf8 {value : Value} : value.raw.type = .utf8 ↔ ∃ text, value = .utf8 text := by
  cases value <;> simp [Value.raw, RawValue.type]

/-- Where special keys are looked for, a key that starts with `$` does not pass. -/
lemma not_key_of_dollar {params : ValidationParams} (hdollar : params.checkSpecialDollarKeys = true)
    {key : List UInt8} (hhead : key.head? = some dollar) : ¬params.Key key :=
  fun h => h.dollar hdollar hhead

/-- The elements of a DBRef behind `$id`. -/
lemma dbrefRest_rawElements {params : ValidationParams}
    (hdollar : params.checkSpecialDollarKeys = true) (rest : Document) :
    DbrefRest params rest.rawElements ↔
      rest.PlainKeys params ∨ ∃ db text more, rest = .cons db (.utf8 text) more ∧
        db.bytes = ascii "$db" ∧ more.PlainKeys params := by
  cases rest with
  | nil => simp [DbrefRest, Document.rawElements, Document.PlainKeys, Document.keys]
  | cons key value more =>
      have hplain := plainKeys_rawElements params (.cons key value more)
      rw [Document.rawElements] at hplain
      rw [Document.rawElements, DbrefRest]
      by_cases hkey : key.bytes = ascii "$db"
      · have hbad : ¬(Document.cons key value more).PlainKeys params := by
          intro h
          exact not_key_of_dollar hdollar (by rw [hkey]; rfl)
            (h key.bytes (by simp [Document.keys]))
        rw [if_pos hkey, raw_type_eq_utf8, plainKeys_rawElements, or_iff_right hbad]
        constructor
        · rintro ⟨⟨text, rfl⟩, hmore⟩
          exact ⟨key, text, more, rfl, hkey, hmore⟩
        · rintro ⟨db, text, more', heq, -, hmore⟩
          cases heq
          exact ⟨⟨text, rfl⟩, hmore⟩
      · rw [if_neg hkey, hplain, or_iff_left]
        rintro ⟨db, text, more', heq, hdb, -⟩
        cases heq
        exact hkey hdb

lemma keysAllowed_rawElements (params : ValidationParams) (d : Document) :
    KeysAllowed params d.rawElements ↔ d.KeysPass params := by
  cases d with
  | nil =>
      simp [KeysAllowed, Document.rawElements, Document.KeysPass, Document.PlainKeys, Document.keys]
  | cons key value rest =>
      have hplain := plainKeys_rawElements params (.cons key value rest)
      rw [Document.rawElements] at hplain
      rw [Document.rawElements, KeysAllowed, Document.KeysPass]
      by_cases hspecial : params.checkSpecialDollarKeys ∧ key.bytes.head? = some dollar
      · have hbad : ¬(Document.cons key value rest).PlainKeys params := by
          intro h
          exact not_key_of_dollar hspecial.1 hspecial.2 (h key.bytes (by simp [Document.keys]))
        rw [if_pos hspecial, or_iff_right hbad, raw_type_eq_utf8]
        constructor
        · rintro ⟨hkey, ⟨collection, rfl⟩, hid⟩
          cases rest with
          | nil => cases hid
          | cons id value rest =>
              exact ⟨hspecial.1, key, collection, id, value, rest, rfl, hkey, hid.1,
                (dbrefRest_rawElements hspecial.1 rest).mp hid.2⟩
        · rintro ⟨-, ref, collection, id, value', rest', heq, hkey, hid, hrest⟩
          cases heq
          exact ⟨hkey, ⟨collection, rfl⟩, hid, (dbrefRest_rawElements hspecial.1 rest').mpr hrest⟩
      · rw [if_neg hspecial, hplain, or_iff_left]
        rintro ⟨hdollar, ref, collection, id, value', rest', heq, hkey, -⟩
        cases heq
        exact hspecial ⟨hdollar, by rw [hkey]; rfl⟩

/-- The elements of an encoding come to an end without an error. -/
lemma collect_of_fits {d : Document} (hfits : d.encode.length < 2 ^ 31) :
    ∃ final, collect d.encode.length (iterInit d.encode) = some (d.rawElements, final) ∧
      final.errOff = 0 :=
  collect_of_at (valid_iterInit hfits) rfl (at_init d hfits) (Nat.le_add_right _ _)

lemma bsonInitStatic_encode {d : Document} (hfits : d.encode.length < 2 ^ 31) :
    bsonInitStatic d.encode = true := by
  have hlen : d.encode.length = d.body.length + 5 := length_frame d.body
  have hheader : ofLE (d.encode.take 4) = d.encode.length := by
    rw [hlen, Document.encode, frame, List.take_left' (length_toLE 4 _),
      ofLE_toLE_of_lt (by omega)]
  have hlast : d.encode.getLastD 0 = 0 := by
    simp [Document.encode, frame, List.getLastD_eq_getLast?, ← List.append_assoc]
  rw [bsonInitStatic, hheader, hlast, decide_eq_false (by omega), decide_eq_false (by omega)]
  simp

/-- The document of a value passes if its values do. -/
lemma accepts_of_values {params : ValidationParams} {depth : ℕ} {d : Document}
    (hfits : d.encode.length < 2 ^ 31)
    (hvalues : (∀ e ∈ d.rawElements, ValueAccepted params depth e.2) ↔
      d.ValuesPass params (depth + 1)) :
    Accepts params depth d.encode ↔ d.Passes params depth := by
  obtain ⟨final, hcollect, hend⟩ := collect_of_fits hfits
  rw [accepts_iff hcollect, keysAllowed_rawElements, hvalues, Document.Passes]
  exact and_congr_right fun _ => and_iff_right hend

/-- A value whose one document is an encoding. -/
lemma valueAccepted_document {params nested : ValidationParams} {depth : ℕ} {value : RawValue}
    {d : Document} (hfits : d.encode.length < 2 ^ 31)
    (hdocs : value.documents params = [(nested, d.encode)]) :
    ValueAccepted params depth value ↔
      (∀ text ∈ value.texts, params.Text text) ∧ Accepts nested (depth + 1) d.encode := by
  constructor
  · intro h
    exact ⟨h.texts, h.documents (nested, d.encode) (by rw [hdocs]; exact List.mem_singleton_self _)⟩
  · rintro ⟨htexts, haccepts⟩
    refine ⟨htexts, ?_, ?_⟩
    · rw [hdocs]
      simpa using bsonInitStatic_encode hfits
    · rw [hdocs]
      simpa using haccepts

mutual

lemma Document.valuesPass_iff (params : ValidationParams) (depth : ℕ) :
    ∀ d : Document, d.encode.length < 2 ^ 31 →
      ((∀ e ∈ d.rawElements, ValueAccepted params depth e.2) ↔ d.ValuesPass params (depth + 1))
  | .nil, _ => by simp [Document.rawElements, Document.ValuesPass]
  | .cons key value rest, hfits => by
      rw [Document.encode, length_frame, Document.body] at hfits
      simp only [List.length_cons, List.length_append] at hfits
      have hrest := rest.valuesPass_iff params depth (by rw [Document.encode, length_frame]; omega)
      have hvalue := value.passes_iff params depth (by omega)
      rw [Document.rawElements, List.forall_mem_cons, Document.ValuesPass, hrest, hvalue]

lemma Value.passes_iff (params : ValidationParams) (depth : ℕ) :
    ∀ value : Value, value.encode.length < 2 ^ 31 →
      (ValueAccepted params depth value.raw ↔ value.Passes params (depth + 1))
  | .document fields, hfits => by
      have hfields : fields.encode.length < 2 ^ 31 := hfits
      rw [valueAccepted_document hfields rfl,
        accepts_of_values hfields (fields.valuesPass_iff params (depth + 1) hfields)]
      simp [Value.raw, RawValue.texts, Value.Passes, Document.Passes]
  | .array fields, hfits => by
      have hfields : fields.encode.length < 2 ^ 31 := hfits
      rw [valueAccepted_document hfields rfl,
        accepts_of_values hfields (fields.valuesPass_iff params (depth + 1) hfields)]
      simp [Value.raw, RawValue.texts, Value.Passes, Document.Passes]
  | .codewscope text scope, hfits => by
      have hscope : scope.encode.length < 2 ^ 31 := by
        simp only [Value.encode, List.length_append] at hfits
        rw [Document.encode]
        omega
      rw [valueAccepted_document hscope rfl,
        accepts_of_values hscope (scope.valuesPass_iff scopeParams (depth + 1) hscope)]
      simp [Value.raw, RawValue.texts, Value.Passes, Document.Passes]
  | .utf8 text, _ => by
      rw [valueAccepted_iff_texts rfl]
      simp [Value.raw, RawValue.texts, Value.Passes]
  | .code text, _ => by
      rw [valueAccepted_iff_texts rfl]
      simp [Value.raw, RawValue.texts, Value.Passes]
  | .symbol text, _ => by
      rw [valueAccepted_iff_texts rfl]
      simp [Value.raw, RawValue.texts, Value.Passes]
  | .dbpointer text _, _ => by
      rw [valueAccepted_iff_texts rfl]
      simp [Value.raw, RawValue.texts, Value.Passes]
  | .regex pattern options, _ => by
      rw [valueAccepted_iff_texts rfl]
      simp [Value.raw, RawValue.texts, Value.Passes]
  | .double _, _ | .binary _ _ _, _ | .binaryDeprecated _, _ | .undefined, _ | .oid _, _
  | .bool _, _ | .dateTime _, _ | .null, _ | .int32 _, _ | .timestamp _, _ | .int64 _, _
  | .decimal128 _, _ | .maxkey, _ | .minkey, _ => by
      rw [valueAccepted_iff_texts rfl]
      simp [Value.raw, RawValue.texts, Value.Passes]

end

/-- **The validator on encodings.**  `bson_validate` accepts the encoding of a document exactly if
the document passes: it is not deeper than 500, its keys pass or are those of a DBRef, and so do the
texts and documents in it. -/
theorem bsonValidate_encode (root : Root) (flags : ℕ) :
    ∃ okay offset error, bsonValidate root.document.encode flags = some (okay, offset, error) ∧
      (okay = true ↔ root.document.Passes (paramsOf flags) 0) := by
  have hvalues := root.document.valuesPass_iff (paramsOf flags) 0 root.fits
  obtain ⟨okay, offset, error, heq, -, hokay⟩ :=
    bsonValidate_of_decides (decides_root (bsonInitStatic_encode root.fits) (paramsOf flags))
  exact ⟨okay, offset, error, heq, hokay.trans (accepts_of_values root.fits hvalues)⟩

/-! ## Fewer flags -/

/-- Whether a flag is given. -/
def ValidateFlag.In (flag : ValidateFlag) (flags : ℕ) : Prop := flags &&& flag.toNat ≠ 0

instance (flag : ValidateFlag) (flags : ℕ) : Decidable (flag.In flags) :=
  inferInstanceAs (Decidable (flags &&& flag.toNat ≠ 0))

/-- Parameters that ask for nothing others do not ask for. -/
structure ValidationParams.Looser (p q : ValidationParams) : Prop where
  invalidUtf8 : q.allowInvalidUtf8 = true → p.allowInvalidUtf8 = true
  nullInUtf8 : q.allowNullInUtf8 = true → p.allowNullInUtf8 = true
  emptyKeys : q.allowEmptyKeys = true → p.allowEmptyKeys = true
  dotInKeys : q.allowDotInKeys = true → p.allowDotInKeys = true
  dollarKeys : p.checkSpecialDollarKeys = true → q.checkSpecialDollarKeys = true

/-- A text without NUL is a text where NUL is allowed. -/
lemma bsonUtf8Validate_mono {text : List UInt8} {allowNull more : Bool}
    (hle : allowNull = true → more = true) (h : bsonUtf8Validate text allowNull = true) :
    bsonUtf8Validate text more = true := by
  obtain ⟨sequences, rfl, hall⟩ := exists_sequences h
  rw [← List.append_nil sequences.flatten, bsonUtf8Validate_flatten, bsonUtf8Validate_nil]
  intro bytes hmem
  rcases hall bytes hmem with ⟨c, hc, hnull⟩ | ⟨hallow, hbytes⟩
  · exact .inl ⟨c, hc, fun h => hle (hnull h)⟩
  · exact .inr ⟨hle hallow, hbytes⟩

section Looser

variable {p q : ValidationParams} (hlooser : p.Looser q)

include hlooser

lemma ValidationParams.Looser.text {u8 : List UInt8} (h : q.Text u8) : p.Text u8 :=
  h.imp hlooser.invalidUtf8 (bsonUtf8Validate_mono hlooser.nullInUtf8)

lemma ValidationParams.Looser.key {key : List UInt8} (h : q.Key key) : p.Key key where
  text := hlooser.text h.text
  dollar hdollar := h.dollar (hlooser.dollarKeys hdollar)
  empty hempty := h.empty (by
    rw [Bool.eq_false_iff] at hempty ⊢
    exact mt hlooser.emptyKeys hempty)
  dot hdot := h.dot (by
    rw [Bool.eq_false_iff] at hdot ⊢
    exact mt hlooser.dotInKeys hdot)

lemma ValidationParams.Looser.plainKeys {elements : List (List UInt8 × RawValue)}
    (h : PlainKeys q elements) : PlainKeys p elements :=
  fun e he => hlooser.key (h e he)

omit hlooser in
/-- The keys of a DBRef pass where special keys are not looked for. -/
lemma key_special (hdollar : ¬p.checkSpecialDollarKeys = true) {key : List UInt8}
    (hmem : key ∈ [ascii "$ref", ascii "$id", ascii "$db"]) : p.Key key := by
  have hbytes : ∀ key ∈ [ascii "$ref", ascii "$id", ascii "$db"],
      (∀ b ∈ key, 0 < b.toNat ∧ b.toNat < 128) ∧ key ≠ [] ∧ 46 ∉ key := by
    decide
  obtain ⟨hascii, hempty, hdot⟩ := hbytes key hmem
  exact ⟨.inr (bsonUtf8Validate_ascii hascii _), fun h => absurd h hdollar, fun _ => hempty,
    fun _ => hdot⟩

lemma ValidationParams.Looser.dbrefRest {elements : List (List UInt8 × RawValue)}
    (h : DbrefRest q elements) : DbrefRest p elements := by
  cases elements with
  | nil => exact h
  | cons e rest =>
      rw [DbrefRest] at h ⊢
      split_ifs at h ⊢
      · exact ⟨h.1, hlooser.plainKeys h.2⟩
      · exact hlooser.plainKeys h

lemma ValidationParams.Looser.keysAllowed {elements : List (List UInt8 × RawValue)}
    (h : KeysAllowed q elements) : KeysAllowed p elements := by
  cases elements with
  | nil => exact h
  | cons e rest =>
      rw [KeysAllowed] at h ⊢
      by_cases hq : q.checkSpecialDollarKeys = true ∧ e.1.head? = some dollar
      swap
      · have hp : ¬(p.checkSpecialDollarKeys = true ∧ e.1.head? = some dollar) :=
          fun hp => hq ⟨hlooser.dollarKeys hp.1, hp.2⟩
        rw [if_neg hq] at h
        rw [if_neg hp]
        exact hlooser.plainKeys h
      rw [if_pos hq] at h
      obtain ⟨href, htype, hid⟩ := h
      cases rest with
      | nil => cases hid
      | cons id rest =>
          rw [DbrefId] at hid
          have hrest := hlooser.dbrefRest hid.2
          by_cases hp : p.checkSpecialDollarKeys = true
          · rw [if_pos ⟨hp, hq.2⟩, DbrefId]
            exact ⟨href, htype, hid.1, hrest⟩
          · -- a DBRef is an ordinary document to those who do not look for one
            rw [if_neg fun h => hp h.1]
            refine List.forall_mem_cons.mpr ⟨key_special hp (by simp [href]),
              List.forall_mem_cons.mpr ⟨key_special hp (by simp [hid.1]), ?_⟩⟩
            cases rest with
            | nil => simp
            | cons db rest =>
                rw [DbrefRest] at hrest
                split_ifs at hrest with hdb
                · exact List.forall_mem_cons.mpr ⟨key_special hp (by simp [hdb]), hrest.2⟩
                · exact hrest

/-- The documents in a value, with parameters that ask for no more. -/
lemma ValidationParams.Looser.documents {value : RawValue} {doc : ValidationParams × List UInt8}
    (h : doc ∈ value.documents p) :
    ∃ r, (r, doc.2) ∈ value.documents q ∧ doc.1.Looser r := by
  have hscope : scopeParams.Looser scopeParams := ⟨id, id, id, id, id⟩
  cases value <;> simp only [RawValue.documents, List.mem_singleton, List.not_mem_nil] at h ⊢
  all_goals
    subst h
    first
    | exact ⟨q, rfl, hlooser⟩
    | exact ⟨scopeParams, rfl, hscope⟩

end Looser

/-- What is accepted is accepted with parameters that ask for no more. -/
lemma Accepts.looser {p q : ValidationParams} {depth : ℕ} {data : List UInt8}
    (h : Accepts q depth data) (hlooser : p.Looser q) : Accepts p depth data := by
  induction h generalizing p with
  | intro hdepth helements hend hkeys htexts hheaders _ ih =>
      refine .intro hdepth helements hend (hlooser.keysAllowed hkeys)
        (fun e he text ht => hlooser.text (htexts e he text ht)) ?_ ?_
      · intro e he doc hdoc
        obtain ⟨r, hr, -⟩ := hlooser.documents hdoc
        exact hheaders e he (r, doc.2) hr
      · intro e he doc hdoc
        obtain ⟨r, hr, hnested⟩ := hlooser.documents hdoc
        exact ih e he (r, doc.2) hr hnested

/-- Fewer flags, and NUL allowed where it was. -/
lemma looser_paramsOf {flags more : ℕ}
    (hfewer : ∀ flag : ValidateFlag, flag ≠ .utf8AllowNull → flag.In flags → flag.In more)
    (hnull : ValidateFlag.utf8AllowNull.In more → ValidateFlag.utf8AllowNull.In flags) :
    (paramsOf flags).Looser (paramsOf more) where
  invalidUtf8 h := by
    simp only [paramsOf, decide_eq_true_eq] at h ⊢
    by_contra hin
    exact hfewer .utf8 (by simp) hin h
  nullInUtf8 h := by
    simp only [paramsOf, decide_eq_true_eq] at h ⊢
    exact hnull h
  emptyKeys h := by
    simp only [paramsOf, decide_eq_true_eq] at h ⊢
    by_contra hin
    exact hfewer .emptyKeys (by simp) hin h
  dotInKeys h := by
    simp only [paramsOf, decide_eq_true_eq] at h ⊢
    by_contra hin
    exact hfewer .dotKeys (by simp) hin h
  dollarKeys h := by
    simp only [paramsOf, decide_eq_true_eq] at h ⊢
    exact hfewer .dollarKeys (by simp) h

/-- What `bson_validate` accepts. -/
lemma accepts_of_bsonValidate {bson : List UInt8} (hbson : bsonInitStatic bson = true) {flags : ℕ}
    {offset : ℕ} {error : BsonError} (h : bsonValidate bson flags = some (true, offset, error)) :
    Accepts (paramsOf flags) 0 bson := by
  obtain ⟨okay, offset', error', heq, -, hokay⟩ :=
    bsonValidate_of_decides (decides_root hbson (paramsOf flags))
  cases heq.symm.trans h
  exact hokay.mp rfl

/-- A document with an empty document in it is accepted with any flags. -/
lemma bsonValidate_nested (flags : ℕ) :
    ∃ offset error, bsonValidate [13, 0, 0, 0, 3, 97, 0, 5, 0, 0, 0, 0, 0] flags =
      some (true, offset, error) := by
  have hfits : (Document.cons ⟨[97], by decide⟩ (.document .nil) .nil).encode.length < 2 ^ 31 := by
    decide
  have hkey : (paramsOf flags).Key [97] :=
    ⟨.inr (bsonUtf8Validate_ascii (by decide) _), fun _ => by decide, fun _ => by decide,
      fun _ => by decide⟩
  have hpasses : (Document.cons ⟨[97], by decide⟩ (.document .nil) .nil).Passes
      (paramsOf flags) 0 := by
    simp [Document.Passes, Document.KeysPass, Document.PlainKeys, Document.keys,
      Document.ValuesPass, Value.Passes, hkey]
  have haccepts := (accepts_of_values hfits (Document.valuesPass_iff _ _ _ hfits)).mpr hpasses
  obtain ⟨okay, offset, error, heq, -, hokay⟩ :=
    bsonValidate_of_decides (decides_root (bsonInitStatic_encode hfits) (paramsOf flags))
  cases hokay.mpr haccepts
  exact ⟨offset, error, heq⟩

/-- **Flags only ever ask for more.**  A document that `bson_validate` accepts is accepted with
fewer flags, too, as long as NUL stays allowed in texts where it was. -/
theorem bsonValidate_mono {bson : List UInt8} (hbson : bsonInitStatic bson = true)
    {flags more : ℕ}
    (hfewer : ∀ flag : ValidateFlag, flag ≠ .utf8AllowNull → flag.In flags → flag.In more)
    (hnull : ValidateFlag.utf8AllowNull.In more → ValidateFlag.utf8AllowNull.In flags)
    {offset : ℕ} {error : BsonError} (h : bsonValidate bson more = some (true, offset, error)) :
    ∃ offset error, bsonValidate bson flags = some (true, offset, error) := by
  have haccepts := (accepts_of_bsonValidate hbson h).looser (looser_paramsOf hfewer hnull)
  obtain ⟨okay, offset', error', heq, -, hokay⟩ :=
    bsonValidate_of_decides (decides_root hbson (paramsOf flags))
  cases hokay.mpr haccepts
  exact ⟨offset', error', heq⟩

/-- All flags, and then those for keys with a dot and for texts with NUL. -/
theorem bsonValidate_mono_nested :
    ∃ offset error, bsonValidate [13, 0, 0, 0, 3, 97, 0, 5, 0, 0, 0, 0, 0] 12 =
      some (true, offset, error) := by
  obtain ⟨offset, error, h⟩ := bsonValidate_nested 31
  exact bsonValidate_mono (by decide)
    (by intro flag; cases flag <;> decide) (fun _ => by decide) h

/-! ## Reading what was accepted -/

/-- What `collect` goes on with from an iterator is accepted, and it ends without an error. -/
def AcceptedFrom (params : ValidationParams) (depth : ℕ) (iter : BsonIterT) : Prop :=
  ∃ fuel elements final, collect fuel iter = some (elements, final) ∧ final.errOff = 0 ∧
    ∀ e ∈ elements, ValueAccepted params depth e.2

/-- The element an iterator is at is accepted. -/
def AcceptedAt (params : ValidationParams) (depth : ℕ) (iter : BsonIterT) : Prop :=
  ∃ prev next value, bsonIterNext prev = some next ∧ iter = .atElement next ∧
    iterValue iter = some (some value) ∧ ValueAccepted params depth value

/-- The invariant of the iterators on an accepted document: an iterator has come to the end of a
document without an error, or it is on the way through one that is accepted. -/
def Iterates (b : Bool) (iter : BsonIterT) : Prop :=
  (iter.raw = none ∧ iter.errOff = 0 ∧ b = false) ∨
    ∃ data params depth, iter.Valid data ∧ bsonInitStatic data = true ∧ iter.errOff = 0 ∧
      AcceptedFrom params depth iter ∧ (b = true → AcceptedAt params depth iter)

lemma iterates_init {params : ValidationParams} {depth : ℕ} {data : List UInt8}
    (hdata : bsonInitStatic data = true) (h : Accepts params depth data) :
    Iterates false (iterInit data) := by
  obtain ⟨elements, final, hcollect⟩ := exists_collect hdata
  obtain ⟨-, hend, -, hvalues⟩ := (accepts_iff hcollect).mp h
  refine .inr ⟨data, params, depth, valid_iterInit (length_of_bsonInitStatic hdata).2.1, hdata, rfl,
    ⟨data.length, elements, final, hcollect, hend, hvalues⟩, fun hb => ?_⟩
  cases hb

/-- A step on an accepted document: to an element that is accepted, or to the end. -/
lemma AcceptedFrom.next {params : ValidationParams} {depth : ℕ} {iter : BsonIterT}
    {data : List UInt8} (h : AcceptedFrom params depth iter) (hvalid : iter.Valid data)
    {result : NextResult} (hresult : nextInternal iter 0 = some result) :
    (result.iter.raw = none ∧ result.iter.errOff = 0 ∧ result.ok = false) ∨
      result.ok = true ∧ result.iter.Valid data ∧ result.iter.errOff = 0 ∧
        AcceptedFrom params depth result.iter ∧ AcceptedAt params depth result.iter := by
  obtain ⟨fuel, elements, final, hcollect, hend, hvalues⟩ := h
  cases fuel with
  | zero => cases hcollect
  | succ fuel =>
      obtain ⟨next, hpure, hnext⟩ | ⟨-, result', hnext, hok, hraw, -⟩ := nextInternal_eq hvalid
      · cases hresult.symm.trans hnext
        obtain ⟨value, hvalue⟩ := iterValue_atElement hpure
        rw [collect_of_element hnext (iterKey_atElement hpure) hvalue] at hcollect
        obtain ⟨⟨rest, final'⟩, hrest, heq⟩ := Option.map_eq_some_iff.mp hcollect
        cases heq
        rw [List.forall_mem_cons] at hvalues
        exact .inr ⟨rfl, hvalid.atElement hpure, rfl, ⟨fuel, rest, _, hrest, hend, hvalues.2⟩,
          _, next, value, hpure, rfl, hvalue, hvalues.1⟩
      · cases hresult.symm.trans hnext
        rw [collect_of_stop hnext hok] at hcollect
        cases hcollect
        exact .inl ⟨hraw, hend, hok⟩

/-- A descent at an accepted element: the document in it is accepted, and has the length it says it
has. -/
lemma AcceptedAt.recurse {params : ValidationParams} {depth : ℕ} {iter child : BsonIterT}
    (h : AcceptedAt params depth iter) (hrecurse : iterRecurse iter = some (some child)) :
    ∃ doc, child = iterInit doc ∧ bsonInitStatic doc = true ∧ Accepts params (depth + 1) doc := by
  obtain ⟨prev, next, value, hnext, rfl, hvalue, haccepted⟩ := h
  obtain ⟨-, -, -, -, -, hfill, hlt⟩ := bsonIterNext_inv hnext
  have hread := valueAt_element hnext hvalue
  rw [iterRecurse_atElement hnext] at hrecurse
  by_cases htype : bsonIterType next = .document ∨ bsonIterType next = .array
  swap
  · rw [if_neg htype] at hrecurse
    cases hrecurse
  rw [if_pos htype] at hrecurse
  cases hrecurse
  have hfill' : fillDataFields next.raw .document next.d1 = some next.nextOff := by
    rcases htype with h | h <;> (rw [h] at hfill; exact hfill)
  have hdoc := (documentAt_inside hfill' hlt).1
  have hdocs : value.documents params = [(params, (bsonIterRecurse next).raw)] := by
    rcases htype with h | h
    all_goals
      rw [h] at hread
      obtain ⟨doc, hdoc', hvalue'⟩ := Option.map_eq_some_iff.mp hread
      cases hdoc.symm.trans hdoc'
      cases hvalue'
      rfl
  have hmem : (params, (bsonIterRecurse next).raw) ∈ value.documents params := by
    rw [hdocs]
    exact List.mem_singleton_self _
  exact ⟨_, rfl, haccepted.headers _ hmem, haccepted.documents _ hmem⟩

/-- **The invariant holds** of every iterator that can be had on an accepted document. -/
lemma Reached.iterates {bson : List UInt8} {params : ValidationParams}
    (hbson : bsonInitStatic bson = true) (haccepts : Accepts params 0 bson) {b : Bool}
    {iter : BsonIterT} (h : Reached bson b iter) : Iterates b iter := by
  induction h with
  | init => exact iterates_init hbson haccepts
  | @next b iter result h hnext ih =>
      obtain ⟨hraw, herr, -⟩ | ⟨data, params, depth, hvalid, hdata, -, hfrom, -⟩ := ih
      · rw [nextInternal, hraw] at hnext
        cases hnext
        exact .inl ⟨hraw, herr, rfl⟩
      · obtain hend | ⟨-, hvalid', herr, hfrom', hat⟩ := hfrom.next hvalid hnext
        · exact .inl hend
        · exact .inr ⟨data, params, depth, hvalid', hdata, herr, hfrom', fun _ => hat⟩
  | @recurse iter child h hrecurse ih =>
      obtain ⟨-, -, hb⟩ | ⟨data, params, depth, -, -, -, -, hat⟩ := ih
      · cases hb
      obtain ⟨doc, rfl, hdoc, haccepted⟩ := (hat rfl).recurse hrecurse
      exact iterates_init hdoc haccepted

/-- **What was accepted can be read.**  Take any bytes that `bson_validate` accepts, with whatever
flags, and any sequence of steps and descents.  The iterator that is had has met no error, nor does
it in its next step, and if it has not come to its end, its bytes are a document for
`bson_init_static`. -/
theorem accepted_iterates {bson : List UInt8} (hbson : bsonInitStatic bson = true) {flags : ℕ}
    {offset : ℕ} {error : BsonError}
    (haccepted : bsonValidate bson flags = some (true, offset, error))
    {b : Bool} {iter : BsonIterT} (h : Reached bson b iter) :
    iter.errOff = 0 ∧ (∀ data, iter.raw = some data → bsonInitStatic data = true) ∧
      ∃ result, nextInternal iter 0 = some result ∧ result.iter.errOff = 0 := by
  have haccepts := accepts_of_bsonValidate hbson haccepted
  obtain ⟨hraw, herr, -⟩ | ⟨data, params, depth, hvalid, hdata, herr, hfrom, -⟩ :=
    h.iterates hbson haccepts
  · refine ⟨herr, fun data hdata => ?_, ⟨iter, false, false⟩, ?_, herr⟩
    · cases hraw.symm.trans hdata
    · rw [nextInternal, hraw]
  · refine ⟨herr, fun data' hdata' => ?_, ?_⟩
    · cases hvalid.raw.symm.trans hdata'
      exact hdata
    · obtain ⟨next, -, hnext⟩ | ⟨-, result, hnext, -⟩ := nextInternal_eq hvalid
      · exact ⟨_, hnext, rfl⟩
      · obtain ⟨-, herr', -⟩ | ⟨-, -, herr', -⟩ := hfrom.next hvalid hnext
        · exact ⟨_, hnext, herr'⟩
        · exact ⟨_, hnext, herr'⟩

/-- The document in a document. -/
theorem accepted_iterates_nested :
    (iterInit [5, 0, 0, 0, 0]).errOff = 0 ∧
      (∀ data, (iterInit [5, 0, 0, 0, 0]).raw = some data → bsonInitStatic data = true) ∧
      ∃ result, nextInternal (iterInit [5, 0, 0, 0, 0]) 0 = some result ∧
        result.iter.errOff = 0 := by
  have hnext : nextInternal (iterInit [13, 0, 0, 0, 3, 97, 0, 5, 0, 0, 0, 0, 0]) 0 =
      some ⟨.atElement ⟨[13, 0, 0, 0, 3, 97, 0, 5, 0, 0, 0, 0, 0], 4, 7, 12⟩, true, false⟩ := by
    simp only [nextInternal, iterInit, keyEnd, if_true, scanNul_eq]
    decide
  obtain ⟨offset, error, h⟩ := bsonValidate_nested 31
  exact accepted_iterates (by decide) h (.recurse (.next .init hnext) (by decide))

end CBootstrap.Bson
