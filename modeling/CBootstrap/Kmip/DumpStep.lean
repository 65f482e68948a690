import CBootstrap.Kmip.Dump

/-!
# One iteration of the dumper, on the unread bytes

`kmip_dump_recursive_xml` starts every iteration with three reads — tag, type, length — and
then dispatches on the type.  `headOf` says what those three reads find in the unread bytes,
`kmipDumpLoop_succ` rewrites an iteration to a case distinction over it, and the `dumpValue_…`
lemmas say what the branches do when the value is there and when it is not.  The theorems
about whole dumps use these lemmas and never unfold the loop.
-/

namespace CBootstrap.Kmip

open Bytes

@[simp] lemma Out.append_str (out : Out) (text : List UInt8) :
    (out.append text).str = out.str ++ text := rfl

@[simp] lemma Out.append_log (out : Out) (text : List UInt8) :
    (out.append text).log = out.log := rfl

lemma Out.append_append (out : Out) (s t : List UInt8) :
    (out.append s).append t = out.append (s ++ t) := by
  simp [Out.append]

@[simp] lemma Out.note_str (out : Out) (event : Event) : (out.note event).str = out.str := rfl

@[simp] lemma Out.note_log (out : Out) (event : Event) :
    (out.note event).log = out.log ++ [event] := rfl

/-! ## The header -/

/-- What the tag, type and length reads of one iteration find. -/
inductive Head
  /-- No tag, after consuming `n` bytes. -/
  | eof (n : ℕ)
  /-- A tag but no complete header: `n` bytes consumed and `text` printed. -/
  | cut (n : ℕ) (text : List UInt8)
  /-- A complete header of eight bytes. -/
  | item (tag : ℕ) (type : KmipItemType) (len : ℕ)

/-- The header at the front of the unread bytes. -/
def headOf : List UInt8 → Head
  | [] => .eof 0
  | 0x42 :: a :: b :: t :: l₀ :: l₁ :: l₂ :: l₃ :: _ =>
      .item (0x420000 + ofBE [a, b]) (.ofU8 t.toNat) (ofBE [l₀, l₁, l₂, l₃])
  | [0x42, a, b] => .cut 3 (openTag (0x420000 + ofBE [a, b]))
  | 0x42 :: a :: b :: t :: _ =>
      .cut 4 (openTag (0x420000 + ofBE [a, b]) ++ typeAttribute (.ofU8 t.toNat))
  | _ :: _ => .eof 1

/-- A complete header is eight bytes, and its length field has 32 bits. -/
lemma headOf_item {w : List UInt8} {tag len : ℕ} {type : KmipItemType}
    (h : headOf w = .item tag type len) : 8 ≤ w.length ∧ len < 2 ^ 32 := by
  unfold headOf at h
  split at h <;> cases h
  exact ⟨by simp, lt_of_lt_of_le (ofBE_lt _) (by norm_num)⟩

/-- No tag: the reader stays at the end of the buffer, or steps over one byte. -/
lemma headOf_eof {w : List UInt8} {n : ℕ} (h : headOf w = .eof n) : n = min 1 w.length := by
  unfold headOf at h
  split at h <;> cases h <;> simp

lemma headOf_cut {w text : List UInt8} {n : ℕ} (h : headOf w = .cut n text) : n ≤ w.length := by
  unfold headOf at h
  split at h <;> cases h <;> simp

/-- The state after the header of an item has been read and printed. -/
def Out.header (out : Out) (reader : KmipReader) (level tag : ℕ) (type : KmipItemType) : Out :=
  (((out.note (.head reader)).append (prefixLevel level)).append (openTag tag)).append
    (typeAttribute type)

/-- The subreader of a Structure of length `len` whose value starts at `after`. -/
def callee (after subreader : KmipReader) (len : ℕ) : KmipReader :=
  (kmipReaderInPlace after after.pos len subreader).out

/-- The state in which a Structure's children are dumped. -/
def Out.enter (out : Out) (after subreader : KmipReader) (len : ℕ) : Out :=
  ((out.note (.use .struct after (computePaddedLength len)
    (kmipReaderInPlace after after.pos len subreader).ok)).append (ascii ">\n")).note
    (.call after (callee after subreader len))

/-- The state after a Structure's closing tag. -/
def Out.exit (out : Out) (reader next : KmipReader) (level tag : ℕ) : Out :=
  ((out.append (prefixLevel level)).append (closeTag tag)).note (.turn reader next)

/-- An iteration that has found a complete header at `reader`. -/
def dumpItem (env : Env) (fuel : ℕ) (out : Out) (reader subreader : KmipReader) (level tag : ℕ)
    (type : KmipItemType) (len : ℕ) : Option Level :=
  let after := reader.advance 8
  let out := out.header reader level tag type
  if type = .struct then
    match kmipDumpLoop env fuel (out.enter after subreader len) (callee after subreader len)
      KmipReader.unset ((level + 1) % 2 ^ 32) with
    | none => none
    | some sub =>
        if sub.exit = .fault then some ⟨.fault, sub.out, after⟩
        else
          let next := (kmipReaderNext after len).reader
          kmipDumpLoop env fuel (sub.out.exit reader next level tag) next sub.reader level
  else
    match dumpValue env tag type len after out with
    | .error out reader =>
        some ⟨.malformed, (out.append (ascii "<Malformed/>")).note (.leave true reader), reader⟩
    | .fault out reader => some ⟨.fault, out, reader⟩
    | .next out after =>
        kmipDumpLoop env fuel ((out.append (ascii "\n")).note (.turn reader after)) after
          subreader level

/-- **One iteration.**  What the loop does is decided by the header at the front of the unread
bytes. -/
lemma kmipDumpLoop_succ (env : Env) (fuel : ℕ) (out : Out) {reader : KmipReader}
    (hv : reader.Valid) (subreader : KmipReader) (level : ℕ) :
    kmipDumpLoop env (fuel + 1) out reader subreader level =
      match headOf reader.rest with
      | .eof n =>
          some ⟨.eof, (out.note (.head reader)).note (.leave false (reader.advance n)),
            reader.advance n⟩
      | .cut n text =>
          some ⟨.malformed, ((((out.note (.head reader)).append (prefixLevel level)).append
            text).append (ascii "<Malformed/>")).note (.leave true (reader.advance n)),
            reader.advance n⟩
      | .item tag type len => dumpItem env fuel out reader subreader level tag type len := by
  unfold kmipDumpLoop
  simp only [kmipReaderReadTag_eq hv, kmipReaderReadType, kmipReaderReadLength, kmipReaderReadU8,
    kmipReaderReadU32]
  cases hrest : reader.rest with
  | nil => simp [headOf, hv.advance_zero]
  | cons x w =>
      by_cases hx : x = 0x42
      · subst hx
        rcases w with _ | ⟨a, _ | ⟨b, w⟩⟩
        · simp [headOf]
        · simp [headOf]
        · have h3 : 3 ≤ reader.rest.length := by simp [hrest]
          have hv3 := hv.advance h3
          have hrest3 : (reader.advance 3).rest = w := by rw [hv.rest_advance h3, hrest]; rfl
          have htype := kmipReaderReadUint_eq hv3 (by norm_num : 1 ≤ 8) env.uint
          rw [hrest3] at htype
          cases w with
          | nil => simp [headOf, htype]
          | cons t w =>
              have h4 : 1 ≤ (reader.advance 3).rest.length := by simp [hrest3]
              have hv4 := hv3.advance h4
              have hrest4 : ((reader.advance 3).advance 1).rest = w := by
                rw [hv3.rest_advance h4, hrest3]; rfl
              have hlen := kmipReaderReadUint_eq hv4 (by norm_num : 4 ≤ 8) env.uint
              rw [hrest4] at hlen
              simp only [KmipReader.advance_advance] at hlen
              have ht : ofBE [t] = t.toNat := by simp [ofBE, ofLE]
              rcases w with _ | ⟨l₀, _ | ⟨l₁, _ | ⟨l₂, _ | ⟨l₃, w⟩⟩⟩⟩
              · simp [headOf, htype, hlen, ht, Out.append_append]
              · simp [headOf, htype, hlen, ht, Out.append_append]
              · simp [headOf, htype, hlen, ht, Out.append_append]
              · simp [headOf, htype, hlen, ht, Out.append_append]
              · simp only [htype, List.length_cons, Nat.le_add_left, if_true,
                  List.take_succ_cons, List.take_zero, KmipReader.advance_advance, hlen, ht,
                  headOf, dumpItem]
                by_cases hst : KmipItemType.ofU8 t.toNat = .struct
                · simp only [hst, if_true]
                  rfl
                · simp only [hst, if_false]
                  rfl
      · simp [headOf, hx]

/-! ## The value -/

/-- What a branch asks of the unread bytes before it goes on. -/
inductive Demand
  /-- The value is skipped with `kmip_reader_next`, not read. -/
  | skip
  /-- `size` bytes of value, for which the reader must take `n` bytes. -/
  | bytes (size n : ℕ)
  /-- The process dies before the value is read. -/
  | fault
  /-- The branch that goes to `error`. -/
  | error

/-- The demand of each branch of `dumpValue`. -/
def demandOf (type : KmipItemType) (len : ℕ) : Demand :=
  match type with
  | .integer | .longInteger | .enumeration | .boolean | .dateTime => .bytes 8 8
  | .byteString => .bytes len (computePaddedLength len)
  | .textString =>
      if (len + 1) % 2 ^ 32 ≤ len then .fault else .bytes len (computePaddedLength len)
  | .bigInteger | .interval => .skip
  | .struct | .other _ => .error

/-- What is printed for a value that is there, as a function of the unread bytes; `none` where
the date cannot be broken down. -/
def valueText (env : Env) (tag : ℕ) (type : KmipItemType) (len : ℕ) (w : List UInt8) :
    Option (List UInt8) :=
  match type with
  | .integer => some (valueAttribute (decimal (toSigned 32 (ofBE (w.take 4)))))
  | .longInteger => some (valueAttribute (decimal (toSigned 64 (ofBE (w.take 8)))))
  | .enumeration =>
      some (valueAttribute (decimal (ofBE (w.take 4))) ++
        addCommentDescribingEnumValue tag (ofBE (w.take 4)))
  | .boolean => some (valueAttribute (ascii (if ofBE (w.take 8) = 1 then "true" else "false")))
  | .textString => some (valueAttribute (cstr (w.take len)))
  | .byteString => some (valueAttribute ((w.take len).flatMap (fun b => hexByte b.toNat)))
  | .dateTime => (env.strftime (toSigned 64 (ofBE (w.take 8)))).map valueAttribute
  | .bigInteger | .interval => some (ascii " value=\"(TODO)\"")
  | .struct | .other _ => none

section Value

variable {reader : KmipReader} (hv : reader.Valid) (env : Env) (tag : ℕ) {type : KmipItemType}
  {len size n : ℕ} (out : Out)

include hv

/-- **A value that is there**: it is read from the unread bytes, and exactly the bytes asked
for are consumed. -/
lemma dumpValue_of_fits (hl : len < 2 ^ 32) (hd : demandOf type len = .bytes size n)
    (hn : n ≤ reader.rest.length) :
    dumpValue env tag type len reader out =
      match valueText env tag type len reader.rest with
      | none => .fault (out.note (.use type reader size true)) (reader.advance n)
      | some text =>
          .next ((out.note (.use type reader size true)).append text) (reader.advance n) := by
  -- the memory behind a pointer into the buffer agrees with the unread bytes as far as they go
  have hmem (hp : computePaddedLength len ≤ reader.rest.length) :
      (reader.ptr.drop reader.pos).take len = reader.rest.take len :=
    hv.take_drop_ptr (le_trans (le_computePaddedLength hl) hp)
  cases type with
  | integer =>
      obtain ⟨rfl, rfl⟩ : 8 = size ∧ 8 = n := by simpa [demandOf] using hd
      simp only [dumpValue, valueText, kmipReaderReadInteger, kmipReaderReadPadded_eq hv, hn,
        if_true]
  | longInteger =>
      obtain ⟨rfl, rfl⟩ : 8 = size ∧ 8 = n := by simpa [demandOf] using hd
      simp only [dumpValue, valueText, kmipReaderReadLongInteger_eq hv, hn, if_true]
  | enumeration =>
      obtain ⟨rfl, rfl⟩ : 8 = size ∧ 8 = n := by simpa [demandOf] using hd
      simp only [dumpValue, valueText, kmipReaderReadEnumeration, kmipReaderReadPadded_eq hv, hn,
        if_true, id_eq]
  | boolean =>
      obtain ⟨rfl, rfl⟩ : 8 = size ∧ 8 = n := by simpa [demandOf] using hd
      simp only [dumpValue, valueText, kmipReaderReadU64,
        kmipReaderReadUint_eq hv (le_refl 8), hn, if_true]
  | dateTime =>
      obtain ⟨rfl, rfl⟩ : 8 = size ∧ 8 = n := by simpa [demandOf] using hd
      simp only [dumpValue, valueText, kmipReaderReadU64,
        kmipReaderReadUint_eq hv (le_refl 8), hn, if_true]
      cases env.strftime (toSigned 64 (ofBE (reader.rest.take 8))) <;> rfl
  | byteString =>
      obtain ⟨rfl, rfl⟩ : len = size ∧ computePaddedLength len = n := by simpa [demandOf] using hd
      simp only [dumpValue, valueText, kmipReaderReadBytes_eq hv hl, hn, if_true, hmem hn]
  | textString =>
      by_cases hmax : (len + 1) % 2 ^ 32 ≤ len
      · simp only [demandOf, if_pos hmax, reduceCtorEq] at hd
      · obtain ⟨rfl, rfl⟩ : len = size ∧ computePaddedLength len = n := by
          simpa only [demandOf, if_neg hmax, Demand.bytes.injEq] using hd
        simp only [dumpValue, if_neg hmax, valueText, kmipReaderReadString,
          kmipReaderReadBytes_eq hv hl, hn, if_true, hmem hn]
  | bigInteger | interval | struct | other => simp [demandOf] at hd

/-- **A value that is not there**: the branch uses it all the same, and goes on. -/
lemma dumpValue_of_short (hl : len < 2 ^ 32) (hd : demandOf type len = .bytes size n)
    (hn : reader.rest.length < n) :
    ∃ m ≤ reader.rest.length,
      (∃ text, dumpValue env tag type len reader out =
        .next ((out.note (.use type reader size false)).append text) (reader.advance m)) ∨
      dumpValue env tag type len reader out =
        .fault (out.note (.use type reader size false)) (reader.advance m) := by
  have hn' : ¬ n ≤ reader.rest.length := by omega
  cases type with
  | integer | enumeration =>
      obtain ⟨rfl, rfl⟩ : 8 = size ∧ 8 = n := by simpa [demandOf] using hd
      simp only [dumpValue, kmipReaderReadInteger, kmipReaderReadEnumeration,
        kmipReaderReadPadded_eq hv, hn', if_false]
      by_cases h4 : 4 ≤ reader.rest.length
      · exact ⟨4, h4, Or.inl ⟨_, by rw [if_pos h4]⟩⟩
      · exact ⟨0, Nat.zero_le _, Or.inl ⟨_, by rw [if_neg h4, hv.advance_zero]⟩⟩
  | longInteger =>
      obtain ⟨rfl, rfl⟩ : 8 = size ∧ 8 = n := by simpa [demandOf] using hd
      simp only [dumpValue, kmipReaderReadLongInteger_eq hv, hn', if_false]
      exact ⟨0, Nat.zero_le _, Or.inl ⟨_, by rw [hv.advance_zero]⟩⟩
  | boolean =>
      obtain ⟨rfl, rfl⟩ : 8 = size ∧ 8 = n := by simpa [demandOf] using hd
      simp only [dumpValue, kmipReaderReadU64, kmipReaderReadUint_eq hv (le_refl 8), hn',
        if_false]
      exact ⟨0, Nat.zero_le _, Or.inl ⟨_, by rw [hv.advance_zero]⟩⟩
  | dateTime =>
      obtain ⟨rfl, rfl⟩ : 8 = size ∧ 8 = n := by simpa [demandOf] using hd
      simp only [dumpValue, kmipReaderReadU64, kmipReaderReadUint_eq hv (le_refl 8), hn',
        if_false]
      refine ⟨0, Nat.zero_le _, ?_⟩
      rw [hv.advance_zero]
      cases env.strftime (toSigned 64 env.uint) with
      | none => exact Or.inr rfl
      | some timestr => exact Or.inl ⟨_, rfl⟩
  | byteString =>
      obtain ⟨rfl, rfl⟩ : len = size ∧ computePaddedLength len = n := by simpa [demandOf] using hd
      simp only [dumpValue, kmipReaderReadBytes_eq hv hl, hn', if_false]
      exact ⟨0, Nat.zero_le _, Or.inl ⟨_, by rw [hv.advance_zero]⟩⟩
  | textString =>
      by_cases hmax : (len + 1) % 2 ^ 32 ≤ len
      · simp only [demandOf, if_pos hmax, reduceCtorEq] at hd
      · obtain ⟨rfl, rfl⟩ : len = size ∧ computePaddedLength len = n := by
          simpa only [demandOf, if_neg hmax, Demand.bytes.injEq] using hd
        simp only [dumpValue, if_neg hmax, kmipReaderReadString, kmipReaderReadBytes_eq hv hl,
          hn', if_false]
        exact ⟨0, Nat.zero_le _, Or.inl ⟨_, by rw [hv.advance_zero]⟩⟩
  | bigInteger | interval | struct | other => simp [demandOf] at hd

omit hv

lemma dumpValue_of_skip (hd : demandOf type len = .skip) :
    dumpValue env tag type len reader out =
      .next (out.append (ascii " value=\"(TODO)\"")) (kmipReaderNext reader len).reader := by
  cases type with
  | bigInteger | interval => rfl
  | textString =>
      simp only [demandOf] at hd
      split at hd <;> cases hd
  | _ => cases hd

lemma dumpValue_of_fault (hd : demandOf type len = .fault) :
    dumpValue env tag type len reader out = .fault out reader := by
  cases type with
  | textString =>
      by_cases hmax : (len + 1) % 2 ^ 32 ≤ len
      · simp only [dumpValue, if_pos hmax]
      · simp only [demandOf, if_neg hmax, reduceCtorEq] at hd
  | _ => cases hd

lemma dumpValue_of_error (hd : demandOf type len = .error) :
    dumpValue env tag type len reader out = .error out reader := by
  cases type with
  | struct | other => rfl
  | textString =>
      simp only [demandOf] at hd
      split at hd <;> cases hd
  | _ => cases hd

end Value

end CBootstrap.Kmip
