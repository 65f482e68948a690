import CBootstrap.Lib.Bytes

/-!
# OP_MSG: what `build_opmsg` writes and what the format says

`miniclient.py` opens with the format of OP_MSG as a comment and then builds messages by hand.
The two are modelled separately.  `buildOpmsg` follows the Python statement by statement: each
`struct.pack` may raise, the size of a payload-1 section is added up before its bytes are
written, and `messageLength` is overwritten at the end.  `decodeOpmsg` is a reader for the
format in the comment; it consumes a whole message or fails, and `encodeOpmsg` writes back what
was read (`encodeOpmsg_of_decode`), so it accepts a message in one way only.

`buildOpmsg_decode_iff` compares them.  `size` counts the *characters* of the identifier, and
the section holds its UTF-8 *bytes*: what was meant is what is read back exactly when there is
no payload-1 section or its identifier is ASCII.

A length that is negative as an `int32` is a number from `2 ^ 31` on here, which no message
has room for.
-/

namespace CBootstrap.Miniclient

open Bytes

/-! ## `build_opmsg` -/

/-- What a call can raise. -/
inductive PyError
  | structError
  | assertionError
  | indexError
  | exception
  deriving DecidableEq, Repr

/-- `struct.pack("<i", n)` for a natural number. -/
def packInt32 (n : ℕ) : Except PyError (List UInt8) :=
  if n < 2 ^ 31 then .ok (toLE 4 n) else .error .structError

/-- `struct.pack("<I", n)`. -/
def packUint32 (n : ℕ) : Except PyError (List UInt8) :=
  if n < 2 ^ 32 then .ok (toLE 4 n) else .error .structError

/-- `struct.pack("<B", n)`. -/
def packUint8 (n : ℕ) : Except PyError (List UInt8) :=
  if n < 2 ^ 8 then .ok (toLE 1 n) else .error .structError

/-- `s.encode("utf8")`. -/
def encodeUtf8 (s : String) : List UInt8 := s.toList.flatMap String.utf8EncodeChar

/-- The payload-1 part of `build_opmsg`. -/
def buildPayload1 (out : List UInt8) (identifier : String) (documents : List (List UInt8)) :
    Except PyError (List UInt8) := do
  let out := out ++ (← packUint8 1)
  let size := 4
  let size := size + (identifier.length + 1)
  let size := size + (documents.map List.length).sum
  let out := out ++ (← packInt32 size)
  let out := out ++ (encodeUtf8 identifier ++ [0])
  return documents.foldl (· ++ ·) out

/-- The bytes `build_opmsg` returns, for the request id it has just counted up to. -/
def buildMessage (requestId : ℕ) (payload0Document : List UInt8)
    (payload1Identifier : Option String) (payload1Documents : Option (List (List UInt8))) :
    Except PyError (List UInt8) := do
  let out ← packInt32 0
  let out := out ++ (← packInt32 requestId)
  let out := out ++ (← packInt32 0)
  let out := out ++ (← packInt32 2013)
  let out := out ++ (← packUint32 0)
  let out := out ++ (← packUint8 0)
  let out := out ++ payload0Document
  let out ← match payload1Identifier, payload1Documents with
    | none, _ => pure out
    | some _, none => throw .assertionError
    | some identifier, some documents => buildPayload1 out identifier documents
  return (← packInt32 out.length) ++ out.drop 4

/-- `build_opmsg`: what it returns or raises, and the global `request_id` afterwards. -/
def buildOpmsg (requestId : ℕ) (payload0Document : List UInt8)
    (payload1Identifier : Option String) (payload1Documents : Option (List (List UInt8))) :
    Except PyError (List UInt8) × ℕ :=
  (buildMessage (requestId + 1) payload0Document payload1Identifier payload1Documents,
    requestId + 1)

/-! ## The format -/

/-- `struct Section`. -/
inductive Section
  | body (document : List UInt8)
  | sequence (size : ℕ) (identifier : List UInt8) (documents : List (List UInt8))
  deriving DecidableEq, Repr

/-- `struct OP_MSG`. -/
structure Opmsg where
  messageLength : ℕ
  requestID : ℕ
  responseTo : ℕ
  opCode : ℕ
  flagBits : ℕ
  sections : List Section
  checksum : Option (List UInt8)
  deriving DecidableEq, Repr

/-- The outside of a BSON document: it begins with its own length and ends with a zero byte. -/
def IsDocument (bytes : List UInt8) : Prop :=
  5 ≤ bytes.length ∧ bytes.length < 2 ^ 31 ∧ ofLE (bytes.take 4) = bytes.length ∧
    bytes.getLast? = some 0

instance (bytes : List UInt8) : Decidable (IsDocument bytes) := by
  unfold IsDocument
  infer_instance

/-- `document`: the first document and what follows it. -/
def decodeDocument (b : List UInt8) : Option (List UInt8 × List UInt8) :=
  let n := ofLE (b.take 4)
  if n ≤ b.length ∧ IsDocument (b.take n) then some (b.take n, b.drop n) else none

/-- `document*`, up to the end. -/
def decodeDocuments : ℕ → List UInt8 → Option (List (List UInt8))
  | _, [] => some []
  | 0, _ :: _ => none
  | fuel + 1, x :: b =>
      match decodeDocument (x :: b) with
      | none => none
      | some (document, rest) => (decodeDocuments fuel rest).map (document :: ·)

/-- `struct sequence`, whose `size` counts itself. -/
def decodeSequence (b : List UInt8) : Option (Section × List UInt8) :=
  let size := ofLE (b.take 4)
  if 4 ≤ size ∧ size ≤ b.length then
    let inner := (b.take size).drop 4
    match inner.dropWhile (· ≠ 0) with
    | [] => none
    | _ :: w =>
        (decodeDocuments w.length w).map (fun documents =>
          (.sequence size (inner.takeWhile (· ≠ 0)) documents, b.drop size))
  else none

/-- `struct Section`. -/
def decodeSection : List UInt8 → Option (Section × List UInt8)
  | [] => none
  | kind :: b =>
      if kind = 0 then (decodeDocument b).map (fun p => (.body p.1, p.2))
      else if kind = 1 then decodeSequence b
      else none

/-- `Section*`, up to the end. -/
def decodeSections : ℕ → List UInt8 → Option (List Section)
  | _, [] => some []
  | 0, _ :: _ => none
  | fuel + 1, x :: b =>
      match decodeSection (x :: b) with
      | none => none
      | some (s, rest) => (decodeSections fuel rest).map (s :: ·)

/-- Where the sections end: in front of the checksum, if bit 0 of `flagBits` says there is
one. -/
def sectionBytes (flagBits : ℕ) (b : List UInt8) : List UInt8 :=
  if flagBits % 2 = 1 then b.take (b.length - 4) else b

/-- `struct OP_MSG`: a whole message, or nothing. -/
def decodeOpmsg (b : List UInt8) : Option Opmsg :=
  if b.length < 20 then none
  else
    let flagBits := ofLE ((b.drop 16).take 4)
    let body := b.drop 20
    if flagBits % 2 = 1 ∧ body.length < 4 then none
    else
      match decodeSections body.length (sectionBytes flagBits body) with
      | none | some [] => none
      | some sections =>
          some ⟨ofLE (b.take 4), ofLE ((b.drop 4).take 4), ofLE ((b.drop 8).take 4),
            ofLE ((b.drop 12).take 4), flagBits, sections,
            if flagBits % 2 = 1 then some (body.drop (body.length - 4)) else none⟩

/-! ## Writing the format -/

/-- The bytes of a section. -/
def encodeSection : Section → List UInt8
  | .body document => 0 :: document
  | .sequence size identifier documents =>
      1 :: toLE 4 size ++ identifier ++ 0 :: documents.flatten

/-- The bytes of a message. -/
def encodeOpmsg (m : Opmsg) : List UInt8 :=
  toLE 4 m.messageLength ++ toLE 4 m.requestID ++ toLE 4 m.responseTo ++ toLE 4 m.opCode ++
    toLE 4 m.flagBits ++ m.sections.flatMap encodeSection ++ m.checksum.getD []

/-! ## What is read is what was there -/

lemma decodeDocument_sound {b document rest : List UInt8}
    (h : decodeDocument b = some (document, rest)) :
    b = document ++ rest ∧ IsDocument document := by
  rw [decodeDocument] at h
  split_ifs at h with hd
  obtain ⟨rfl, rfl⟩ : b.take _ = document ∧ b.drop _ = rest := by simpa using h
  exact ⟨(List.take_append_drop _ b).symm, hd.2⟩

lemma decodeDocuments_sound {fuel : ℕ} {b : List UInt8} {documents : List (List UInt8)}
    (h : decodeDocuments fuel b = some documents) : b = documents.flatten := by
  induction fuel generalizing b documents with
  | zero =>
      cases b with
      | nil =>
          cases h
          rfl
      | cons x b => cases h
  | succ fuel ih =>
      cases b with
      | nil =>
          cases h
          rfl
      | cons x b =>
          rw [decodeDocuments] at h
          cases hd : decodeDocument (x :: b) with
          | none => simp [hd] at h
          | some p =>
              obtain ⟨document, rest⟩ := p
              simp only [hd, Option.map_eq_some_iff] at h
              obtain ⟨others, hothers, rfl⟩ := h
              rw [(decodeDocument_sound hd).1, ih hothers, List.flatten_cons]

/-- The four bytes of a field that is there, written back. -/
lemma toLE_take_four {b : List UInt8} (h : 4 ≤ b.length) : toLE 4 (ofLE (b.take 4)) = b.take 4 := by
  have hlen : (b.take 4).length = 4 := by
    rw [List.length_take]
    omega
  have hfield := toLE_ofLE (b.take 4)
  rwa [hlen] at hfield

/-- A string of bytes up to its first zero byte. -/
lemma takeWhile_zero {inner w : List UInt8} {z : UInt8} (h : inner.dropWhile (· ≠ 0) = z :: w) :
    inner = inner.takeWhile (· ≠ 0) ++ 0 :: w := by
  have hz : z = 0 := by
    have hhead := List.head?_dropWhile_not (fun x => decide (x ≠ (0 : UInt8))) inner
    rw [h] at hhead
    simpa using hhead
  subst hz
  rw [← h, List.takeWhile_append_dropWhile]

/-- The bytes in front of two positions, between them, and behind them. -/
lemma take_drop_take (b : List UInt8) {m n : ℕ} (h : m ≤ n) :
    b = b.take m ++ (b.take n).drop m ++ b.drop n := by
  have hfront := List.take_append_drop m (b.take n)
  rw [List.take_take, min_eq_left h] at hfront
  rw [hfront, List.take_append_drop]

/-- A payload-1 section that is read is delimited by its own size field. -/
lemma decodeSequence_sound {b rest : List UInt8} {s : Section}
    (h : decodeSequence b = some (s, rest)) : 1 :: b = encodeSection s ++ rest := by
  rw [decodeSequence] at h
  simp only at h
  split_ifs at h with hsize
  split at h
  · cases h
  · next z w hw =>
    obtain ⟨documents, hdocs, hs⟩ := Option.map_eq_some_iff.mp h
    obtain ⟨rfl, rfl⟩ := Prod.mk.inj hs
    -- the size field, the identifier with its zero byte, the documents, the rest
    have hinner := takeWhile_zero hw
    rw [decodeDocuments_sound hdocs] at hinner
    have hsplit := take_drop_take b hsize.1
    generalize (b.take (ofLE (b.take 4))).drop 4 = inner at hinner hsplit
    calc 1 :: b = 1 :: (b.take 4 ++ (inner.takeWhile (· ≠ 0) ++ 0 :: documents.flatten) ++
          b.drop (ofLE (b.take 4))) := by rw [← hinner, ← hsplit]
      _ = _ := by
          rw [encodeSection, toLE_take_four (by omega)]
          simp

lemma decodeSection_sound {b rest : List UInt8} {s : Section}
    (h : decodeSection b = some (s, rest)) : b = encodeSection s ++ rest := by
  cases b with
  | nil => cases h
  | cons kind b =>
      rw [decodeSection] at h
      split_ifs at h with h0 h1
      · obtain ⟨⟨document, rest'⟩, hd, hs⟩ := Option.map_eq_some_iff.mp h
        obtain ⟨rfl, rfl⟩ := Prod.mk.inj hs
        rw [(decodeDocument_sound hd).1, h0, encodeSection, List.cons_append]
      · rw [h1]
        exact decodeSequence_sound h

lemma decodeSections_sound {fuel : ℕ} {b : List UInt8} {sections : List Section}
    (h : decodeSections fuel b = some sections) : b = sections.flatMap encodeSection := by
  induction fuel generalizing b sections with
  | zero =>
      cases b with
      | nil =>
          cases h
          rfl
      | cons x b => cases h
  | succ fuel ih =>
      cases b with
      | nil =>
          cases h
          rfl
      | cons x b =>
          rw [decodeSections] at h
          cases hd : decodeSection (x :: b) with
          | none => simp [hd] at h
          | some p =>
              obtain ⟨s, rest⟩ := p
              simp only [hd, Option.map_eq_some_iff] at h
              obtain ⟨others, hothers, rfl⟩ := h
              rw [decodeSection_sound hd, ih hothers, List.flatMap_cons]

/-- Five four-byte fields at the front of a message. -/
lemma header_fields {b : List UInt8} (h : 20 ≤ b.length) :
    toLE 4 (ofLE (b.take 4)) ++ toLE 4 (ofLE ((b.drop 4).take 4)) ++
      toLE 4 (ofLE ((b.drop 8).take 4)) ++ toLE 4 (ofLE ((b.drop 12).take 4)) ++
      toLE 4 (ofLE ((b.drop 16).take 4)) ++ b.drop 20 = b := by
  have hfield (k : ℕ) (hk : k + 4 ≤ b.length) :
      toLE 4 (ofLE ((b.drop k).take 4)) ++ b.drop (k + 4) = b.drop k := by
    rw [toLE_take_four (by rw [List.length_drop]; omega), ← List.drop_drop, List.take_append_drop]
  have h0 := hfield 0 (by omega)
  simp only [List.drop_zero, Nat.zero_add] at h0
  rw [List.append_assoc, hfield 16 (by omega), List.append_assoc, hfield 12 (by omega),
    List.append_assoc, hfield 8 (by omega), List.append_assoc, hfield 4 (by omega), h0]

/-- **Soundness of the reader**: writing back what was read gives the message again. -/
theorem encodeOpmsg_of_decode {b : List UInt8} {m : Opmsg} (h : decodeOpmsg b = some m) :
    encodeOpmsg m = b := by
  rw [decodeOpmsg] at h
  by_cases hlen : b.length < 20
  · rw [if_pos hlen] at h
    cases h
  · rw [if_neg hlen] at h
    simp only at h
    split_ifs at h with hcheck hflag
    · split at h
      · cases h
      · cases h
      · next sections hsections =>
        cases h
        rw [sectionBytes, if_pos hflag] at hsections
        rw [encodeOpmsg, ← decodeSections_sound hsections, Option.getD_some, List.append_assoc,
          List.take_append_drop, header_fields (by omega)]
    · split at h
      · cases h
      · cases h
      · next sections hsections =>
        cases h
        rw [sectionBytes, if_neg hflag] at hsections
        rw [encodeOpmsg, ← decodeSections_sound hsections, Option.getD_none, List.append_nil,
          header_fields (by omega)]

/-! ## What is written is what is read -/

/-- A section as the format wants it. -/
def Section.WellFormed : Section → Prop
  | .body document => IsDocument document
  | .sequence size identifier documents =>
      0 ∉ identifier ∧ (∀ d ∈ documents, IsDocument d) ∧
        size = 4 + (identifier.length + 1) + documents.flatten.length ∧ size < 2 ^ 31

/-- A message without a checksum, as the format wants it. -/
structure Opmsg.WellFormed (m : Opmsg) : Prop where
  messageLength_lt : m.messageLength < 2 ^ 32
  requestID_lt : m.requestID < 2 ^ 32
  responseTo_lt : m.responseTo < 2 ^ 32
  opCode_lt : m.opCode < 2 ^ 32
  flagBits_lt : m.flagBits < 2 ^ 32
  flagBits_even : m.flagBits % 2 = 0
  checksum : m.checksum = none
  sections_ne : m.sections ≠ []
  sections : ∀ s ∈ m.sections, s.WellFormed

lemma decodeDocument_append {document : List UInt8} (hd : IsDocument document)
    (rest : List UInt8) : decodeDocument (document ++ rest) = some (document, rest) := by
  obtain ⟨h5, -, hsize, -⟩ := id hd
  have hn : ofLE ((document ++ rest).take 4) = document.length := by
    rw [List.take_append_of_le_length (by omega), hsize]
  rw [decodeDocument]
  simp only [hn, List.take_left, List.drop_left]
  rw [if_pos]
  refine ⟨?_, hd⟩
  rw [List.length_append]
  exact Nat.le_add_right _ _

lemma decodeDocuments_flatten {fuel : ℕ} {documents : List (List UInt8)}
    (hd : ∀ d ∈ documents, IsDocument d) (hf : documents.length ≤ fuel) :
    decodeDocuments fuel documents.flatten = some documents := by
  induction documents generalizing fuel with
  | nil => cases fuel <;> rfl
  | cons d documents ih =>
      cases fuel with
      | zero => cases hf
      | succ fuel =>
          have hdoc := hd d List.mem_cons_self
          obtain ⟨x, d', rfl⟩ : ∃ x d', d = x :: d' := by
            cases d with
            | nil => exact absurd hdoc.1 (by decide)
            | cons x d' => exact ⟨x, d', rfl⟩
          have hfirst := decodeDocument_append hdoc documents.flatten
          rw [List.cons_append] at hfirst
          rw [List.flatten_cons, List.cons_append, decodeDocuments, hfirst]
          simp only
          rw [ih (fun e he => hd e (List.mem_cons_of_mem _ he)) (Nat.le_of_succ_le_succ hf)]
          rfl

/-- There are no more documents than bytes. -/
lemma length_le_length_flatten {documents : List (List UInt8)}
    (hd : ∀ d ∈ documents, IsDocument d) : documents.length ≤ documents.flatten.length := by
  induction documents with
  | nil => exact le_refl 0
  | cons d documents ih =>
      have h5 := (hd d List.mem_cons_self).1
      have hrest := ih (fun e he => hd e (List.mem_cons_of_mem _ he))
      rw [List.flatten_cons, List.length_append, List.length_cons]
      omega

lemma decodeSection_append {s : Section} (hs : s.WellFormed) (rest : List UInt8) :
    decodeSection (encodeSection s ++ rest) = some (s, rest) := by
  cases s with
  | body document =>
      rw [encodeSection, List.cons_append, decodeSection, if_pos rfl, decodeDocument_append hs]
      rfl
  | sequence size identifier documents =>
      obtain ⟨hnul, hdocs, hsize, hlt⟩ := hs
      set inner := identifier ++ 0 :: documents.flatten with hinner
      have hlen : size = (toLE 4 size ++ inner).length := by
        rw [hsize, List.length_append, length_toLE, hinner, List.length_append, List.length_cons]
        omega
      have hfield : ofLE ((toLE 4 size ++ inner ++ rest).take 4) = size := by
        rw [List.append_assoc, List.take_left' (length_toLE 4 size),
          ofLE_toLE_of_lt (by omega)]
      have hdrop : inner.dropWhile (· ≠ 0) = 0 :: documents.flatten := by
        rw [hinner, List.dropWhile_append_of_pos]
        · simp
        · exact fun b hb => decide_eq_true (fun h => hnul (h ▸ hb))
      have htake : inner.takeWhile (· ≠ 0) = identifier := by
        rw [hinner, List.takeWhile_append_of_pos]
        · simp
        · exact fun b hb => decide_eq_true (fun h => hnul (h ▸ hb))
      have hbytes : encodeSection (.sequence size identifier documents) ++ rest =
          1 :: (toLE 4 size ++ inner ++ rest) := by
        rw [encodeSection, hinner]
        simp
      rw [hbytes, decodeSection, if_neg (by decide), if_pos rfl, decodeSequence]
      have hfront : (toLE 4 size ++ inner ++ rest).take size = toLE 4 size ++ inner :=
        List.take_left' hlen.symm
      have hback : (toLE 4 size ++ inner ++ rest).drop size = rest := List.drop_left' hlen.symm
      have hdocuments := decodeDocuments_flatten hdocs (length_le_length_flatten hdocs)
      simp only [hfield, hfront, hback, List.drop_left' (length_toLE 4 size), hdrop, htake,
        hdocuments]
      rw [if_pos]
      · rfl
      · rw [List.length_append, ← hlen]
        omega

lemma decodeSections_append {fuel : ℕ} {sections : List Section}
    (hs : ∀ s ∈ sections, s.WellFormed) (hf : sections.length ≤ fuel) :
    decodeSections fuel (sections.flatMap encodeSection) = some sections := by
  induction sections generalizing fuel with
  | nil => cases fuel <;> rfl
  | cons s sections ih =>
      cases fuel with
      | zero => cases hf
      | succ fuel =>
          obtain ⟨x, w, hw⟩ : ∃ x w, encodeSection s = x :: w := by
            cases s with
            | body document => exact ⟨_, _, rfl⟩
            | sequence size identifier documents => exact ⟨_, _, rfl⟩
          have hfirst := decodeSection_append (hs s List.mem_cons_self)
            (sections.flatMap encodeSection)
          rw [hw, List.cons_append] at hfirst
          rw [List.flatMap_cons, hw, List.cons_append, decodeSections, hfirst]
          simp only
          rw [ih (fun e he => hs e (List.mem_cons_of_mem _ he)) (Nat.le_of_succ_le_succ hf)]
          rfl

lemma length_le_length_flatMap (sections : List Section) :
    sections.length ≤ (sections.flatMap encodeSection).length := by
  induction sections with
  | nil => exact le_refl 0
  | cons s sections ih =>
      have hs : 1 ≤ (encodeSection s).length := by
        cases s <;> simp [encodeSection]
      rw [List.flatMap_cons, List.length_append, List.length_cons]
      omega

/-- **Completeness of the reader**: a well-formed message is read back. -/
theorem decodeOpmsg_encode {m : Opmsg} (hm : m.WellFormed) :
    decodeOpmsg (encodeOpmsg m) = some m := by
  obtain ⟨messageLength, requestID, responseTo, opCode, flagBits, sections, checksum⟩ := m
  obtain ⟨h1, h2, h3, h4, h5, heven, hsum, hne, hs⟩ := hm
  simp only at h1 h2 h3 h4 h5 heven hsum hne hs
  subst hsum
  set body := sections.flatMap encodeSection with hbody
  have hbytes : encodeOpmsg ⟨messageLength, requestID, responseTo, opCode, flagBits, sections,
      none⟩ = toLE 4 messageLength ++ (toLE 4 requestID ++ (toLE 4 responseTo ++
        (toLE 4 opCode ++ (toLE 4 flagBits ++ body)))) := by
    simp [encodeOpmsg, hbody]
  -- each field is where the format puts it
  have hnext (n k : ℕ) (rest : List UInt8) (hk : 4 ≤ k) :
      (toLE 4 n ++ rest).drop k = rest.drop (k - 4) := by
    rw [List.drop_append, length_toLE, List.drop_eq_nil_of_le (by rw [length_toLE]; exact hk),
      List.nil_append]
  have hfield (n : ℕ) (hn : n < 2 ^ 32) (rest : List UInt8) :
      ofLE ((toLE 4 n ++ rest).take 4) = n := by
    rw [List.take_left' (length_toLE 4 n), ofLE_toLE_of_lt (by omega)]
  have hsections : decodeSections body.length body = some sections :=
    decodeSections_append hs (length_le_length_flatMap sections)
  rw [hbytes, decodeOpmsg, if_neg (by simp only [List.length_append, length_toLE]; omega)]
  simp (disch := omega) only [hnext, Nat.reduceSub, Nat.sub_self, List.drop_zero, hfield _ h1,
    hfield _ h2, hfield _ h3, hfield _ h4, hfield _ h5]
  have hodd : ¬ flagBits % 2 = 1 := by omega
  rw [if_neg (fun h => hodd h.1), sectionBytes, if_neg hodd, hsections]
  cases sections with
  | nil => exact absurd rfl hne
  | cons s sections => simp only [if_neg hodd]

/-! ## The bytes `build_opmsg` returns -/

/-- A BSON document, seen from outside. -/
structure Document where
  bytes : List UInt8
  isDocument : IsDocument bytes

/-- A payload-1 identifier: any text without a NUL. -/
structure Identifier where
  text : String
  nul_free : Char.ofNat 0 ∉ text.toList

/-- The payload-1 part of a message: an identifier and documents. -/
structure Payload1 where
  identifier : Identifier
  documents : List Document

/-- The documents of a payload-1 section, as bytes. -/
def Payload1.bytes (p : Payload1) : List (List UInt8) := p.documents.map Document.bytes

/-- The section that was meant: its size delimits exactly its own bytes. -/
def Payload1.section (p : Payload1) : Section :=
  .sequence (4 + ((encodeUtf8 p.identifier.text).length + 1) + p.bytes.flatten.length)
    (encodeUtf8 p.identifier.text) p.bytes

/-- The sections that were meant. -/
def intendedSections (payload0 : Document) (payload1 : Option Payload1) : List Section :=
  .body payload0.bytes :: payload1.toList.map Payload1.section

/-- The message that was meant. -/
def intended (requestId : ℕ) (payload0 : Document) (payload1 : Option Payload1) : Opmsg :=
  ⟨20 + ((intendedSections payload0 payload1).flatMap encodeSection).length, requestId, 0, 2013, 0,
    intendedSections payload0 payload1, none⟩

/-- `build_opmsg` on a payload-0 document and perhaps a payload 1. -/
def buildOpmsgOf (requestId : ℕ) (payload0 : Document) (payload1 : Option Payload1) :
    Except PyError (List UInt8) × ℕ :=
  buildOpmsg requestId payload0.bytes (payload1.map (fun p => p.identifier.text))
    (payload1.map Payload1.bytes)

/-! ## Characters and bytes -/

/-- One character takes at least one byte, and exactly one if it is ASCII. -/
lemma length_utf8_char (c : Char) : 1 ≤ (String.utf8EncodeChar c).length ∧
    ((String.utf8EncodeChar c).length = 1 ↔ c.toNat < 128) := by
  rw [String.length_utf8EncodeChar]
  refine ⟨c.utf8Size_pos, ?_⟩
  rw [Char.utf8Size_eq_one_iff, UInt32.le_iff_toNat_le]
  exact Nat.lt_succ_iff.symm

lemma length_utf8_chars (cs : List Char) : cs.length ≤ (cs.flatMap String.utf8EncodeChar).length ∧
    ((cs.flatMap String.utf8EncodeChar).length = cs.length ↔ ∀ c ∈ cs, c.toNat < 128) := by
  induction cs with
  | nil => simp
  | cons c cs ih =>
      obtain ⟨hpos, hone⟩ := length_utf8_char c
      obtain ⟨hle, heq⟩ := ih
      rw [List.flatMap_cons, List.length_append, List.length_cons, List.forall_mem_cons, ← hone,
        ← heq]
      omega

lemma length_le_encodeUtf8 (s : String) : s.length ≤ (encodeUtf8 s).length := by
  rw [← String.length_toList]
  exact (length_utf8_chars s.toList).1

/-- A text has as many bytes as characters exactly if it is ASCII. -/
lemma length_encodeUtf8_iff (s : String) :
    (encodeUtf8 s).length = s.length ↔ ∀ c ∈ s.toList, c.toNat < 128 := by
  rw [← String.length_toList]
  exact (length_utf8_chars s.toList).2

/-- Only a NUL is encoded with a zero byte. -/
lemma zero_not_mem_encodeUtf8 (identifier : Identifier) : 0 ∉ encodeUtf8 identifier.text := by
  intro h
  obtain ⟨c, hc, hzero⟩ := List.mem_flatMap.mp h
  have hbyte (n : ℕ) : (0 : UInt8) = UInt8.ofNat n ↔ n % 256 = 0 := by
    rw [← UInt8.toNat_inj, UInt8.toNat_ofNat']
    exact eq_comm
  have hval : c.toNat = 0 := by
    have hc' : c.val.toNat = c.toNat := rfl
    rw [String.utf8EncodeChar] at hzero
    split_ifs at hzero <;> simp only [List.mem_cons, List.not_mem_nil, or_false, hbyte] at hzero <;>
      omega
  have hnul : c = Char.ofNat 0 := by
    rw [← Char.ofNat_toNat c, hval]
  exact identifier.nul_free (hnul ▸ hc)

/-! ## The two against each other -/

/-- The payload-1 bytes `build_opmsg` writes: as meant, but for the size field. -/
def Payload1.written (p : Payload1) : List UInt8 :=
  1 :: toLE 4 (4 + (p.identifier.text.length + 1) + p.bytes.flatten.length) ++
    encodeUtf8 p.identifier.text ++ 0 :: p.bytes.flatten

lemma foldl_append (out : List UInt8) (documents : List (List UInt8)) :
    documents.foldl (· ++ ·) out = out ++ documents.flatten := by
  induction documents generalizing out with
  | nil => simp
  | cons d documents ih => rw [List.foldl_cons, ih, List.flatten_cons, List.append_assoc]

lemma packInt32_of_lt {n : ℕ} (h : n < 2 ^ 31) : packInt32 n = .ok (toLE 4 n) := if_pos h

lemma buildPayload1_eq (out : List UInt8) (p : Payload1)
    (h : 4 + (p.identifier.text.length + 1) + p.bytes.flatten.length < 2 ^ 31) :
    buildPayload1 out p.identifier.text p.bytes = .ok (out ++ p.written) := by
  have hsum : (p.bytes.map List.length).sum = p.bytes.flatten.length := by
    rw [List.length_flatten]
  have hkind : packUint8 1 = .ok [1] := rfl
  rw [buildPayload1, hkind, hsum]
  simp only [bind, Except.bind, pure, Except.pure, packInt32_of_lt h, foldl_append]
  rw [Payload1.written]
  simp

lemma length_written (p : Payload1) : p.written.length = (encodeSection p.section).length := by
  simp [Payload1.written, Payload1.section, encodeSection]

/-- The bytes of payload 1 in a message, if there is one. -/
def writtenPayload1 (payload1 : Option Payload1) : List UInt8 :=
  payload1.elim [] Payload1.written

lemma messageLength_intended (requestId : ℕ) (payload0 : Document) (payload1 : Option Payload1) :
    (intended requestId payload0 payload1).messageLength =
      21 + payload0.bytes.length + (writtenPayload1 payload1).length := by
  cases payload1 with
  | none =>
      simp only [intended, intendedSections, encodeSection, writtenPayload1, Option.toList_none,
        List.map_nil, List.flatMap_cons, List.flatMap_nil, List.append_nil, List.length_cons,
        Option.elim_none, List.length_nil]
      omega
  | some p =>
      simp only [intended, intendedSections, writtenPayload1, Option.toList_some, List.map_cons,
        List.map_nil, List.flatMap_cons, List.flatMap_nil, List.append_nil, List.length_append,
        Option.elim_some, length_written]
      rw [encodeSection, List.length_cons]
      omega

/-- Everything `build_opmsg` writes behind `messageLength`. -/
def behindLength (requestId : ℕ) (payload0 : Document) (payload1 : Option Payload1) : List UInt8 :=
  toLE 4 requestId ++ toLE 4 0 ++ toLE 4 2013 ++ toLE 4 0 ++ 0 :: payload0.bytes ++
    writtenPayload1 payload1

lemma length_behindLength (requestId : ℕ) (payload0 : Document) (payload1 : Option Payload1) :
    4 + (behindLength requestId payload0 payload1).length =
      (intended requestId payload0 payload1).messageLength := by
  rw [messageLength_intended]
  simp only [behindLength, List.length_append, length_toLE, List.length_cons]
  omega

/-- **What `build_opmsg` returns**: the message that was meant, but for the size field of its
payload 1. -/
lemma buildMessage_eq {requestId : ℕ} (payload0 : Document) (payload1 : Option Payload1)
    (hid : requestId < 2 ^ 31)
    (hsize : (intended requestId payload0 payload1).messageLength < 2 ^ 31) :
    buildMessage requestId payload0.bytes (payload1.map (fun p => p.identifier.text))
        (payload1.map Payload1.bytes) =
      .ok (toLE 4 (intended requestId payload0 payload1).messageLength ++
        behindLength requestId payload0 payload1) := by
  have h0 : packInt32 0 = .ok (toLE 4 0) := rfl
  have h2013 : packInt32 2013 = .ok (toLE 4 2013) := rfl
  have hflags : packUint32 0 = .ok (toLE 4 0) := rfl
  have hkind : packUint8 0 = .ok [0] := rfl
  have hlength := length_behindLength requestId payload0 payload1
  -- the placeholder, overwritten at the end
  have hfinish (out : List UInt8)
      (hout : out = toLE 4 0 ++ behindLength requestId payload0 payload1) :
      (packInt32 out.length).bind (fun len => Except.ok (len ++ out.drop 4)) =
        .ok (toLE 4 (intended requestId payload0 payload1).messageLength ++
          behindLength requestId payload0 payload1) := by
    have hlen : out.length = (intended requestId payload0 payload1).messageLength := by
      rw [hout, List.length_append, length_toLE, hlength]
    rw [hlen, packInt32_of_lt hsize, hout, List.drop_left' (length_toLE 4 0)]
    rfl
  rw [buildMessage, h0, packInt32_of_lt hid, h2013, hflags, hkind]
  simp only [bind, Except.bind, pure, Except.pure]
  cases payload1 with
  | none =>
      simp only [Option.map_none]
      exact hfinish _ (by simp [behindLength, writtenPayload1])
  | some p =>
      have hp : 4 + (p.identifier.text.length + 1) + p.bytes.flatten.length < 2 ^ 31 := by
        have hle := length_le_encodeUtf8 p.identifier.text
        rw [messageLength_intended] at hsize
        simp only [writtenPayload1, Option.elim_some, Payload1.written, List.length_append,
          List.length_cons, length_toLE] at hsize
        omega
      simp only [Option.map_some, buildPayload1_eq _ p hp]
      exact hfinish _ (by simp [behindLength, writtenPayload1])

/-- Above the range of an `int32`, packing the request id raises. -/
lemma buildMessage_of_le {requestId : ℕ} (hid : 2 ^ 31 ≤ requestId) (payload0 : List UInt8)
    (identifier : Option String) (documents : Option (List (List UInt8))) :
    buildMessage requestId payload0 identifier documents = .error .structError := by
  have h0 : packInt32 0 = .ok (toLE 4 0) := rfl
  have hpack : packInt32 requestId = .error .structError := if_neg (by omega)
  rw [buildMessage, h0, hpack]
  rfl

/-- The bytes of the message that was meant. -/
lemma encodeOpmsg_intended (requestId : ℕ) (payload0 : Document) (payload1 : Option Payload1) :
    encodeOpmsg (intended requestId payload0 payload1) =
      toLE 4 (intended requestId payload0 payload1).messageLength ++
        (toLE 4 requestId ++ toLE 4 0 ++ toLE 4 2013 ++ toLE 4 0 ++ 0 :: payload0.bytes ++
          payload1.elim [] (fun p => encodeSection p.section)) := by
  cases payload1 with
  | none => simp [encodeOpmsg, intended, intendedSections, encodeSection]
  | some p =>
      rw [encodeOpmsg]
      simp only [intended, intendedSections, Option.toList_some, List.map_cons, List.map_nil,
        List.flatMap_cons, List.flatMap_nil, List.append_nil, Option.getD_none, Option.elim_some]
      generalize encodeSection p.section = w
      simp [encodeSection]

lemma intended_wellFormed {requestId : ℕ} (payload0 : Document) (payload1 : Option Payload1)
    (hid : requestId < 2 ^ 31)
    (hsize : (intended requestId payload0 payload1).messageLength < 2 ^ 31) :
    (intended requestId payload0 payload1).WellFormed := by
  refine ⟨by omega, ?_, ?_, ?_, ?_, rfl, rfl, List.cons_ne_nil _ _, ?_⟩
  · exact lt_trans hid (by norm_num)
  · exact Nat.two_pow_pos 32
  · show 2013 < 2 ^ 32
    norm_num
  · exact Nat.two_pow_pos 32
  · intro s hs
    rcases List.mem_cons.mp hs with rfl | hs
    · exact payload0.isDocument
    · obtain ⟨p, hp, rfl⟩ := List.mem_map.mp hs
      have hp : payload1 = some p := by simpa using hp
      subst hp
      refine ⟨zero_not_mem_encodeUtf8 p.identifier, ?_, rfl, ?_⟩
      · intro d hd
        obtain ⟨document, -, rfl⟩ := List.mem_map.mp hd
        exact document.isDocument
      · rw [messageLength_intended] at hsize
        simp only [writtenPayload1, Option.elim_some, Payload1.written, List.length_append,
          List.length_cons, length_toLE] at hsize
        omega

/-- The size field that is written is the one that was meant exactly if the identifier is
ASCII. -/
lemma written_eq_iff (p : Payload1)
    (h : 4 + ((encodeUtf8 p.identifier.text).length + 1) + p.bytes.flatten.length < 2 ^ 31) :
    p.written = encodeSection p.section ↔ ∀ c ∈ p.identifier.text.toList, c.toNat < 128 := by
  have hle := length_le_encodeUtf8 p.identifier.text
  rw [← length_encodeUtf8_iff]
  constructor
  · intro hw
    have hfields : toLE 4 (4 + (p.identifier.text.length + 1) + p.bytes.flatten.length) =
        toLE 4 (4 + ((encodeUtf8 p.identifier.text).length + 1) + p.bytes.flatten.length) := by
      simpa [Payload1.written, Payload1.section, encodeSection] using hw
    have := toLE_injective (by omega) (by omega) hfields
    omega
  · intro hlen
    simp [Payload1.written, Payload1.section, encodeSection, hlen]

/-- **`build_opmsg` against the format.**  Within the range of the request id it returns a
message of the size that was meant, and reading that message by the format gives back exactly
what was meant if and only if there is no payload 1 or its identifier is ASCII. -/
theorem buildOpmsg_decode_iff (requestId : ℕ) (payload0 : Document) (payload1 : Option Payload1)
    (hsize : (intended (requestId + 1) payload0 payload1).messageLength < 2 ^ 31) :
    ((∃ bytes, (buildOpmsgOf requestId payload0 payload1).1 = .ok bytes) ↔
      requestId + 1 < 2 ^ 31) ∧
    ∀ bytes, (buildOpmsgOf requestId payload0 payload1).1 = .ok bytes →
      bytes.length = (intended (requestId + 1) payload0 payload1).messageLength ∧
      (decodeOpmsg bytes = some (intended (requestId + 1) payload0 payload1) ↔
        ∀ p ∈ payload1, ∀ c ∈ p.identifier.text.toList, c.toNat < 128) := by
  by_cases hid : requestId + 1 < 2 ^ 31
  · have hbuild := buildMessage_eq payload0 payload1 hid hsize
    refine ⟨iff_of_true ⟨_, hbuild⟩ hid, ?_⟩
    intro bytes hbytes
    have hb := Except.ok.inj (hbuild.symm.trans hbytes)
    subst hb
    refine ⟨by rw [List.length_append, length_toLE, length_behindLength], ?_⟩
    -- being read as what was meant is being the bytes of what was meant
    have hread : decodeOpmsg (toLE 4 (intended (requestId + 1) payload0 payload1).messageLength ++
          behindLength (requestId + 1) payload0 payload1) =
            some (intended (requestId + 1) payload0 payload1) ↔
        toLE 4 (intended (requestId + 1) payload0 payload1).messageLength ++
          behindLength (requestId + 1) payload0 payload1 =
            encodeOpmsg (intended (requestId + 1) payload0 payload1) := by
      constructor
      · exact fun h => (encodeOpmsg_of_decode h).symm
      · intro h
        rw [h]
        exact decodeOpmsg_encode (intended_wellFormed payload0 payload1 hid hsize)
    rw [hread, encodeOpmsg_intended, List.append_cancel_left_eq, behindLength,
      List.append_cancel_left_eq, writtenPayload1]
    cases payload1 with
    | none => simp
    | some p =>
        have hp : 4 + ((encodeUtf8 p.identifier.text).length + 1) + p.bytes.flatten.length <
            2 ^ 31 := by
          rw [messageLength_intended] at hsize
          simp only [writtenPayload1, Option.elim_some, Payload1.written, List.length_append,
            List.length_cons, length_toLE] at hsize
          omega
        simpa using written_eq_iff p hp
  · have hfail : (buildOpmsgOf requestId payload0 payload1).1 = .error .structError :=
      buildMessage_of_le (by omega) _ _ _
    rw [hfail]
    refine ⟨iff_of_false ?_ hid, ?_⟩
    · rintro ⟨bytes, h⟩
      cases h
    · intro bytes h
      cases h

/-- The empty BSON document. -/
def emptyDocument : Document := ⟨[5, 0, 0, 0, 0], by decide⟩

/-- A message with one empty document under the identifier `documents`. -/
theorem buildOpmsg_decode_documents :
    ∃ bytes, (buildOpmsgOf 0 emptyDocument
        (some ⟨⟨"documents", by decide⟩, [emptyDocument]⟩)).1 = .ok bytes ∧
      decodeOpmsg bytes = some (intended 1 emptyDocument
        (some ⟨⟨"documents", by decide⟩, [emptyDocument]⟩)) := by
  obtain ⟨hok, hread⟩ := buildOpmsg_decode_iff 0 emptyDocument
    (some ⟨⟨"documents", by decide⟩, [emptyDocument]⟩) (by decide +kernel)
  obtain ⟨bytes, hbytes⟩ := hok.mpr (by norm_num)
  refine ⟨bytes, hbytes, (hread bytes hbytes).2.mpr ?_⟩
  intro p hp
  cases hp
  decide

/-- The same message under a one-letter identifier that is not ASCII: the size field is one
short, and the message cannot be read. -/
theorem buildOpmsg_decode_accent :
    ∃ bytes, (buildOpmsgOf 0 emptyDocument
        (some ⟨⟨"é", by decide⟩, [emptyDocument]⟩)).1 = .ok bytes ∧
      decodeOpmsg bytes = none := by
  exact ⟨_, rfl, by decide +kernel⟩

end CBootstrap.Miniclient
