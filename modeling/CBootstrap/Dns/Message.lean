import CBootstrap.Lib.Bytes
import CBootstrap.Lib.Decoder
import Mathlib.Tactic.SplitIfs

/-!
# DNS queries on the wire

The part of the DNS message format that a query is made of: a header of six 16-bit fields, one
question, and any records in the additional section (an EDNS client sends one there).  Names are
written label by label; the name of a record may end in a pointer to a name further ahead in the
message.

`query` reads such a message.  It is a `Decoder`, so with the round trip (`query_encode`) comes
that no proper prefix of a query is a query (`query_of_prefix`).
-/

namespace CBootstrap.Dns

open Bytes

/-! ## The format -/

/-- A domain name: its labels, the root left out. -/
abbrev Name := List (List UInt8)

/-- The labels of a name, each behind its length. -/
def labelBytes (labels : Name) : List UInt8 :=
  labels.flatMap fun label => toBE 1 label.length ++ label

/-- How a name ends: in the root, or in a pointer to the offset it goes on at. -/
def nameEnd : Option ℕ → List UInt8
  | none => toBE 1 0
  | some offset => toBE 1 (192 + offset / 256) ++ toBE 1 (offset % 256)

/-- Labels have 1 to 63 bytes, and a name 255 with its end. -/
structure LabelsFit (labels : Name) : Prop where
  label : ∀ label ∈ labels, label ≠ [] ∧ label.length < 64
  total : (labelBytes labels).length < 255

/-- A question. -/
structure Question where
  qname : Name
  qtype : ℕ
  qclass : ℕ
  deriving DecidableEq, Repr

structure Question.WellFormed (q : Question) : Prop where
  qname : LabelsFit q.qname
  qtype : q.qtype < 2 ^ 16
  qclass : q.qclass < 2 ^ 16

def Question.encode (q : Question) : List UInt8 :=
  labelBytes q.qname ++ nameEnd none ++ toBE 2 q.qtype ++ toBE 2 q.qclass

/-- A resource record; `pointer` is the offset its name goes on at, if it does not end in the
root. -/
structure Record where
  labels : Name
  pointer : Option ℕ
  rtype : ℕ
  rclass : ℕ
  ttl : ℕ
  rdata : List UInt8
  deriving DecidableEq, Repr

structure Record.WellFormed (r : Record) : Prop where
  labels : LabelsFit r.labels
  pointer : ∀ offset ∈ r.pointer, offset < 2 ^ 14
  rtype : r.rtype < 2 ^ 16
  rclass : r.rclass < 2 ^ 16
  ttl : r.ttl < 2 ^ 32
  rdata : r.rdata.length < 2 ^ 16

def Record.encode (r : Record) : List UInt8 :=
  labelBytes r.labels ++ nameEnd r.pointer ++ toBE 2 r.rtype ++ toBE 2 r.rclass ++ toBE 4 r.ttl ++
    toBE 2 r.rdata.length ++ r.rdata

/-- A query. -/
structure Query where
  id : ℕ
  flags : ℕ
  question : Question
  additional : List Record
  deriving DecidableEq, Repr

/-- The message up to the additional section. -/
def Query.front (q : Query) : List UInt8 :=
  toBE 2 q.id ++ (toBE 2 q.flags ++ toBE 2 1 ++ toBE 2 0 ++ toBE 2 0 ++
    toBE 2 q.additional.length ++ q.question.encode)

/-- The message. -/
def Query.encode (q : Query) : List UInt8 := q.front ++ q.additional.flatMap Record.encode

/-- A query whose fields fit.  `recordOk` says of a record, and of the message ahead of it, that
its pointer leads to a name and that its data is of its type; what that means is up to the type. -/
structure Query.WellFormed (recordOk : List UInt8 → Record → Prop) (q : Query) : Prop where
  id : q.id < 2 ^ 16
  flags : q.flags < 2 ^ 16
  question : q.question.WellFormed
  length : q.additional.length < 2 ^ 16
  records : ∀ r ∈ q.additional, r.WellFormed
  recordsOk : ∀ before r after, q.additional = before ++ r :: after →
    recordOk (q.front ++ before.flatMap Record.encode) r

/-- A query begins with its id. -/
lemma Query.encode_eq (q : Query) :
    ∃ rest, q.encode = UInt8.ofNat (q.id / 256) :: UInt8.ofNat q.id :: rest :=
  ⟨_, List.append_assoc (toBE 2 q.id) _ _⟩

/-! ## Reading a query -/

/-- An integer of `width` bytes. -/
def field (width : ℕ) : Decoder UInt8 ℕ := do
  let bytes ← Decoder.take width
  pure (ofBE bytes)

/-- The labels of a name, and the offset it goes on at. -/
def labels : ℕ → Decoder UInt8 (Name × Option ℕ)
  | 0 => .fail
  | fuel + 1 => do
      let n ← field 1
      if n = 0 then pure ([], none)
      else if n < 64 then do
        let label ← Decoder.take n
        let rest ← labels fuel
        pure (label :: rest.1, rest.2)
      else if 192 ≤ n then do
        let low ← field 1
        pure ([], some ((n - 192) * 256 + low))
      else .fail

/-- A question, whose name has no pointer: no name is ahead of it. -/
def question : Decoder UInt8 Question := do
  let name ← labels 128
  let qtype ← field 2
  let qclass ← field 2
  if name.2 = none then pure ⟨name.1, qtype, qclass⟩ else .fail

/-- A resource record. -/
def record : Decoder UInt8 Record := do
  let name ← labels 128
  let rtype ← field 2
  let rclass ← field 2
  let ttl ← field 4
  let rdlength ← field 2
  let rdata ← Decoder.take rdlength
  pure ⟨name.1, name.2, rtype, rclass, ttl, rdata⟩

/-- A query: one question, no answers and no authorities. -/
def query : Decoder UInt8 Query := do
  let id ← field 2
  let flags ← field 2
  let questions ← field 2
  let answers ← field 2
  let authorities ← field 2
  let additionals ← field 2
  if questions = 1 ∧ answers = 0 ∧ authorities = 0 then do
    let question ← question
    let additional ← record.times additionals
    pure ⟨id, flags, question, additional⟩
  else .fail

/-! ## Round trips -/

lemma run_field {width n : ℕ} (h : n < 256 ^ width) (rest : List UInt8) :
    (field width).run (toBE width n ++ rest) = some (n, rest) := by
  rw [field, Decoder.run_bind (Decoder.run_take (length_toBE width n) rest), Decoder.run_pure,
    ofBE_toBE_of_lt h]

/-- Each label takes at least two bytes. -/
lemma LabelsFit.length_lt {name : Name} (h : LabelsFit name) : name.length < 128 := by
  have hle : ∀ name : Name, (∀ label ∈ name, label ≠ [] ∧ label.length < 64) →
      2 * name.length ≤ (labelBytes name).length := by
    intro name hname
    induction name with
    | nil => exact Nat.zero_le _
    | cons label name ih =>
        have hlabel := List.length_pos_iff.mpr (hname label List.mem_cons_self).1
        have hrest := ih fun l hl => hname l (List.mem_cons_of_mem _ hl)
        rw [labelBytes, List.flatMap_cons, List.length_append, List.length_append, length_toBE,
          ← labelBytes, List.length_cons]
        omega
  have := hle name h.label
  have := h.total
  omega

/-- A name with its end is read as its labels and where it goes on. -/
lemma run_labels {fuel : ℕ} {name : Name} (hfuel : name.length < fuel)
    (hname : ∀ label ∈ name, label ≠ [] ∧ label.length < 64) {pointer : Option ℕ}
    (hpointer : ∀ offset ∈ pointer, offset < 2 ^ 14) (rest : List UInt8) :
    (labels fuel).run (labelBytes name ++ (nameEnd pointer ++ rest)) =
      some ((name, pointer), rest) := by
  induction fuel generalizing name with
  | zero => omega
  | succ fuel ih =>
      rw [labels]
      cases name with
      | nil =>
          cases pointer with
          | none =>
              rw [show labelBytes [] ++ (nameEnd none ++ rest) = toBE 1 0 ++ rest from rfl,
                Decoder.run_bind (run_field (by norm_num) rest), if_pos rfl]
              rfl
          | some offset =>
              have hlt := hpointer offset rfl
              rw [show labelBytes [] ++ (nameEnd (some offset) ++ rest) =
                toBE 1 (192 + offset / 256) ++ (toBE 1 (offset % 256) ++ rest) from by
                  simp [labelBytes, nameEnd],
                Decoder.run_bind (run_field (by omega) _), if_neg (by omega), if_neg (by omega),
                if_pos (by omega), Decoder.run_bind (run_field (by omega) rest), Decoder.run_pure]
              have hoffset : (192 + offset / 256 - 192) * 256 + offset % 256 = offset := by omega
              rw [hoffset]
      | cons label name =>
          obtain ⟨hne, hlt⟩ := hname label List.mem_cons_self
          have hpos := List.length_pos_iff.mpr hne
          have hrest := ih (Nat.lt_of_succ_lt_succ hfuel)
            fun l hl => hname l (List.mem_cons_of_mem _ hl)
          rw [labelBytes, List.flatMap_cons, List.append_assoc, List.append_assoc, ← labelBytes,
            Decoder.run_bind (run_field (by omega) _), if_neg (by omega), if_pos hlt,
            Decoder.run_bind (Decoder.run_take rfl _), Decoder.run_bind hrest, Decoder.run_pure]

/-- **Round trip of a question.** -/
lemma run_question {q : Question} (h : q.WellFormed) (rest : List UInt8) :
    question.run (q.encode ++ rest) = some (q, rest) := by
  have hname : ∀ rest, (labels 128).run (labelBytes q.qname ++ (nameEnd none ++ rest)) =
      some ((q.qname, none), rest) :=
    run_labels h.qname.length_lt h.qname.label (by simp)
  have htype : q.qtype < 256 ^ 2 := lt_of_lt_of_eq h.qtype (by norm_num)
  have hclass : q.qclass < 256 ^ 2 := lt_of_lt_of_eq h.qclass (by norm_num)
  simp only [question, Question.encode, List.append_assoc]
  rw [Decoder.run_bind (hname _), Decoder.run_bind (run_field htype _),
    Decoder.run_bind (run_field hclass _), if_pos rfl, Decoder.run_pure]

/-- **Round trip of a record.** -/
lemma run_record {r : Record} (h : r.WellFormed) (rest : List UInt8) :
    record.run (r.encode ++ rest) = some (r, rest) := by
  have htype : r.rtype < 256 ^ 2 := lt_of_lt_of_eq h.rtype (by norm_num)
  have hclass : r.rclass < 256 ^ 2 := lt_of_lt_of_eq h.rclass (by norm_num)
  have httl : r.ttl < 256 ^ 4 := lt_of_lt_of_eq h.ttl (by norm_num)
  have hdata : r.rdata.length < 256 ^ 2 := lt_of_lt_of_eq h.rdata (by norm_num)
  simp only [record, Record.encode, List.append_assoc]
  rw [Decoder.run_bind (run_labels h.labels.length_lt h.labels.label h.pointer _),
    Decoder.run_bind (run_field htype _), Decoder.run_bind (run_field hclass _),
    Decoder.run_bind (run_field httl _), Decoder.run_bind (run_field hdata _),
    Decoder.run_bind (Decoder.run_take rfl _), Decoder.run_pure]

/-- **Round trip of a query.** -/
theorem query_encode {recordOk : List UInt8 → Record → Prop} {q : Query}
    (h : q.WellFormed recordOk) (rest : List UInt8) :
    query.run (q.encode ++ rest) = some (q, rest) := by
  have hid : q.id < 256 ^ 2 := lt_of_lt_of_eq h.id (by norm_num)
  have hflags : q.flags < 256 ^ 2 := lt_of_lt_of_eq h.flags (by norm_num)
  have hlength : q.additional.length < 256 ^ 2 := lt_of_lt_of_eq h.length (by norm_num)
  have hrecords : (record.times q.additional.length).run
      (q.additional.flatMap Record.encode ++ rest) = some (q.additional, rest) :=
    Decoder.run_times (fun r hr rest => run_record (h.records r hr) rest) rest
  simp only [query, Query.encode, Query.front, List.append_assoc]
  rw [Decoder.run_bind (run_field hid _), Decoder.run_bind (run_field hflags _),
    Decoder.run_bind (run_field (by norm_num) _), Decoder.run_bind (run_field (by norm_num) _),
    Decoder.run_bind (run_field (by norm_num) _), Decoder.run_bind (run_field hlength _),
    if_pos ⟨rfl, rfl, rfl⟩, Decoder.run_bind (run_question h.question _),
    Decoder.run_bind hrecords, Decoder.run_pure]

/-- No proper prefix of a query is read as a query. -/
theorem query_of_prefix {recordOk : List UInt8 → Record → Prop} {q : Query}
    (h : q.WellFormed recordOk) {data : List UInt8} (hdata : data <+: q.encode)
    (hne : data ≠ q.encode) : query.run data = none := by
  have hfull := query_encode h []
  rw [List.append_nil] at hfull
  exact Decoder.run_eq_none_of_prefix hfull hdata hne

/-- What is read as a field was there. -/
lemma field_eq_some {width n : ℕ} {data rest : List UInt8}
    (h : (field width).run data = some (n, rest)) :
    width ≤ data.length ∧ n = ofBE (data.take width) := by
  obtain ⟨bytes, middle, htake, hpure⟩ := Decoder.run_bind_eq_some.mp h
  obtain ⟨hle, rfl⟩ := Decoder.run_take_eq_some htake
  cases hpure
  exact ⟨hle, rfl⟩

/-- A message that is read as a query begins with its id. -/
theorem query_id {data rest : List UInt8} {q : Query} (h : query.run data = some (q, rest)) :
    2 ≤ data.length ∧ q.id = ofBE (data.take 2) := by
  obtain ⟨id, _, hid, h⟩ := Decoder.run_bind_eq_some.mp h
  obtain ⟨flags, _, -, h⟩ := Decoder.run_bind_eq_some.mp h
  obtain ⟨questions, _, -, h⟩ := Decoder.run_bind_eq_some.mp h
  obtain ⟨answers, _, -, h⟩ := Decoder.run_bind_eq_some.mp h
  obtain ⟨authorities, _, -, h⟩ := Decoder.run_bind_eq_some.mp h
  obtain ⟨additionals, _, -, h⟩ := Decoder.run_bind_eq_some.mp h
  split_ifs at h with hcounts
  · obtain ⟨question, _, -, h⟩ := Decoder.run_bind_eq_some.mp h
    obtain ⟨additional, _, -, h⟩ := Decoder.run_bind_eq_some.mp h
    cases h
    exact field_eq_some hid
  · cases h

end CBootstrap.Dns
