import CBootstrap.Dns.Message
import Mathlib.Data.List.DropRight

/-!
# `simple_dns_server.py`

The handler takes the datagram, strips white space from both ends of it, has dnslib parse the
rest, prints the request, and sends what dnslib packs; an exception on the way is printed and
nothing is sent.

Stripping is for text, and a DNS message is not text.  An id whose first byte is a blank, a tab or
a line break loses that byte, and everything behind it is read one byte off; a message whose last
byte is one (an EDNS option can end in any byte) loses its end.  `handle_answers_iff` says that
these are the queries that are not answered, together with those `socketserver` cuts off because
they are longer than the 8192 bytes it receives, and any that dnslib has no text for.

dnslib is not part of the repository.  `Dnslib` is what the server uses of it, and
`Dnslib.Faithful` what it relies on.  `wireDns` is a library of that kind, made from the format of
`CBootstrap.Dns.Message`.
-/

namespace CBootstrap.Dns

open Bytes

/-! ## The library -/

/-- The data of the records the server answers with. -/
inductive RData
  | a (address : List UInt8)
  | srv (priority weight port : ℕ) (target : Name)
  deriving DecidableEq, Repr

/-- `RR`. -/
structure RR where
  rname : Name
  rtype : ℕ
  rclass : ℕ
  ttl : ℕ
  rdata : RData
  deriving DecidableEq, Repr

/-- The `DNSRecord` the server packs. -/
structure Reply where
  id : ℕ
  qr : Bool
  aa : Bool
  ra : Bool
  q : Question
  rr : List RR
  deriving DecidableEq, Repr

/-- Data dnslib can write. -/
def RData.WellFormed : RData → Prop
  | .a address => address.length = 4
  | .srv priority weight port target =>
      priority < 2 ^ 16 ∧ weight < 2 ^ 16 ∧ port < 2 ^ 16 ∧ LabelsFit target

/-- An answer dnslib can write. -/
structure RR.WellFormed (r : RR) : Prop where
  rname : LabelsFit r.rname
  rtype : r.rtype < 2 ^ 16
  rclass : r.rclass < 2 ^ 16
  ttl : r.ttl < 2 ^ 32
  rdata : r.rdata.WellFormed

/-- A reply dnslib can write: its answers are about the name that was asked for. -/
structure Reply.WellFormed (r : Reply) : Prop where
  id : r.id < 2 ^ 16
  q : r.q.WellFormed
  length : r.rr.length < 2 ^ 16
  rr : ∀ rr ∈ r.rr, rr.WellFormed
  rname : ∀ rr ∈ r.rr, rr.rname = r.q.qname

/-- What the server uses of dnslib; `none` and `false` where it raises. -/
structure Dnslib where
  /-- Which records are well formed behind which bytes. -/
  recordOk : List UInt8 → Record → Prop
  /-- A parsed message. -/
  DNSRecord : Type
  /-- `DNSRecord.parse`. -/
  parse : List UInt8 → Option DNSRecord
  /-- `request.header.id`. -/
  id : DNSRecord → ℕ
  /-- `request.q`. -/
  q : DNSRecord → Question
  /-- Whether `format` makes a text of a parsed message. -/
  formats : DNSRecord → Bool
  /-- `str` of a `DNSLabel`. -/
  str : Name → Option String
  /-- `QTYPE[…]`. -/
  qtype : ℕ → Option String
  /-- Whether `format` makes a text of a reply. -/
  formatsReply : Reply → Bool
  /-- `DNSRecord.pack`. -/
  pack : Reply → Option (List UInt8)

/-- What the server relies on: queries are parsed as what they say, and not if their end is
missing; the id is the first two bytes of a message, read or written; the text of a message has
its name in it; every type has a name; and replies can be packed. -/
structure Dnslib.Faithful (dns : Dnslib) : Prop where
  parse_query : ∀ q : Query, q.WellFormed dns.recordOk →
    ∃ request, dns.parse q.encode = some request ∧ dns.id request = q.id ∧
      dns.q request = q.question
  parse_truncated : ∀ q : Query, q.WellFormed dns.recordOk → ∀ data, data <+: q.encode →
    data ≠ q.encode → dns.parse data = none
  parse_id : ∀ data request, dns.parse data = some request →
    2 ≤ data.length ∧ dns.id request = ofBE (data.take 2)
  str_of_formats : ∀ request, dns.formats request = true →
    (dns.str (dns.q request).qname).isSome
  qtype_name : ∀ qtype < 2 ^ 16, ∃ name, dns.qtype qtype = some name ∧
    (name = "A" ↔ qtype = 1) ∧ (name = "SRV" ↔ qtype = 33)
  formats_reply : ∀ reply : Reply, reply.WellFormed → (dns.str reply.q.qname).isSome →
    dns.formatsReply reply = true
  pack_isSome : ∀ reply : Reply, reply.WellFormed → (dns.pack reply).isSome
  pack_id : ∀ reply bytes, reply.id < 2 ^ 16 → dns.pack reply = some bytes →
    ofBE (bytes.take 2) = reply.id

/-- The text of the query can be made; the server prints it before it answers. -/
def Dnslib.Prints (dns : Dnslib) (q : Query) : Prop :=
  ∀ request ∈ dns.parse q.encode, dns.formats request = true

/-! ## The server -/

/-- `TTL`. -/
def TTL : ℕ := 60 * 5

/-- The labels of `localhost.test.build.10gen.cc.`. -/
def localhostLabels : Name :=
  [ascii "localhost", ascii "test", ascii "build", ascii "10gen", ascii "cc"]

/-- `reply.add_answer`. -/
def Reply.addAnswer (reply : Reply) (rr : RR) : Reply := { reply with rr := reply.rr ++ [rr] }

/-- The hard-coded part of `make_dns_response`, for the question's name and type as texts. -/
def Reply.addAnswers (reply : Reply) (qn qt : String) : Reply :=
  let qname := reply.q.qname
  let reply :=
    if qn = "localhost.test.build.10gen.cc." ∧ qt = "A" then
      reply.addAnswer ⟨qname, 1, 1, TTL, .a [127, 0, 0, 1]⟩
    else reply
  if qn = "_mongodb._tcp.test1.test.build.10gen.cc." ∧ qt = "SRV" then
    (reply.addAnswer ⟨qname, 33, 1, TTL, .srv 1 1 27017 localhostLabels⟩).addAnswer
      ⟨qname, 33, 1, TTL, .srv 1 1 27018 localhostLabels⟩
  else reply

/-- `make_dns_response`; the two guards are the texts it prints. -/
def makeDnsResponse (dns : Dnslib) (data : List UInt8) : Option (List UInt8) := do
  let request ← dns.parse data
  guard (dns.formats request = true)
  let reply : Reply := ⟨dns.id request, true, true, true, dns.q request, []⟩
  let qn ← dns.str (dns.q request).qname
  let qt ← dns.qtype (dns.q request).qtype
  let reply := reply.addAnswers qn qt
  guard (dns.formatsReply reply = true)
  dns.pack reply

/-- The bytes `bytes.strip` removes. -/
def isSpace (b : UInt8) : Bool := b == 32 || (9 ≤ b && b ≤ 13)

/-- `bytes.strip`. -/
def strip (data : List UInt8) : List UInt8 := (data.dropWhile isSpace).rdropWhile isSpace

/-- `UDPServer.max_packet_size`: a datagram is received up to this length. -/
def maxPacketSize : ℕ := 8192

/-- `get_data`. -/
def getData (datagram : List UInt8) : List UInt8 := strip (datagram.take maxPacketSize)

/-- The global variables that decide whether a request is dropped. -/
structure Globals where
  failhalf : Bool
  failcounter : ℕ
  deriving DecidableEq, Repr

/-- `handle`: the global variables after it, and the datagrams sent.  Whether it sleeps first
makes no difference to either. -/
def handle (dns : Dnslib) (globals : Globals) (datagram : List UInt8) :
    Globals × List (List UInt8) :=
  let globals := { globals with failcounter := globals.failcounter + 1 }
  if globals.failhalf = true ∧ globals.failcounter % 2 = 0 then (globals, [])
  else
    match makeDnsResponse dns (getData datagram) with
    | none => (globals, [])
    | some response => (globals, [response])

/-! ## What an answer is -/

/-- The fail-half option drops the next request. -/
def Globals.Drops (globals : Globals) : Prop :=
  globals.failhalf = true ∧ (globals.failcounter + 1) % 2 = 0

/-- The hard-coded answers, by the text of the name and the type. -/
def hardCoded (text : Option String) (qname : Name) (qtype : ℕ) : List RR :=
  if text = some "localhost.test.build.10gen.cc." ∧ qtype = 1 then
    [⟨qname, 1, 1, TTL, .a [127, 0, 0, 1]⟩]
  else if text = some "_mongodb._tcp.test1.test.build.10gen.cc." ∧ qtype = 33 then
    [⟨qname, 33, 1, TTL, .srv 1 1 27017 localhostLabels⟩,
      ⟨qname, 33, 1, TTL, .srv 1 1 27018 localhostLabels⟩]
  else []

/-- Exactly one reply was sent; its id and question are the query's, and its answers the
hard-coded ones. -/
def Answers (dns : Dnslib) (q : Query) (sent : List (List UInt8)) : Prop :=
  ∃ reply bytes, sent = [bytes] ∧ dns.pack reply = some bytes ∧ reply.id = q.id ∧
    reply.q = q.question ∧
    reply.rr = hardCoded (dns.str q.question.qname) q.question.qname q.question.qtype

/-- The datagram is received whole, and neither begins nor ends with white space. -/
def Survives (datagram : List UInt8) : Prop :=
  datagram.length ≤ maxPacketSize ∧ (∀ b ∈ datagram.head?, isSpace b = false) ∧
    ∀ b ∈ datagram.getLast?, isSpace b = false

/-! ## Stripping -/

/-- What is left does not begin with white space. -/
lemma head_strip {data : List UInt8} {b : UInt8} (h : (strip data).head? = some b) :
    isSpace b = false := by
  have hpre : strip data <+: data.dropWhile isSpace := List.rdropWhile_prefix _ _
  obtain ⟨more, hmore⟩ := hpre
  have hhead : (data.dropWhile isSpace).head? = some b := by
    rw [← hmore, List.head?_append, h]
    rfl
  have hnot := List.head?_dropWhile_not isSpace data
  rw [hhead] at hnot
  simpa using hnot

/-- Data that does not begin with white space loses its end only. -/
lemma strip_of_head {data : List UInt8} (h : ∀ b ∈ data.head?, isSpace b = false) :
    strip data = data.rdropWhile isSpace := by
  rcases data with _ | ⟨b, data⟩
  · rfl
  · rw [strip, List.dropWhile_cons_of_neg (by simp [h b rfl])]

lemma rdropWhile_eq_self_iff_last (data : List UInt8) :
    data.rdropWhile isSpace = data ↔ ∀ b ∈ data.getLast?, isSpace b = false := by
  rw [List.rdropWhile_eq_self_iff]
  constructor
  · intro h b hb
    have hne : data ≠ [] := by
      rintro rfl
      cases hb
    rw [List.getLast?_eq_some_getLast hne] at hb
    cases hb
    simpa using h hne
  · intro h hne
    simpa using h _ (List.getLast?_eq_some_getLast hne)

/-- What a datagram that does not begin with white space is taken for is its beginning, and all of
it if it also does not end in white space and is short enough. -/
lemma getData_eq_self_iff {datagram : List UInt8}
    (hfirst : ∀ b ∈ datagram.head?, isSpace b = false) :
    getData datagram <+: datagram ∧ (getData datagram = datagram ↔ Survives datagram) := by
  have hhead : ∀ b ∈ (datagram.take maxPacketSize).head?, isSpace b = false := by
    rw [List.head?_take, if_neg (by decide)]
    exact hfirst
  have hfront : getData datagram <+: datagram.take maxPacketSize := by
    rw [getData, strip_of_head hhead]
    exact List.rdropWhile_prefix _ _
  refine ⟨hfront.trans (List.take_prefix _ _), ?_⟩
  constructor
  · intro hself
    have hlen : datagram.length ≤ maxPacketSize := by
      have hle := hfront.length_le
      rw [hself, List.length_take] at hle
      exact le_trans hle (min_le_left _ _)
    rw [getData, List.take_of_length_le hlen, strip_of_head hfirst,
      rdropWhile_eq_self_iff_last] at hself
    exact ⟨hlen, hfirst, hself⟩
  · rintro ⟨hlen, -, hlast⟩
    rw [getData, List.take_of_length_le hlen, strip_of_head hfirst]
    exact (rdropWhile_eq_self_iff_last datagram).mpr hlast

/-! ## When a query is answered -/

/-- The id in front of a message has the message's first byte for its high byte. -/
lemma ofBE_take_two (high low : UInt8) (data : List UInt8) :
    ofBE ((high :: low :: data).take 2) / 256 = high.toNat := by
  have hval : ofBE ((high :: low :: data).take 2) = low.toNat + 256 * high.toNat := by
    simp [ofBE, ofLE, Nat.ofDigits]
  have hlow := low.toNat_lt
  omega

lemma addAnswers_id (reply : Reply) (qn qt : String) : (reply.addAnswers qn qt).id = reply.id := by
  rw [Reply.addAnswers]
  split_ifs <;> rfl

/-- The two branches add what `hardCoded` says; no type has both names. -/
lemma addAnswers_eq {reply : Reply} (qn : String) {qt : String}
    (hA : qt = "A" ↔ reply.q.qtype = 1) (hSRV : qt = "SRV" ↔ reply.q.qtype = 33) :
    reply.addAnswers qn qt =
      { reply with rr := reply.rr ++ hardCoded (some qn) reply.q.qname reply.q.qtype } := by
  simp only [Reply.addAnswers, hardCoded, hA, hSRV, Option.some.injEq]
  by_cases hserved : qn = "localhost.test.build.10gen.cc." ∧ reply.q.qtype = 1
  · have hother : ¬(qn = "_mongodb._tcp.test1.test.build.10gen.cc." ∧ reply.q.qtype = 33) := by
      rintro ⟨-, htype⟩
      omega
    rw [if_pos hserved, if_neg hother, if_pos hserved]
    rfl
  · rw [if_neg hserved, if_neg hserved]
    split_ifs
    · simp [Reply.addAnswer]
    · simp

/-- A response is packed from a reply with the request's id. -/
lemma makeDnsResponse_eq_some {dns : Dnslib} {data bytes : List UInt8}
    (h : makeDnsResponse dns data = some bytes) :
    ∃ request reply, dns.parse data = some request ∧ dns.formats request = true ∧
      dns.pack reply = some bytes ∧ reply.id = dns.id request := by
  obtain ⟨request, hparse, h⟩ := Option.bind_eq_some_iff.mp h
  obtain ⟨⟨⟩, hformats, h⟩ := Option.bind_eq_some_iff.mp h
  obtain ⟨qn, -, h⟩ := Option.bind_eq_some_iff.mp h
  obtain ⟨qt, -, h⟩ := Option.bind_eq_some_iff.mp h
  obtain ⟨-, -, hpack⟩ := Option.bind_eq_some_iff.mp h
  refine ⟨request, _, hparse, ?_, hpack, addAnswers_id _ _ _⟩
  by_contra hraises
  simp [guard, hraises] at hformats

lemma localhostLabels_fit : LabelsFit localhostLabels := by
  constructor <;> decide

/-- The hard-coded answers can be written, and are about the name asked for. -/
lemma hardCoded_wellFormed (text : Option String) {qname : Name} (hqname : LabelsFit qname)
    (qtype : ℕ) :
    ∀ rr ∈ hardCoded text qname qtype, rr.WellFormed ∧ rr.rname = qname := by
  have hsrv : ∀ port < 2 ^ 16,
      RR.WellFormed ⟨qname, 33, 1, TTL, .srv 1 1 port localhostLabels⟩ := by
    intro port hport
    exact ⟨hqname, by norm_num, by norm_num, by norm_num [TTL], by norm_num, by norm_num, hport,
      localhostLabels_fit⟩
  intro rr hrr
  rw [hardCoded] at hrr
  split_ifs at hrr with hA hSRV
  · rw [List.mem_singleton] at hrr
    subst hrr
    exact ⟨⟨hqname, by norm_num, by norm_num, by norm_num [TTL], rfl⟩, rfl⟩
  · rcases List.mem_pair.mp hrr with rfl | rfl
    · exact ⟨hsrv 27017 (by decide), rfl⟩
    · exact ⟨hsrv 27018 (by decide), rfl⟩
  · cases hrr

lemma length_hardCoded (text : Option String) (qname : Name) (qtype : ℕ) :
    (hardCoded text qname qtype).length ≤ 2 := by
  rw [hardCoded]
  split_ifs <;> simp

/-- A request the fail-half option does not drop is answered with what the response is, if there
is one. -/
lemma handle_sent (dns : Dnslib) {globals : Globals} (hkeep : ¬globals.Drops)
    (datagram : List UInt8) :
    (handle dns globals datagram).2 = (makeDnsResponse dns (getData datagram)).toList := by
  have hkept : ¬(globals.failhalf = true ∧ (globals.failcounter + 1) % 2 = 0) := hkeep
  simp only [handle, if_neg hkept]
  rcases makeDnsResponse dns (getData datagram) with _ | response <;> rfl

/-- Where nothing was sent, nothing was answered. -/
lemma not_answers_nil (dns : Dnslib) (q : Query) : ¬ Answers dns q [] := by
  rintro ⟨_, _, hsent, -⟩
  cases hsent

section Handling

variable {dns : Dnslib} (hdns : dns.Faithful) {q : Query} (hq : q.WellFormed dns.recordOk)

include hdns hq

/-- A query that reaches the parser whole, and can be printed, is answered. -/
lemma makeDnsResponse_encode (hprints : dns.Prints q) :
    ∃ bytes, makeDnsResponse dns q.encode = some bytes ∧ Answers dns q [bytes] := by
  obtain ⟨request, hparse, hid, hquestion⟩ := hdns.parse_query q hq
  have hformats := hprints request hparse
  obtain ⟨text, htext⟩ := Option.isSome_iff_exists.mp (hdns.str_of_formats request hformats)
  rw [hquestion] at htext
  obtain ⟨name, hname, hA, hSRV⟩ := hdns.qtype_name q.question.qtype hq.question.qtype
  let reply : Reply := ⟨q.id, true, true, true, q.question,
    hardCoded (dns.str q.question.qname) q.question.qname q.question.qtype⟩
  have hreply : reply.WellFormed := by
    have hrr := hardCoded_wellFormed (dns.str q.question.qname) hq.question.qname
      q.question.qtype
    have hlength := length_hardCoded (dns.str q.question.qname) q.question.qname q.question.qtype
    exact ⟨hq.id, hq.question, lt_of_le_of_lt hlength (by norm_num),
      fun rr hmem => (hrr rr hmem).1, fun rr hmem => (hrr rr hmem).2⟩
  have hformatsReply : dns.formatsReply reply = true :=
    hdns.formats_reply reply hreply (by rw [htext]; rfl)
  have hresponse : makeDnsResponse dns q.encode = dns.pack reply := by
    have hbuilt : Reply.addAnswers ⟨q.id, true, true, true, q.question, []⟩ text name = reply := by
      rw [addAnswers_eq text hA hSRV, List.nil_append, ← htext]
    simp [makeDnsResponse, hparse, hformats, hid, hquestion, htext, hname, hbuilt, hformatsReply]
  obtain ⟨bytes, hbytes⟩ := Option.isSome_iff_exists.mp (hdns.pack_isSome reply hreply)
  exact ⟨bytes, hresponse.trans hbytes, reply, bytes, rfl, hbytes, rfl, rfl, rfl⟩

/-- A query whose first byte is stripped is not answered: a reply would have another id. -/
lemma not_answers_of_head (hhead : ∃ b ∈ q.encode.head?, isSpace b = true)
    {received bytes : List UInt8} (hsent : makeDnsResponse dns (strip received) = some bytes) :
    ¬ Answers dns q [bytes] := by
  rintro ⟨reply, _, hbytes, hpack, hid, -, -⟩
  cases hbytes
  obtain ⟨request, reply', hparse, -, hpack', hid'⟩ := makeDnsResponse_eq_some hsent
  obtain ⟨hlen, hrequest⟩ := hdns.parse_id _ _ hparse
  have hrequest_lt : dns.id request < 2 ^ 16 := by
    rw [hrequest]
    have hlt := ofBE_lt ((strip received).take 2)
    rw [List.length_take, min_eq_left hlen] at hlt
    exact hlt
  -- the id of what was sent is the query's, and the one in front of what was parsed
  have hsame : q.id = dns.id request := by
    rw [← hid, ← hid', ← hdns.pack_id reply bytes (by rw [hid]; exact hq.id) hpack,
      ← hdns.pack_id reply' bytes (by rw [hid']; exact hrequest_lt) hpack']
  rcases hstrip : strip received with _ | ⟨high, _ | ⟨low, data⟩⟩
  · simp [hstrip] at hlen
  · simp [hstrip] at hlen
  · have hhigh : isSpace high = false := head_strip (by rw [hstrip]; rfl)
    obtain ⟨b, hb, hspace⟩ := hhead
    obtain ⟨rest, hencode⟩ := q.encode_eq
    rw [hencode, List.head?_cons, Option.mem_some_iff] at hb
    have hdiv := ofBE_take_two high low data
    rw [← hstrip, ← hrequest, ← hsame] at hdiv
    rw [← hb, hdiv, UInt8.ofNat_toNat, hhigh] at hspace
    cases hspace

/-- A query that loses its end is not answered. -/
lemma makeDnsResponse_truncated {data : List UInt8} (hdata : data <+: q.encode)
    (hne : data ≠ q.encode) : makeDnsResponse dns data = none := by
  rw [makeDnsResponse, hdns.parse_truncated q hq data hdata hne]
  rfl

/-- **When a query is answered.**  Any query the fail-half option does not drop is answered if and
only if it is received whole, has no white space at its ends, and can be printed. -/
theorem handle_answers_iff {globals : Globals} (hkeep : ¬globals.Drops) :
    Answers dns q (handle dns globals q.encode).2 ↔ Survives q.encode ∧ dns.Prints q := by
  rw [handle_sent dns hkeep]
  by_cases hhead : ∃ b ∈ q.encode.head?, isSpace b = true
  · -- the id is not the query's any more
    constructor
    · intro hanswers
      rcases hresponse : makeDnsResponse dns (getData q.encode) with _ | bytes
      · rw [hresponse] at hanswers
        exact absurd hanswers (not_answers_nil dns q)
      · rw [hresponse] at hanswers
        exact absurd hanswers (not_answers_of_head hdns hq hhead hresponse)
    · rintro ⟨⟨-, hfirst, -⟩, -⟩
      obtain ⟨b, hb, hspace⟩ := hhead
      rw [hfirst b hb] at hspace
      cases hspace
  · have hfirst : ∀ b ∈ q.encode.head?, isSpace b = false := by
      intro b hb
      by_contra hspace
      exact hhead ⟨b, hb, by simpa using hspace⟩
    obtain ⟨hdata, hself⟩ := getData_eq_self_iff hfirst
    by_cases hwhole : getData q.encode = q.encode
    · rw [hwhole]
      constructor
      · rintro ⟨reply, bytes, hsent, -⟩
        refine ⟨hself.mp hwhole, ?_⟩
        obtain ⟨request, _, hparse, hformats, -, -⟩ := makeDnsResponse_eq_some
          (Option.toList_eq_singleton_iff.mp hsent)
        intro request' hparse'
        rw [hparse, Option.mem_some_iff] at hparse'
        rw [← hparse', hformats]
      · rintro ⟨-, hprints⟩
        obtain ⟨bytes, hresponse, hanswers⟩ := makeDnsResponse_encode hdns hq hprints
        rw [hresponse]
        exact hanswers
    · rw [makeDnsResponse_truncated hdns hq hdata hwhole]
      constructor
      · intro hanswers
        exact absurd hanswers (not_answers_nil dns q)
      · rintro ⟨hsurvives, -⟩
        exact absurd (hself.mpr hsurvives) hwhole

end Handling

/-! ## A library made from the format -/

/-- The text of a name, each label with a dot behind it. -/
def nameText (name : Name) : String :=
  if name = [] then "."
  else String.join (name.map fun label =>
    String.ofList (label.map fun b => Char.ofNat b.toNat) ++ ".")

/-- The name of a type. -/
def typeText (qtype : ℕ) : String :=
  if qtype = 1 then "A" else if qtype = 33 then "SRV" else "TYPE" ++ toString qtype

def RData.encode : RData → List UInt8
  | .a address => address
  | .srv priority weight port target =>
      toBE 2 priority ++ toBE 2 weight ++ toBE 2 port ++ (labelBytes target ++ nameEnd none)

/-- An answer, its names written out. -/
def RR.encode (r : RR) : List UInt8 :=
  Record.encode ⟨r.rname, none, r.rtype, r.rclass, r.ttl, r.rdata.encode⟩

/-- The flags of a reply; recursion is desired unless a header says otherwise. -/
def Reply.flags (r : Reply) : ℕ :=
  32768 * r.qr.toNat + 1024 * r.aa.toNat + 256 + 128 * r.ra.toNat

def Reply.encode (r : Reply) : List UInt8 :=
  toBE 2 r.id ++ (toBE 2 r.flags ++ toBE 2 1 ++ toBE 2 r.rr.length ++ toBE 2 0 ++ toBE 2 0 ++
    r.q.encode ++ r.rr.flatMap RR.encode)

/-- A library that reads queries by their format, asks nothing more of their records, and prints
everything. -/
def wireDns : Dnslib where
  recordOk _ _ := True
  DNSRecord := Query
  parse data := (query.run data).map Prod.fst
  id := Query.id
  q := Query.question
  formats _ := true
  str name := some (nameText name)
  qtype qtype := some (typeText qtype)
  formatsReply _ := true
  pack reply := some reply.encode

lemma typeText_names (qtype : ℕ) :
    (typeText qtype = "A" ↔ qtype = 1) ∧ (typeText qtype = "SRV" ↔ qtype = 33) := by
  have hlong : ∀ text : String, text.length < 4 → "TYPE" ++ toString qtype ≠ text := by
    intro text hlt heq
    rw [← heq, String.length_append, show "TYPE".length = 4 from rfl] at hlt
    omega
  rw [typeText]
  split_ifs with hA hSRV
  · simp [hA]
  · simp [hSRV]
  · exact ⟨iff_of_false (hlong "A" (by decide)) hA, iff_of_false (hlong "SRV" (by decide)) hSRV⟩

lemma wireDns_faithful : wireDns.Faithful where
  parse_query q hq := by
    have hrun := query_encode hq []
    rw [List.append_nil] at hrun
    exact ⟨q, by simp [wireDns, hrun], rfl, rfl⟩
  parse_truncated q hq data hdata hne := by
    simp [wireDns, query_of_prefix hq hdata hne]
  parse_id data request h := by
    obtain ⟨⟨q, rest⟩, hrun, hfst⟩ := Option.map_eq_some_iff.mp h
    obtain rfl : q = request := hfst
    exact query_id hrun
  str_of_formats request _ := rfl
  qtype_name qtype _ := ⟨typeText qtype, rfl, typeText_names qtype⟩
  formats_reply reply _ _ := rfl
  pack_isSome reply _ := rfl
  pack_id reply bytes hid h := by
    obtain rfl : reply.encode = bytes := Option.some.inj h
    rw [Reply.encode, List.take_left' (length_toBE 2 reply.id)]
    exact ofBE_toBE_of_lt (lt_of_lt_of_eq hid (by norm_num))

/-- The address of `example.com.`, which the server has no answer for. -/
def exampleQuery : Query :=
  ⟨0x1234, 0x0100, ⟨[ascii "example", ascii "com"], 1, 1⟩, []⟩

/-- The query of the file's comment, as a client sends it whose id happens to begin with a
blank. -/
def blankQuery : Query :=
  ⟨0x2041, 0x0100, ⟨[ascii "_mongodb", ascii "_tcp", ascii "test1", ascii "test", ascii "build",
    ascii "10gen", ascii "cc"], 33, 1⟩, []⟩

/-- A query without additional records, of a name and a type that fit, is well formed. -/
lemma wellFormed_of_question {recordOk : List UInt8 → Record → Prop} {id flags : ℕ}
    {question : Question} (hid : id < 2 ^ 16) (hflags : flags < 2 ^ 16)
    (hquestion : question.WellFormed) : Query.WellFormed recordOk ⟨id, flags, question, []⟩ where
  id := hid
  flags := hflags
  question := hquestion
  length := by norm_num
  records := by simp
  recordsOk := by simp

lemma exampleQuery_wellFormed : exampleQuery.WellFormed wireDns.recordOk :=
  wellFormed_of_question (by decide) (by decide)
    ⟨⟨by decide, by decide⟩, by decide, by decide⟩

lemma blankQuery_wellFormed : blankQuery.WellFormed wireDns.recordOk :=
  wellFormed_of_question (by decide) (by decide)
    ⟨⟨by decide, by decide⟩, by decide, by decide⟩

/-- Its id begins with `0x12`, its class ends in `0x01`. -/
lemma exampleQuery_survives : Survives exampleQuery.encode := by
  refine ⟨by decide, ?_, ?_⟩
  · show ∀ b ∈ some (0x12 : UInt8), isSpace b = false
    rintro b ⟨⟩
    rfl
  · show ∀ b ∈ some (0x01 : UInt8), isSpace b = false
    rintro b ⟨⟩
    rfl

/-- A query for a name that is not served, answered. -/
theorem exampleQuery_answered :
    Answers wireDns exampleQuery (handle wireDns ⟨false, 0⟩ exampleQuery.encode).2 :=
  (handle_answers_iff wireDns_faithful exampleQuery_wellFormed (by simp [Globals.Drops])).mpr
    ⟨exampleQuery_survives, fun _ _ => rfl⟩

/-- A query for a name that is served, lost. -/
theorem blankQuery_not_answered :
    ¬ ∀ dns : Dnslib, dns.Faithful → ∀ q : Query, q.WellFormed dns.recordOk →
      ∀ globals : Globals, ¬globals.Drops →
        Answers dns q (handle dns globals q.encode).2 := by
  intro hclaim
  have hkeep : ¬Globals.Drops ⟨false, 0⟩ := by simp [Globals.Drops]
  have hanswers := hclaim wireDns wireDns_faithful blankQuery blankQuery_wellFormed _ hkeep
  rw [handle_sent wireDns hkeep,
    show makeDnsResponse wireDns (getData blankQuery.encode) = none by decide] at hanswers
  exact not_answers_nil _ _ hanswers

end CBootstrap.Dns
