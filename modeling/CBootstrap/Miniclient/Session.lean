import CBootstrap.Miniclient.Opmsg
import CBootstrap.Lib.Transition

/-!
# Runs of `send_opmsg` on one connection

Two parties and the bytes between them.  The client calls `send_opmsg` again and again on one
socket; a call sends a request, receives four bytes, then the number of bytes they announce,
and parses what it has received.  The peer answers the requests it has received, in their
order, each with one OP_MSG whose `responseTo` is the request's `requestID`.  The socket hands
out the bytes in chunks of any size, and a call may raise at any point after its request was
sent — a timeout of one second is enough — and the connection is used for the next call.

`parse_opmsg` reads `responseTo` and drops it.  So a call takes the first reply on the socket for
its own, and after a call that raised that may be the reply to an earlier request
(`lateReply_mismatched`).  `sendOpmsg_own_reply` says what does hold: in every run in which each
call starts with no earlier reply outstanding — neither unanswered nor unread — every call that
returns, returns the payload of the reply to its own request.
-/

namespace CBootstrap.Miniclient

open Bytes Transition

/-! ## `parse_opmsg` -/

/-- `struct.unpack("<i", b)[0]`. -/
def unpackInt32 (b : List UInt8) : Except PyError ℤ :=
  if b.length = 4 then .ok (Int.bmod (ofLE b) (2 ^ 32)) else .error .structError

/-- `struct.unpack("<I", b)[0]`. -/
def unpackUint32 (b : List UInt8) : Except PyError ℕ :=
  if b.length = 4 then .ok (ofLE b) else .error .structError

/-- `parse_opmsg`: the payload 0 of a reply.  Neither `messageLength` nor `responseTo` is looked
at. -/
def parseOpmsg (msg : List UInt8) : Except PyError (List UInt8) := do
  let _messageLength ← unpackInt32 (msg.take 4)
  let msg := msg.drop 4
  let _requestId ← unpackInt32 (msg.take 4)
  let msg := msg.drop 4
  let _responseTo ← unpackInt32 (msg.take 4)
  let msg := msg.drop 4
  let opCode ← unpackInt32 (msg.take 4)
  if opCode ≠ 2013 then throw .exception
  let msg := msg.drop 4
  let _flagBits ← unpackUint32 (msg.take 4)
  let msg := msg.drop 4
  match msg with
  | [] => throw .indexError
  | payloadType :: msg => if payloadType ≠ 0 then throw .exception else return msg

/-! ## The two parties -/

/-- Where a call of `send_opmsg` is; `id` is the `requestID` it has sent. -/
inductive Phase
  /-- No call is under way. -/
  | idle
  /-- In `_recvall(conn, 4)`, with `out` received so far. -/
  | size (id : ℕ) (out : List UInt8)
  /-- In `_recvall(conn, want)`, after the four bytes `msgSizeLe`. -/
  | rest (id : ℕ) (msgSizeLe : List UInt8) (want : ℤ) (out : List UInt8)
  deriving DecidableEq, Repr

/-- The state of a connection.  `replies` and `returns` are a record of what the peer has sent
and what the calls have returned, which neither party reads. -/
structure Connection (D : Type) where
  /-- The global `request_id`. -/
  requestId : ℕ
  phase : Phase
  /-- The bytes the peer has sent and the client has not received. -/
  inbound : List UInt8
  /-- The requests the peer has received and not answered, by their `requestID`. -/
  unanswered : List ℕ
  /-- The `responseTo` and the payload of each reply. -/
  replies : List (ℕ × Document)
  /-- The `requestID` and the result of each call that has returned. -/
  returns : List (ℕ × D)

/-- What can happen. -/
inductive Action
  /-- The client calls `send_opmsg`. -/
  | call (payload0Document : List UInt8) (payload1Identifier : Option String)
      (payload1Documents : Option (List (List UInt8)))
  /-- The peer answers its first unanswered request. -/
  | answer (replyId flagBits : ℕ) (payload : Document)
  /-- `conn.recv` returns `n` bytes. -/
  | recv (n : ℕ)
  /-- The client leaves a `_recvall` that has received enough. -/
  | proceed
  /-- The call under way raises. -/
  | raise

/-- The reply to the request `id`. -/
def reply (replyId flagBits id : ℕ) (payload : Document) : Opmsg :=
  ⟨21 + payload.bytes.length, replyId, id, 2013, flagBits, [.body payload.bytes], none⟩

/-- A reply the format allows, without a checksum. -/
def ReplyFits (replyId flagBits : ℕ) (payload : Document) : Prop :=
  replyId < 2 ^ 31 ∧ flagBits < 2 ^ 32 ∧ flagBits % 2 = 0 ∧ 21 + payload.bytes.length < 2 ^ 31

instance (replyId flagBits : ℕ) (payload : Document) :
    Decidable (ReplyFits replyId flagBits payload) := by
  unfold ReplyFits
  infer_instance

/-- The `requestID` in the bytes of a request. -/
def requestIDOf (opmsg : List UInt8) : ℕ := ofLE ((opmsg.drop 4).take 4)

variable {D : Type}

/-- `conn.recv(want)` returns `n` bytes: between one and `want`, and no more than have
arrived. -/
def Recvs (want : ℤ) (n : ℕ) (inbound : List UInt8) : Prop :=
  1 ≤ n ∧ (n : ℤ) ≤ want ∧ n ≤ inbound.length

instance (want : ℤ) (n : ℕ) (inbound : List UInt8) : Decidable (Recvs want n inbound) := by
  unfold Recvs
  infer_instance

/-- One step; `decode` is `bson.decode`, `none` where it raises. -/
def Connection.step (decode : List UInt8 → Option D) (s : Connection D) :
    Action → Option (Connection D)
  | .call payload0Document payload1Identifier payload1Documents =>
      if s.phase = .idle then
        match buildOpmsg s.requestId payload0Document payload1Identifier payload1Documents with
        | (.error _, requestId) => some { s with requestId := requestId }
        | (.ok opmsg, requestId) =>
            some { s with
              requestId := requestId
              phase := .size requestId []
              unanswered := s.unanswered ++ [requestIDOf opmsg] }
      else none
  | .answer replyId flagBits payload =>
      match s.unanswered with
      | [] => none
      | id :: unanswered =>
          if ReplyFits replyId flagBits payload then
            some { s with
              unanswered := unanswered
              inbound := s.inbound ++ encodeOpmsg (reply replyId flagBits id payload)
              replies := s.replies ++ [(id, payload)] }
          else none
  | .recv n =>
      match s.phase with
      | .idle => none
      | .size id out =>
          if out.length < 4 ∧ Recvs 4 n s.inbound then
            some { s with
              phase := .size id (out ++ s.inbound.take n)
              inbound := s.inbound.drop n }
          else none
      | .rest id msgSizeLe want out =>
          if (out.length : ℤ) < want ∧ Recvs want n s.inbound then
            some { s with
              phase := .rest id msgSizeLe want (out ++ s.inbound.take n)
              inbound := s.inbound.drop n }
          else none
  | .proceed =>
      match s.phase with
      | .idle => none
      | .size id out =>
          if out.length < 4 then none
          else
            match unpackInt32 out with
            | .error _ => some { s with phase := .idle }
            | .ok msgSize => some { s with phase := .rest id out (msgSize - 4) [] }
      | .rest id msgSizeLe want out =>
          if (out.length : ℤ) < want then none
          else
            match parseOpmsg (msgSizeLe ++ out) with
            | .error _ => some { s with phase := .idle }
            | .ok replyBytes =>
                match decode replyBytes with
                | none => some { s with phase := .idle }
                | some document =>
                    some { s with phase := .idle, returns := s.returns ++ [(id, document)] }
  | .raise => if s.phase = .idle then none else some { s with phase := .idle }

/-- A new connection, at any value of the global `request_id`. -/
def Connection.New (s : Connection D) : Prop :=
  s.phase = .idle ∧ s.inbound = [] ∧ s.unanswered = [] ∧ s.replies = [] ∧ s.returns = []

/-- The runs of a connection. -/
def connection (decode : List UInt8 → Option D) : System (Connection D) Action :=
  ⟨Connection.New, Connection.step decode⟩

/-! ## Requests and replies as bytes -/

/-- The bytes of payload 1 are added behind what there is. -/
lemma buildPayload1_extends {out out' : List UInt8} {identifier : String}
    {documents : List (List UInt8)} (h : buildPayload1 out identifier documents = .ok out') :
    out <+: out' := by
  have hkind : packUint8 1 = .ok [1] := rfl
  rw [buildPayload1, hkind] at h
  simp only [bind, Except.bind, pure, Except.pure] at h
  split at h
  · cases h
  · cases h
    rw [foldl_append]
    simp [List.append_assoc]

/-- **A request carries the id of its call.** -/
lemma requestIDOf_buildMessage {id : ℕ} {payload0 opmsg : List UInt8} {identifier : Option String}
    {documents : Option (List (List UInt8))}
    (h : buildMessage id payload0 identifier documents = .ok opmsg) : requestIDOf opmsg = id := by
  have hid : id < 2 ^ 31 := by
    by_contra hle
    rw [buildMessage_of_le (not_lt.mp hle)] at h
    cases h
  have h0 : packInt32 0 = .ok (toLE 4 0) := rfl
  have h2013 : packInt32 2013 = .ok (toLE 4 2013) := rfl
  have hflags : packUint32 0 = .ok (toLE 4 0) := rfl
  have hkind : packUint8 0 = .ok [0] := rfl
  rw [buildMessage, h0, packInt32_of_lt hid, h2013, hflags, hkind] at h
  simp only [bind, Except.bind, pure, Except.pure] at h
  -- whatever is written behind the request id, overwriting the length leaves the id in place
  have hfinish (out v : List UInt8) (hp : toLE 4 0 ++ toLE 4 id <+: out)
      (hv : packInt32 out.length = .ok v) : requestIDOf (v ++ out.drop 4) = id := by
    obtain ⟨w, rfl⟩ := hp
    rw [packInt32] at hv
    split_ifs at hv with hlen
    cases hv
    rw [requestIDOf, List.append_assoc, List.drop_left' (length_toLE 4 0),
      List.drop_left' (length_toLE 4 _), List.take_left' (length_toLE 4 id),
      ofLE_toLE_of_lt (by omega)]
  rcases identifier with _ | identifier
  · simp only at h
    split at h
    · cases h
    · next v hv =>
      cases h
      exact hfinish _ v (by simp [List.append_assoc]) hv
  · rcases documents with _ | documents
    · cases h
    · simp only at h
      split at h
      · cases h
      · next out hout =>
        split at h
        · cases h
        · next v hv =>
          cases h
          refine hfinish out v (List.IsPrefix.trans ?_ (buildPayload1_extends hout)) hv
          simp [List.append_assoc]

lemma encodeOpmsg_reply (replyId flagBits id : ℕ) (payload : Document) :
    encodeOpmsg (reply replyId flagBits id payload) =
      toLE 4 (21 + payload.bytes.length) ++ (toLE 4 replyId ++ (toLE 4 id ++ (toLE 4 2013 ++
        (toLE 4 flagBits ++ 0 :: payload.bytes)))) := by
  simp [encodeOpmsg, reply, encodeSection]

lemma length_reply (replyId flagBits id : ℕ) (payload : Document) :
    (encodeOpmsg (reply replyId flagBits id payload)).length = 21 + payload.bytes.length := by
  simp only [encodeOpmsg_reply, List.length_append, length_toLE, List.length_cons]
  omega

/-- Four fields, the fourth of them the code of OP_MSG, flag bits, a zero byte and a payload. -/
lemma parseOpmsg_fields {a b c code flags : List UInt8} (ha : a.length = 4) (hb : b.length = 4)
    (hc : c.length = 4) (hcode : unpackInt32 code = .ok 2013) (hflags : flags.length = 4)
    (payload : List UInt8) :
    parseOpmsg (a ++ (b ++ (c ++ (code ++ (flags ++ 0 :: payload))))) = .ok payload := by
  have hcode4 : code.length = 4 := by
    rw [unpackInt32] at hcode
    split_ifs at hcode with h
    exact h
  have hint {w : List UInt8} (hw : w.length = 4) :
      unpackInt32 w = .ok (Int.bmod (ofLE w) (2 ^ 32)) := if_pos hw
  have huint {w : List UInt8} (hw : w.length = 4) : unpackUint32 w = .ok (ofLE w) := if_pos hw
  rw [parseOpmsg]
  simp only [List.take_left' ha, List.drop_left' ha, hint ha, List.take_left' hb,
    List.drop_left' hb, hint hb, List.take_left' hc, List.drop_left' hc, hint hc,
    List.take_left' hcode4, List.drop_left' hcode4, hcode, List.take_left' hflags,
    List.drop_left' hflags, huint hflags, bind, Except.bind, pure, Except.pure]
  rfl

/-- **A reply is parsed to its payload.** -/
lemma parseOpmsg_reply (replyId flagBits id : ℕ) (payload : Document) :
    parseOpmsg (encodeOpmsg (reply replyId flagBits id payload)) = .ok payload.bytes := by
  have hcode : unpackInt32 (toLE 4 2013) = .ok 2013 := by
    rw [unpackInt32, if_pos (length_toLE 4 2013), ofLE_toLE_of_lt (by norm_num)]
    norm_num [Int.bmod]
  rw [encodeOpmsg_reply]
  exact parseOpmsg_fields (length_toLE 4 _) (length_toLE 4 _) (length_toLE 4 _) hcode
    (length_toLE 4 _) payload.bytes

/-! ## What a step can do -/

/-- The moves of a connection, one for each way a step can go. -/
inductive Moves (decode : List UInt8 → Option D) (s : Connection D) :
    Action → Connection D → Prop
  /-- `build_opmsg` raises. -/
  | callRaises {payload0 identifier documents} (hidle : s.phase = .idle) :
      Moves decode s (.call payload0 identifier documents) { s with requestId := s.requestId + 1 }
  | call {payload0 identifier documents} (hidle : s.phase = .idle) :
      Moves decode s (.call payload0 identifier documents)
        { s with
          requestId := s.requestId + 1
          phase := .size (s.requestId + 1) []
          unanswered := s.unanswered ++ [s.requestId + 1] }
  | answer {replyId flagBits payload id unanswered} (hfirst : s.unanswered = id :: unanswered)
      (hfits : ReplyFits replyId flagBits payload) :
      Moves decode s (.answer replyId flagBits payload)
        { s with
          unanswered := unanswered
          inbound := s.inbound ++ encodeOpmsg (reply replyId flagBits id payload)
          replies := s.replies ++ [(id, payload)] }
  | recvSize {n id out} (hphase : s.phase = .size id out) :
      Moves decode s (.recv n)
        { s with
          phase := .size id (out ++ s.inbound.take n)
          inbound := s.inbound.drop n }
  | recvRest {n id msgSizeLe want out} (hphase : s.phase = .rest id msgSizeLe want out) :
      Moves decode s (.recv n)
        { s with
          phase := .rest id msgSizeLe want (out ++ s.inbound.take n)
          inbound := s.inbound.drop n }
  /-- The call under way raises. -/
  | raises {a} : Moves decode s a { s with phase := .idle }
  | sized {id out} (hphase : s.phase = .size id out) (hlen : out.length = 4) :
      Moves decode s .proceed
        { s with phase := .rest id out (Int.bmod (ofLE out) (2 ^ 32) - 4) [] }
  | returns {id msgSizeLe want out replyBytes document}
      (hphase : s.phase = .rest id msgSizeLe want out) (hlen : want ≤ out.length)
      (hparse : parseOpmsg (msgSizeLe ++ out) = .ok replyBytes)
      (hdecode : decode replyBytes = some document) :
      Moves decode s .proceed
        { s with phase := .idle, returns := s.returns ++ [(id, document)] }

/-- **Inversion**: a step is one of the moves. -/
lemma Connection.step_moves {decode : List UInt8 → Option D} {s t : Connection D} {a : Action}
    (h : s.step decode a = some t) : Moves decode s a t := by
  cases a with
  | call payload0 identifier documents =>
      simp only [Connection.step, buildOpmsg] at h
      split_ifs at h with hidle
      cases hbuild : buildMessage (s.requestId + 1) payload0 identifier documents with
      | error e =>
          simp only [hbuild] at h
          cases h
          exact .callRaises hidle
      | ok opmsg =>
          simp only [hbuild, requestIDOf_buildMessage hbuild] at h
          cases h
          exact .call hidle
  | answer replyId flagBits payload =>
      simp only [Connection.step] at h
      split at h
      · cases h
      · next hfirst =>
        split_ifs at h with hfits
        cases h
        exact .answer hfirst hfits
  | recv n =>
      simp only [Connection.step] at h
      split at h
      · cases h
      · next hphase =>
        split_ifs at h
        cases h
        exact .recvSize hphase
      · next hphase =>
        split_ifs at h
        cases h
        exact .recvRest hphase
  | proceed =>
      simp only [Connection.step] at h
      split at h
      · cases h
      · next id out hphase =>
        split_ifs at h with hlen
        rw [unpackInt32] at h
        split_ifs at h with h4
        · cases h
          exact .sized hphase h4
        · cases h
          exact .raises
      · next id msgSizeLe want out hphase =>
        split_ifs at h with hlen
        split at h
        · cases h
          exact .raises
        · next replyBytes hparse =>
          split at h
          · cases h
            exact .raises
          · next document hdecode =>
            cases h
            exact .returns hphase (not_lt.mp hlen) hparse hdecode
  | raise =>
      simp only [Connection.step] at h
      split_ifs at h
      cases h
      exact .raises

/-! ## Every request is answered once -/

/-- The ids answered and to be answered, in the order of the requests. -/
def Connection.ids (s : Connection D) : List ℕ := s.replies.map Prod.fst ++ s.unanswered

/-- The ids are in increasing order, and none is above the counter. -/
def Connection.Ordered (s : Connection D) : Prop :=
  s.ids.Pairwise (· < ·) ∧ ∀ id ∈ s.ids, id ≤ s.requestId

/-- A call adds the next id, an answer moves one, and nothing else touches them. -/
lemma Moves.ordered {decode : List UInt8 → Option D} {s t : Connection D} {a : Action}
    (h : Moves decode s a t) (hs : s.Ordered) : t.Ordered := by
  cases h with
  | callRaises hidle => exact ⟨hs.1, fun id hid => Nat.le_succ_of_le (hs.2 id hid)⟩
  | call hidle =>
      have hids : s.replies.map Prod.fst ++ (s.unanswered ++ [s.requestId + 1]) =
          s.ids ++ [s.requestId + 1] := by rw [Connection.ids, List.append_assoc]
      constructor
      · rw [Connection.ids, hids, List.pairwise_append]
        refine ⟨hs.1, List.pairwise_singleton _ _, ?_⟩
        intro id hid next hnext
        rw [List.mem_singleton] at hnext
        have := hs.2 id hid
        omega
      · intro id hid
        rw [Connection.ids, hids] at hid
        rcases List.mem_append.mp hid with hid | hid
        · exact Nat.le_succ_of_le (hs.2 id hid)
        · exact le_of_eq (List.mem_singleton.mp hid)
  | @answer _ _ payload id unanswered hfirst hfits =>
      have hids : (s.replies ++ [(id, payload)]).map Prod.fst ++ unanswered = s.ids := by
        rw [Connection.ids, hfirst]
        simp
      exact ⟨by rw [Connection.ids, hids]; exact hs.1, by rw [Connection.ids, hids]; exact hs.2⟩
  | recvSize => exact hs
  | recvRest => exact hs
  | raises => exact hs
  | sized => exact hs
  | returns => exact hs

/-! ## Every call gets its own reply -/

/-- No earlier reply is outstanding: neither unanswered nor unread. -/
def NoneOutstanding (s : Connection D) : Action → Prop
  | .call _ _ _ => s.unanswered = [] ∧ s.inbound = []
  | _ => True

/-- The call under way, which has received `consumed`, waits for the reply to its own request
and for nothing else. -/
def Connection.Awaits (s : Connection D) (id : ℕ) (consumed : List UInt8) : Prop :=
  (s.unanswered = [id] ∧ s.inbound = [] ∧ consumed = []) ∨
  (s.unanswered = [] ∧ ∃ replyId flagBits payload, ReplyFits replyId flagBits payload ∧
    (id, payload) ∈ s.replies ∧
    consumed ++ s.inbound = encodeOpmsg (reply replyId flagBits id payload))

/-- The invariant of the runs in which no call starts with a reply outstanding. -/
structure Connection.Own (decode : List UInt8 → Option D) (s : Connection D) : Prop where
  ordered : s.Ordered
  returns : ∀ r ∈ s.returns,
    ∃ payload, (r.1, payload) ∈ s.replies ∧ decode payload.bytes = some r.2
  size : ∀ id out, s.phase = .size id out → s.Awaits id out
  rest : ∀ id msgSizeLe want out, s.phase = .rest id msgSizeLe want out →
    msgSizeLe.length = 4 ∧ want = Int.bmod (ofLE msgSizeLe) (2 ^ 32) - 4 ∧
      s.Awaits id (msgSizeLe ++ out)

section Awaits

variable {s t : Connection D} {id : ℕ} {consumed : List UInt8}

/-- The peer can only answer the request of the call under way. -/
lemma Connection.Awaits.answer (h : s.Awaits id consumed) {replyId flagBits first : ℕ}
    {payload : Document} {unanswered : List ℕ} (hfirst : s.unanswered = first :: unanswered)
    (hfits : ReplyFits replyId flagBits payload) (hun : t.unanswered = unanswered)
    (hin : t.inbound = s.inbound ++ encodeOpmsg (reply replyId flagBits first payload))
    (hreplies : t.replies = s.replies ++ [(first, payload)]) : t.Awaits id consumed := by
  rcases h with ⟨hone, hnone, hconsumed⟩ | ⟨hnone, -⟩
  · rw [hone, List.cons.injEq] at hfirst
    obtain ⟨rfl, hrest⟩ := hfirst
    refine Or.inr ⟨by rw [hun, ← hrest], replyId, flagBits, payload, hfits, ?_, ?_⟩
    · rw [hreplies]
      exact List.mem_append_right _ (List.mem_singleton_self _)
    · rw [hconsumed, hin, hnone, List.nil_append, List.nil_append]
  · rw [hnone] at hfirst
    cases hfirst

/-- Receiving moves bytes from the socket to the call. -/
lemma Connection.Awaits.recv (h : s.Awaits id consumed) (n : ℕ)
    (hun : t.unanswered = s.unanswered) (hin : t.inbound = s.inbound.drop n)
    (hreplies : t.replies = s.replies) : t.Awaits id (consumed ++ s.inbound.take n) := by
  rcases h with ⟨hone, hnone, hconsumed⟩ | ⟨hnone, replyId, flagBits, payload, hfits, hmem, hbytes⟩
  · refine Or.inl ⟨by rw [hun, hone], by rw [hin, hnone, List.drop_nil], ?_⟩
    rw [hconsumed, hnone, List.take_nil, List.append_nil]
  · refine Or.inr ⟨by rw [hun, hnone], replyId, flagBits, payload, hfits, ?_, ?_⟩
    · rw [hreplies]
      exact hmem
    · rw [hin, List.append_assoc, List.take_append_drop, hbytes]

/-- A call that has received as many bytes as the first four announce has received exactly the
reply to its own request. -/
lemma Connection.Awaits.complete {msgSizeLe out : List UInt8} {want : ℤ}
    (h : s.Awaits id (msgSizeLe ++ out)) (h4 : msgSizeLe.length = 4)
    (hwant : want = Int.bmod (ofLE msgSizeLe) (2 ^ 32) - 4) (hlen : want ≤ out.length) :
    ∃ replyId flagBits payload, (id, payload) ∈ s.replies ∧
      msgSizeLe ++ out = encodeOpmsg (reply replyId flagBits id payload) := by
  rcases h with ⟨-, -, hconsumed⟩ | ⟨-, replyId, flagBits, payload, hfits, hmem, hbytes⟩
  · have := congrArg List.length hconsumed
    rw [List.length_append, List.length_nil] at this
    omega
  · refine ⟨replyId, flagBits, payload, hmem, ?_⟩
    have hlt := hfits.2.2.2
    have hsize : msgSizeLe = toLE 4 (21 + payload.bytes.length) := by
      have hfront := congrArg (List.take 4) hbytes
      rwa [encodeOpmsg_reply, List.take_left' (length_toLE 4 _), List.append_assoc,
        List.take_left' h4] at hfront
    have hfield : Int.bmod (ofLE msgSizeLe) (2 ^ 32) = 21 + payload.bytes.length := by
      rw [hsize, ofLE_toLE_of_lt (by omega), Int.bmod_eq_of_le (by omega) (by omega)]
      push_cast
      rfl
    have htotal := congrArg List.length hbytes
    rw [length_reply, List.length_append, List.length_append] at htotal
    have hempty : s.inbound = [] := by
      rw [← List.length_eq_zero_iff]
      omega
    rw [← hbytes, hempty, List.append_nil]

end Awaits

/-- **One move** of a run in which no call starts with a reply outstanding. -/
lemma Moves.own {decode : List UInt8 → Option D} {s t : Connection D} {a : Action}
    (h : Moves decode s a t) (hg : NoneOutstanding s a) (hs : s.Own decode) : t.Own decode := by
  have hordered := h.ordered hs.ordered
  cases h with
  | callRaises hidle => exact ⟨hordered, hs.returns, hs.size, hs.rest⟩
  | call hidle =>
      refine ⟨hordered, hs.returns, ?_, ?_⟩
      · intro id out hphase
        cases hphase
        refine Or.inl ⟨?_, hg.2, rfl⟩
        show s.unanswered ++ [s.requestId + 1] = [s.requestId + 1]
        rw [hg.1, List.nil_append]
      · intro id msgSizeLe want out hphase
        cases hphase
  | answer hfirst hfits =>
      refine ⟨hordered, ?_, ?_, ?_⟩
      · intro r hr
        obtain ⟨payload, hmem, hdecode⟩ := hs.returns r hr
        exact ⟨payload, List.mem_append_left _ hmem, hdecode⟩
      · intro id out hphase
        exact (hs.size id out hphase).answer hfirst hfits rfl rfl rfl
      · intro id msgSizeLe want out hphase
        obtain ⟨h4, hwant, hawaits⟩ := hs.rest id msgSizeLe want out hphase
        exact ⟨h4, hwant, hawaits.answer hfirst hfits rfl rfl rfl⟩
  | @recvSize n id out hphase =>
      refine ⟨hordered, hs.returns, ?_, ?_⟩
      · intro id' out' hphase'
        cases hphase'
        exact (hs.size id out hphase).recv n rfl rfl rfl
      · intro id' msgSizeLe want out' hphase'
        cases hphase'
  | @recvRest n id msgSizeLe want out hphase =>
      refine ⟨hordered, hs.returns, ?_, ?_⟩
      · intro id' out' hphase'
        cases hphase'
      · intro id' msgSizeLe' want' out' hphase'
        cases hphase'
        obtain ⟨h4, hwant, hawaits⟩ := hs.rest id msgSizeLe want out hphase
        refine ⟨h4, hwant, ?_⟩
        rw [← List.append_assoc]
        exact hawaits.recv n rfl rfl rfl
  | raises =>
      refine ⟨hordered, hs.returns, ?_, ?_⟩
      · intro id out hphase
        cases hphase
      · intro id msgSizeLe want out hphase
        cases hphase
  | @sized id out hphase hlen =>
      refine ⟨hordered, hs.returns, ?_, ?_⟩
      · intro id' out' hphase'
        cases hphase'
      · intro id' msgSizeLe want out' hphase'
        cases hphase'
        refine ⟨hlen, rfl, ?_⟩
        rw [List.append_nil]
        exact hs.size id out hphase
  | @returns id msgSizeLe want out replyBytes document hphase hlen hparse hdecode =>
      refine ⟨hordered, ?_, ?_, ?_⟩
      · intro r hr
        rcases List.mem_append.mp hr with hr | hr
        · exact hs.returns r hr
        · obtain rfl := List.mem_singleton.mp hr
          obtain ⟨h4, hwant, hawaits⟩ := hs.rest id msgSizeLe want out hphase
          obtain ⟨replyId, flagBits, payload, hmem, hbytes⟩ := hawaits.complete h4 hwant hlen
          rw [hbytes, parseOpmsg_reply] at hparse
          cases hparse
          exact ⟨payload, hmem, hdecode⟩
      · intro id' out' hphase'
        cases hphase'
      · intro id' msgSizeLe' want' out' hphase'
        cases hphase'

/-- **Every call gets its own reply**, in every run in which each call starts with no earlier
reply outstanding: whatever a call has returned is the decoded payload of the one reply whose
`responseTo` is the `requestID` that this call sent. -/
theorem sendOpmsg_own_reply (decode : List UInt8 → Option D) {s : Connection D}
    (h : Reaches (connection decode) NoneOutstanding s) :
    (s.replies.map Prod.fst).Nodup ∧
      ∀ r ∈ s.returns, ∃ payload, (r.1, payload) ∈ s.replies ∧ decode payload.bytes = some r.2 := by
  have hown : s.Own decode := by
    refine h.invariant (P := Connection.Own decode) ?_ ?_
    · rintro s ⟨hidle, hin, hun, hreplies, hreturns⟩
      refine ⟨?_, ?_, ?_, ?_⟩
      · simp [Connection.Ordered, Connection.ids, hreplies, hun]
      · simp [hreturns]
      · simp [hidle]
      · simp [hidle]
    · exact fun s a t hs hg hstep => (Connection.step_moves hstep).own hg hs
  refine ⟨?_, hown.returns⟩
  have hpairwise := (List.pairwise_append.mp hown.ordered.1).1
  exact hpairwise.imp (fun hlt => Nat.ne_of_lt hlt)

/-! ## Two runs -/

/-- A `bson.decode` that returns the document it is given, and raises on anything else. -/
def decodeBytes (b : List UInt8) : Option (List UInt8) := if IsDocument b then some b else none

/-- A connection that has just been made. -/
def newConnection : Connection (List UInt8) := ⟨0, .idle, [], [], [], []⟩

lemma newConnection_reached (guard : Connection (List UInt8) → Action → Prop) :
    Reaches (connection decodeBytes) guard newConnection := .init ⟨rfl, rfl, rfl, rfl, rfl⟩

/-- The document with one null element, `a`. -/
def nullDocument : Document := ⟨[8, 0, 0, 0, 10, 97, 0, 0], by decide⟩

instance (s : Connection D) (a : Action) : Decidable (NoneOutstanding s a) := by
  unfold NoneOutstanding
  split <;> infer_instance

/-- A call, its reply, and the call's return. -/
def oneCall : List Action :=
  [.call emptyDocument.bytes none none, .answer 7 0 nullDocument, .recv 3, .recv 1, .proceed,
    .recv 20, .recv 5, .proceed]

/-- One call that receives its reply in four chunks returns the payload of that reply. -/
theorem oneCall_own_reply :
    ∃ s, Reaches (connection decodeBytes) NoneOutstanding s ∧
      s.returns = [(1, nullDocument.bytes)] ∧
      ∀ r ∈ s.returns, ∃ payload, (r.1, payload) ∈ s.replies ∧
        decodeBytes payload.bytes = some r.2 := by
  obtain ⟨s, hrun, hreturns⟩ : ∃ s, run (connection decodeBytes) NoneOutstanding newConnection
      oneCall = some s ∧ s.returns = [(1, nullDocument.bytes)] := ⟨_, rfl, rfl⟩
  have hreach := Reaches.of_run oneCall (newConnection_reached _) hrun
  exact ⟨s, hreach, hreturns, (sendOpmsg_own_reply decodeBytes hreach).2⟩

/-- A call that times out before its reply arrives, and the next call on the connection. -/
def lateReply : List Action :=
  [.call emptyDocument.bytes none none, .raise, .call emptyDocument.bytes none none,
    .answer 7 0 nullDocument, .answer 8 0 emptyDocument, .recv 4, .proceed, .recv 25, .proceed]

/-- The second call, which sent request 2, returns the payload of the reply to request 1. -/
theorem lateReply_mismatched :
    ∃ s, Reachable (connection decodeBytes) s ∧
      s.replies = [(1, nullDocument), (2, emptyDocument)] ∧
      s.returns = [(2, nullDocument.bytes)] ∧
      ¬ ∀ r ∈ s.returns, ∃ payload, (r.1, payload) ∈ s.replies ∧
        decodeBytes payload.bytes = some r.2 := by
  obtain ⟨s, hrun, hreplies, hreturns⟩ : ∃ s, run (connection decodeBytes) always newConnection
      lateReply = some s ∧ s.replies = [(1, nullDocument), (2, emptyDocument)] ∧
      s.returns = [(2, nullDocument.bytes)] := ⟨_, rfl, rfl, rfl⟩
  refine ⟨s, Reaches.of_run lateReply (newConnection_reached _) hrun, hreplies, hreturns, ?_⟩
  rw [hreplies, hreturns]
  intro h
  obtain ⟨payload, hmem, hdecode⟩ := h (2, nullDocument.bytes) List.mem_cons_self
  rcases List.mem_pair.mp hmem with hp | hp
  · cases hp
  · obtain ⟨-, rfl⟩ := Prod.mk.inj hp
    exact absurd hdecode (by decide)

end CBootstrap.Miniclient
