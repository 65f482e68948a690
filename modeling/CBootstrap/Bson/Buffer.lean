import CBootstrap.Bson.Verdict
import CBootstrap.Lib.Block

/-!
# libbson's reader, with its buffer

`bsonReaderRead` of `Bson.Iter` takes documents from what is left of a file.  The reader of
`bson-reader.c` does not have the file; it has a descriptor and a buffer.  It calls `read` for as
many bytes as the buffer has room for and is given as many as the system likes, moves what it
has not delivered to the front of the buffer when it wants more, and doubles the buffer when a
document is longer.  Here all of that is modelled, with what the calls of `read` do as a
parameter (`Fd`) and with a result only where no access leaves the buffer and no assertion fails.

`Ready` ties a reader to what is left of the file: the bytes in the buffer and behind them those
not read yet.  One call of `bson_reader_read` then does what `bsonReaderRead` does
(`Ready.read`), whatever the sizes of the reads.

The lengths are compared as `int32_t`.  A document over a gibibyte makes the buffer `2 ^ 31`
bytes long and the comparison negative, so the lemma is about documents of at most that length.
-/

namespace CBootstrap.Bson

open Bytes

/-! ## The descriptor -/

/-- What one call of `read` does: it fails with `EAGAIN`, it fails with another error, or it gives
`n + 1` bytes, or fewer where fewer are asked for or left. -/
inductive Answer
  | again
  | error
  | bytes (n : ℕ)
  deriving DecidableEq

/-- An open file: what is left of it, and what the next calls of `read` do.  The calls behind
those give all that is asked for and left. -/
structure Fd where
  rest : List UInt8
  answers : List Answer

/-- `_bson_reader_handle_fd_read`: the bytes it is given, `none` for `-1`. -/
def fdRead (rest : List UInt8) (len : ℕ) : List Answer → Option (List UInt8) × Fd
  | [] => (some (rest.take len), ⟨rest.drop len, []⟩)
  | .again :: answers => fdRead rest len answers
  | .error :: answers => (none, ⟨rest, answers⟩)
  | .bytes n :: answers =>
      (some (rest.take (min len (n + 1))), ⟨rest.drop (min len (n + 1)), answers⟩)

/-! ## The reader -/

/-- `bson_reader_handle_t`.  The buffer `data` has `len` cells, of which those from `offset` to
`end_` are valid. -/
structure Handle where
  fd : Fd
  data : List UInt8
  len : ℕ
  offset : ℕ
  end_ : ℕ
  bytesRead : ℕ
  done : Bool
  failed : Bool

/-- `_bson_reader_handle_fill_buffer`. -/
def handleFillBuffer (r : Handle) : Option Handle :=
  if r.done = false ∧ r.offset = 0 ∧ r.end_ = 0 then
    match fdRead r.fd.rest r.len r.fd.answers with
    | (none, fd) => some { r with fd, done := true }
    | (some bytes, fd) =>
        if bytes.length = 0 then some { r with fd, done := true }
        else do
          let data ← Block.write r.data 0 bytes
          some { r with fd, data, bytesRead := r.bytesRead + bytes.length, end_ := bytes.length }
  else do
    let valid ← Block.read r.data r.offset (r.end_ - r.offset)
    let moved ← Block.write r.data 0 valid
    let end_ := r.end_ - r.offset
    match fdRead r.fd.rest (r.len - end_) r.fd.answers with
    | (none, fd) =>
        some { r with fd, data := moved, offset := 0, end_, done := true, failed := true }
    | (some bytes, fd) =>
        if bytes.length = 0 then
          some { r with fd, data := moved, offset := 0, end_, done := true, failed := false }
        else do
          let data ← Block.write moved end_ bytes
          if end_ + bytes.length ≤ r.len then
            some { r with
              fd, data, offset := 0, end_ := end_ + bytes.length
              bytesRead := r.bytesRead + bytes.length }
          else none

/-- `bson_reader_new_from_handle`. -/
def handleNew (fd : Fd) : Option Handle :=
  handleFillBuffer ⟨fd, Block.malloc (fun _ => 0) 1024, 1024, 0, 0, 0, false, false⟩

/-- `_bson_reader_handle_grow_buffer`. -/
def handleGrowBuffer (junk : ℕ → UInt8) (r : Handle) : Handle :=
  let size := r.len * 2 % 2 ^ 64
  { r with data := Block.realloc junk r.data size, len := size }

/-- `_bson_reader_handle_tell`. -/
def handleTell (r : Handle) : ℤ := r.bytesRead - r.end_ + r.offset

/-- What a call returns: a document; `NULL` with `reached_eof`; `NULL` without. -/
inductive Outcome
  | document (bson : List UInt8)
  | eof
  | failed
  deriving DecidableEq

/-- How a pass through the loop of `_bson_reader_handle_read` ends. -/
inductive Pass
  | returns (outcome : Outcome) (r : Handle)
  | continues (r : Handle)

/-- One pass through the loop of `_bson_reader_handle_read`. -/
def handleReadPass (junk : ℕ → UInt8) (r : Handle) : Option Pass :=
  if r.done then some (.returns (if r.failed then .failed else .eof) r)
  else if r.end_ - r.offset < 4 then (handleFillBuffer r).map .continues
  else
    (Block.read r.data r.offset 4).bind fun front =>
      let blen := Int.bmod (ofLE front) (2 ^ 32)
      if blen < 5 then some (.returns .failed r)
      else if blen > Int.bmod (r.end_ - r.offset : ℕ) (2 ^ 32) then
        (handleFillBuffer
          (if blen > Int.bmod r.len (2 ^ 32) then handleGrowBuffer junk r else r)).map .continues
      else
        (Block.read r.data r.offset blen.toNat).map fun bson =>
          if bsonInitStatic bson then
            .returns (.document bson) { r with offset := r.offset + blen.toNat }
          else .returns .failed r

/-! ## Every call returns -/

section Descriptor

variable {rest : List UInt8} {len : ℕ} {answers : List Answer} {fd : Fd}

/-- The bytes a call gives are the next ones of the file. -/
lemma fdRead_some {bytes : List UInt8} (h : fdRead rest len answers = (some bytes, fd)) :
    bytes ++ fd.rest = rest ∧ bytes.length ≤ len ∧ fd.answers <:+ answers ∧
      (bytes.length = 0 → len = 0 ∨ rest = []) := by
  induction answers with
  | nil =>
      cases h
      refine ⟨List.take_append_drop _ _, List.length_take_le _ _, List.suffix_rfl, fun hnil => ?_⟩
      rw [List.length_take] at hnil
      rcases Nat.min_eq_zero_iff.mp hnil with hlen | hrest
      · exact .inl hlen
      · exact .inr (List.eq_nil_of_length_eq_zero hrest)
  | cons answer answers ih =>
      rcases answer with _ | _ | n
      · obtain ⟨happend, hle, hsuffix, hnil⟩ := ih h
        exact ⟨happend, hle, hsuffix.trans (List.suffix_cons _ _), hnil⟩
      · cases h
      · cases h
        refine ⟨List.take_append_drop _ _, ?_, List.suffix_cons _ _, fun hnil => ?_⟩
        · exact (List.length_take_le _ _).trans (Nat.min_le_left _ _)
        · rw [List.length_take] at hnil
          rcases Nat.min_eq_zero_iff.mp hnil with hlen | hrest
          · exact .inl (by omega)
          · exact .inr (List.eq_nil_of_length_eq_zero hrest)

/-- A call that fails takes nothing from the file. -/
lemma fdRead_none (h : fdRead rest len answers = (none, fd)) :
    fd.rest = rest ∧ fd.answers <:+ answers ∧ .error ∈ answers := by
  induction answers with
  | nil => cases h
  | cons answer answers ih =>
      rcases answer with _ | _ | n
      · obtain ⟨hrest, hsuffix, herror⟩ := ih h
        exact ⟨hrest, hsuffix.trans (List.suffix_cons _ _), List.mem_cons_of_mem _ herror⟩
      · cases h
        exact ⟨rfl, List.suffix_cons _ _, List.mem_cons_self⟩
      · cases h

end Descriptor

/-- The bytes a reader has not delivered yet. -/
def Handle.left (r : Handle) : ℕ := r.end_ - r.offset + r.fd.rest.length

/-- A bound on the passes of a call: each reads something or is the last but one. -/
def Handle.passes (r : Handle) : ℕ := r.fd.rest.length + if r.done then 0 else 1

/-- **What filling the buffer does**: it finds that there is no more, or it adds bytes. -/
lemma handleFillBuffer_cases {r r' : Handle} (h : handleFillBuffer r = some r') :
    (r'.done = true ∧ r'.fd.rest = r.fd.rest ∧ r'.end_ - r'.offset = r.end_ - r.offset) ∨
      ∃ bytes : List UInt8, bytes.length ≠ 0 ∧ bytes ++ r'.fd.rest = r.fd.rest ∧
        r'.done = r.done ∧ r'.end_ - r'.offset = r.end_ - r.offset + bytes.length := by
  rw [handleFillBuffer] at h
  split_ifs at h with hfirst
  · rcases hread : fdRead r.fd.rest r.len r.fd.answers with ⟨_ | bytes, fd⟩
    · rw [hread] at h
      cases h
      exact .inl ⟨rfl, (fdRead_none hread).1, rfl⟩
    · obtain ⟨happend, -, -, -⟩ := fdRead_some hread
      rw [hread] at h
      simp only at h
      split_ifs at h with hnil
      · cases h
        rw [List.eq_nil_of_length_eq_zero hnil] at happend
        exact .inl ⟨rfl, happend, rfl⟩
      · obtain ⟨data, -, hr⟩ := Option.bind_eq_some_iff.mp h
        cases hr
        refine .inr ⟨bytes, hnil, happend, rfl, ?_⟩
        rw [hfirst.2.1, hfirst.2.2]
        simp
  · obtain ⟨valid, -, h⟩ := Option.bind_eq_some_iff.mp h
    obtain ⟨moved, -, h⟩ := Option.bind_eq_some_iff.mp h
    simp only at h
    rcases hread : fdRead r.fd.rest (r.len - (r.end_ - r.offset)) r.fd.answers with ⟨_ | bytes, fd⟩
    · rw [hread] at h
      cases h
      exact .inl ⟨rfl, (fdRead_none hread).1, rfl⟩
    · obtain ⟨happend, -, -, -⟩ := fdRead_some hread
      rw [hread] at h
      simp only at h
      split_ifs at h with hnil hfits
      · cases h
        rw [List.eq_nil_of_length_eq_zero hnil] at happend
        exact .inl ⟨rfl, happend, rfl⟩
      · obtain ⟨data, -, hr⟩ := Option.bind_eq_some_iff.mp h
        cases hr
        exact .inr ⟨bytes, hnil, happend, rfl, rfl⟩
      · obtain ⟨data, -, hr⟩ := Option.bind_eq_some_iff.mp h
        cases hr

lemma handleFillBuffer_left {r r' : Handle} (h : handleFillBuffer r = some r') :
    r'.left = r.left := by
  rw [Handle.left, Handle.left]
  obtain ⟨-, hrest, hvalid⟩ | ⟨bytes, -, happend, -, hvalid⟩ := handleFillBuffer_cases h
  · rw [hrest, hvalid]
  · rw [hvalid, ← happend, List.length_append, Nat.add_assoc]

lemma handleFillBuffer_passes {r r' : Handle} (h : handleFillBuffer r = some r')
    (hdone : r.done = false) : r'.passes < r.passes := by
  rw [Handle.passes, Handle.passes, hdone]
  obtain ⟨hdone', hrest, -⟩ | ⟨bytes, hbytes, happend, hdone', -⟩ := handleFillBuffer_cases h
  · rw [hdone', hrest, if_pos rfl, if_neg Bool.false_ne_true]
    omega
  · rw [hdone', hdone, ← happend, List.length_append]
    omega

/-- A length is at least what it is as an `int32_t`. -/
lemma bmod_le_self (n : ℕ) : Int.bmod n (2 ^ 32) ≤ n := by
  rw [Int.bmod_def]
  split_ifs
  · omega
  · omega

/-- Below `2 ^ 31` it is the same. -/
lemma bmod_eq_self {n : ℕ} (h : n < 2 ^ 31) : Int.bmod n (2 ^ 32) = n :=
  Int.bmod_eq_of_le_mul_two (by omega) (by omega)

/-- **What a pass does**: it returns because there is no more, it fills the buffer, having grown it
or not, it returns a failure, or it returns a document. -/
lemma handleReadPass_cases {junk : ℕ → UInt8} {r : Handle} {pass : Pass}
    (h : handleReadPass junk r = some pass) :
    pass = .returns .eof r ∨ pass = .returns .failed r ∨
      (r.done = false ∧ ∃ r₁ r₂, (r₁ = r ∨ r₁ = handleGrowBuffer junk r) ∧
        handleFillBuffer r₁ = some r₂ ∧ pass = .continues r₂) ∨
      ∃ bson n, 0 < n ∧ n ≤ r.end_ - r.offset ∧
        pass = .returns (.document bson) { r with offset := r.offset + n } := by
  rw [handleReadPass] at h
  by_cases hdone : r.done = true
  · rw [if_pos hdone] at h
    split_ifs at h
    · exact .inr (.inl (Option.some.inj h).symm)
    · exact .inl (Option.some.inj h).symm
  have hdone' : r.done = false := Bool.eq_false_iff.mpr hdone
  rw [if_neg hdone] at h
  by_cases hshort : r.end_ - r.offset < 4
  · rw [if_pos hshort] at h
    obtain ⟨r₂, hfill, hpass⟩ := Option.map_eq_some_iff.mp h
    exact .inr (.inr (.inl ⟨hdone', r, r₂, .inl rfl, hfill, hpass.symm⟩))
  rw [if_neg hshort] at h
  obtain ⟨front, -, h⟩ := Option.bind_eq_some_iff.mp h
  generalize Int.bmod (ofLE front) (2 ^ 32) = blen at h
  simp only at h
  by_cases hlow : blen < 5
  · rw [if_pos hlow] at h
    exact .inr (.inl (Option.some.inj h).symm)
  rw [if_neg hlow] at h
  by_cases hlong : blen > Int.bmod (r.end_ - r.offset : ℕ) (2 ^ 32)
  · rw [if_pos hlong] at h
    obtain ⟨r₂, hfill, hpass⟩ := Option.map_eq_some_iff.mp h
    refine .inr (.inr (.inl ⟨hdone', _, r₂, ?_, hfill, hpass.symm⟩))
    split_ifs
    · exact .inr rfl
    · exact .inl rfl
  · rw [if_neg hlong] at h
    obtain ⟨bson, -, hpass⟩ := Option.map_eq_some_iff.mp h
    have hle := bmod_le_self (r.end_ - r.offset)
    split_ifs at hpass
    · exact .inr (.inr (.inr ⟨bson, blen.toNat, by omega, by omega, hpass.symm⟩))
    · exact .inr (.inl hpass.symm)

/-- A pass that is not the last brings the last nearer. -/
lemma handleReadPass_continues {junk : ℕ → UInt8} {r r' : Handle}
    (h : handleReadPass junk r = some (.continues r')) :
    r'.left = r.left ∧ r'.passes < r.passes := by
  obtain hpass | hpass | ⟨hdone, r₁, r₂, hr₁, hfill, hpass⟩ | ⟨bson, n, -, -, hpass⟩ :=
    handleReadPass_cases h
  · cases hpass
  · cases hpass
  · cases hpass
    have hsame : r₁.left = r.left ∧ r₁.passes = r.passes ∧ r₁.done = r.done := by
      rcases hr₁ with rfl | rfl
      · exact ⟨rfl, rfl, rfl⟩
      · exact ⟨rfl, rfl, rfl⟩
    refine ⟨(handleFillBuffer_left hfill).trans hsame.1, ?_⟩
    exact (handleFillBuffer_passes hfill (hsame.2.2.trans hdone)).trans_eq hsame.2.1
  · cases hpass

/-- A document that is delivered is not left any more. -/
lemma handleReadPass_document {junk : ℕ → UInt8} {r r' : Handle} {bson : List UInt8}
    (h : handleReadPass junk r = some (.returns (.document bson) r')) : r'.left < r.left := by
  obtain hpass | hpass | ⟨-, r₁, r₂, -, -, hpass⟩ | ⟨bson', n, hpos, hle, hpass⟩ :=
    handleReadPass_cases h
  · cases hpass
  · cases hpass
  · cases hpass
  · cases hpass
    rw [Handle.left, Handle.left]
    simp only
    omega

/-- `_bson_reader_handle_read`. -/
def handleRead (junk : ℕ → UInt8) (r : Handle) : Option (Outcome × Handle) :=
  match _h : handleReadPass junk r with
  | none => none
  | some (.returns outcome r') => some (outcome, r')
  | some (.continues r') => handleRead junk r'
termination_by r.passes
decreasing_by exact (handleReadPass_continues _h).2

lemma handleRead_of_returns {junk : ℕ → UInt8} {r r' : Handle} {outcome : Outcome}
    (h : handleReadPass junk r = some (.returns outcome r')) :
    handleRead junk r = some (outcome, r') := by
  rw [handleRead]
  split
  · next hpass => cases h.symm.trans hpass
  · next hpass =>
    cases h.symm.trans hpass
    rfl
  · next hpass => cases h.symm.trans hpass

lemma handleRead_of_continues {junk : ℕ → UInt8} {r r' : Handle}
    (h : handleReadPass junk r = some (.continues r')) :
    handleRead junk r = handleRead junk r' := by
  rw [handleRead]
  split
  · next hpass => cases h.symm.trans hpass
  · next hpass => cases h.symm.trans hpass
  · next hpass =>
    cases h.symm.trans hpass
    rfl

lemma handleRead_document {junk : ℕ → UInt8} {r r' : Handle} {bson : List UInt8}
    (h : handleRead junk r = some (.document bson, r')) : r'.left < r.left := by
  induction hn : r.passes using Nat.strong_induction_on generalizing r with
  | h n ih =>
      rcases hpass : handleReadPass junk r with _ | outcome
      · rw [handleRead] at h
        split at h
        · cases h
        · next hpass' => cases hpass.symm.trans hpass'
        · next hpass' => cases hpass.symm.trans hpass'
      rcases outcome with ⟨outcome, r₁⟩ | r₁
      · rw [handleRead_of_returns hpass] at h
        cases h
        exact handleReadPass_document hpass
      · obtain ⟨hleft, hpasses⟩ := handleReadPass_continues hpass
        rw [handleRead_of_continues hpass] at h
        exact (ih r₁.passes (hn ▸ hpasses) h rfl).trans_eq hleft

/-! ## What a reader sees -/

/-- The valid bytes of the buffer. -/
def Handle.window (r : Handle) : List UInt8 := (r.data.drop r.offset).take (r.end_ - r.offset)

/-- A reader at position `p` that has `file` left to deliver: the valid bytes of its buffer and
behind them those it has not read.  It has read something; the first read is special. -/
structure Ready (r : Handle) (p : ℕ) (file : List UInt8) : Prop where
  size : r.data.length = r.len
  four_le : 4 ≤ r.len
  len_lt : r.len < 2 ^ 31
  offset_le : r.offset ≤ r.end_
  end_pos : 0 < r.end_
  end_le : r.end_ ≤ r.len
  left : r.window ++ r.fd.rest = file
  position : r.bytesRead + r.offset = p + r.end_
  undone : r.done = false

section Ready

variable {junk : ℕ → UInt8} {r : Handle} {p : ℕ} {file : List UInt8}

lemma Ready.length_window (h : Ready r p file) : r.window.length = r.end_ - r.offset := by
  have hsize := h.size
  have hle := h.end_le
  rw [Handle.window, List.length_take, List.length_drop]
  omega

lemma Ready.read_valid (h : Ready r p file) {n : ℕ} (hn : n ≤ r.end_ - r.offset) :
    Block.read r.data r.offset n = some (file.take n) := by
  have hsize := h.size
  have hle := h.end_le
  have hoffset := h.offset_le
  have hwindow := h.length_window
  rw [Block.read, if_pos (by omega), ← h.left, List.take_append_of_le_length (by omega),
    Handle.window, List.take_take, Nat.min_eq_left hn]

/-- **Filling the buffer** adds to the valid bytes, or finds the end of the file, or fails. -/
lemma Ready.fill (h : Ready r p file) (hroom : r.end_ - r.offset < r.len) :
    ∃ r', handleFillBuffer r = some r' ∧ r'.fd.answers <:+ r.fd.answers ∧
      (Ready r' p file ∨ (r'.done = true ∧ r'.failed = false ∧ file = r.window) ∨
        (r'.done = true ∧ r'.failed = true ∧ .error ∈ r.fd.answers)) := by
  have hsize := h.size
  have hwindow := h.length_window
  have hend := h.end_pos
  have hle := h.end_le
  have hoffset := h.offset_le
  have hposition := h.position
  have hnotfirst : ¬(r.done = false ∧ r.offset = 0 ∧ r.end_ = 0) := by
    rintro ⟨-, -, hzero⟩
    omega
  have hvalid : Block.read r.data r.offset (r.end_ - r.offset) = some r.window :=
    if_pos (by omega)
  have hmove : Block.write r.data 0 r.window = some _ := Block.write_eq_some (by omega)
  generalize r.data.take 0 ++ r.window ++ r.data.drop (0 + r.window.length) = moved at hmove
  have hmoved := Block.take_write hmove
  have hmovedlen := Block.length_write hmove
  rw [List.take_zero, List.nil_append, Nat.zero_add, hwindow] at hmoved
  rw [handleFillBuffer, if_neg hnotfirst, hvalid]
  simp only [Option.bind_eq_bind, Option.bind_some, hmove]
  rcases hread : fdRead r.fd.rest (r.len - (r.end_ - r.offset)) r.fd.answers with ⟨_ | bytes, fd⟩
  · obtain ⟨-, hsuffix, herror⟩ := fdRead_none hread
    exact ⟨_, rfl, hsuffix, .inr (.inr ⟨rfl, rfl, herror⟩)⟩
  · obtain ⟨happend, hlen, hsuffix, hnil⟩ := fdRead_some hread
    by_cases hzero : bytes.length = 0
    · refine ⟨_, if_pos hzero, hsuffix, .inr (.inl ⟨rfl, rfl, ?_⟩)⟩
      rcases hnil hzero with hfull | hrest
      · omega
      · rw [← h.left, hrest, List.append_nil]
    · have hwrite : Block.write moved (r.end_ - r.offset) bytes = some _ :=
        Block.write_eq_some (by omega)
      generalize moved.take (r.end_ - r.offset) ++ bytes ++
        moved.drop (r.end_ - r.offset + bytes.length) = data at hwrite
      have hdata := Block.take_write hwrite
      have hdatalen := Block.length_write hwrite
      simp only
      rw [if_neg hzero, hwrite, Option.bind_some, if_pos (by omega)]
      refine ⟨_, rfl, hsuffix, .inl ?_⟩
      refine ⟨by simp only; omega, h.four_le, h.len_lt, Nat.zero_le _, ?_, ?_, ?_, ?_, h.undone⟩
      · simp only
        omega
      · simp only
        omega
      · rw [Handle.window]
        simp only
        rw [List.drop_zero, Nat.sub_zero, hdata, hmoved, List.append_assoc, happend, h.left]
      · simp only
        omega

lemma handleGrowBuffer_len (hlen : r.len < 2 ^ 31) :
    (handleGrowBuffer junk r).len = r.len * 2 :=
  Nat.mod_eq_of_lt (by omega)

/-- Growing the buffer keeps the valid bytes. -/
lemma Ready.grow (h : Ready r p file) (hlen : 2 * r.len < 2 ^ 31) :
    Ready (handleGrowBuffer junk r) p file := by
  have hsize := h.size
  have hfour := h.four_le
  have hle := h.end_le
  have hgrown : (handleGrowBuffer junk r).len = r.len * 2 := handleGrowBuffer_len h.len_lt
  refine ⟨?_, by omega, by omega, h.offset_le, h.end_pos, ?_, ?_, h.position, h.undone⟩
  · exact Block.length_realloc junk r.data _
  · exact hle.trans (by omega)
  · have hkeep : (handleGrowBuffer junk r).window = r.window := by
      have hoffset := h.offset_le
      have hsum : r.offset + (r.end_ - r.offset) = r.end_ := by omega
      have htake : (Block.realloc junk r.data (r.len * 2 % 2 ^ 64)).take r.end_ =
          r.data.take r.end_ :=
        Block.take_realloc junk (by omega) (by omega)
      rw [Handle.window, Handle.window]
      simp only [handleGrowBuffer]
      rw [List.take_drop, List.take_drop, hsum, htake]
    rw [hkeep]
    exact h.left

end Ready

/-! ## One call -/

/-- The length in front of what is left of a file. -/
def fileHeader (file : List UInt8) : ℤ := Int.bmod (ofLE (file.take 4)) (2 ^ 32)

lemma fileHeader_eq (file : List UInt8) :
    fileHeader file = Int.bmod (ofLE (file.take 4)) (2 ^ 32) :=
  rfl

/-- A document that is delivered has the length its header says. -/
lemma fileHeader_of_document {file bson rest : List UInt8}
    (h : bsonReaderRead file = .document bson rest) :
    fileHeader file = bson.length ∧ file = bson ++ rest := by
  rw [bsonReaderRead] at h
  by_cases hshort : file.length < 4
  · rw [if_pos hshort] at h
    cases h
  rw [if_neg hshort, ← fileHeader_eq] at h
  generalize fileHeader file = blen at h
  simp only at h
  split_ifs at h with hlow hlong
  cases h
  refine ⟨?_, (List.take_append_drop _ _).symm⟩
  rw [List.length_take]
  omega

/-- A call did what it is to do with what is left of the file from position `p` on. -/
def Agrees (p : ℕ) : ReadResult → Outcome → Handle → Prop
  | .document bson rest, outcome, r => outcome = .document bson ∧ Ready r (p + bson.length) rest
  | .eof, outcome, _ => outcome = .eof
  | .failed, outcome, _ => outcome = .failed

/-- A call returns; it does what it is to do unless a `read` fails, and reports that. -/
def ReadsFile (junk : ℕ → UInt8) (r : Handle) (p : ℕ) (file : List UInt8) : Prop :=
  ∃ outcome r', handleRead junk r = some (outcome, r') ∧ r'.fd.answers <:+ r.fd.answers ∧
    (Agrees p (bsonReaderRead file) outcome r' ∨ (outcome = .failed ∧ .error ∈ r.fd.answers))

lemma handleRead_of_done {junk : ℕ → UInt8} {r : Handle} (h : r.done = true) :
    handleRead junk r = some (if r.failed then .failed else .eof, r) := by
  refine handleRead_of_returns ?_
  rw [handleReadPass, if_pos h]

section Call

variable {junk : ℕ → UInt8} {r r₁ : Handle} {p : ℕ} {file : List UInt8}

/-- A pass that fills the buffer, where a file that has nothing more is at its end. -/
lemma Ready.read_of_fill (h₁ : Ready r₁ p file) (hroom : r₁.end_ - r₁.offset < r₁.len)
    (hanswers : r₁.fd.answers = r.fd.answers) (hpasses : r₁.passes = r.passes)
    (hpass : handleReadPass junk r = (handleFillBuffer r₁).map .continues)
    (heof : file.length = r₁.end_ - r₁.offset → bsonReaderRead file = .eof)
    (ih : ∀ r', Ready r' p file → r'.passes < r.passes → ReadsFile junk r' p file) :
    ReadsFile junk r p file := by
  obtain ⟨r', hfill, hsuffix, hcases⟩ := h₁.fill hroom
  have hcontinues : handleReadPass junk r = some (.continues r') := by
    rw [hpass, hfill]
    rfl
  rw [hanswers] at hsuffix hcases
  rw [ReadsFile, handleRead_of_continues hcontinues]
  rcases hcases with hready | ⟨hdone, hfailed, hfile⟩ | ⟨hdone, hfailed, herror⟩
  · have hlt : r'.passes < r.passes := hpasses ▸ handleFillBuffer_passes hfill h₁.undone
    obtain ⟨outcome, r'', hread, hsuffix', hagrees⟩ := ih r' hready hlt
    refine ⟨outcome, r'', hread, hsuffix'.trans hsuffix, ?_⟩
    rcases hagrees with hagrees | ⟨houtcome, herror⟩
    · exact .inl hagrees
    · exact .inr ⟨houtcome, hsuffix.subset herror⟩
  · refine ⟨.eof, r', ?_, hsuffix, .inl ?_⟩
    · rw [handleRead_of_done hdone, hfailed]
      rfl
    · rw [heof (by rw [hfile, h₁.length_window])]
      rfl
  · refine ⟨.failed, r', ?_, hsuffix, .inr ⟨rfl, herror⟩⟩
    rw [handleRead_of_done hdone, hfailed]
    rfl

/-- A pass that finds a whole document in the buffer. -/
lemma Ready.read_of_document (h : Ready r p file) (hfour : ¬r.end_ - r.offset < 4)
    (hlow : ¬fileHeader file < 5) (hlong : ¬fileHeader file > (r.end_ - r.offset : ℕ)) :
    ReadsFile junk r p file := by
  have hlen := h.len_lt
  have hle := h.end_le
  have hoffset := h.offset_le
  have hwindow := h.length_window
  have hposition := h.position
  have hfile : r.end_ - r.offset ≤ file.length := by
    rw [← h.left, List.length_append]
    omega
  generalize hblen : fileHeader file = blen at hlow hlong
  have hpass : handleReadPass junk r = some (if bsonInitStatic (file.take blen.toNat) then
      .returns (.document (file.take blen.toNat)) { r with offset := r.offset + blen.toNat }
      else .returns .failed r) := by
    rw [handleReadPass, h.undone, if_neg Bool.false_ne_true, if_neg hfour,
      h.read_valid (by omega), Option.bind_some, ← fileHeader_eq, hblen]
    simp only
    rw [if_neg hlow, bmod_eq_self (by omega), if_neg hlong, h.read_valid (by omega),
      Option.map_some]
  have hpure : bsonReaderRead file = if bsonInitStatic (file.take blen.toNat) then
      .document (file.take blen.toNat) (file.drop blen.toNat) else .failed := by
    rw [bsonReaderRead, if_neg (by omega), ← fileHeader_eq, hblen]
    simp only
    rw [if_neg hlow, if_neg (by omega)]
  rw [ReadsFile, hpure]
  by_cases hstatic : bsonInitStatic (file.take blen.toNat) = true
  · rw [if_pos hstatic] at hpass ⊢
    refine ⟨_, _, handleRead_of_returns hpass, List.suffix_rfl, .inl ⟨rfl, ?_⟩⟩
    have htake : (file.take blen.toNat).length = blen.toNat := by
      rw [List.length_take]
      omega
    refine ⟨h.size, h.four_le, h.len_lt, ?_, h.end_pos, h.end_le, ?_, ?_, h.undone⟩
    · simp only
      omega
    · rw [Handle.window]
      simp only
      rw [← h.left, List.drop_append_of_le_length (by omega), Handle.window, List.drop_take,
        List.drop_drop, Nat.sub_add_eq]
    · simp only
      omega
  · rw [if_neg hstatic] at hpass ⊢
    exact ⟨_, _, handleRead_of_returns hpass, List.suffix_rfl, .inl rfl⟩

/-- **One call of the reader does what `bsonReaderRead` does**, however the bytes come. -/
lemma Ready.read (h : Ready r p file) (hheader : fileHeader file ≤ 2 ^ 30) :
    ReadsFile junk r p file := by
  induction hn : r.passes using Nat.strong_induction_on generalizing r with
  | h n ih =>
      have ih' : ∀ r', Ready r' p file → r'.passes < r.passes → ReadsFile junk r' p file :=
        fun r' hr' hlt => ih r'.passes (hn ▸ hlt) hr' rfl
      have hfour := h.four_le
      have hlen := h.len_lt
      have hle := h.end_le
      have hoffset := h.offset_le
      have hwindow := h.length_window
      have hfile : r.end_ - r.offset ≤ file.length := by
        rw [← h.left, List.length_append]
        omega
      by_cases hshort : r.end_ - r.offset < 4
      · refine h.read_of_fill (by omega) rfl rfl ?_ (fun hall => ?_) ih'
        · rw [handleReadPass, h.undone, if_neg Bool.false_ne_true, if_pos hshort]
        · rw [bsonReaderRead, if_pos (by omega)]
      by_cases hlow : fileHeader file < 5
      · have hpass : handleReadPass junk r = some (.returns .failed r) := by
          rw [handleReadPass, h.undone, if_neg Bool.false_ne_true, if_neg hshort,
            h.read_valid (by omega), Option.bind_some, ← fileHeader_eq]
          simp only
          rw [if_pos hlow]
        have hpure : bsonReaderRead file = .failed := by
          rw [bsonReaderRead, if_neg (by omega), ← fileHeader_eq]
          simp only
          rw [if_pos hlow]
        refine ⟨_, _, handleRead_of_returns hpass, List.suffix_rfl, .inl ?_⟩
        rw [hpure]
        rfl
      by_cases hlong : fileHeader file > (r.end_ - r.offset : ℕ)
      · have heof : file.length = r.end_ - r.offset → bsonReaderRead file = .eof := by
          intro hall
          rw [bsonReaderRead, if_neg (by omega), ← fileHeader_eq]
          simp only
          rw [if_neg hlow, if_pos (by omega)]
        have hpass : handleReadPass junk r = (handleFillBuffer (if fileHeader file > r.len then
            handleGrowBuffer junk r else r)).map .continues := by
          rw [handleReadPass, h.undone, if_neg Bool.false_ne_true, if_neg hshort,
            h.read_valid (by omega), Option.bind_some, ← fileHeader_eq]
          simp only
          rw [if_neg hlow, bmod_eq_self (by omega), if_pos hlong, bmod_eq_self hlen]
        by_cases hgrow : fileHeader file > r.len
        · rw [if_pos hgrow] at hpass
          have hgrown : Ready (handleGrowBuffer junk r) p file := h.grow (by omega)
          have hroom : r.end_ - r.offset < (handleGrowBuffer junk r).len := by
            rw [handleGrowBuffer_len (by omega)]
            omega
          exact hgrown.read_of_fill hroom rfl rfl hpass heof ih'
        · rw [if_neg hgrow] at hpass
          exact h.read_of_fill (by omega) rfl rfl hpass heof ih'
      · exact h.read_of_document hshort hlow hlong

end Call

end CBootstrap.Bson
