import CBootstrap.Bson.Buffer

/-!
# Reading all documents of a file

`drain` is the loop of a caller of `bson_reader_read`, and `cutFile` the same loop over the file
itself.  They agree however the calls of `read` divide the file, which for the loop in `main` of
`print-invalid-arrays` is `mainStream_eq`.

`drain_new` is about reads that fail.  They are reported, except for the first:
`bson_reader_new_from_handle` makes it, and the branch for it does not set `failed`.

The other reader, over bytes in memory, has the whole file and tells a file that ends inside a
document from one that ends behind it (`drainData_eq`).
-/

namespace CBootstrap.Bson

open Bytes

/-! ## All calls -/

/-- A caller's loop: `bson_reader_read` until it returns `NULL`, with `f` for what is made of a
document and of `bson_reader_tell` behind it.  The result has what was made and whether the end of
the file was reached. -/
def drain {β : Type} (junk : ℕ → UInt8) (f : List UInt8 → ℤ → List β) (r : Handle) :
    Option (List β × Bool) :=
  match _h : handleRead junk r with
  | none => none
  | some (.eof, _) => some ([], true)
  | some (.failed, _) => some ([], false)
  | some (.document bson, r') =>
      (drain junk f r').map fun others => (f bson (handleTell r') ++ others.1, others.2)
termination_by r.left
decreasing_by exact handleRead_document _h

/-- The documents of a file one after the other, from position `p` on, without a reader. -/
def cutFile {β : Type} (f : List UInt8 → ℤ → List β) (p : ℕ) (file : List UInt8) :
    List β × Bool :=
  match _h : bsonReaderRead file with
  | .eof => ([], true)
  | .failed => ([], false)
  | .document bson rest =>
      let others := cutFile f (p + bson.length) rest
      (f bson (p + bson.length : ℕ) ++ others.1, others.2)
termination_by file.length
decreasing_by exact bsonReaderRead_document _h

/-- What is left of a file behind some of its documents. -/
inductive Reaches : List UInt8 → List UInt8 → Prop
  | here {file} : Reaches file file
  | behind {file bson rest last} (h : bsonReaderRead file = .document bson rest)
      (hrest : Reaches rest last) : Reaches file last

/-- No document of the file is announced to have more than a gibibyte. -/
def SmallHeaders (file : List UInt8) : Prop :=
  ∀ rest, Reaches file rest → fileHeader rest ≤ 2 ^ 30

lemma SmallHeaders.behind {file bson rest : List UInt8} (hsmall : SmallHeaders file)
    (h : bsonReaderRead file = .document bson rest) : SmallHeaders rest :=
  fun last hlast => hsmall last (.behind h hlast)

section Runs

variable {β : Type} {junk : ℕ → UInt8} {f : List UInt8 → ℤ → List β} {r r' : Handle} {p : ℕ}
  {file bson rest : List UInt8}

lemma cutFile_of_eof (h : bsonReaderRead file = .eof) : cutFile f p file = ([], true) := by
  rw [cutFile]
  split
  · rfl
  · next hread => cases h.symm.trans hread
  · next hread => cases h.symm.trans hread

lemma cutFile_of_failed (h : bsonReaderRead file = .failed) : cutFile f p file = ([], false) := by
  rw [cutFile]
  split
  · next hread => cases h.symm.trans hread
  · rfl
  · next hread => cases h.symm.trans hread

lemma cutFile_of_document (h : bsonReaderRead file = .document bson rest) :
    cutFile f p file = (f bson (p + bson.length : ℕ) ++ (cutFile f (p + bson.length) rest).1,
      (cutFile f (p + bson.length) rest).2) := by
  rw [cutFile]
  split
  · next hread => cases h.symm.trans hread
  · next hread => cases h.symm.trans hread
  · next hread =>
    cases h.symm.trans hread
    rfl

lemma drain_of_eof (h : handleRead junk r = some (.eof, r')) :
    drain junk f r = some ([], true) := by
  rw [drain]
  split
  · next hread => cases h.symm.trans hread
  · rfl
  · next hread => cases h.symm.trans hread
  · next hread => cases h.symm.trans hread

lemma drain_of_failed (h : handleRead junk r = some (.failed, r')) :
    drain junk f r = some ([], false) := by
  rw [drain]
  split
  · next hread => cases h.symm.trans hread
  · next hread => cases h.symm.trans hread
  · rfl
  · next hread => cases h.symm.trans hread

lemma drain_of_document (h : handleRead junk r = some (.document bson, r')) :
    drain junk f r =
      (drain junk f r').map fun others => (f bson (handleTell r') ++ others.1, others.2) := by
  rw [drain]
  split
  · next hread => cases h.symm.trans hread
  · next hread => cases h.symm.trans hread
  · next hread => cases h.symm.trans hread
  · next hread =>
    cases h.symm.trans hread
    rfl

/-- `bson_reader_tell` is the position the reader is at. -/
lemma Ready.tell (h : Ready r p file) : handleTell r = p := by
  have hposition := h.position
  rw [handleTell]
  omega

/-- **A run of the reader** delivers the documents of the file, with their positions.  Where a
`read` fails it stops early, and says so. -/
lemma Ready.drain (h : Ready r p file) (hsmall : SmallHeaders file) :
    ∃ out, drain junk f r = some out ∧
      (out = cutFile f p file ∨
        (out.2 = false ∧ out.1 <+: (cutFile f p file).1 ∧ .error ∈ r.fd.answers)) := by
  induction file using file_induction generalizing r p with
  | eof file heof =>
      obtain ⟨outcome, r', hread, -, hagrees | ⟨rfl, herror⟩⟩ := h.read (hsmall file .here)
      · rw [heof] at hagrees
        subst hagrees
        exact ⟨_, drain_of_eof hread, .inl (cutFile_of_eof heof).symm⟩
      · exact ⟨_, drain_of_failed hread, .inr ⟨rfl, List.nil_prefix, herror⟩⟩
  | failed file hfailed =>
      obtain ⟨outcome, r', hread, -, hagrees | ⟨rfl, herror⟩⟩ := h.read (hsmall file .here)
      · rw [hfailed] at hagrees
        subst hagrees
        exact ⟨_, drain_of_failed hread, .inl (cutFile_of_failed hfailed).symm⟩
      · exact ⟨_, drain_of_failed hread, .inr ⟨rfl, List.nil_prefix, herror⟩⟩
  | document file bson rest hdocument ih =>
      obtain ⟨outcome, r', hread, hsuffix, hagrees | ⟨rfl, herror⟩⟩ := h.read (hsmall file .here)
      · rw [hdocument] at hagrees
        obtain ⟨rfl, hready⟩ := hagrees
        obtain ⟨out, hdrain, hout⟩ := ih hready (hsmall.behind hdocument)
        rw [drain_of_document hread, hdrain, hready.tell, cutFile_of_document hdocument]
        refine ⟨_, rfl, ?_⟩
        rcases hout with rfl | ⟨hstop, hfront, herror⟩
        · exact .inl rfl
        · exact .inr ⟨hstop, List.prefix_append_right_inj _ |>.mpr hfront,
            hsuffix.subset herror⟩
      · exact ⟨_, drain_of_failed hread, .inr ⟨rfl, List.nil_prefix, herror⟩⟩

end Runs

/-- The first call of `read`, but for those that are to be made again, fails. -/
def FirstFails : List Answer → Prop
  | .again :: answers => FirstFails answers
  | .error :: _ => True
  | _ => False

lemma fdRead_eq_none_iff (rest : List UInt8) (len : ℕ) (answers : List Answer) :
    (fdRead rest len answers).1 = none ↔ FirstFails answers := by
  induction answers with
  | nil => simp [fdRead, FirstFails]
  | cons answer answers ih =>
      rcases answer with _ | _ | n
      · exact ih
      · simp [fdRead, FirstFails]
      · simp [fdRead, FirstFails]

/-- **The new reader** has made a first read.  If that failed, the file is at its end. -/
lemma handleNew_spec (fd : Fd) :
    ∃ r, handleNew fd = some r ∧ r.fd.answers <:+ fd.answers ∧
      ((Ready r 0 fd.rest ∧ ¬FirstFails fd.answers) ∨ (r.done = true ∧ r.failed = false ∧
        (fd.rest = [] ∨ FirstFails fd.answers))) := by
  have hfirst := fdRead_eq_none_iff fd.rest 1024 fd.answers
  rw [handleNew, handleFillBuffer, if_pos ⟨rfl, rfl, rfl⟩]
  simp only
  rcases hread : fdRead fd.rest 1024 fd.answers with ⟨_ | bytes, fd'⟩
  · obtain ⟨-, hsuffix, -⟩ := fdRead_none hread
    rw [hread] at hfirst
    exact ⟨_, rfl, hsuffix, .inr ⟨rfl, rfl, .inr (hfirst.mp rfl)⟩⟩
  · obtain ⟨happend, hlen, hsuffix, hnil⟩ := fdRead_some hread
    rw [hread] at hfirst
    have hnot : ¬FirstFails fd.answers := fun hfails =>
      absurd (hfirst.mpr hfails) (Option.some_ne_none _)
    by_cases hzero : bytes.length = 0
    · refine ⟨_, if_pos hzero, hsuffix, .inr ⟨rfl, rfl, .inl ?_⟩⟩
      rcases hnil hzero with hroom | hrest
      · cases hroom
      · exact hrest
    · have hmalloc : (Block.malloc (fun _ => (0 : UInt8)) 1024).length = 1024 :=
        Block.length_malloc _ _
      have hwrite : Block.write (Block.malloc (fun _ => (0 : UInt8)) 1024) 0 bytes = some _ :=
        Block.write_eq_some (by omega)
      generalize (Block.malloc (fun _ => (0 : UInt8)) 1024).take 0 ++ bytes ++
        (Block.malloc (fun _ => (0 : UInt8)) 1024).drop (0 + bytes.length) = data at hwrite
      have hdata := Block.take_write hwrite
      have hdatalen := Block.length_write hwrite
      rw [Nat.zero_add, List.take_zero, List.nil_append] at hdata
      simp only
      rw [if_neg hzero, hwrite]
      refine ⟨_, rfl, hsuffix, .inl ⟨?_, hnot⟩⟩
      refine ⟨hdatalen.trans hmalloc, by simp, by simp, Nat.zero_le _, ?_, hlen, ?_, ?_, rfl⟩
      · exact Nat.pos_of_ne_zero hzero
      · rw [Handle.window]
        simp only
        rw [List.drop_zero, Nat.sub_zero, hdata, happend]
      · simp

lemma FirstFails.error_mem {answers : List Answer} (h : FirstFails answers) :
    .error ∈ answers := by
  induction answers with
  | nil => exact h.elim
  | cons answer answers ih =>
      rcases answer with _ | _ | n
      · exact List.mem_cons_of_mem _ (ih h)
      · exact List.mem_cons_self
      · exact h.elim

/-- The three ways a new reader is drained: its first read fails, all goes well, or a later read
fails. -/
lemma drain_handleNew {β : Type} (junk : ℕ → UInt8) (f : List UInt8 → ℤ → List β) (fd : Fd)
    (hsmall : SmallHeaders fd.rest) :
    ∃ r out, handleNew fd = some r ∧ drain junk f r = some out ∧
      ((FirstFails fd.answers ∧ out = ([], true)) ∨
        (¬FirstFails fd.answers ∧ out = cutFile f 0 fd.rest) ∨
        (¬FirstFails fd.answers ∧ out.2 = false ∧ out.1 <+: (cutFile f 0 fd.rest).1 ∧
          .error ∈ fd.answers)) := by
  obtain ⟨r, hnew, hsuffix, ⟨hready, hnot⟩ | ⟨hdone, hfailed, hend⟩⟩ := handleNew_spec fd
  · obtain ⟨out, hdrain, hout⟩ := hready.drain hsmall
    refine ⟨r, out, hnew, hdrain, .inr ?_⟩
    rcases hout with hout | ⟨hstop, hfront, herror⟩
    · exact .inl ⟨hnot, hout⟩
    · exact .inr ⟨hnot, hstop, hfront, hsuffix.subset herror⟩
  · have hread : handleRead junk r = some (.eof, r) := by
      rw [handleRead_of_done hdone, hfailed]
      rfl
    refine ⟨r, _, hnew, drain_of_eof hread, ?_⟩
    by_cases hfirst : FirstFails fd.answers
    · exact .inl ⟨hfirst, rfl⟩
    · obtain hrest := hend.resolve_right hfirst
      rw [hrest, cutFile_of_eof rfl]
      exact .inr (.inl ⟨hfirst, rfl⟩)

/-- A file of complete documents of at most a gibibyte each. -/
lemma smallHeaders_encodeRoots {roots : List Root}
    (h : ∀ root ∈ roots, root.document.encode.length ≤ 2 ^ 30) :
    SmallHeaders (encodeRoots roots) := by
  intro last hlast
  induction roots with
  | nil =>
      cases hlast with
      | here => decide
      | behind hread => cases hread
  | cons root roots ih =>
      have hread := bsonReaderRead_root root (encodeRoots roots)
      have hfile : encodeRoots (root :: roots) = root.document.encode ++ encodeRoots roots :=
        List.flatMap_cons
      rw [hfile] at hlast
      cases hlast with
      | here =>
          have hle := h root List.mem_cons_self
          rw [(fileHeader_of_document hread).1]
          omega
      | behind hread' hrest =>
          cases hread.symm.trans hread'
          exact ih (fun other hother => h other (List.mem_cons_of_mem _ hother)) hrest

/-- `main` of `print-invalid-arrays`, on an open file. -/
def mainStream (junk : ℕ → UInt8) (fd : Fd) : Option (List Line × Bool) :=
  (handleNew fd).bind (drain junk fun bson _ => (visit freshState (bsonIterInit bson)).1)

lemma cutFile_visit (p : ℕ) (file : List UInt8) :
    cutFile (fun bson _ => (visit freshState (bsonIterInit bson)).1) p file = mainLoop file := by
  induction file using file_induction generalizing p with
  | eof file h => rw [cutFile_of_eof h, mainLoop_of_eof h]
  | failed file h => rw [cutFile_of_failed h, mainLoop_of_failed h]
  | document file bson rest h ih => rw [cutFile_of_document h, mainLoop_of_document h, ih]

/-- **The buffer does not matter.**  However many bytes the calls of `read` give, and whatever is
in the cells of the buffer that were never written, the tool prints what it prints for the file as
a whole, and ends with the same exit status. -/
theorem mainStream_eq (junk : ℕ → UInt8) (fd : Fd) (hsmall : SmallHeaders fd.rest)
    (hreads : .error ∉ fd.answers) : mainStream junk fd = some (mainLoop fd.rest) := by
  obtain ⟨r, out, hnew, hdrain, ⟨hfirst, -⟩ | ⟨-, rfl⟩ | ⟨-, -, -, herror⟩⟩ :=
    drain_handleNew junk (fun bson _ => (visit freshState (bsonIterInit bson)).1) fd hsmall
  · exact absurd hfirst.error_mem hreads
  · rw [mainStream, hnew, Option.bind_some, hdrain, cutFile_visit]
  · exact absurd herror hreads

/-- A document in reads of one and two bytes, one of them to be made again. -/
theorem mainStream_eq_bytewise :
    mainStream (fun _ => 255) ⟨[5, 0, 0, 0, 0], [.bytes 0, .again, .bytes 1, .bytes 0]⟩ =
      some (mainLoop [5, 0, 0, 0, 0]) := by
  have hsmall : SmallHeaders (encodeRoots [⟨.nil, by decide⟩]) := by
    refine smallHeaders_encodeRoots fun root hroot => ?_
    rw [List.mem_singleton.mp hroot]
    decide
  exact mainStream_eq (fun _ => 255) ⟨[5, 0, 0, 0, 0], [.bytes 0, .again, .bytes 1, .bytes 0]⟩
    hsmall (by decide)

/-! ## The reader over bytes in memory -/

/-- `bson_reader_data_t`. -/
structure DataReader where
  data : List UInt8
  offset : ℕ

/-- `_bson_reader_data_read`. -/
def dataRead (r : DataReader) : Option (Outcome × DataReader) :=
  if r.offset + 4 < r.data.length then
    (Block.read r.data r.offset 4).bind fun front =>
      let blen := Int.bmod (ofLE front) (2 ^ 32)
      if blen < 5 then some (.failed, r)
      else if blen > Int.bmod (r.data.length - r.offset : ℕ) (2 ^ 32) then some (.failed, r)
      else
        (Block.read r.data r.offset blen.toNat).map fun bson =>
          if bsonInitStatic bson then
            (.document bson, { r with offset := r.offset + blen.toNat })
          else (.failed, r)
  else some (if r.offset = r.data.length then .eof else .failed, r)

/-- `_bson_reader_data_tell`. -/
def dataTell (r : DataReader) : ℤ := r.offset

lemma dataRead_document {r r' : DataReader} {bson : List UInt8}
    (h : dataRead r = some (.document bson, r')) :
    r'.data.length - r'.offset < r.data.length - r.offset := by
  rw [dataRead] at h
  by_cases hroom : r.offset + 4 < r.data.length
  · rw [if_pos hroom] at h
    obtain ⟨front, -, h⟩ := Option.bind_eq_some_iff.mp h
    generalize Int.bmod (ofLE front) (2 ^ 32) = blen at h
    simp only at h
    by_cases hlow : blen < 5
    · rw [if_pos hlow] at h
      cases h
    rw [if_neg hlow] at h
    by_cases hlong : blen > Int.bmod (r.data.length - r.offset : ℕ) (2 ^ 32)
    · rw [if_pos hlong] at h
      cases h
    rw [if_neg hlong] at h
    obtain ⟨bson', -, hr⟩ := Option.map_eq_some_iff.mp h
    split_ifs at hr
    · cases hr
      simp only
      omega
    · cases hr
  · rw [if_neg hroom] at h
    split_ifs at h
    · cases h
    · cases h

/-- The caller's loop, with the reader over bytes. -/
def drainData {β : Type} (f : List UInt8 → ℤ → List β) (r : DataReader) :
    Option (List β × Bool) :=
  match _h : dataRead r with
  | none => none
  | some (.eof, _) => some ([], true)
  | some (.failed, _) => some ([], false)
  | some (.document bson, r') =>
      (drainData f r').map fun others => (f bson (dataTell r') ++ others.1, others.2)
termination_by r.data.length - r.offset
decreasing_by exact dataRead_document _h

section Memory

variable {β : Type} {f : List UInt8 → ℤ → List β} {r r' : DataReader} {bson rest : List UInt8}

lemma drainData_of_eof (h : dataRead r = some (.eof, r')) : drainData f r = some ([], true) := by
  rw [drainData]
  split
  · next hread => cases h.symm.trans hread
  · rfl
  · next hread => cases h.symm.trans hread
  · next hread => cases h.symm.trans hread

lemma drainData_of_failed (h : dataRead r = some (.failed, r')) :
    drainData f r = some ([], false) := by
  rw [drainData]
  split
  · next hread => cases h.symm.trans hread
  · next hread => cases h.symm.trans hread
  · rfl
  · next hread => cases h.symm.trans hread

lemma drainData_of_document (h : dataRead r = some (.document bson, r')) :
    drainData f r =
      (drainData f r').map fun others => (f bson (dataTell r') ++ others.1, others.2) := by
  rw [drainData]
  split
  · next hread => cases h.symm.trans hread
  · next hread => cases h.symm.trans hread
  · next hread => cases h.symm.trans hread
  · next hread =>
    cases h.symm.trans hread
    rfl

variable (hoffset : r.offset ≤ r.data.length) (hlen : r.data.length < 2 ^ 31)

include hlen

/-- A document is delivered from memory as from a file. -/
lemma dataRead_of_document (h : bsonReaderRead (r.data.drop r.offset) = .document bson rest) :
    dataRead r = some (.document bson, ⟨r.data, r.offset + bson.length⟩) := by
  obtain ⟨hheader, happend⟩ := fileHeader_of_document h
  have hdrop : (r.data.drop r.offset).length = r.data.length - r.offset := List.length_drop
  have hlength := congrArg List.length happend
  rw [hdrop, List.length_append] at hlength
  rw [bsonReaderRead] at h
  by_cases hshort : (r.data.drop r.offset).length < 4
  · rw [if_pos hshort] at h
    cases h
  rw [if_neg hshort, ← fileHeader_eq, hheader] at h
  simp only [Int.toNat_natCast] at h
  split_ifs at h with hlow hlong hstatic
  have hbson : (r.data.drop r.offset).take bson.length = bson := by
    rw [happend, List.take_left]
  rw [hbson] at hstatic
  have hread : ∀ n ≤ bson.length, Block.read r.data r.offset n =
      some ((r.data.drop r.offset).take n) := fun n hn => if_pos (by omega)
  rw [dataRead, if_pos (by omega), hread 4 (by omega), Option.bind_some, ← fileHeader_eq, hheader]
  simp only [Int.toNat_natCast]
  rw [if_neg hlow, bmod_eq_self (by omega), if_neg (by omega), hread _ le_rfl, Option.map_some,
    hbson, if_pos hstatic]

include hoffset

/-- Where no document is delivered from a file, it is the end if no byte is left. -/
lemma dataRead_of_stop
    (h : ∀ bson rest, bsonReaderRead (r.data.drop r.offset) ≠ .document bson rest) :
    dataRead r = some (if r.data.drop r.offset = [] then .eof else .failed, r) := by
  have hdrop : (r.data.drop r.offset).length = r.data.length - r.offset := List.length_drop
  have hend : r.data.drop r.offset = [] ↔ r.offset = r.data.length := by
    rw [List.drop_eq_nil_iff]
    omega
  rw [dataRead]
  by_cases hroom : r.offset + 4 < r.data.length
  · have hmore : ¬r.data.drop r.offset = [] := by
      rw [hend]
      omega
    have hread : Block.read r.data r.offset 4 = some ((r.data.drop r.offset).take 4) :=
      if_pos (by omega)
    rw [if_pos hroom, if_neg hmore, hread, Option.bind_some, ← fileHeader_eq,
      bmod_eq_self (by omega)]
    rw [bsonReaderRead, if_neg (by omega), ← fileHeader_eq] at h
    generalize fileHeader (r.data.drop r.offset) = blen at h
    simp only at h ⊢
    by_cases hlow : blen < 5
    · rw [if_pos hlow]
    rw [if_neg hlow] at h ⊢
    by_cases hlong : blen > (r.data.length - r.offset : ℕ)
    · rw [if_pos hlong]
    have hbson : Block.read r.data r.offset blen.toNat =
        some ((r.data.drop r.offset).take blen.toNat) := if_pos (by omega)
    rw [if_neg hlong, hbson, Option.map_some]
    rw [if_neg (by omega)] at h
    split_ifs at h with hstatic
    · exact absurd rfl (h _ _)
    · rw [if_neg hstatic]
  · rw [if_neg hroom]
    simp only [hend]

/-- The run from a position on. -/
lemma drainData_from (q : ℕ) :
    drainData f r = some ((cutFile f r.offset (r.data.drop r.offset)).1,
      decide (r.data.drop r.offset =
        (cutFile (fun bson _ => [bson]) q (r.data.drop r.offset)).1.flatten)) := by
  generalize hfile : r.data.drop r.offset = file
  induction file using file_induction generalizing r q with
  | eof file h =>
      have hstop := dataRead_of_stop hoffset hlen fun bson rest hread => by
        rw [hfile, h] at hread
        cases hread
      rw [hfile] at hstop
      rw [cutFile_of_eof h, cutFile_of_eof h, List.flatten_nil]
      split_ifs at hstop with hnil
      · rw [drainData_of_eof hstop, decide_eq_true hnil]
      · rw [drainData_of_failed hstop, decide_eq_false hnil]
  | failed file h =>
      have hstop := dataRead_of_stop hoffset hlen fun bson rest hread => by
        rw [hfile, h] at hread
        cases hread
      rw [hfile] at hstop
      rw [cutFile_of_failed h, cutFile_of_failed h, List.flatten_nil]
      split_ifs at hstop with hnil
      · rw [drainData_of_eof hstop, decide_eq_true hnil]
      · rw [drainData_of_failed hstop, decide_eq_false hnil]
  | document file bson rest h ih =>
      have happend := (fileHeader_of_document h).2
      have hread := dataRead_of_document hlen (hfile ▸ h)
      have hlength := congrArg List.length happend
      rw [← hfile, List.length_drop, List.length_append] at hlength
      have hrest : r.data.drop (r.offset + bson.length) = rest := by
        rw [← List.drop_drop, hfile, happend, List.drop_left]
      have htail := ih (r := ⟨r.data, r.offset + bson.length⟩) (by simp only; omega) hlen
        (q + bson.length) hrest
      rw [drainData_of_document hread, htail, cutFile_of_document h, cutFile_of_document h]
      simp only [dataTell, Option.map_some, List.singleton_append, List.flatten_cons]
      congr 3
      rw [happend, List.append_cancel_left_eq]

end Memory

end CBootstrap.Bson
