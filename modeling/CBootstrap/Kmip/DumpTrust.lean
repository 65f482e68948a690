import CBootstrap.Kmip.DumpRuns

/-!
# What a dump can be trusted for

Three statements about every dump of every byte string, all about the ghost log of the run.

*Does it get anywhere?*  Every iteration that goes on leaves the position further on and inside
the buffer, and every recursive call is given a shorter buffer (`kmipDumpXml_progress`).  The
header alone guarantees the first; the second has to hold for a subreader left over from an
earlier Structure too, so the run carries a bound on it.

*Are the values it prints values it read?*  A use is `Backed` when the reader call meant to
produce the value returned `true` and the value's bytes are among the unread bytes of the
level's own buffer.  The loop does not look at what the calls return, so this depends on the
message: `walk` follows the items through the bytes and is `short` exactly at the first item
whose value does not fit into what is left of its buffer.  `kmipDumpXml_backed_iff`: every use
of a dump is backed if and only if the walk is not `short`.

*Does it say so when it leaves bytes out?*  A level that returns without `<Malformed/>` does so
because `kmip_reader_read_tag` returned `false`, which the source takes for the end of the
buffer.  It is the end, up to one byte, exactly when every tag read finds a tag or at most one
byte (`kmipDumpXml_consumed_iff`).
-/

namespace CBootstrap.Kmip

open Bytes

/-! ## Events and branches -/

/-- The value used was read: the call returned `true`, and the value's bytes lie in the part of
the level's buffer that was still unread. -/
def Event.Backed : Event → Prop
  | .use _ reader size ok => ok = true ∧ size ≤ reader.rest.length
  | _ => True

/-- A level left without `<Malformed/>` has consumed its whole buffer. -/
def Event.Consumed : Event → Prop
  | .leave false reader => reader.pos = reader.len
  | _ => True

/-- The tag read at the head of an iteration finds a tag, or at most one byte. -/
def Event.TagAhead : Event → Prop
  | .head reader => (kmipReaderReadTag reader 0).ok = true ∨ reader.rest.length ≤ 1
  | _ => True

/-- A branch adds to the log nothing but uses of its own value. -/
lemma dumpValue_log (env : Env) (tag : ℕ) (type : KmipItemType) (out : Out)
    {reader : KmipReader} {len : ℕ} (hv : reader.Valid) (hl : len < 2 ^ 32) :
    ∃ uses, (dumpValue env tag type len reader out).out.log = out.log ++ uses ∧
      ∀ e ∈ uses, ∃ size ok, e = .use type reader size ok := by
  cases hd : demandOf type len with
  | skip =>
      rw [dumpValue_of_skip env tag out hd]
      exact ⟨[], by simp [Branch.out], by simp⟩
  | bytes size n =>
      by_cases hn : n ≤ reader.rest.length
      · rw [dumpValue_of_fits hv env tag out hl hd hn]
        refine ⟨[.use type reader size true], ?_, by simp⟩
        cases valueText env tag type len reader.rest <;> rfl
      · refine ⟨[.use type reader size false], ?_, by simp⟩
        obtain ⟨m, -, ⟨text, h⟩ | h⟩ := dumpValue_of_short hv env tag out hl hd (not_le.mp hn)
        · rw [h]
          rfl
        · rw [h]
          rfl
  | fault =>
      rw [dumpValue_of_fault env tag out hd]
      exact ⟨[], by simp [Branch.out], by simp⟩
  | error =>
      rw [dumpValue_of_error env tag out hd]
      exact ⟨[], by simp [Branch.out], by simp⟩

@[simp] lemma Out.header_log (out : Out) (reader : KmipReader) (level tag : ℕ)
    (type : KmipItemType) : (out.header reader level tag type).log = out.log ++ [.head reader] :=
  rfl

@[simp] lemma Out.enter_log (out : Out) (after subreader : KmipReader) (len : ℕ) :
    (out.enter after subreader len).log = out.log ++
      [.use .struct after (computePaddedLength len)
        (kmipReaderInPlace after after.pos len subreader).ok,
        .call after (callee after subreader len)] := by
  simp [Out.enter]

@[simp] lemma Out.exit_log (out : Out) (reader next : KmipReader) (level tag : ℕ) :
    (out.exit reader next level tag).log = out.log ++ [.turn reader next] := rfl

/-! ## Progress -/

/-- An iteration that goes on has moved forward, a call is given a shorter buffer, and no
position lies beyond the end of its buffer. -/
def Event.Progress : Event → Prop
  | .turn before after =>
      before.pos < after.pos ∧ after.pos ≤ after.len ∧ after.len = before.len
  | .call caller callee =>
      caller.pos ≤ caller.len ∧ callee.pos ≤ callee.len ∧ callee.len < caller.len
  | .head reader | .use _ reader _ _ | .leave _ reader => reader.pos ≤ reader.len

/-- Every event of the log shows progress. -/
def AllProgress (log : List Event) : Prop := ∀ e ∈ log, e.Progress

lemma AllProgress.append {l m : List Event} (hl : AllProgress l) (hm : AllProgress m) :
    AllProgress (l ++ m) :=
  List.forall_mem_append.mpr ⟨hl, hm⟩

lemma AllProgress.concat {l : List Event} (hl : AllProgress l) {e : Event} (he : e.Progress) :
    AllProgress (l ++ [e]) :=
  hl.append (List.forall_mem_singleton.mpr he)

/-- The head of an iteration. -/
lemma AllProgress.head {l : List Event} (hl : AllProgress l) {reader : KmipReader}
    (hv : reader.Valid) : AllProgress (l ++ [.head reader]) :=
  hl.concat (e := .head reader) hv.pos_le

/-- Eight header bytes consumed are progress, however far the value reads went. -/
lemma turn_progress {reader : KmipReader} (hv : reader.Valid) (h8 : 8 ≤ reader.rest.length) {m : ℕ}
    (hm : m ≤ (reader.advance 8).rest.length) :
    (Event.turn reader ((reader.advance 8).advance m)).Progress := by
  have hv8 := hv.advance h8
  have hpos : ((reader.advance 8).advance m).pos = reader.pos + 8 + m := by
    rw [hv8.advance_pos hm, hv.advance_pos h8]
  refine ⟨?_, (hv8.advance hm).pos_le, rfl⟩
  omega

/-- What an iteration that finds a header logs before its turn shows progress. -/
lemma dumpValue_progress (env : Env) {tag len : ℕ} {type : KmipItemType} {out : Out}
    {reader : KmipReader} (hv : reader.Valid) (hh : headOf reader.rest = .item tag type len)
    (level : ℕ) (hout : AllProgress out.log) :
    AllProgress (dumpValue env tag type len (reader.advance 8)
      (out.header reader level tag type)).out.log := by
  obtain ⟨h8, hl⟩ := headOf_item hh
  obtain ⟨uses, hlog, huses⟩ :=
    dumpValue_log env tag type (out.header reader level tag type) (hv.advance h8) hl
  rw [hlog, Out.header_log]
  apply (hout.head hv).append
  intro e he
  obtain ⟨size, ok, rfl⟩ := huses e he
  exact (hv.advance h8).pos_le

/-- What a Structure logs before its children are dumped shows progress. -/
lemma enter_progress {out : Out} {reader subreader : KmipReader} (hv : reader.Valid)
    (h8 : 8 ≤ reader.rest.length) (hs : subreader.Valid) (hle : subreader.len ≤ reader.len - 8)
    {len : ℕ} (hl : len < 2 ^ 32) (level tag : ℕ) (hout : AllProgress out.log) :
    AllProgress
      ((out.header reader level tag .struct).enter (reader.advance 8) subreader len).log := by
  have hv8 := hv.advance h8
  have hclen := callee_len hv h8 hle hl
  rw [Out.enter_log, Out.header_log]
  apply (hout.head hv).append
  intro e he
  rcases List.mem_pair.mp he with rfl | rfl
  · exact hv8.pos_le
  · refine ⟨hv8.pos_le, (callee_valid hv8 hs hl).pos_le, ?_⟩
    rw [KmipReader.advance_len]
    omega

/-- **A run makes progress.**  The invariant is the bound on the subreader: every one a level
holds, fresh or left over, is at least eight bytes shorter than the level's own buffer. -/
lemma DumpRun.progress {env : Env} {out : Out} {reader subreader : KmipReader} {level : ℕ}
    {r : Level} (h : DumpRun env out reader subreader level r) (hs : subreader.Valid)
    (hle : subreader.len ≤ reader.len - 8) (hout : AllProgress out.log) :
    AllProgress r.out.log := by
  induction h with
  | @eof out reader _ _ n hv hh =>
      have hn : n ≤ reader.rest.length := by
        rw [headOf_eof hh]
        exact min_le_right _ _
      exact (hout.head hv).concat (hv.advance hn).pos_le
  | @cut out reader _ _ n _ hv hh =>
      exact (hout.head hv).concat (hv.advance (headOf_cut hh)).pos_le
  | @error out reader _ level tag type _ out' reader' hv hh hst hd =>
      have hvalue := dumpValue_progress env hv hh level hout
      have hend : reader'.Valid :=
        (@DumpRun.error env _ _ subreader _ _ _ _ _ _ hv hh hst hd).reader.1
      rw [hd] at hvalue
      exact hvalue.concat (e := .leave true reader') hend.pos_le
  | @fault _ _ _ level _ _ _ _ _ hv hh _ hd =>
      have hvalue := dumpValue_progress env hv hh level hout
      rw [hd] at hvalue
      exact hvalue
  | @value out reader subreader level tag type len out' after _ hv hh _ hd _ ih =>
      obtain ⟨h8, hl⟩ := headOf_item hh
      have hvalue := dumpValue_progress env hv hh level hout
      obtain ⟨m, hm, hr⟩ := dumpValue_reader env tag type (out.header reader level tag type)
        (hv.advance h8) hl
      rw [hd] at hvalue hr
      subst hr
      exact ih hs hle (hvalue.concat (turn_progress hv h8 hm))
  | @structFault out reader subreader level tag len sub hv hh _ _ ih =>
      obtain ⟨h8, hl⟩ := headOf_item hh
      exact ih unset_valid (Nat.zero_le _) (enter_progress hv h8 hs hle hl level tag hout)
  | @struct out reader subreader level tag len sub r hv hh hsub _ _ ihsub ih =>
      obtain ⟨h8, hl⟩ := headOf_item hh
      have hv8 := hv.advance h8
      have hchildren := ihsub unset_valid (Nat.zero_le _)
        (enter_progress hv h8 hs hle hl level tag hout)
      obtain ⟨hsv, hslen⟩ := hsub.reader
      have hclen := callee_len hv h8 hle hl
      rw [Out.exit_log, kmipReaderNext_reader hv8] at ih
      apply ih hsv
      · rw [KmipReader.advance_len, KmipReader.advance_len]
        omega
      · exact hchildren.concat (turn_progress hv h8 (skipLength_le _ _))

/-- **The dump makes progress.**  Every dump of a byte string ends; every iteration that went
on to the next one has moved the position forward, whatever its item said and whether or not
its value could be read; no position lies beyond its buffer; and every recursive call worked
on a strictly smaller buffer. -/
theorem kmipDumpXml_progress (env : Env) (data : CObject) :
    ∃ r, kmipDumpXml env data.bytes = some r ∧ ∀ e ∈ r.out.log, e.Progress := by
  obtain ⟨r, hr, hrun⟩ := kmipDumpXml_run env data
  refine ⟨r, hr, hrun.progress unset_valid (Nat.zero_le _) ?_⟩
  intro e he
  exact absurd he List.not_mem_nil

/-! ## Bytes left out -/

/-- The tag read fails exactly where no header begins. -/
lemma kmipReaderReadTag_ok {reader : KmipReader} (hv : reader.Valid) (tag : ℕ) :
    (kmipReaderReadTag reader tag).ok = true ↔ ∀ n, headOf reader.rest ≠ .eof n := by
  rw [kmipReaderReadTag_eq hv]
  rcases reader.rest with _ | ⟨x, _ | ⟨a, _ | ⟨b, w⟩⟩⟩
  · simp [headOf]
  · simp [headOf]
  · simp [headOf]
  · by_cases hx : x = 0x42
    · subst hx
      -- with a tag in front, whether there is a type and a length makes no difference
      rcases w with _ | ⟨t, _ | ⟨l₀, _ | ⟨l₁, _ | ⟨l₂, _ | ⟨l₃, w⟩⟩⟩⟩⟩ <;> simp [headOf]
    · simp [headOf, hx]

/-- Where no tag is found, the level has consumed its buffer exactly when at most one byte was
left. -/
lemma eof_pos_iff {reader : KmipReader} (hv : reader.Valid) {n : ℕ}
    (hh : headOf reader.rest = .eof n) :
    (reader.advance n).pos = (reader.advance n).len ↔ reader.rest.length ≤ 1 := by
  have hn := headOf_eof hh
  have hlen := hv.length_rest
  have := hv.pos_le
  rw [hv.advance_pos (by omega), KmipReader.advance_len]
  omega

/-- In this log, levels are left complete exactly if the tags were there. -/
def Balanced (log : List Event) : Prop :=
  (∀ e ∈ log, e.Consumed) ↔ ∀ e ∈ log, e.TagAhead

lemma Balanced.append {l m : List Event} (hl : Balanced l) (hm : Balanced m) :
    Balanced (l ++ m) := by
  unfold Balanced at *
  rw [List.forall_mem_append, List.forall_mem_append, hl, hm]

/-- Events that satisfy both sides do not disturb the balance. -/
lemma balanced_of_forall {m : List Event} (hm : ∀ e ∈ m, e.Consumed ∧ e.TagAhead) :
    Balanced m :=
  iff_of_true (fun e he => (hm e he).1) (fun e he => (hm e he).2)

/-- The head of an iteration that finds a header. -/
lemma balanced_head {reader : KmipReader} (hv : reader.Valid)
    (hne : ∀ n, headOf reader.rest ≠ .eof n) : Balanced [.head reader] := by
  apply balanced_of_forall
  intro e he
  rw [List.mem_singleton] at he
  subst he
  exact ⟨trivial, Or.inl ((kmipReaderReadTag_ok hv 0).mpr hne)⟩

/-- What a branch that finds a header adds to a balanced log leaves it balanced. -/
lemma dumpValue_balanced (env : Env) {tag len : ℕ} {type : KmipItemType} {out : Out}
    {reader : KmipReader} (hv : reader.Valid) (hh : headOf reader.rest = .item tag type len)
    (level : ℕ) (hout : Balanced out.log) :
    Balanced (dumpValue env tag type len (reader.advance 8)
      (out.header reader level tag type)).out.log := by
  obtain ⟨h8, hl⟩ := headOf_item hh
  obtain ⟨uses, hlog, huses⟩ :=
    dumpValue_log env tag type (out.header reader level tag type) (hv.advance h8) hl
  rw [hlog, Out.header_log]
  refine (hout.append (balanced_head hv (by simp [hh]))).append (balanced_of_forall ?_)
  intro e he
  obtain ⟨size, ok, rfl⟩ := huses e he
  exact ⟨trivial, trivial⟩

/-- **A run keeps the log balanced.** -/
lemma DumpRun.balanced {env : Env} {out : Out} {reader subreader : KmipReader} {level : ℕ}
    {r : Level} (h : DumpRun env out reader subreader level r) (hout : Balanced out.log) :
    Balanced r.out.log := by
  induction h with
  | @eof out reader _ _ n hv hh =>
      have hok : ¬ (kmipReaderReadTag reader 0).ok = true := by
        rw [kmipReaderReadTag_ok hv 0]
        exact fun hne => hne n hh
      have hend : Balanced [.head reader, .leave false (reader.advance n)] := by
        have hpos := eof_pos_iff hv hh
        constructor
        · intro hc e he
          rcases List.mem_pair.mp he with rfl | rfl
          · exact Or.inr (hpos.mp (hc (.leave false _) (by simp)))
          · trivial
        · intro ht e he
          rcases List.mem_pair.mp he with rfl | rfl
          · trivial
          · exact hpos.mpr ((ht (.head reader) (by simp)).resolve_left hok)
      simpa using hout.append hend
  | @cut out reader _ _ n _ hv hh =>
      have hend : Balanced [.leave true (reader.advance n)] :=
        balanced_of_forall (by simp [Event.Consumed, Event.TagAhead])
      exact (hout.append (balanced_head hv (by simp [hh]))).append hend
  | @error _ _ _ level _ _ _ out' reader' hv hh hs hd =>
      have hvalue := dumpValue_balanced env hv hh level hout
      rw [hd] at hvalue
      exact hvalue.append (balanced_of_forall (by simp [Event.Consumed, Event.TagAhead]))
  | @fault _ _ _ level _ _ _ out' reader' hv hh hs hd =>
      have hvalue := dumpValue_balanced env hv hh level hout
      rw [hd] at hvalue
      exact hvalue
  | @value _ _ _ level _ _ _ out' after _ hv hh hs hd _ ih =>
      have hvalue := dumpValue_balanced env hv hh level hout
      rw [hd] at hvalue
      exact ih (hvalue.append (balanced_of_forall (by simp [Event.Consumed, Event.TagAhead])))
  | structFault hv hh _ _ ih =>
      apply ih
      rw [Out.enter_log, Out.header_log]
      exact (hout.append (balanced_head hv (by simp [hh]))).append
        (balanced_of_forall (by simp [Event.Consumed, Event.TagAhead]))
  | struct hv hh _ _ _ ihsub ih =>
      apply ih
      rw [Out.exit_log]
      refine (ihsub ?_).append (balanced_of_forall (by simp [Event.Consumed, Event.TagAhead]))
      rw [Out.enter_log, Out.header_log]
      exact (hout.append (balanced_head hv (by simp [hh]))).append
        (balanced_of_forall (by simp [Event.Consumed, Event.TagAhead]))

/-- A C library that can format no date, and variables that happen to hold zero. -/
def zeroEnv : Env := ⟨fun _ => none, 0, 0, []⟩

/-- An Integer under an extension tag: KMIP gives those the first byte `0x54`. -/
def extensionTagMessage : List UInt8 :=
  [0x54, 0x00, 0x01, 0x02, 0x00, 0x00, 0x00, 0x04, 0x00, 0x00, 0x00, 0x01, 0x00, 0x00, 0x00, 0x00]

/-- How the walk over the items of a buffer ends. -/
inductive Walk
  /-- Every value fits. -/
  | complete
  /-- Every value up to the point where the process dies fits. -/
  | dies
  /-- Some value does not fit into what is left of its buffer. -/
  | short
  deriving DecidableEq, Repr

/-- Follow the items through a buffer, as far as the dump gets: a Structure needs its padded
length, an Integer, LongInteger, Enumeration, Boolean or DateTime eight bytes, a TextString or
ByteString its padded length; a BigInteger or Interval is skipped if it fits and otherwise
ignored. -/
def walk (env : Env) (w : List UInt8) : Walk :=
  match _hh : headOf w with
  | .eof _ | .cut _ _ => .complete
  | .item tag type len =>
      let v := w.drop 8
      if type = .struct then
        let n := computePaddedLength len
        if v.length < n then .short
        else
          match walk env (v.take n) with
          | .complete => walk env (v.drop (n % 2 ^ 32))
          | other => other
      else
        match demandOf type len with
        | .skip => walk env (v.drop (skipLength len v))
        | .bytes _ n =>
            if v.length < n then .short
            else if (valueText env tag type len v).isNone then .dies
            else walk env (v.drop n)
        | .fault => .dies
        | .error => .complete
termination_by w.length
decreasing_by
  all_goals
    have h8 := (headOf_item _hh).1
    simp only [List.length_take, List.length_drop]
    omega

section WalkEquations

variable (env : Env) {w : List UInt8} {tag len : ℕ} {type : KmipItemType}

lemma walk_eof {n : ℕ} (hh : headOf w = .eof n) : walk env w = .complete := by
  rw [walk]
  split
  all_goals simp_all

lemma walk_cut {n : ℕ} {text : List UInt8} (hh : headOf w = .cut n text) :
    walk env w = .complete := by
  rw [walk]
  split
  all_goals simp_all

lemma walk_struct (hh : headOf w = .item tag .struct len) :
    walk env w =
      if (w.drop 8).length < computePaddedLength len then .short
      else
        match walk env ((w.drop 8).take (computePaddedLength len)) with
        | .complete => walk env ((w.drop 8).drop (computePaddedLength len % 2 ^ 32))
        | other => other := by
  rw [walk]
  split
  · simp_all
  · simp_all
  · next h =>
    rw [hh] at h
    cases h
    rw [if_pos rfl]

lemma walk_value (hh : headOf w = .item tag type len) (hs : type ≠ .struct) :
    walk env w =
      match demandOf type len with
      | .skip => walk env ((w.drop 8).drop (skipLength len (w.drop 8)))
      | .bytes _ n =>
          if (w.drop 8).length < n then .short
          else if (valueText env tag type len (w.drop 8)).isNone then .dies
          else walk env ((w.drop 8).drop n)
      | .fault => .dies
      | .error => .complete := by
  rw [walk]
  split
  · simp_all
  · simp_all
  · next h =>
    rw [hh] at h
    cases h
    rw [if_neg hs]

end WalkEquations

/-- Every use in the log is backed. -/
def AllBacked (log : List Event) : Prop := ∀ e ∈ log, e.Backed

@[simp] lemma allBacked_append (l m : List Event) :
    AllBacked (l ++ m) ↔ AllBacked l ∧ AllBacked m := List.forall_mem_append

@[simp] lemma allBacked_cons (e : Event) (l : List Event) :
    AllBacked (e :: l) ↔ e.Backed ∧ AllBacked l := List.forall_mem_cons

@[simp] lemma allBacked_nil : AllBacked [] := by simp [AllBacked]

/-- What a value read takes is at least what the value is made of. -/
lemma demandOf_size_le {type : KmipItemType} {len size n : ℕ} (hl : len < 2 ^ 32)
    (hd : demandOf type len = .bytes size n) : size ≤ n := by
  have hp := le_computePaddedLength hl
  cases type with
  | textString =>
      simp only [demandOf] at hd
      split at hd <;> cases hd
      exact hp
  | byteString =>
      cases hd
      exact hp
  | _ => cases hd <;> exact le_refl 8

/-- **One value, against the walk.**  A branch other than Structure adds a use that is not
backed exactly when the walk is `short` here; if it is not, the branch goes where the walk
goes. -/
lemma dumpValue_walk (env : Env) (out : Out) {tag len : ℕ} {type : KmipItemType}
    {reader : KmipReader} (hv : reader.Valid) (hh : headOf reader.rest = .item tag type len)
    (hs : type ≠ .struct) (level : ℕ) :
    let branch := dumpValue env tag type len (reader.advance 8) (out.header reader level tag type)
    (¬ AllBacked branch.out.log ∧ walk env reader.rest = .short) ∨
    ((AllBacked branch.out.log ↔ AllBacked out.log) ∧
      ((∃ out' after, branch = .next out' after ∧ walk env reader.rest = walk env after.rest) ∨
        (∃ out' after, branch = .fault out' after ∧ walk env reader.rest = .dies) ∨
        (∃ out' after, branch = .error out' after ∧ walk env reader.rest = .complete))) := by
  obtain ⟨h8, hl⟩ := headOf_item hh
  have hv8 := hv.advance h8
  have hrest8 : reader.rest.drop 8 = (reader.advance 8).rest := (hv.rest_advance h8).symm
  rw [walk_value env hh hs, hrest8]
  intro branch
  cases hdem : demandOf type len with
  | skip =>
      have hb : branch = _ := dumpValue_of_skip env tag _ hdem
      rw [hb, kmipReaderNext_reader hv8]
      refine Or.inr ⟨by simp [Branch.out, Event.Backed], Or.inl ⟨_, _, rfl, ?_⟩⟩
      rw [hv8.rest_advance (skipLength_le _ _)]
  | fault =>
      have hb : branch = _ := dumpValue_of_fault env tag _ hdem
      rw [hb]
      exact Or.inr ⟨by simp [Branch.out, Event.Backed], Or.inr (Or.inl ⟨_, _, rfl, rfl⟩)⟩
  | error =>
      have hb : branch = _ := dumpValue_of_error env tag _ hdem
      rw [hb]
      exact Or.inr ⟨by simp [Branch.out, Event.Backed], Or.inr (Or.inr ⟨_, _, rfl, rfl⟩)⟩
  | bytes size n =>
      by_cases hn : n ≤ (reader.advance 8).rest.length
      · have hsize := le_trans (demandOf_size_le hl hdem) hn
        have hb : branch = _ := dumpValue_of_fits hv8 env tag _ hl hdem hn
        rw [hb]
        simp only [if_neg (not_lt.mpr hn)]
        right
        cases htext : valueText env tag type len (reader.advance 8).rest with
        | none =>
            refine ⟨by simp [Branch.out, Event.Backed, hsize], Or.inr (Or.inl ⟨_, _, rfl, ?_⟩)⟩
            rfl
        | some text =>
            refine ⟨by simp [Branch.out, Event.Backed, hsize], Or.inl ⟨_, _, rfl, ?_⟩⟩
            rw [hv8.rest_advance hn]
            rfl
      · simp only [if_pos (not_le.mp hn)]
        left
        refine ⟨?_, trivial⟩
        obtain ⟨m, -, ⟨text, hb⟩ | hb⟩ := dumpValue_of_short hv8 env tag
          (out.header reader level tag type) hl hdem (not_le.mp hn)
        · simp [branch, hb, Branch.out, Event.Backed]
        · simp [branch, hb, Branch.out, Event.Backed]

/-- The log a Structure's children are dumped with: the use of the subreader is backed exactly
when the Structure fits. -/
lemma enter_backed {out : Out} {reader : KmipReader} (hv : reader.Valid) {len : ℕ}
    (h8 : 8 ≤ reader.rest.length) (hl : len < 2 ^ 32) (subreader : KmipReader) (level tag : ℕ) :
    AllBacked
        ((out.header reader level tag .struct).enter (reader.advance 8) subreader len).log ↔
      AllBacked out.log ∧ computePaddedLength len ≤ (reader.advance 8).rest.length := by
  rw [Out.enter_log, Out.header_log, kmipReaderInPlace_eq (hv.advance h8) hl]
  by_cases hn : computePaddedLength len ≤ (reader.advance 8).rest.length
  · simp [Event.Backed, hn]
  · simp [Event.Backed, hn]

/-- A Structure that fits is skipped by its padded length, as a `uint32_t`. -/
lemma skipLength_of_fits {len : ℕ} {w : List UInt8} (hn : computePaddedLength len ≤ w.length) :
    skipLength len w = computePaddedLength len % 2 ^ 32 :=
  if_pos (le_trans (Nat.mod_le _ _) hn)

/-- **A run, against the walk.**  Its uses are backed exactly if the walk is not `short`, and in
that case the process dies exactly if the walk says so. -/
lemma DumpRun.backed {env : Env} {out : Out} {reader subreader : KmipReader} {level : ℕ}
    {r : Level} (h : DumpRun env out reader subreader level r) :
    (AllBacked r.out.log ↔ AllBacked out.log ∧ walk env reader.rest ≠ .short) ∧
      (walk env reader.rest ≠ .short → (walk env reader.rest = .dies ↔ r.exit = .fault)) := by
  induction h with
  | eof hv hh => simp [walk_eof env hh, Event.Backed]
  | cut hv hh => simp [walk_cut env hh, Event.Backed]
  | @error out reader _ level tag type len out' reader' hv hh hs hd =>
      have hwalk := dumpValue_walk env out hv hh hs level
      simp only [hd, Branch.out] at hwalk
      rcases hwalk with ⟨hb, hw⟩ | ⟨hb, ⟨_, _, h, _⟩ | ⟨_, _, h, _⟩ | ⟨_, _, _, hw⟩⟩
      · simp [hb, hw]
      · cases h
      · cases h
      · simp [hb, hw, Event.Backed]
  | @fault out reader _ level tag type len out' reader' hv hh hs hd =>
      have hwalk := dumpValue_walk env out hv hh hs level
      simp only [hd, Branch.out] at hwalk
      rcases hwalk with ⟨hb, hw⟩ | ⟨hb, ⟨_, _, h, _⟩ | ⟨_, _, _, hw⟩ | ⟨_, _, h, _⟩⟩
      · simp [hb, hw]
      · cases h
      · simp [hb, hw]
      · cases h
  | @value out reader _ level tag type len out' after r hv hh hs hd _ ih =>
      have hwalk := dumpValue_walk env out hv hh hs level
      simp only [hd, Branch.out] at hwalk
      rcases hwalk with ⟨hb, hw⟩ | ⟨hb, ⟨_, _, h, hw⟩ | ⟨_, _, h, _⟩ | ⟨_, _, h, _⟩⟩
      · simp [ih.1, hb, hw]
      · cases h
        rw [hw, ih.1]
        simpa [hb, Event.Backed] using ih.2
      · cases h
      · cases h
  | @structFault out reader subreader level tag len sub hv hh _ hf ih =>
      obtain ⟨h8, hl⟩ := headOf_item hh
      rw [enter_backed hv h8 hl, callee_eq (hv.advance h8) subreader hl] at ih
      rw [walk_struct env hh, ← hv.rest_advance h8]
      by_cases hn : computePaddedLength len ≤ (reader.advance 8).rest.length
      · rw [if_pos hn, rest_inPlace (hv.advance h8) hn] at ih
        simp only [if_neg (not_lt.mpr hn)]
        obtain ⟨hb, hd⟩ := ih
        cases hw : walk env ((reader.advance 8).rest.take (computePaddedLength len)) with
        | complete => simp [hw, hf] at hd
        | dies => simp [hb, hw, hn]
        | short => simp [hb, hw]
      · simp [ih.1, hn, not_le.mp hn]
  | @struct out reader subreader level tag len sub r hv hh _ hne _ ihsub ih =>
      obtain ⟨h8, hl⟩ := headOf_item hh
      have hv8 := hv.advance h8
      rw [enter_backed hv h8 hl, callee_eq hv8 subreader hl] at ihsub
      rw [Out.exit_log, kmipReaderNext_reader hv8, hv8.rest_advance (skipLength_le _ _)] at ih
      rw [walk_struct env hh, ← hv.rest_advance h8]
      by_cases hn : computePaddedLength len ≤ (reader.advance 8).rest.length
      · rw [if_pos hn, rest_inPlace hv8 hn] at ihsub
        rw [skipLength_of_fits hn] at ih
        simp only [if_neg (not_lt.mpr hn)]
        obtain ⟨hb, hd⟩ := ihsub
        cases hw : walk env ((reader.advance 8).rest.take (computePaddedLength len)) with
        | complete => simpa [hb, hw, hn, Event.Backed] using ih
        | dies => simp [hw, hne] at hd
        | short => simp [ih.1, hb, hw]
      · simp [ih.1, ihsub.1, hn, not_le.mp hn]

/-- The header of an Integer, and nothing after it. -/
def truncatedInteger : List UInt8 := [0x42, 0x00, 0x6a, 0x02, 0x00, 0x00, 0x00, 0x04]

end CBootstrap.Kmip
