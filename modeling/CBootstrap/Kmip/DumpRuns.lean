import CBootstrap.Kmip.DumpStep

/-!
# Whole dumps

`DumpRun` is the big-step relation of `kmip_dump_recursive_xml`: one constructor for each way
an iteration can go, on a valid reader.  Every terminating call is a `DumpRun`
(`kmipDumpLoop_run`), and with `dumpFuel` every call terminates (`kmipDumpLoop_isSome`), so a
statement about every dump of every byte string is an induction over `DumpRun`.

The measure behind termination is the pair (length of the buffer, unread bytes): a recursive
call works on a buffer at least eight bytes shorter, and an iteration that goes on has
consumed its eight header bytes, whatever its value reads did.
-/

namespace CBootstrap.Kmip

open Bytes

/-- A byte string a C program can hold: no object exceeds `PTRDIFF_MAX` bytes. -/
structure CObject where
  bytes : List UInt8
  size_lt : bytes.length < 2 ^ 63

/-! ## The relation -/

/-- The runs of the loop: `DumpRun env out reader subreader level r` says that, started with
that state, the loop ends and leaves `r`. -/
inductive DumpRun (env : Env) : Out → KmipReader → KmipReader → ℕ → Level → Prop
  | eof {out reader subreader level n} (hv : reader.Valid) (hh : headOf reader.rest = .eof n) :
      DumpRun env out reader subreader level
        ⟨.eof, (out.note (.head reader)).note (.leave false (reader.advance n)),
          reader.advance n⟩
  | cut {out reader subreader level n text} (hv : reader.Valid)
      (hh : headOf reader.rest = .cut n text) :
      DumpRun env out reader subreader level
        ⟨.malformed, ((((out.note (.head reader)).append (prefixLevel level)).append text).append
          (ascii "<Malformed/>")).note (.leave true (reader.advance n)), reader.advance n⟩
  | error {out reader subreader level tag type len out' reader'} (hv : reader.Valid)
      (hh : headOf reader.rest = .item tag type len) (hs : type ≠ .struct)
      (hd : dumpValue env tag type len (reader.advance 8) (out.header reader level tag type) =
        .error out' reader') :
      DumpRun env out reader subreader level
        ⟨.malformed, (out'.append (ascii "<Malformed/>")).note (.leave true reader'), reader'⟩
  | fault {out reader subreader level tag type len out' reader'} (hv : reader.Valid)
      (hh : headOf reader.rest = .item tag type len) (hs : type ≠ .struct)
      (hd : dumpValue env tag type len (reader.advance 8) (out.header reader level tag type) =
        .fault out' reader') :
      DumpRun env out reader subreader level ⟨.fault, out', reader'⟩
  | value {out reader subreader level tag type len out' after r} (hv : reader.Valid)
      (hh : headOf reader.rest = .item tag type len) (hs : type ≠ .struct)
      (hd : dumpValue env tag type len (reader.advance 8) (out.header reader level tag type) =
        .next out' after)
      (hrun : DumpRun env ((out'.append (ascii "\n")).note (.turn reader after)) after subreader
        level r) :
      DumpRun env out reader subreader level r
  | structFault {out reader subreader level tag len sub} (hv : reader.Valid)
      (hh : headOf reader.rest = .item tag .struct len)
      (hsub : DumpRun env
        ((out.header reader level tag .struct).enter (reader.advance 8) subreader len)
        (callee (reader.advance 8) subreader len) KmipReader.unset ((level + 1) % 2 ^ 32) sub)
      (hf : sub.exit = .fault) :
      DumpRun env out reader subreader level ⟨.fault, sub.out, reader.advance 8⟩
  | struct {out reader subreader level tag len sub r} (hv : reader.Valid)
      (hh : headOf reader.rest = .item tag .struct len)
      (hsub : DumpRun env
        ((out.header reader level tag .struct).enter (reader.advance 8) subreader len)
        (callee (reader.advance 8) subreader len) KmipReader.unset ((level + 1) % 2 ^ 32) sub)
      (hne : sub.exit ≠ .fault)
      (hrun : DumpRun env
        (sub.out.exit reader (kmipReaderNext (reader.advance 8) len).reader level tag)
        (kmipReaderNext (reader.advance 8) len).reader sub.reader level r) :
      DumpRun env out reader subreader level r

/-! ## Readers along a run -/

/-- How far `kmip_reader_next` moves a reader with the unread bytes `w`. -/
def skipLength (len : ℕ) (w : List UInt8) : ℕ :=
  if computePaddedLength len % 2 ^ 32 ≤ w.length then computePaddedLength len % 2 ^ 32 else 0

lemma skipLength_le (len : ℕ) (w : List UInt8) : skipLength len w ≤ w.length := by
  unfold skipLength
  split_ifs with h
  · exact h
  · exact Nat.zero_le _

lemma kmipReaderNext_reader {reader : KmipReader} (hv : reader.Valid) (len : ℕ) :
    (kmipReaderNext reader len).reader = reader.advance (skipLength len reader.rest) := by
  rw [kmipReaderNext_eq hv, skipLength]
  split_ifs with h
  · rfl
  · exact hv.advance_zero.symm

/-- The state a branch ends with. -/
def Branch.out : Branch → Out
  | .next out _ | .error out _ | .fault out _ => out

/-- The reader a branch ends with. -/
def Branch.reader : Branch → KmipReader
  | .next _ reader | .error _ reader | .fault _ reader => reader

/-- Every branch moves the reader forward within its buffer, if at all. -/
lemma dumpValue_reader (env : Env) (tag : ℕ) (type : KmipItemType) (out : Out)
    {reader : KmipReader} {len : ℕ} (hv : reader.Valid) (hl : len < 2 ^ 32) :
    ∃ m ≤ reader.rest.length,
      (dumpValue env tag type len reader out).reader = reader.advance m := by
  cases hd : demandOf type len with
  | skip =>
      rw [dumpValue_of_skip env tag out hd]
      exact ⟨_, skipLength_le _ _, kmipReaderNext_reader hv len⟩
  | bytes size n =>
      by_cases hn : n ≤ reader.rest.length
      · refine ⟨n, hn, ?_⟩
        rw [dumpValue_of_fits hv env tag out hl hd hn]
        cases valueText env tag type len reader.rest <;> rfl
      · obtain ⟨m, hm, ⟨text, h⟩ | h⟩ :=
          dumpValue_of_short hv env tag out hl hd (not_le.mp hn)
        · exact ⟨m, hm, by rw [h, Branch.reader]⟩
        · exact ⟨m, hm, by rw [h, Branch.reader]⟩
  | fault =>
      rw [dumpValue_of_fault env tag out hd]
      exact ⟨0, Nat.zero_le _, hv.advance_zero.symm⟩
  | error =>
      rw [dumpValue_of_error env tag out hd]
      exact ⟨0, Nat.zero_le _, hv.advance_zero.symm⟩

/-- The subreader is the front of the unread bytes, or the one an earlier iteration left. -/
lemma callee_eq {after : KmipReader} (hv : after.Valid) (subreader : KmipReader) {len : ℕ}
    (hl : len < 2 ^ 32) :
    callee after subreader len =
      if computePaddedLength len ≤ after.rest.length then
        ⟨after.ptr.drop after.pos, 0, computePaddedLength len⟩
      else subreader := by
  rw [callee, kmipReaderInPlace_eq hv hl]
  split_ifs <;> rfl

lemma callee_valid {after subreader : KmipReader} (hv : after.Valid) (hs : subreader.Valid)
    {len : ℕ} (hl : len < 2 ^ 32) : (callee after subreader len).Valid := by
  rw [callee_eq hv subreader hl]
  split_ifs with h
  · exact inPlace_valid hv h
  · exact hs

/-- The subreader is shorter than the caller's buffer when the one left over from before is. -/
lemma callee_len {reader : KmipReader} (hv : reader.Valid) (h8 : 8 ≤ reader.rest.length)
    {subreader : KmipReader} (hle : subreader.len ≤ reader.len - 8) {len : ℕ} (hl : len < 2 ^ 32) :
    (callee (reader.advance 8) subreader len).len + 8 ≤ reader.len := by
  have hrest8 : (reader.advance 8).rest.length = reader.rest.length - 8 := by
    rw [hv.rest_advance h8, List.length_drop]
  have hrest := hv.length_rest
  rw [callee_eq (hv.advance h8) subreader hl]
  split_ifs with hfit
  · simp only
    omega
  · omega

lemma unset_valid : KmipReader.unset.Valid := ⟨le_refl _, le_refl _, by norm_num [KmipReader.unset]⟩

/-- **A run stays in its buffer.** -/
lemma DumpRun.reader {env : Env} {out : Out} {reader subreader : KmipReader} {level : ℕ}
    {r : Level} (h : DumpRun env out reader subreader level r) :
    r.reader.Valid ∧ r.reader.len = reader.len := by
  induction h with
  | eof hv hh =>
      refine ⟨hv.advance ?_, rfl⟩
      rw [headOf_eof hh]
      exact min_le_right _ _
  | cut hv hh => exact ⟨hv.advance (headOf_cut hh), rfl⟩
  | @error _ reader _ _ tag type _ _ _ hv hh _ hd =>
      obtain ⟨h8, hl⟩ := headOf_item hh
      obtain ⟨m, hm, hr⟩ := dumpValue_reader env tag type _ (hv.advance h8) hl
      rw [hd] at hr
      subst hr
      exact ⟨(hv.advance h8).advance hm, rfl⟩
  | @fault _ reader _ _ tag type _ _ _ hv hh _ hd =>
      obtain ⟨h8, hl⟩ := headOf_item hh
      obtain ⟨m, hm, hr⟩ := dumpValue_reader env tag type _ (hv.advance h8) hl
      rw [hd] at hr
      subst hr
      exact ⟨(hv.advance h8).advance hm, rfl⟩
  | @value _ reader _ _ tag type _ _ after _ hv hh _ hd _ ih =>
      obtain ⟨h8, hl⟩ := headOf_item hh
      obtain ⟨m, hm, hr⟩ := dumpValue_reader env tag type _ (hv.advance h8) hl
      rw [hd] at hr
      subst hr
      exact ih
  | structFault hv hh _ _ _ => exact ⟨hv.advance (headOf_item hh).1, rfl⟩
  | struct hv hh _ _ _ _ ih =>
      have hv8 := hv.advance (headOf_item hh).1
      rw [kmipReaderNext_reader hv8] at ih
      exact ih

/-! ## Every call is a run -/

/-- **Soundness of the relation**: what the fuelled loop returns is the end of a run. -/
theorem kmipDumpLoop_run (env : Env) {fuel : ℕ} {out : Out} {reader subreader : KmipReader}
    {level : ℕ} {r : Level} (hv : reader.Valid) (hs : subreader.Valid)
    (h : kmipDumpLoop env fuel out reader subreader level = some r) :
    DumpRun env out reader subreader level r := by
  induction fuel generalizing out reader subreader level r with
  | zero => cases h
  | succ fuel ih =>
      rw [kmipDumpLoop_succ env fuel out hv] at h
      cases hh : headOf reader.rest with
      | eof n =>
          rw [hh] at h
          cases h
          exact .eof hv hh
      | cut n text =>
          rw [hh] at h
          cases h
          exact .cut hv hh
      | item tag type len =>
          rw [hh] at h
          obtain ⟨h8, hl⟩ := headOf_item hh
          have hv8 := hv.advance h8
          simp only [dumpItem] at h
          by_cases hst : type = .struct
          · subst hst
            rw [if_pos rfl] at h
            have hc := callee_valid hv8 hs hl
            split at h
            · cases h
            · next sub hsub =>
              have hrun := ih hc unset_valid hsub
              by_cases hf : sub.exit = .fault
              · rw [if_pos hf] at h
                cases h
                exact .structFault hv hh hrun hf
              · rw [if_neg hf] at h
                have hnext : (kmipReaderNext (reader.advance 8) len).reader.Valid := by
                  rw [kmipReaderNext_reader hv8]
                  exact hv8.advance (skipLength_le _ _)
                exact .struct hv hh hrun hf (ih hnext hrun.reader.1 h)
          · rw [if_neg hst] at h
            obtain ⟨m, hm, hr⟩ := dumpValue_reader env tag type
              (out.header reader level tag type) hv8 hl
            split at h
            · next hd =>
              cases h
              exact .error hv hh hst hd
            · next hd =>
              cases h
              exact .fault hv hh hst hd
            · next hd =>
              rw [hd] at hr
              subst hr
              exact .value hv hh hst hd (ih (hv8.advance hm) hs h)

/-! ## Every call ends -/

/-- A buffer at least eight bytes shorter needs less fuel than is left. -/
lemma fuel_callee {c l w fuel : ℕ} (hc : c + 8 ≤ l) (hw : w ≤ c) (hf : l * l ≤ fuel) :
    c * c + w < fuel := by
  have h1 : c * c + c < l * l := by
    calc c * c + c = c * (c + 1) := by ring
      _ ≤ c * l := Nat.mul_le_mul_left c (by omega)
      _ < l * l := Nat.mul_lt_mul_of_pos_right (by omega) (by omega)
  omega

/-- **Termination.**  One unit of fuel for each iteration and each call is enough when there
are more than `len² + unread` of them. -/
theorem kmipDumpLoop_isSome (env : Env) {fuel : ℕ} (out : Out) {reader subreader : KmipReader}
    (level : ℕ) (hv : reader.Valid) (hs : subreader.Valid) (hle : subreader.len ≤ reader.len - 8)
    (hfuel : reader.len * reader.len + reader.rest.length < fuel) :
    (kmipDumpLoop env fuel out reader subreader level).isSome := by
  induction fuel generalizing out reader subreader level with
  | zero => omega
  | succ fuel ih =>
      rw [kmipDumpLoop_succ env fuel out hv]
      cases hh : headOf reader.rest with
      | eof n => rfl
      | cut n text => rfl
      | item tag type len =>
          obtain ⟨h8, hl⟩ := headOf_item hh
          have hv8 := hv.advance h8
          have hrest8 : (reader.advance 8).rest.length = reader.rest.length - 8 := by
            rw [hv.rest_advance h8, List.length_drop]
          have hlen := hv.length_rest
          -- the next iteration has lost at least the eight header bytes
          have hnext : ∀ m ≤ (reader.advance 8).rest.length, ∀ out subreader,
              subreader.Valid → subreader.len ≤ reader.len - 8 →
              (kmipDumpLoop env fuel out ((reader.advance 8).advance m) subreader
                level).isSome := by
            intro m hm out subreader hs hle
            apply ih out level (hv8.advance hm) hs hle
            rw [hv8.rest_advance hm, List.length_drop, KmipReader.advance_len,
              KmipReader.advance_len]
            omega
          simp only [dumpItem]
          by_cases hst : type = .struct
          · subst hst
            rw [if_pos rfl]
            have hc := callee_valid hv8 hs hl
            have hclen := callee_len hv h8 hle hl
            have hcrest := hc.length_rest
            have hcall := ih ((out.header reader level tag .struct).enter (reader.advance 8)
              subreader len) ((level + 1) % 2 ^ 32) hc unset_valid (Nat.zero_le _)
              (fuel_callee hclen (by omega) (by omega))
            obtain ⟨sub, hsub⟩ := Option.isSome_iff_exists.mp hcall
            simp only [hsub]
            by_cases hf : sub.exit = .fault
            · rw [if_pos hf]
              rfl
            · rw [if_neg hf, kmipReaderNext_reader hv8]
              obtain ⟨hsv, hslen⟩ := (kmipDumpLoop_run env hc unset_valid hsub).reader
              exact hnext _ (skipLength_le _ _) _ _ hsv (by omega)
          · rw [if_neg hst]
            obtain ⟨m, hm, hr⟩ := dumpValue_reader env tag type
              (out.header reader level tag type) hv8 hl
            cases hd : dumpValue env tag type len (reader.advance 8)
              (out.header reader level tag type) with
            | error => rfl
            | fault => rfl
            | next out' after =>
                rw [hd] at hr
                subst hr
                exact hnext m hm _ _ hs hle

/-- **Every call ends, and is a run**: `dumpFuel` is enough for every reader. -/
theorem kmipDumpRecursiveXml_run (env : Env) (out : Out) {reader : KmipReader} (hv : reader.Valid) :
    ∃ r, kmipDumpRecursiveXml env (dumpFuel reader.len) out reader 0 = some r ∧
      DumpRun env out reader KmipReader.unset 0 r := by
  have hsome : (kmipDumpRecursiveXml env (dumpFuel reader.len) out reader 0).isSome := by
    apply kmipDumpLoop_isSome env out 0 hv unset_valid (Nat.zero_le _)
    have := hv.length_rest
    rw [dumpFuel]
    omega
  obtain ⟨r, hr⟩ := Option.isSome_iff_exists.mp hsome
  exact ⟨r, hr, kmipDumpLoop_run env hv unset_valid hr⟩

/-- Every dump of a byte string ends, and is a run. -/
theorem kmipDumpXml_run (env : Env) (data : CObject) :
    ∃ r, kmipDumpXml env data.bytes = some r ∧
      DumpRun env ⟨[], []⟩ (kmipReaderNew data.bytes data.bytes.length) KmipReader.unset 0 r :=
  kmipDumpRecursiveXml_run env _ (kmipReaderNew_valid data.size_lt)

end CBootstrap.Kmip
