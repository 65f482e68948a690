import CBootstrap.Lib.Bits
import CBootstrap.Lib.Block
import CBootstrap.Lib.Bytes

/-!
# `kms_request_str_t`

The growing string the vendored KMS code writes everything into: the text of a dump, and the
message of a `kmip_writer_t`.  It is a block of memory with a length and a size, and all
functions end up in the same three steps: `kms_request_str_reserve`, a `memcpy` behind the text,
and a NUL behind that.

A write outside the block has no result here (`Block.write`), and `size_t` arithmetic is done
modulo `2 ^ 64`.  Allocations succeed; what fresh memory holds is a parameter, `junk`.

`Holds s text` is what the functions maintain.  The string's text is `text`, a NUL is behind it,
and both are inside the block.  Every function that appends has one lemma about it, which also
says what size the block is left with.
-/

namespace CBootstrap.Kms

open Bytes

/-! ## The functions -/

/-- `kms_request_str_t`; `str` is the block behind the pointer. -/
structure KmsRequestStr where
  str : List UInt8
  len : ℕ
  size : ℕ
  deriving DecidableEq, Repr

/-- What the string holds. -/
def KmsRequestStr.text (s : KmsRequestStr) : List UInt8 := s.str.take s.len

/-- `strlen`, on the memory from a pointer on. -/
def strlen (chars : List UInt8) : ℕ := (chars.takeWhile (· ≠ 0)).length

/-- `len < 0 ? strlen (chars) : (size_t) len`; `none` is a negative `len`. -/
def actualLen (chars : List UInt8) (len : Option ℕ) : ℕ := len.getD (strlen chars)

section Allocation

variable (junk : ℕ → UInt8)

/-- `kms_request_str_new`. -/
def kmsRequestStrNew : KmsRequestStr := ⟨(Block.malloc junk 16).set 0 0, 0, 16⟩

/-- `kms_request_str_new_from_chars`. -/
def kmsRequestStrNewFromChars (chars : List UInt8) (len : Option ℕ) : Option KmsRequestStr := do
  let actualLen := actualLen chars len
  let size := actualLen + 1
  let str := Block.malloc junk size
  let str ← Block.write str 0 (← Block.read chars 0 actualLen)
  let str ← Block.write str actualLen [0]
  pure ⟨str, actualLen, size⟩

/-- `kms_request_str_wrap`: the block is the caller's. -/
def kmsRequestStrWrap (chars : List UInt8) (len : Option ℕ) : KmsRequestStr :=
  ⟨chars, actualLen chars len, actualLen chars len⟩

/-- `kms_request_str_reserve`.  The next power of two is computed with five shifts, as for a
32-bit number. -/
def kmsRequestStrReserve (s : KmsRequestStr) (size : ℕ) : KmsRequestStr :=
  let nextSize := (s.len + size + 1) % 2 ^ 64
  if s.size < nextSize then
    let nextSize := (Bits.smear [1, 2, 4, 8, 16] (nextSize - 1) + 1) % 2 ^ 64
    ⟨Block.realloc junk s.str nextSize, s.len, nextSize⟩
  else s

/-- `kms_request_str_set_chars`.  One character more than the length is copied, for the NUL. -/
def kmsRequestStrSetChars (s : KmsRequestStr) (chars : List UInt8) (len : Option ℕ) :
    Option KmsRequestStr := do
  let actualLen := actualLen chars len
  let s := kmsRequestStrReserve junk s actualLen
  let str ← Block.write s.str 0 (← Block.read chars 0 (actualLen + 1))
  pure ⟨str, actualLen, s.size⟩

/-- Reserve `reserved` characters, copy `appended` behind the text, and a NUL behind that: the
common body of `kms_request_str_append`, `kms_request_str_append_char` and
`kms_request_str_append_chars`. -/
def appendReserving (reserved : ℕ) (s : KmsRequestStr) (appended : List UInt8) :
    Option KmsRequestStr := do
  let s := kmsRequestStrReserve junk s reserved
  let str ← Block.write s.str s.len appended
  let len := s.len + appended.length
  let str ← Block.write str len [0]
  pure ⟨str, len, s.size⟩

/-- `kms_request_str_append`, which reserves room for the text twice. -/
def kmsRequestStrAppend (s appended : KmsRequestStr) : Option KmsRequestStr := do
  appendReserving junk (s.len + appended.len) s (← Block.read appended.str 0 appended.len)

/-- `kms_request_str_append_char`. -/
def kmsRequestStrAppendChar (s : KmsRequestStr) (c : UInt8) : Option KmsRequestStr :=
  appendReserving junk 1 s [c]

/-- `kms_request_str_append_chars`. -/
def kmsRequestStrAppendChars (s : KmsRequestStr) (appended : List UInt8) (len : Option ℕ) :
    Option KmsRequestStr := do
  let len := actualLen appended len
  appendReserving junk len s (← Block.read appended 0 len)

/-- `kms_request_str_append_newline`. -/
def kmsRequestStrAppendNewline (s : KmsRequestStr) : Option KmsRequestStr :=
  kmsRequestStrAppendChar junk s 10

/-- `tolower`, in the C locale. -/
def tolower (c : UInt8) : UInt8 :=
  if 65 ≤ c.toNat ∧ c.toNat ≤ 90 then UInt8.ofNat (c.toNat + 32) else c

/-- The body of the loop of `kms_request_str_append_lowercase`: characters with the top bit are
left alone. -/
def downcase (c : UInt8) : UInt8 := if c.toNat < 128 then tolower c else c

/-- `kms_request_str_append_lowercase`. -/
def kmsRequestStrAppendLowercase (s appended : KmsRequestStr) : Option KmsRequestStr := do
  let i := s.len
  let s ← kmsRequestStrAppend junk s appended
  pure { s with
    str := s.str.take i ++ ((s.str.take s.len).drop i).map downcase ++ s.str.drop s.len }

/-- `vsnprintf` into the `remaining` characters behind the text: it writes what fits, and a NUL,
unless there is no room at all. -/
def vsnprintf (s : KmsRequestStr) (remaining : ℕ) (formatted : List UInt8) :
    Option (List UInt8) :=
  if remaining = 0 then some s.str
  else Block.write s.str s.len (formatted.take (remaining - 1) ++ [0])

/-- The loop of `kms_request_str_append_va`; `formatted` is what the format and its arguments
come to.  A length that is not an `int` is an error of `vsnprintf`, and the program aborts. -/
def appendVaLoop (formatted : List UInt8) : ℕ → KmsRequestStr → Option KmsRequestStr
  | 0, _ => none
  | fuel + 1, s => do
      let remaining := s.size - s.len
      let str ← vsnprintf s remaining formatted
      if 2 ^ 31 ≤ formatted.length then none
      else if formatted.length < remaining then pure ⟨str, s.len + formatted.length, s.size⟩
      else appendVaLoop formatted fuel (kmsRequestStrReserve junk ⟨str, s.len, s.size⟩
        formatted.length)

/-- `kms_request_str_append_va`; `kms_request_str_appendf` is this. -/
def kmsRequestStrAppendVa (s : KmsRequestStr) (formatted : List UInt8) : Option KmsRequestStr :=
  appendVaLoop junk formatted 2 s

/-- `isspace`, in the C locale. -/
def isspace (c : UInt8) : Bool := c == 32 || (9 ≤ c && c ≤ 13)

/-- A character that is written if its flag is set. -/
def appendWaiting (flag : Bool) (c : UInt8) (s : KmsRequestStr) : Option KmsRequestStr :=
  if flag then kmsRequestStrAppendChar junk s c else some s

/-- The `while (src < end)` loop of `kms_request_str_append_stripped`; writing the comma clears
both flags. -/
def appendStrippedLoop : List UInt8 → Bool → Bool → KmsRequestStr → Option KmsRequestStr
  | [], _, _, s => some s
  | c :: src, space, comma, s =>
      if c = 10 then appendStrippedLoop src false true s
      else if isspace c then appendStrippedLoop src true comma s
      else do
        let s ← appendWaiting junk comma 44 s
        let s ← appendWaiting junk (!comma && space) 32 s
        let s ← kmsRequestStrAppendChar junk s c
        appendStrippedLoop src false false s

/-- `kms_request_str_append_stripped`.  The loop that skips white space in front does not look at
the end of the text; it stops at the NUL. -/
def kmsRequestStrAppendStripped (s appended : KmsRequestStr) : Option KmsRequestStr :=
  let skipped := (appended.str.takeWhile isspace).length
  if skipped = appended.str.length then none
  else
    appendStrippedLoop junk ((appended.str.take appended.len).drop skipped) false false
      (kmsRequestStrReserve junk s appended.len)

end Allocation

/-- `strncmp (a, b, n) == 0`, on the memory from two pointers on: equal up to `n` characters, or
up to a NUL. -/
def strncmpEq : ℕ → List UInt8 → List UInt8 → Bool
  | 0, _, _ => true
  | n + 1, a :: as, b :: bs => a == b && (a == 0 || strncmpEq n as bs)
  | _ + 1, _, _ => false

/-- `kms_request_str_ends_with`. -/
def kmsRequestStrEndsWith (s suffix : KmsRequestStr) : Bool :=
  decide (suffix.len ≤ s.len) &&
    strncmpEq suffix.len (s.str.drop (s.len - suffix.len)) suffix.str

/-! ## What the functions maintain -/

/-- The text fits its size, and the size its block. -/
structure KmsRequestStr.Room (s : KmsRequestStr) : Prop where
  len_le : s.len ≤ s.size
  size_le : s.size ≤ s.str.length

/-- The string holds `text`, with a NUL behind it, inside its block. -/
structure Holds (s : KmsRequestStr) (text : List UInt8) : Prop where
  size_le : s.size ≤ s.str.length
  len_lt : s.len < s.size
  text_eq : s.text = text
  nul : s.str[s.len]? = some 0

lemma Holds.room {s : KmsRequestStr} {text : List UInt8} (h : Holds s text) : s.Room :=
  ⟨Nat.le_of_lt h.len_lt, h.size_le⟩

lemma Holds.len_eq {s : KmsRequestStr} {text : List UInt8} (h : Holds s text) :
    s.len = text.length := by
  have hlen := h.len_lt
  have hsize := h.size_le
  rw [← h.text_eq, KmsRequestStr.text, List.length_take]
  omega

/-- The block, with the text and its NUL in front. -/
lemma Holds.str_eq {s : KmsRequestStr} {text : List UInt8} (h : Holds s text) :
    s.str = text ++ 0 :: s.str.drop (s.len + 1) := by
  obtain ⟨hlen_lt, hnul⟩ := List.getElem?_eq_some_iff.mp h.nul
  rw [← h.text_eq, ← hnul, List.getElem_cons_drop]
  exact (List.take_append_drop _ _).symm

/-- A NUL further in front cuts the text off there. -/
lemma Holds.truncate {s : KmsRequestStr} {text : List UInt8} (h : Holds s text) {k : ℕ}
    (hk : k ≤ text.length) :
    ∃ str, Block.write s.str k [0] = some str ∧ Holds ⟨str, k, s.size⟩ (text.take k) := by
  have hlen := h.len_eq
  have hlen_lt := h.len_lt
  have hsize := h.size_le
  obtain ⟨str, hstr⟩ := Option.isSome_iff_exists.mp (Block.write_isSome_iff.mpr
    (show k + [(0 : UInt8)].length ≤ s.str.length by rw [List.length_singleton]; omega))
  refine ⟨str, hstr, ?_, ?_, ?_, ?_⟩
  · show s.size ≤ str.length
    rw [Block.length_write hstr]
    exact hsize
  · show k < s.size
    omega
  · show str.take k = text.take k
    rw [Block.take_write_before hstr (le_refl _), ← h.text_eq, KmsRequestStr.text, List.take_take,
      Nat.min_eq_left (by omega)]
  · exact Block.getElem?_write (i := 0) hstr Nat.one_pos

/-- A write inside the text replaces the characters it covers. -/
lemma Holds.overwrite {s : KmsRequestStr} {text data : List UInt8} (h : Holds s text) {o : ℕ}
    (ho : o + data.length ≤ text.length) :
    ∃ str, Block.write s.str o data = some str ∧
      Holds ⟨str, s.len, s.size⟩ (text.take o ++ data ++ text.drop (o + data.length)) := by
  have hlen := h.len_eq
  have hlen_lt := h.len_lt
  have hsize := h.size_le
  obtain ⟨str, hstr⟩ := Option.isSome_iff_exists.mp (Block.write_isSome_iff.mpr
    (show o + data.length ≤ s.str.length by omega))
  have htext : s.str.take s.len = text := h.text_eq
  refine ⟨str, hstr, ?_, hlen_lt, ?_, ?_⟩
  · show s.size ≤ str.length
    rw [Block.length_write hstr]
    exact hsize
  · show str.take s.len = _
    rw [Block.take_write_inside hstr (by omega), htext, ← htext, List.take_take,
      Nat.min_eq_left (by omega)]
  · show str[s.len]? = some 0
    rw [Block.getElem?_write_behind hstr (by omega)]
    exact h.nul

lemma kmsRequestStrNew_holds (junk : ℕ → UInt8) : Holds (kmsRequestStrNew junk) [] where
  size_le := by simp [kmsRequestStrNew]
  len_lt := by simp [kmsRequestStrNew]
  text_eq := by simp [kmsRequestStrNew, KmsRequestStr.text]
  nul := by simp [kmsRequestStrNew]

lemma read_eq_some {chars : List UInt8} {n : ℕ} (h : n ≤ chars.length) :
    Block.read chars 0 n = some (chars.take n) := by
  rw [Block.read, if_pos (by omega), List.drop_zero]

/-- `strncmp` with the length of a text that has no NUL. -/
lemma strncmpEq_iff {b : List UInt8} (hb : 0 ∉ b) (a bs : List UInt8) :
    strncmpEq b.length a (b ++ bs) = true ↔ b <+: a := by
  induction b generalizing a with
  | nil => simp [strncmpEq]
  | cons c b ih =>
      rw [List.mem_cons, not_or] at hb
      rcases a with _ | ⟨d, a⟩
      · simp [strncmpEq]
      · rw [List.length_cons, List.cons_append, strncmpEq, Bool.and_eq_true, Bool.or_eq_true,
          List.cons_prefix_cons, ih hb.2, beq_iff_eq, beq_iff_eq]
        constructor
        · rintro ⟨rfl, hzero | hpre⟩
          · exact absurd hzero.symm hb.1
          · exact ⟨rfl, hpre⟩
        · rintro ⟨rfl, hpre⟩
          exact ⟨rfl, Or.inr hpre⟩

/-- **`kms_request_str_ends_with`**, for a suffix without a NUL. -/
lemma kmsRequestStrEndsWith_iff {s other : KmsRequestStr} {text text' : List UInt8}
    (h : Holds s text) (ho : Holds other text') (hnul : 0 ∉ text') :
    kmsRequestStrEndsWith s other = true ↔ text' <:+ text := by
  rw [kmsRequestStrEndsWith, Bool.and_eq_true, decide_eq_true_eq, ho.str_eq, ho.len_eq, h.len_eq,
    strncmpEq_iff hnul, h.str_eq]
  constructor
  · rintro ⟨hle, hpre⟩
    rw [List.drop_append_of_le_length (by omega)] at hpre
    have hlen : text'.length = (text.drop (text.length - text'.length)).length := by
      rw [List.length_drop]
      omega
    rw [List.suffix_iff_eq_drop]
    exact (List.append_inj (List.prefix_iff_eq_append.mp hpre) hlen).1
  · intro hsuf
    refine ⟨hsuf.length_le, ?_⟩
    rw [List.drop_append_of_le_length (by omega), ← List.suffix_iff_eq_drop.mp hsuf]
    exact List.prefix_append _ _

/-- A string made of characters. -/
lemma kmsRequestStrNewFromChars_holds (junk : ℕ → UInt8) {chars : List UInt8} {len : Option ℕ}
    (hlen : actualLen chars len ≤ chars.length) :
    ∃ s, kmsRequestStrNewFromChars junk chars len = some s ∧
      Holds s (chars.take (actualLen chars len)) := by
  have htake : (chars.take (actualLen chars len)).length = actualLen chars len := by
    rw [List.length_take]
    omega
  obtain ⟨str, hstr⟩ := Option.isSome_iff_exists.mp (Block.write_isSome_iff.mpr
    (show 0 + (chars.take (actualLen chars len)).length ≤
      (Block.malloc junk (actualLen chars len + 1)).length by
        rw [htake, Block.length_malloc]
        omega))
  have hstrlen := Block.length_write hstr
  rw [Block.length_malloc] at hstrlen
  obtain ⟨str', hstr'⟩ := Option.isSome_iff_exists.mp (Block.write_isSome_iff.mpr
    (show actualLen chars len + [(0 : UInt8)].length ≤ str.length by rw [hstrlen]; simp))
  refine ⟨⟨str', actualLen chars len, actualLen chars len + 1⟩, ?_, ?_, Nat.lt_succ_self _, ?_, ?_⟩
  · simp only [kmsRequestStrNewFromChars, read_eq_some hlen, hstr, hstr', Option.bind_eq_bind,
      Option.bind_some, Option.pure_def]
  · show actualLen chars len + 1 ≤ str'.length
    rw [Block.length_write hstr', hstrlen]
  · show str'.take (actualLen chars len) = _
    have hfront := Block.take_write hstr
    rw [htake, Nat.zero_add, List.take_zero, List.nil_append] at hfront
    rw [Block.take_write_before hstr' (le_refl _), hfront]
  · exact Block.getElem?_write (i := 0) hstr' Nat.one_pos

section Appending

variable (junk : ℕ → UInt8) {s : KmsRequestStr}

/-- Below `2 ^ 63` characters nothing wraps. -/
lemma kmsRequestStrReserve_eq {size : ℕ} (hlt : s.len + size < 2 ^ 63) :
    kmsRequestStrReserve junk s size =
      if s.size < s.len + size + 1 then
        ⟨Block.realloc junk s.str (Bits.smear [1, 2, 4, 8, 16] (s.len + size) + 1), s.len,
          Bits.smear [1, 2, 4, 8, 16] (s.len + size) + 1⟩
      else s := by
  have hsmear : Bits.smear [1, 2, 4, 8, 16] (s.len + size) < 2 ^ 63 := Bits.smear_lt hlt
  have hmod : (s.len + size + 1) % 2 ^ 64 = s.len + size + 1 := Nat.mod_eq_of_lt (by omega)
  have hmod' : (Bits.smear [1, 2, 4, 8, 16] (s.len + size) + 1) % 2 ^ 64 =
      Bits.smear [1, 2, 4, 8, 16] (s.len + size) + 1 := Nat.mod_eq_of_lt (by omega)
  simp only [kmsRequestStrReserve, hmod, Nat.add_sub_cancel, hmod']

/-- The new size does not depend on what the block holds. -/
lemma reserve_size_congr {r : KmsRequestStr} {size : ℕ} (hlen : r.len = s.len)
    (hsize : r.size = s.size) :
    (kmsRequestStrReserve junk r size).size = (kmsRequestStrReserve junk s size).size := by
  simp only [kmsRequestStrReserve, hlen, hsize]
  split_ifs
  · rfl
  · exact hsize

/-- **Reserving** keeps the text and leaves room for so many characters and a NUL. -/
lemma reserve_room (hs : s.Room) (size : ℕ) (hlt : s.len + size < 2 ^ 63) :
    (kmsRequestStrReserve junk s size).Room ∧
      (kmsRequestStrReserve junk s size).len = s.len ∧
      (kmsRequestStrReserve junk s size).text = s.text ∧
      s.len + size < (kmsRequestStrReserve junk s size).size := by
  have hle := Bits.le_smear [1, 2, 4, 8, 16] (s.len + size)
  rw [kmsRequestStrReserve_eq junk hlt]
  split_ifs with hgrow
  · have hlen := le_trans hs.len_le hs.size_le
    have hfits : s.len ≤ Bits.smear [1, 2, 4, 8, 16] (s.len + size) + 1 := by omega
    refine ⟨⟨hfits, ?_⟩, rfl, Block.take_realloc junk hlen hfits, Nat.lt_succ_of_le hle⟩
    exact (Block.length_realloc _ _ _).ge
  · exact ⟨hs, rfl, rfl, by omega⟩

/-- The NUL moves with the text. -/
lemma reserve_holds {text : List UInt8} (h : Holds s text) (size : ℕ)
    (hlt : text.length + size < 2 ^ 63) : Holds (kmsRequestStrReserve junk s size) text := by
  rw [← h.len_eq] at hlt
  obtain ⟨hroom, hlen, htext, hsize⟩ := reserve_room junk h.room size hlt
  refine ⟨hroom.size_le, by omega, htext.trans h.text_eq, ?_⟩
  rw [hlen, kmsRequestStrReserve_eq junk hlt]
  have hle := Bits.le_smear [1, 2, 4, 8, 16] (s.len + size)
  split_ifs
  · show (Block.realloc junk s.str _)[s.len]? = some 0
    rw [Block.getElem?_realloc junk (lt_of_lt_of_le h.len_lt h.size_le) (by omega)]
    exact h.nul
  · exact h.nul

/-- **Appending** what was reserved for. -/
lemma appendReserving_holds (hs : s.Room) (reserved : ℕ) (appended : List UInt8)
    (hlt : s.len + reserved < 2 ^ 63) (hfits : appended.length ≤ reserved) :
    ∃ s', appendReserving junk reserved s appended = some s' ∧
      Holds s' (s.text ++ appended) ∧ s'.size = (kmsRequestStrReserve junk s reserved).size := by
  obtain ⟨hroom, hlen, htext, hsize⟩ := reserve_room junk hs reserved hlt
  rw [appendReserving]
  generalize kmsRequestStrReserve junk s reserved = r at hroom hlen htext hsize
  have hblock := hroom.size_le
  have hwrite : r.len + appended.length ≤ r.str.length := by omega
  obtain ⟨str, hstr⟩ := Option.isSome_iff_exists.mp (Block.write_isSome_iff.mpr hwrite)
  have hstrlen := Block.length_write hstr
  have hnul : r.len + appended.length + [(0 : UInt8)].length ≤ str.length := by
    rw [hstrlen, List.length_singleton]
    omega
  obtain ⟨str', hstr'⟩ := Option.isSome_iff_exists.mp (Block.write_isSome_iff.mpr hnul)
  have hstrlen' := Block.length_write hstr'
  refine ⟨⟨str', r.len + appended.length, r.size⟩, ?_, ⟨?_, ?_, ?_, ?_⟩, rfl⟩
  · simp only [hstr, Option.bind_eq_bind, Option.bind_some, hstr', Option.pure_def]
  · show r.size ≤ str'.length
    omega
  · show r.len + appended.length < r.size
    omega
  · show str'.take (r.len + appended.length) = _
    rw [Block.take_write_before hstr' (le_refl _), Block.take_write hstr, ← htext]
    rfl
  · exact Block.getElem?_write (i := 0) hstr' Nat.one_pos

/-- Writing a text and a NUL behind what is there, where there is room. -/
lemma write_nul_holds (hs : s.Room) {text : List UInt8} (hfits : s.len + text.length < s.size) :
    ∃ str, Block.write s.str s.len (text ++ [0]) = some str ∧
      Holds ⟨str, s.len + text.length, s.size⟩ (s.text ++ text) := by
  have hblock := hs.size_le
  have hwrite : s.len + (text ++ [0]).length ≤ s.str.length := by
    rw [List.length_append, List.length_singleton]
    omega
  obtain ⟨str, hstr⟩ := Option.isSome_iff_exists.mp (Block.write_isSome_iff.mpr hwrite)
  refine ⟨str, hstr, ?_, hfits, ?_, ?_⟩
  · show s.size ≤ str.length
    rw [Block.length_write hstr]
    exact hblock
  · have htake := congrArg (List.take (s.len + text.length)) (Block.take_write hstr)
    rw [List.take_take, ← List.append_assoc, List.length_append] at htake
    rw [Nat.min_eq_left (by omega), List.take_left'] at htake
    · exact htake
    · rw [List.length_append, List.length_take]
      omega
  · have hnul := Block.getElem?_write (i := text.length) hstr (by simp)
    rw [List.getElem?_concat_length] at hnul
    exact hnul

variable {text : List UInt8} (h : Holds s text)

include h

lemma kmsRequestStrAppendChar_holds (hlt : text.length + 1 < 2 ^ 63) (c : UInt8) :
    ∃ s', kmsRequestStrAppendChar junk s c = some s' ∧ Holds s' (text ++ [c]) ∧
      s'.size = (kmsRequestStrReserve junk s 1).size := by
  obtain ⟨s', hs', hholds, hsize⟩ := appendReserving_holds junk h.room 1 [c]
    (by rw [h.len_eq]; exact hlt) (Nat.le_refl 1)
  exact ⟨s', hs', h.text_eq ▸ hholds, hsize⟩

lemma kmsRequestStrAppendChars_holds (chars : List UInt8) (len : Option ℕ)
    (hlen : actualLen chars len ≤ chars.length)
    (hlt : text.length + actualLen chars len < 2 ^ 63) :
    ∃ s', kmsRequestStrAppendChars junk s chars len = some s' ∧
      Holds s' (text ++ chars.take (actualLen chars len)) ∧
      s'.size = (kmsRequestStrReserve junk s (actualLen chars len)).size := by
  obtain ⟨s', hs', hholds, hsize⟩ := appendReserving_holds junk h.room (actualLen chars len)
    (chars.take (actualLen chars len)) (by rw [h.len_eq]; exact hlt)
    (List.length_take_le _ _)
  refine ⟨s', ?_, h.text_eq ▸ hholds, hsize⟩
  simp only [kmsRequestStrAppendChars, read_eq_some hlen]
  exact hs'

lemma kmsRequestStrAppend_holds {other : KmsRequestStr} {text' : List UInt8}
    (ho : Holds other text') (hlt : 2 * text.length + text'.length < 2 ^ 63) :
    ∃ s', kmsRequestStrAppend junk s other = some s' ∧ Holds s' (text ++ text') := by
  have hread : Block.read other.str 0 other.len = some text' := by
    rw [read_eq_some (le_trans (Nat.le_of_lt ho.len_lt) ho.size_le), ← ho.text_eq]
    rfl
  obtain ⟨s', hs', hholds, -⟩ := appendReserving_holds junk h.room (s.len + other.len) text'
    (by rw [h.len_eq, ho.len_eq]; omega) (by rw [ho.len_eq]; omega)
  refine ⟨s', ?_, h.text_eq ▸ hholds⟩
  simp only [kmsRequestStrAppend, hread]
  exact hs'

lemma kmsRequestStrAppendLowercase_holds {other : KmsRequestStr} {text' : List UInt8}
    (ho : Holds other text') (hlt : 2 * text.length + text'.length < 2 ^ 63) :
    ∃ s', kmsRequestStrAppendLowercase junk s other = some s' ∧
      Holds s' (text ++ text'.map downcase) := by
  obtain ⟨s', hs', hholds⟩ := kmsRequestStrAppend_holds junk h ho hlt
  have hlen := hholds.len_eq
  have hsize := hholds.size_le
  have hlt' := hholds.len_lt
  have htext : s'.str.take s'.len = text ++ text' := hholds.text_eq
  have hfront : s'.str.take s.len = text := by
    rw [← Nat.min_eq_left (show s.len ≤ s'.len by rw [hlen, h.len_eq]; simp), ← List.take_take,
      htext, h.len_eq, List.take_left]
  have hback : (s'.str.take s'.len).drop s.len = text' := by
    rw [htext, h.len_eq, List.drop_left]
  have hshape : (text ++ text'.map downcase).length = s'.len := by
    rw [hlen, List.length_append, List.length_append, List.length_map]
  refine ⟨⟨text ++ text'.map downcase ++ s'.str.drop s'.len, s'.len, s'.size⟩, ?_, ?_⟩
  · simp only [kmsRequestStrAppendLowercase, hs', Option.bind_eq_bind, Option.bind_some,
      Option.pure_def, hfront, hback]
  · refine ⟨?_, hlt', List.take_left' hshape, ?_⟩
    · rw [List.length_append, hshape, List.length_drop]
      exact le_trans hsize (by omega)
    · show (text ++ text'.map downcase ++ s'.str.drop s'.len)[s'.len]? = some 0
      rw [List.getElem?_append_right (by omega), hshape, Nat.sub_self, List.getElem?_drop]
      exact hholds.nul

/-- **Formatting.**  The loop ends in its second turn at the latest. -/
lemma kmsRequestStrAppendVa_holds {formatted : List UInt8} (hint : formatted.length < 2 ^ 31)
    (hlt : text.length + formatted.length < 2 ^ 63) :
    ∃ s', kmsRequestStrAppendVa junk s formatted = some s' ∧ Holds s' (text ++ formatted) ∧
      s'.size = (kmsRequestStrReserve junk s formatted.length).size := by
  -- a turn with enough room
  have hturn : ∀ (fuel : ℕ) {r : KmsRequestStr}, r.Room → r.text = text →
      r.len + formatted.length < r.size →
      ∃ s', appendVaLoop junk formatted (fuel + 1) r = some s' ∧
        Holds s' (text ++ formatted) ∧ s'.size = r.size := by
    intro fuel r hr htext hfits
    obtain ⟨str, hstr, hholds⟩ := write_nul_holds hr hfits
    refine ⟨⟨str, r.len + formatted.length, r.size⟩, ?_, htext ▸ hholds, rfl⟩
    have hrem : formatted.take (r.size - r.len - 1) = formatted :=
      List.take_of_length_le (by omega)
    simp only [appendVaLoop, vsnprintf, hrem, hstr]
    rw [if_neg (by omega)]
    simp only [Option.bind_eq_bind, Option.bind_some]
    rw [if_neg (by omega), if_pos (by omega)]
    rfl
  rw [kmsRequestStrAppendVa]
  by_cases hfits : s.len + formatted.length < s.size
  · have hreserve : kmsRequestStrReserve junk s formatted.length = s := by
      rw [kmsRequestStrReserve_eq junk (by rw [h.len_eq]; exact hlt), if_neg (by omega)]
    rw [hreserve]
    exact hturn 1 h.room h.text_eq hfits
  · -- the first turn writes what fits, and reserves
    have hlen := h.len_eq
    have hlen_lt := h.len_lt
    have hblock := h.size_le
    have hwrite : s.len + (formatted.take (s.size - s.len - 1) ++ [0]).length ≤
        s.str.length := by
      rw [List.length_append, List.length_take, List.length_singleton]
      omega
    obtain ⟨str, hstr⟩ := Option.isSome_iff_exists.mp (Block.write_isSome_iff.mpr hwrite)
    have hcut : KmsRequestStr.Room ⟨str, s.len, s.size⟩ :=
      ⟨h.room.len_le, by rw [Block.length_write hstr]; exact hblock⟩
    have htext : KmsRequestStr.text ⟨str, s.len, s.size⟩ = text := by
      rw [← h.text_eq]
      exact Block.take_write_before hstr (le_refl _)
    obtain ⟨hroom, hlen', htext', hsize⟩ := reserve_room junk hcut formatted.length
      (by rw [← hlen] at hlt; exact hlt)
    obtain ⟨s', hs', hholds, hsize'⟩ := hturn 0 hroom (htext'.trans htext)
      (by rw [hlen']; exact hsize)
    refine ⟨s', ?_, hholds, hsize'.trans (reserve_size_congr junk rfl rfl)⟩
    rw [← hs', appendVaLoop]
    simp only [vsnprintf, if_neg (show ¬s.size - s.len = 0 by omega), hstr, Option.bind_eq_bind,
      Option.bind_some, if_neg (show ¬formatted.length < s.size - s.len by omega),
      if_neg (show ¬2 ^ 31 ≤ formatted.length by omega)]

end Appending

end CBootstrap.Kms
