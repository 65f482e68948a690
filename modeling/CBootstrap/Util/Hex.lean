import CBootstrap.Kmip.Dump
import Mathlib.Algebra.Group.Even
import Mathlib.Algebra.Order.Ring.Nat

/-!
# `util/hex.h`: text to bytes and back

`hex_to_bin` first filters its argument — blanks, bars, commas and every `0x` go, letters become
small — and then decodes what is left two characters at a time.  One character wrongly kept or
dropped shifts every byte behind it, so the statements are about the filter first.

*Reading what was written.*  `Renders text bytes` says that `text` shows `bytes`: two digits of
either case for each, an optional `0x` in front of them, and separators anywhere between.  The
text of a rendering never begins with an `x`, so no digit `0` at the end of a byte is mistaken
for a marker, and the filter leaves exactly the small digits (`copyAndFilterHex_of_renders`).

*Reading anything else.*  The decoder does not look at the `-1` of `unhexlify`, and half of an
odd number of digits is rounded down.  `HexText text n` describes the texts that are made of
separators, markers and `n` digits; `binToHex_hexToBin_iff` says that exactly those with an even
number of digits come back.
-/

namespace CBootstrap.Util

open Bytes Kmip

/-! ## The functions -/

/-- `bin_to_hex`, `none` where the text does not fit into the `2 * len + 1` bytes, computed in
`uint32_t`, that were allocated for it. -/
def binToHex (bin : List UInt8) (len : ℕ) : Option (List UInt8) :=
  if 2 * len + 1 ≤ (2 * len + 1) % 2 ^ 32 then
    some ((bin.take len).flatMap fun b => hexByte b.toNat)
  else none

/-- The `if`/`else if` chain of `unhexlify`. -/
def hexValue (c : UInt8) : Option ℕ :=
  if 48 ≤ c.toNat ∧ c.toNat ≤ 57 then some (c.toNat - 48)
  else if 97 ≤ c.toNat ∧ c.toNat ≤ 102 then some (c.toNat - 97 + 10)
  else if 65 ≤ c.toNat ∧ c.toNat ≤ 70 then some (c.toNat - 65 + 10)
  else none

/-- The loop of `unhexlify`, which goes from the last character to the first. -/
def unhexlifyLoop : List UInt8 → ℤ → ℤ → ℤ
  | [], total, _ => total
  | c :: cs, total, multiplier =>
      match hexValue c with
      | none => -1
      | some byte => unhexlifyLoop cs (total + byte * multiplier) (multiplier * 16)

/-- `unhexlify`. -/
def unhexlify (text : List UInt8) (len : ℕ) : ℤ := unhexlifyLoop (text.take len).reverse 0 1

/-- `tolower`, in the C locale. -/
def tolower (c : UInt8) : UInt8 :=
  if 65 ≤ c.toNat ∧ c.toNat ≤ 90 then UInt8.ofNat (c.toNat + 32) else c

/-- `copy_and_filter_hex`.  The last character has none behind it to form a `0x` with. -/
def copyAndFilterHex : List UInt8 → List UInt8
  | [] => []
  | [c] => if c = 32 then [] else if c = 124 then [] else if c = 44 then [] else [tolower c]
  | c :: d :: cs =>
      if c = 32 then copyAndFilterHex (d :: cs)
      else if c = 124 then copyAndFilterHex (d :: cs)
      else if c = 44 then copyAndFilterHex (d :: cs)
      else if [c, d] = ascii "0x" then copyAndFilterHex cs
      else tolower c :: copyAndFilterHex (d :: cs)

/-- An `int` stored into a `uint8_t`. -/
def toUint8 (i : ℤ) : UInt8 := UInt8.ofNat (i % 256).toNat

/-- `hex_to_bin`: the bytes and `outlen`. -/
def hexToBin (unfilteredHex : List UInt8) : List UInt8 × ℕ :=
  let filteredHex := copyAndFilterHex unfilteredHex
  let outlen := filteredHex.length / 2
  ((List.range outlen).map fun i => toUint8 (unhexlify (filteredHex.drop (i * 2)) 2), outlen)

/-! ## Digits -/

/-- A capital digit. -/
def capitalDigit (n : ℕ) : UInt8 := UInt8.ofNat (if n < 10 then 48 + n else 55 + n)

/-- A hex digit, of either case, of value `n`. -/
def IsDigit (n : ℕ) (c : UInt8) : Prop := n < 16 ∧ (c = hexDigit n ∨ c = capitalDigit n)

lemma isDigit_hexDigit {n : ℕ} (h : n < 16) : IsDigit n (hexDigit n) := ⟨h, Or.inl rfl⟩

lemma hexValue_hexDigit {n : ℕ} (h : n < 16) : hexValue (hexDigit n) = some n := by
  revert n
  decide

/-- The filter turns a digit into the small one. -/
lemma IsDigit.tolower {n : ℕ} {c : UInt8} (h : IsDigit n c) : tolower c = hexDigit n := by
  have hsmall : ∀ k < 16, Util.tolower (hexDigit k) = hexDigit k := by decide
  have hcapital : ∀ k < 16, Util.tolower (capitalDigit k) = hexDigit k := by decide
  obtain ⟨hn, rfl | rfl⟩ := h
  · exact hsmall n hn
  · exact hcapital n hn

/-- The characters the filter leaves out. -/
def separators : List UInt8 := ascii " |,"

/-- A digit is not a separator and not an `x`. -/
lemma IsDigit.plain {n : ℕ} {c : UInt8} (h : IsDigit n c) : c ∉ separators ∧ c ≠ 120 := by
  have hsmall : ∀ k < 16, hexDigit k ∉ separators ∧ hexDigit k ≠ 120 := by decide
  have hcapital : ∀ k < 16, capitalDigit k ∉ separators ∧ capitalDigit k ≠ 120 := by decide
  obtain ⟨hn, rfl | rfl⟩ := h
  · exact hsmall n hn
  · exact hcapital n hn

/-- A character that becomes a small digit was a digit. -/
lemma isDigit_of_tolower {n : ℕ} (hn : n < 16) {c : UInt8} (h : Util.tolower c = hexDigit n) :
    IsDigit n c := by
  rw [Util.tolower] at h
  split_ifs at h with hcapital
  · have hval := congrArg UInt8.toNat h
    rw [hexDigit, UInt8.toNat_ofNat', UInt8.toNat_ofNat'] at hval
    have hten : ¬ n < 10 := by
      intro hten
      rw [if_pos hten] at hval
      omega
    rw [if_neg hten] at hval
    refine ⟨hn, Or.inr (UInt8.toNat_inj.mp ?_)⟩
    rw [capitalDigit, if_neg hten, UInt8.toNat_ofNat']
    omega
  · exact ⟨hn, Or.inl h⟩

/-! ## The filter, one character at a time -/

/-- One turn of the filter. -/
lemma copyAndFilterHex_cons (c : UInt8) (cs : List UInt8) :
    copyAndFilterHex (c :: cs) =
      if c ∈ separators then copyAndFilterHex cs
      else if c = 48 ∧ cs.head? = some 120 then copyAndFilterHex cs.tail
      else tolower c :: copyAndFilterHex cs := by
  have hmem : c ∈ separators ↔ c = 32 ∨ c = 124 ∨ c = 44 := by
    simp [separators, ascii]
  rcases cs with _ | ⟨d, cs⟩
  · simp only [copyAndFilterHex, hmem]
    split_ifs <;> simp_all
  · have hmark : [c, d] = ascii "0x" ↔ c = 48 ∧ d = 120 := by
      simp [ascii]
    simp only [copyAndFilterHex, hmem, hmark]
    split_ifs <;> simp_all

lemma copyAndFilterHex_separator {c : UInt8} (hc : c ∈ separators) (cs : List UInt8) :
    copyAndFilterHex (c :: cs) = copyAndFilterHex cs := by
  rw [copyAndFilterHex_cons, if_pos hc]

lemma copyAndFilterHex_marker (cs : List UInt8) :
    copyAndFilterHex (48 :: 120 :: cs) = copyAndFilterHex cs := by
  rw [copyAndFilterHex_cons, if_neg (by decide), if_pos ⟨rfl, rfl⟩, List.tail_cons]

lemma copyAndFilterHex_digit {n : ℕ} {c : UInt8} (hc : IsDigit n c) {cs : List UInt8}
    (hcs : cs.head? ≠ some 120) :
    copyAndFilterHex (c :: cs) = hexDigit n :: copyAndFilterHex cs := by
  rw [copyAndFilterHex_cons, if_neg hc.plain.1, if_neg (fun h => hcs h.2), hc.tolower]

/-! ## Two digits to a byte -/

/-- The loop of `hex_to_bin`, as a recursion over the filtered text. -/
def pairs : List UInt8 → List UInt8
  | c :: d :: cs => toUint8 (unhexlify [c, d] 2) :: pairs cs
  | _ => []

lemma hexToBin_fst (text : List UInt8) : (hexToBin text).1 = pairs (copyAndFilterHex text) := by
  have hloop : ∀ filtered : List UInt8, (List.range (filtered.length / 2)).map
      (fun i => toUint8 (unhexlify (filtered.drop (i * 2)) 2)) = pairs filtered := by
    intro filtered
    induction filtered using pairs.induct with
    | case1 c d cs ih =>
        have hlen : (c :: d :: cs).length / 2 = cs.length / 2 + 1 := by
          simp only [List.length_cons]
          omega
        rw [hlen, List.range_succ_eq_map, List.map_cons, List.map_map, pairs, ← ih]
        refine congrArg (List.cons _) (List.map_congr_left ?_)
        intro i _
        rw [Function.comp_apply, Nat.succ_mul]
        rfl
    | case2 l h =>
        rcases l with _ | ⟨c, _ | ⟨d, l⟩⟩
        · rfl
        · simp [pairs]
        · exact absurd rfl (h c d l)
  exact hloop _

/-- Two digits are read as the byte they show. -/
lemma toUint8_unhexlify {m n : ℕ} {c d : UInt8} (hc : hexValue c = some m)
    (hd : hexValue d = some n) :
    toUint8 (unhexlify [c, d] 2) = UInt8.ofNat (16 * m + n) := by
  have hval : unhexlify [c, d] 2 = ((16 * m + n : ℕ) : ℤ) := by
    simp only [unhexlify, List.take, List.reverse_cons, List.reverse_nil, List.nil_append,
      List.cons_append, unhexlifyLoop, hc, hd]
    push_cast
    ring
  rw [hval, toUint8]
  apply UInt8.toNat_inj.mp
  rw [UInt8.toNat_ofNat', UInt8.toNat_ofNat']
  omega

/-- Bytes printed are read back. -/
lemma pairs_flatMap (bytes : List UInt8) :
    pairs (bytes.flatMap fun b => hexByte b.toNat) = bytes := by
  induction bytes with
  | nil => rfl
  | cons b bs ih =>
      have hb := b.toNat_lt
      rw [List.flatMap_cons, hexByte, List.cons_append, List.singleton_append, pairs, ih,
        toUint8_unhexlify (hexValue_hexDigit (Nat.mod_lt _ (by norm_num)))
          (hexValue_hexDigit (Nat.mod_lt _ (by norm_num)))]
      have hbyte : 16 * (b.toNat / 16 % 16) + b.toNat % 16 = b.toNat := by omega
      rw [hbyte, UInt8.ofNat_toNat]

/-- An even number of small digits is printed as it was read. -/
lemma flatMap_pairs {filtered : List UInt8} (heven : Even filtered.length)
    (hdigits : ∀ c ∈ filtered, ∃ n < 16, c = hexDigit n) :
    (pairs filtered).flatMap (fun b => hexByte b.toNat) = filtered := by
  induction filtered using pairs.induct with
  | case1 c d cs ih =>
      obtain ⟨m, hm, rfl⟩ := hdigits c (by simp)
      obtain ⟨n, hn, rfl⟩ := hdigits d (by simp)
      have hval : (UInt8.ofNat (16 * m + n)).toNat = 16 * m + n := by
        rw [UInt8.toNat_ofNat']
        omega
      have hhigh : (16 * m + n) / 16 % 16 = m := by omega
      have hlow : (16 * m + n) % 16 = n := by omega
      rw [pairs, List.flatMap_cons, toUint8_unhexlify (hexValue_hexDigit hm)
        (hexValue_hexDigit hn), hval, hexByte, hhigh, hlow, ih]
      · rfl
      · simpa [Nat.even_add] using heven
      · intro c hc
        exact hdigits c (by simp [hc])
  | case2 l h =>
      rcases l with _ | ⟨c, _ | ⟨d, l⟩⟩
      · rfl
      · simp at heven
      · exact absurd rfl (h c d l)

/-! ## Texts of digits -/

/-- `text` is made of separators, `0x` markers and `n` digits. -/
inductive HexText : List UInt8 → ℕ → Prop
  | nil : HexText [] 0
  | separator {c : UInt8} {text : List UInt8} {n : ℕ} (hc : c ∈ separators)
      (h : HexText text n) : HexText (c :: text) n
  | marker {text : List UInt8} {n : ℕ} (h : HexText text n) : HexText (48 :: 120 :: text) n
  | digit {c : UInt8} {k n : ℕ} {text : List UInt8} (hc : IsDigit k c) (h : HexText text n) :
      HexText (c :: text) (n + 1)

/-- Such a text does not begin with an `x`. -/
lemma HexText.head_ne {text : List UInt8} {n : ℕ} (h : HexText text n) :
    text.head? ≠ some 120 := by
  cases h with
  | nil => simp
  | separator hc _ =>
      intro hx
      rw [List.head?_cons, Option.some.injEq] at hx
      subst hx
      exact absurd hc (by decide)
  | marker _ => simp
  | digit hc _ =>
      intro hx
      exact hc.plain.2 (Option.some.inj hx)

/-! ## Reading what was written -/

/-- `text` shows `bytes`: two digits of either case for each of them, each byte with or without
a `0x`, and separators anywhere before, between and behind. -/
inductive Renders : List UInt8 → List UInt8 → Prop
  | nil : Renders [] []
  | separator {c : UInt8} {text bytes : List UInt8} (hc : c ∈ separators)
      (h : Renders text bytes) : Renders (c :: text) bytes
  | byte {high low b : UInt8} {text bytes : List UInt8} (hhigh : IsDigit (b.toNat / 16) high)
      (hlow : IsDigit (b.toNat % 16) low) (h : Renders text bytes) :
      Renders (high :: low :: text) (b :: bytes)
  | marked {high low b : UInt8} {text bytes : List UInt8} (hhigh : IsDigit (b.toNat / 16) high)
      (hlow : IsDigit (b.toNat % 16) low) (h : Renders text bytes) :
      Renders (48 :: 120 :: high :: low :: text) (b :: bytes)

/-- A rendering is such a text, with two digits to a byte. -/
lemma Renders.hexText {text bytes : List UInt8} (h : Renders text bytes) :
    HexText text (2 * bytes.length) := by
  induction h with
  | nil => exact .nil
  | separator hc _ ih => exact .separator hc ih
  | byte hhigh hlow _ ih => exact .digit hhigh (.digit hlow ih)
  | marked hhigh hlow _ ih => exact .marker (.digit hhigh (.digit hlow ih))

/-- A rendering does not begin with an `x`. -/
lemma Renders.head_ne {text bytes : List UInt8} (h : Renders text bytes) :
    text.head? ≠ some 120 :=
  h.hexText.head_ne

/-- The filter leaves the two digits of each byte. -/
lemma copyAndFilterHex_two_digits {high low b : UInt8} (hhigh : IsDigit (b.toNat / 16) high)
    (hlow : IsDigit (b.toNat % 16) low) {text : List UInt8} (htext : text.head? ≠ some 120) :
    copyAndFilterHex (high :: low :: text) = hexByte b.toNat ++ copyAndFilterHex text := by
  have hsmall : b.toNat / 16 % 16 = b.toNat / 16 := Nat.mod_eq_of_lt hhigh.1
  have hlowx : (low :: text).head? ≠ some 120 := by
    intro hx
    exact hlow.plain.2 (Option.some.inj hx)
  rw [copyAndFilterHex_digit hhigh hlowx, copyAndFilterHex_digit hlow htext, hexByte, hsmall]
  rfl

/-- **The filter leaves the digits of a rendering**, and nothing else. -/
lemma copyAndFilterHex_of_renders {text bytes : List UInt8} (h : Renders text bytes) :
    copyAndFilterHex text = bytes.flatMap fun b => hexByte b.toNat := by
  induction h with
  | nil => rfl
  | separator hc _ ih => rw [copyAndFilterHex_separator hc, ih]
  | byte hhigh hlow h ih =>
      rw [copyAndFilterHex_two_digits hhigh hlow h.head_ne, ih, List.flatMap_cons]
  | marked hhigh hlow h ih =>
      rw [copyAndFilterHex_marker, copyAndFilterHex_two_digits hhigh hlow h.head_ne, ih,
        List.flatMap_cons]

lemma length_flatMap_hexByte (bytes : List UInt8) :
    (bytes.flatMap fun b => hexByte b.toNat).length = 2 * bytes.length := by
  induction bytes with
  | nil => rfl
  | cons b bs ih =>
      rw [List.flatMap_cons, List.length_append, ih, List.length_cons, hexByte]
      simp only [List.length_cons, List.length_nil]
      omega

/-- Every rendering is read back. -/
lemma hexToBin_of_renders {text bytes : List UInt8} (h : Renders text bytes) :
    hexToBin text = (bytes, bytes.length) := by
  have hfiltered := copyAndFilterHex_of_renders h
  apply Prod.ext
  · rw [hexToBin_fst, hfiltered, pairs_flatMap]
  · show (copyAndFilterHex text).length / 2 = bytes.length
    rw [hfiltered, length_flatMap_hexByte]
    omega

/-- The two digits `%02x` prints show the byte. -/
lemma isDigit_hexByte (b : UInt8) :
    IsDigit (b.toNat / 16) (hexDigit (b.toNat / 16 % 16)) ∧
      IsDigit (b.toNat % 16) (hexDigit (b.toNat % 16)) := by
  have hb := b.toNat_lt
  constructor
  · rw [Nat.mod_eq_of_lt (by omega)]
    exact isDigit_hexDigit (by omega)
  · exact isDigit_hexDigit (Nat.mod_lt _ (by norm_num))

/-- What `bin_to_hex` prints is a rendering. -/
lemma renders_hexBytes (bytes : List UInt8) :
    Renders (bytes.flatMap fun b => hexByte b.toNat) bytes := by
  induction bytes with
  | nil => exact .nil
  | cons b bs ih =>
      obtain ⟨hhigh, hlow⟩ := isDigit_hexByte b
      exact .byte hhigh hlow ih

/-- The byte list of `kmip_dump` is a rendering. -/
lemma renders_kmipDumpByteList (bytes : List UInt8) :
    Renders (kmipDumpByteList bytes) bytes := by
  induction bytes using kmipDumpByteList.induct with
  | case1 => exact .nil
  | case2 b =>
      obtain ⟨hhigh, hlow⟩ := isDigit_hexByte b
      exact .marked hhigh hlow .nil
  | case3 b bs hbs ih =>
      obtain ⟨hhigh, hlow⟩ := isDigit_hexByte b
      rw [kmipDumpByteList]
      · exact .marked hhigh hlow (.separator (by decide) (.separator (by decide) ih))
      · exact hbs

/-- **Reading what was written.**  Every rendering of fewer than `2 ^ 31` bytes is read back
exactly, and so `hex_to_bin` inverts both printers: `bin_to_hex` and the byte list of
`kmip_dump`. -/
theorem hexToBin_renders {bytes : List UInt8} (hlen : bytes.length < 2 ^ 31) :
    (∀ text, Renders text bytes → hexToBin text = (bytes, bytes.length)) ∧
      (∃ hex, binToHex bytes bytes.length = some hex ∧ hexToBin hex = (bytes, bytes.length)) ∧
      hexToBin (kmipDumpByteList bytes) = (bytes, bytes.length) := by
  refine ⟨fun text h => hexToBin_of_renders h, ?_, ?_⟩
  · refine ⟨_, ?_, hexToBin_of_renders (renders_hexBytes bytes)⟩
    rw [binToHex, if_pos (by omega), List.take_length]
  · exact hexToBin_of_renders (renders_kmipDumpByteList bytes)

/-- Two adjacent zeros, a marker, a capital and a small digit, and separators at both ends. -/
theorem hexToBin_adjacent_zeros :
    ([0x00, 0xab] : List UInt8).length < 2 ^ 31 ∧
      hexToBin (ascii " 000xAb|,") = ([0x00, 0xab], 2) ∧
      hexToBin (kmipDumpByteList [0x00, 0xab]) = ([0x00, 0xab], 2) := by
  have hlen : ([0x00, 0xab] : List UInt8).length < 2 ^ 31 := by norm_num
  have htext : Renders (ascii " 000xAb|,") [0x00, 0xab] := by
    refine .separator (by decide) (.byte ?_ ?_ (.marked ?_ ?_ (.separator (by decide)
      (.separator (by decide) .nil))))
    · exact ⟨by decide, Or.inl rfl⟩
    · exact ⟨by decide, Or.inl rfl⟩
    · exact ⟨by decide, Or.inr rfl⟩
    · exact ⟨by decide, Or.inl rfl⟩
  obtain ⟨hrenders, -, hlist⟩ := hexToBin_renders hlen
  exact ⟨hlen, hrenders _ htext, hlist⟩

/-! ## Reading anything else -/

/-- The filter leaves the digits of such a text. -/
lemma HexText.filtered {text : List UInt8} {n : ℕ} (h : HexText text n) :
    (copyAndFilterHex text).length = n ∧
      ∀ c ∈ copyAndFilterHex text, ∃ k < 16, c = hexDigit k := by
  induction h with
  | nil => exact ⟨rfl, by simp [copyAndFilterHex]⟩
  | separator hc _ ih =>
      rw [copyAndFilterHex_separator hc]
      exact ih
  | marker _ ih =>
      rw [copyAndFilterHex_marker]
      exact ih
  | @digit _ k _ _ hc h ih =>
      rw [copyAndFilterHex_digit hc h.head_ne, List.length_cons, ih.1]
      refine ⟨rfl, ?_⟩
      intro c hc'
      rcases List.mem_cons.mp hc' with rfl | hc'
      · exact ⟨k, hc.1, rfl⟩
      · exact ih.2 c hc'

/-- Where the filter leaves digits only, the text was made of separators, markers and digits. -/
lemma hexText_of_filtered (text : List UInt8)
    (h : ∀ c ∈ copyAndFilterHex text, ∃ k < 16, c = hexDigit k) :
    HexText text (copyAndFilterHex text).length := by
  induction hlen : text.length using Nat.strong_induction_on generalizing text with
  | _ n ih =>
      rcases text with _ | ⟨c, cs⟩
      · exact .nil
      rw [copyAndFilterHex_cons] at h ⊢
      split_ifs at h ⊢ with hsep hmark
      · exact .separator hsep (ih cs.length (by simp [← hlen]) cs h rfl)
      · obtain ⟨rfl, hx⟩ := hmark
        obtain ⟨cs, rfl⟩ := List.head?_eq_some_iff.mp hx
        exact .marker (ih cs.length (by simp [← hlen]) cs h rfl)
      · obtain ⟨k, hk, hc⟩ := h (tolower c) (by simp)
        apply HexText.digit (isDigit_of_tolower hk hc)
        apply ih cs.length (by simp [← hlen]) cs ?_ rfl
        intro c hc
        exact h c (by simp [hc])

/-- What `bin_to_hex` prints is made of small digits. -/
lemma mem_hexBytes {bytes : List UInt8} {c : UInt8}
    (h : c ∈ bytes.flatMap fun b => hexByte b.toNat) : ∃ k < 16, c = hexDigit k := by
  obtain ⟨b, -, hc⟩ := List.mem_flatMap.mp h
  rcases List.mem_pair.mp hc with rfl | rfl
  · exact ⟨_, Nat.mod_lt _ (by norm_num), rfl⟩
  · exact ⟨_, Nat.mod_lt _ (by norm_num), rfl⟩

lemma length_pairs (filtered : List UInt8) : (pairs filtered).length = filtered.length / 2 := by
  induction filtered using pairs.induct with
  | case1 c d cs ih =>
      rw [pairs, List.length_cons, ih, List.length_cons, List.length_cons]
      omega
  | case2 l h =>
      rcases l with _ | ⟨c, _ | ⟨d, l⟩⟩
      · rfl
      · simp [pairs]
      · exact absurd rfl (h c d l)

/-- Filtered text comes back exactly if it is an even number of small digits, and `bin_to_hex`
can hold them. -/
lemma binToHex_pairs_iff (filtered : List UInt8) :
    binToHex (pairs filtered) (filtered.length / 2 % 2 ^ 32) = some filtered ↔
      (∀ c ∈ filtered, ∃ k < 16, c = hexDigit k) ∧ Even filtered.length ∧
        filtered.length < 2 ^ 32 := by
  constructor
  · intro h
    rw [binToHex] at h
    split_ifs at h with hfits
    have hsame := Option.some.inj h
    have hlen := congrArg List.length hsame
    rw [length_flatMap_hexByte, List.length_take, length_pairs] at hlen
    refine ⟨?_, ⟨filtered.length / 2, by omega⟩, by omega⟩
    intro c hc
    rw [← hsame] at hc
    exact mem_hexBytes hc
  · rintro ⟨hdigits, heven, hlt⟩
    have hhalf : filtered.length / 2 % 2 ^ 32 = filtered.length / 2 :=
      Nat.mod_eq_of_lt (by omega)
    obtain ⟨m, hm⟩ := heven
    rw [hhalf, binToHex, if_pos (by omega), ← length_pairs, List.take_length,
      flatMap_pairs ⟨m, hm⟩ hdigits]

/-- **Reading anything else.**  Printing what `hex_to_bin` decoded gives back the filtered text
exactly if the text is made of blanks, bars, commas, `0x` and an even number of hex digits,
fewer than `2 ^ 32`. -/
theorem binToHex_hexToBin_iff (text : List UInt8) :
    binToHex (hexToBin text).1 ((hexToBin text).2 % 2 ^ 32) = some (copyAndFilterHex text) ↔
      ∃ n, HexText text n ∧ Even n ∧ n < 2 ^ 32 := by
  rw [hexToBin_fst]
  show binToHex _ ((copyAndFilterHex text).length / 2 % 2 ^ 32) = _ ↔ _
  rw [binToHex_pairs_iff]
  constructor
  · rintro ⟨hdigits, heven, hlt⟩
    exact ⟨_, hexText_of_filtered text hdigits, heven, hlt⟩
  · rintro ⟨n, htext, heven, hlt⟩
    obtain ⟨hlen, hdigits⟩ := htext.filtered
    rw [hlen]
    exact ⟨hdigits, heven, hlt⟩

/-- A stray `zz` is decoded as the byte `ff`. -/
theorem hexToBin_stray :
    hexToBin (ascii "42zz") = ([0x42, 0xff], 2) ∧
      binToHex (hexToBin (ascii "42zz")).1 ((hexToBin (ascii "42zz")).2 % 2 ^ 32) ≠
        some (copyAndFilterHex (ascii "42zz")) := by
  decide

/-- A last digit without a partner is dropped. -/
example : hexToBin (ascii "abc") = ([0xab], 1) := by decide

end CBootstrap.Util
