import CBootstrap.Bson.Iter
import CBootstrap.Lib.Block

/-!
# `_bson_iter_next_internal`, read by read

`bsonIterNext` of `Bson.Iter` says where the iterator goes.  It computes with numbers that do not
wrap, takes a zero for a byte that is not there, and leaves out all fields but those it needs.
Here is the function as it stands in `bson-iter.c`: 32-bit additions and subtractions, every read
checked against the bytes the iterator has, and all fields.

`nextInternal_eq` is that it never reads outside those bytes and otherwise is `bsonIterNext`; the
32-bit arithmetic wraps nowhere it would matter.  Nothing is assumed of the bytes.  In particular
the length of a document inside another is only compared with what is around it, so it can be
shorter than the five bytes a document has; then the loop over the key finds nothing and none of
the subtractions `len - 4` is reached.

The iterator is left with `err_off`, which is to tell the end of a document from an error in it.
It is set in all cases but one: where no key is found (`Stops`).  The fields `d2`, `d3` and `d4` of
an iterator that is invalid are left out.
-/

namespace CBootstrap.Bson

open Bytes

/-! ## Arithmetic and reads -/

/-- Addition of `uint32_t`. -/
def add32 (a b : ℕ) : ℕ := (a + b) % 2 ^ 32

/-- Subtraction of `uint32_t`. -/
def sub32 (a b : ℕ) : ℕ := (a + 2 ^ 32 - b) % 2 ^ 32

/-- `data[o]`. -/
def u8At (data : List UInt8) (o : ℕ) : Option UInt8 := data[o]?

/-- `mlib_read_u32le(data + o)`. -/
def u32At (data : List UInt8) (o : ℕ) : Option ℕ := (Block.read data o 4).map ofLE

/-- The loops that look for a NUL from `o` on: `for (; o < len; o++) if (!data[o])`. -/
def scanNul (data : List UInt8) (len o : ℕ) : Option (Option ℕ) :=
  if o < len then
    (u8At data o).bind fun b => if b = 0 then some (some o) else scanNul data len (o + 1)
  else some none
termination_by len - o

lemma add32_eq {a b : ℕ} (h : a + b < 2 ^ 32) : add32 a b = a + b := Nat.mod_eq_of_lt h

lemma sub32_eq {a b : ℕ} (h : b ≤ a) (ha : a < 2 ^ 32) : sub32 a b = a - b := by
  rw [sub32]
  omega

section Reads

variable {data : List UInt8} {o : ℕ}

lemma getD_eq_getElem (h : o < data.length) : data.getD o 0 = data[o] := by
  rw [List.getD_eq_getElem?_getD, List.getElem?_eq_getElem h, Option.getD_some]

lemma u8At_eq (h : o < data.length) : u8At data o = some (data.getD o 0) := by
  rw [u8At, List.getElem?_eq_getElem h, getD_eq_getElem h]

lemma u32At_eq (h : o + 4 ≤ data.length) : u32At data o = some (readU32le data o) := by
  rw [u32At, Block.read, if_pos h]
  rfl

lemma readU32le_lt (data : List UInt8) (o : ℕ) : readU32le data o < 2 ^ 32 := by
  have hlt := ofLE_lt ((data.drop o).take 4)
  have hlen : ((data.drop o).take 4).length ≤ 4 := List.length_take_le _ _
  calc ofLE ((data.drop o).take 4) < 256 ^ ((data.drop o).take 4).length := hlt
    _ ≤ 256 ^ 4 := Nat.pow_le_pow_right (by omega) hlen

/-- The loops stay inside the bytes and find the first NUL. -/
lemma scanNul_eq (data : List UInt8) (o : ℕ) :
    scanNul data data.length o = some (findNul data o) := by
  induction hn : data.length - o generalizing o with
  | zero =>
      have hdrop : data.drop o = [] := List.drop_eq_nil_iff.mpr (by omega)
      rw [scanNul, if_neg (by omega), findNul, hdrop]
      rfl
  | succ n ih =>
      have ho : o < data.length := by omega
      have hdrop : data.drop o = data.getD o 0 :: data.drop (o + 1) := by
        rw [List.drop_eq_getElem_cons ho, getD_eq_getElem ho]
      rw [scanNul, if_pos ho, u8At_eq ho, Option.bind_some, findNul, hdrop, List.findIdx?_cons]
      by_cases hzero : data.getD o 0 = 0
      · rw [if_pos hzero, hzero]
        rfl
      · have hbeq : (data.getD o 0 == 0) = false := beq_eq_false_iff_ne.mpr hzero
        rw [if_neg hzero, ih (o + 1) (by omega), hbeq, findNul]
        simp only [Bool.false_eq_true, if_false, Option.map_map]
        congr 2
        funext k
        simp only [Function.comp_apply]
        omega

lemma findNul_lt {z : ℕ} (h : findNul data o = some z) : z < data.length := by
  obtain ⟨k, hk, rfl⟩ := Option.map_eq_some_iff.mp h
  have hlt := (List.findIdx?_eq_some_iff_getElem.mp hk).1
  rw [List.length_drop] at hlt
  omega

end Reads

/-! ## The function -/

/-- What the `switch` sets: the further fields, the offset of the next element, and `o`, which the
case of a regular expression moves. -/
structure Fields where
  d2 : ℕ
  d3 : ℕ
  d4 : ℕ
  nextOff : ℕ
  o : ℕ
  deriving DecidableEq, Repr

/-- The `switch`, for a value at `o` of the element at `off`.  An error is the `err_off` that is
set. -/
def switchFields (data : List UInt8) (type : BsonType) (off o : ℕ) :
    Option (Except ℕ Fields) :=
  let len := data.length
  match type with
  | .dateTime | .double | .int64 | .timestamp => some (.ok ⟨0, 0, 0, add32 o 8, o⟩)
  | .code | .symbol | .utf8 =>
      if add32 o 4 ≥ len then some (.error o)
      else
        (u32At data o).bind fun l =>
          if l > sub32 len (add32 o 4) then some (.error o)
          else if l = 0 ∨ add32 (add32 o 4) l ≥ len then some (.error o)
          else
            (u8At data (add32 o 4 + (l - 1))).map fun last =>
              if last ≠ 0 then .error (sub32 (add32 (add32 o 4) l) 1)
              else .ok ⟨add32 o 4, 0, 0, add32 (add32 o 4) l, o⟩
  | .binary =>
      if o ≥ sub32 len 4 then some (.error o)
      else
        (u32At data o).bind fun l =>
          if l ≥ sub32 (sub32 len o) 4 then some (.error o)
          else
            (u8At data (add32 o 4)).bind fun subtype =>
              if subtype = 2 then
                if l < 4 then some (.error o)
                else
                  (u32At data (add32 o 5)).map fun (binLen : ℕ) =>
                    if Int.bmod binLen (2 ^ 32) ≠ l - 4 then .error (add32 o 5)
                    else .ok ⟨add32 o 4, add32 o 5, 0, add32 (add32 o 5) l, o⟩
              else some (.ok ⟨add32 o 4, add32 o 5, 0, add32 (add32 o 5) l, o⟩)
  | .array | .document =>
      if o ≥ sub32 len 4 then some (.error o)
      else
        (u32At data o).map fun l =>
          if l > len ∨ l > sub32 len o then .error o else .ok ⟨0, 0, 0, add32 o l, o⟩
  | .oid => some (.ok ⟨0, 0, 0, add32 o 12, o⟩)
  | .bool =>
      if o ≥ len then some (.error o)
      else
        (u8At data o).map fun val =>
          if val ≠ 0 ∧ val ≠ 1 then .error o else .ok ⟨0, 0, 0, add32 o 1, o⟩
  | .regex =>
      (scanNul data len o).bind fun
        | none => some (.error off)
        | some eor =>
            (scanNul data len (eor + 1)).map fun
              | none => .error off
              | some eoo => .ok ⟨eor + 1, 0, 0, add32 eoo 1, eoo⟩
  | .dbpointer =>
      if o ≥ sub32 len 4 then some (.error o)
      else
        (u32At data o).bind fun l =>
          if l = 0 ∨ l > sub32 (sub32 len o) 4 then some (.error o)
          else
            (u8At data (o + l + 3)).map fun last =>
              if last ≠ 0 then .error (add32 (add32 o l) 3)
              else .ok ⟨add32 o 4, add32 (add32 o 4) l, 0, add32 (add32 (add32 o 4) l) 12, o⟩
  | .codewscope =>
      if len < 19 ∨ o ≥ sub32 len 14 then some (.error o)
      else
        (u32At data o).bind fun l1 =>
          if l1 < 14 ∨ l1 ≥ sub32 len o then some (.error o)
          else if add32 o l1 ≥ len then some (.error o)
          else
            (u32At data (add32 o 4)).bind fun l2 =>
              if l2 = 0 ∨ l2 ≥ sub32 (sub32 (sub32 len o) 4) 4 then some (.error o)
              else if add32 (add32 (add32 (add32 o 4) 4) l2) 4 ≥ add32 o l1 then
                some (.error (add32 o 4))
              else
                (u32At data (add32 (add32 (add32 o 4) 4) l2)).map fun doclen =>
                  if add32 (add32 (add32 (add32 o 4) 4) l2) doclen ≠ add32 o l1 then
                    .error (add32 (add32 (add32 o 4) 4) l2)
                  else .ok ⟨add32 o 4, add32 o 8, add32 (add32 (add32 o 4) 4) l2, add32 o l1, o⟩
  | .int32 => some (.ok ⟨0, 0, 0, add32 o 4, o⟩)
  | .decimal128 => some (.ok ⟨0, 0, 0, add32 o 16, o⟩)
  | .maxkey | .minkey | .null | .undefined => some (.ok ⟨0, 0, 0, o, o⟩)
  | .eod => some (.error o)

/-- `bson_iter_t`.  `raw` are the `len` bytes, `none` where it is `NULL`. -/
structure BsonIterT where
  raw : Option (List UInt8)
  off : ℕ
  type : ℕ
  key : ℕ
  d1 : ℕ
  d2 : ℕ
  d3 : ℕ
  d4 : ℕ
  nextOff : ℕ
  errOff : ℕ
  deriving DecidableEq, Repr

/-- `mark_invalid`. -/
def BsonIterT.markInvalid (iter : BsonIterT) : BsonIterT := { iter with raw := none, nextOff := 0 }

/-- What a call returns: the iterator, whether an element was decoded, and `unsupported`. -/
structure NextResult where
  iter : BsonIterT
  ok : Bool
  unsupported : Bool
  deriving DecidableEq, Repr

/-- The offset behind the key at `key`, which is looked for where its length is not known. -/
def keyEnd (data : List UInt8) (key nextKeylen : ℕ) : Option (Option ℕ) :=
  if nextKeylen = 0 then (scanNul data data.length key).map fun nul => nul.map (add32 · 1)
  else some (some (add32 (add32 key nextKeylen) 1))

/-- `_bson_iter_next_internal`. -/
def nextInternal (iter : BsonIterT) (nextKeylen : ℕ) : Option NextResult :=
  match iter.raw with
  | none => some ⟨iter, false, false⟩
  | some data =>
      let off := iter.nextOff
      let iter : BsonIterT :=
        { iter with off, type := off, key := add32 off 1, d1 := 0, d2 := 0, d3 := 0, d4 := 0 }
      (keyEnd data (add32 off 1) nextKeylen).bind fun
        | none => some ⟨iter.markInvalid, false, false⟩
        | some o =>
            (u8At data off).bind fun b =>
              match BsonType.ofByte b with
              | none => some ⟨{ iter with d1 := o, errOff := o }.markInvalid, false, true⟩
              | some type =>
                  (switchFields data type off o).map fun
                    | .error e => ⟨{ iter with d1 := o, errOff := e }.markInvalid, false, false⟩
                    | .ok f =>
                        let iter : BsonIterT :=
                          { iter with d1 := o, d2 := f.d2, d3 := f.d3, d4 := f.d4 }
                        if f.nextOff ≥ data.length then
                          ⟨{ iter with errOff := f.o }.markInvalid, false, false⟩
                        else ⟨{ iter with nextOff := f.nextOff, errOff := 0 }, true, false⟩

/-! ## It stays inside -/

/-- The fields the `switch` sets for a value at `o`. -/
def dataFields (data : List UInt8) (type : BsonType) (o : ℕ) : ℕ × ℕ × ℕ :=
  match type with
  | .code | .symbol | .utf8 => (o + 4, 0, 0)
  | .binary => (o + 4, o + 5, 0)
  | .regex => (((findNul data o).getD 0) + 1, 0, 0)
  | .dbpointer => (o + 4, o + 4 + readU32le data o, 0)
  | .codewscope => (o + 4, o + 8, o + 4 + 4 + readU32le data (o + 4))
  | _ => (0, 0, 0)

/-- The `switch` reads inside the bytes; it goes where `fillDataFields` goes, and where that does
not go anywhere it sets an error. -/
def Switches (data : List UInt8) (type : BsonType) (off o : ℕ) : Prop :=
  (∃ e, 0 < e ∧ fillDataFields data type o = none ∧
    switchFields data type off o = some (.error e)) ∨
  ∃ next p, 0 < p ∧ fillDataFields data type o = some next ∧
    switchFields data type off o = some (.ok ⟨(dataFields data type o).1,
      (dataFields data type o).2.1, (dataFields data type o).2.2, next, p⟩)

section Switch

variable {data : List UInt8} {off o : ℕ} (hsize : data.length < 2 ^ 31) (ho : 0 < o)
  (hle : o ≤ data.length)

include hsize ho hle

/-- A type whose values have a fixed size. -/
lemma switches_fixed {type : BsonType} (n : ℕ) (hn : n ≤ 16)
    (hfill : fillDataFields data type o = some (o + n))
    (hfields : dataFields data type o = (0, 0, 0))
    (hswitch : switchFields data type off o = some (.ok ⟨0, 0, 0, add32 o n, o⟩)) :
    Switches data type off o := by
  refine .inr ⟨o + n, o, ho, hfill, ?_⟩
  rw [hswitch, hfields, add32_eq (by omega)]

lemma switches_string {type : BsonType} (htype : type = .code ∨ type = .symbol ∨ type = .utf8) :
    Switches data type off o := by
  have hl := readU32le_lt data o
  have ho4 : add32 o 4 = o + 4 := add32_eq (by omega)
  have hfields : dataFields data type o = (o + 4, 0, 0) := by
    rcases htype with rfl | rfl | rfl <;> rfl
  have hfill : fillDataFields data type o = fillDataFields data .utf8 o := by
    rcases htype with rfl | rfl | rfl <;> rfl
  have hswitch : switchFields data type off o = switchFields data .utf8 off o := by
    rcases htype with rfl | rfl | rfl <;> rfl
  rw [Switches, hfields, hfill, hswitch]
  simp only [fillDataFields, switchFields, ho4]
  by_cases hroom : o + 4 ≥ data.length
  · rw [if_pos hroom, if_pos hroom]
    exact .inl ⟨o, ho, rfl, rfl⟩
  rw [if_neg hroom, if_neg hroom, u32At_eq (by omega), Option.bind_some,
    sub32_eq (by omega) (by omega)]
  generalize readU32le data o = l at hl
  by_cases hlong : l > data.length - (o + 4)
  · rw [if_pos hlong, if_pos hlong]
    exact .inl ⟨o, ho, rfl, rfl⟩
  rw [if_neg hlong, if_neg hlong, add32_eq (by omega)]
  by_cases hend : l = 0 ∨ o + 4 + l ≥ data.length
  · rw [if_pos hend, if_pos hend]
    exact .inl ⟨o, ho, rfl, rfl⟩
  rw [if_neg hend, if_neg hend, u8At_eq (by omega), Option.map_some]
  by_cases hlast : data.getD (o + 4 + (l - 1)) 0 ≠ 0
  · rw [if_pos hlast, if_pos hlast, sub32_eq (by omega) (by omega)]
    exact .inl ⟨_, by omega, rfl, rfl⟩
  · rw [if_neg hlast, if_neg hlast]
    exact .inr ⟨_, o, ho, rfl, rfl⟩

omit hle in
lemma switches_bool : Switches data .bool off o := by
  rw [Switches]
  simp only [fillDataFields, switchFields, dataFields]
  by_cases hroom : o ≥ data.length
  · rw [if_pos hroom, if_pos hroom]
    exact .inl ⟨o, ho, rfl, rfl⟩
  rw [if_neg hroom, if_neg hroom, u8At_eq (by omega), Option.map_some]
  by_cases hval : data.getD o 0 ≠ 0 ∧ data.getD o 0 ≠ 1
  · rw [if_pos hval, if_pos hval]
    exact .inl ⟨o, ho, rfl, rfl⟩
  · rw [if_neg hval, if_neg hval, add32_eq (by omega)]
    exact .inr ⟨_, o, ho, rfl, rfl⟩

omit ho hle in
lemma switches_regex (hoff : 0 < off) : Switches data .regex off o := by
  rw [Switches]
  simp only [fillDataFields, switchFields, dataFields, scanNul_eq, Option.bind_some]
  rcases heor : findNul data o with _ | eor
  · exact .inl ⟨off, hoff, rfl, rfl⟩
  simp only [Option.map_some, Option.getD_some]
  rcases heoo : findNul data (eor + 1) with _ | eoo
  · exact .inl ⟨off, hoff, rfl, rfl⟩
  · have hlt := findNul_lt heoo
    have hle' := le_of_findNul heoo
    simp only [add32_eq (show eoo + 1 < 2 ^ 32 by omega)]
    exact .inr ⟨eoo + 1, eoo, by omega, rfl, rfl⟩

variable (hfive : 5 < data.length)

include hfive

lemma switches_binary : Switches data .binary off o := by
  have hl := readU32le_lt data o
  have ho4 : add32 o 4 = o + 4 := add32_eq (by omega)
  have ho5 : add32 o 5 = o + 5 := add32_eq (by omega)
  rw [Switches]
  simp only [fillDataFields, switchFields, dataFields, ho4, ho5]
  rw [sub32_eq (by omega) (by omega)]
  by_cases hroom : o ≥ data.length - 4
  · rw [if_pos hroom, if_pos hroom]
    exact .inl ⟨o, ho, rfl, rfl⟩
  rw [if_neg hroom, if_neg hroom, u32At_eq (by omega), Option.bind_some,
    sub32_eq hle (by omega), sub32_eq (by omega) (by omega)]
  generalize readU32le data o = l at hl
  by_cases hlong : l ≥ data.length - o - 4
  · rw [if_pos hlong, if_pos hlong]
    exact .inl ⟨o, ho, rfl, rfl⟩
  rw [if_neg hlong, if_neg hlong, u8At_eq (by omega), Option.bind_some, add32_eq (by omega)]
  by_cases hsubtype : data.getD (o + 4) 0 = 2
  · rw [if_pos hsubtype, if_pos hsubtype]
    by_cases hshort : l < 4
    · rw [if_pos hshort, if_pos hshort]
      exact .inl ⟨o, ho, rfl, rfl⟩
    rw [if_neg hshort, if_neg hshort, u32At_eq (by omega), Option.map_some]
    by_cases hother : Int.bmod (readU32le data (o + 5)) (2 ^ 32) ≠ l - 4
    · rw [if_pos hother, if_pos hother]
      exact .inl ⟨o + 5, by omega, rfl, rfl⟩
    · rw [if_neg hother, if_neg hother]
      exact .inr ⟨_, o, ho, rfl, rfl⟩
  · rw [if_neg hsubtype, if_neg hsubtype]
    exact .inr ⟨_, o, ho, rfl, rfl⟩

lemma switches_document {type : BsonType} (htype : type = .array ∨ type = .document) :
    Switches data type off o := by
  have hl := readU32le_lt data o
  have hfields : dataFields data type o = (0, 0, 0) := by
    rcases htype with rfl | rfl <;> rfl
  have hfill : fillDataFields data type o = fillDataFields data .document o := by
    rcases htype with rfl | rfl <;> rfl
  have hswitch : switchFields data type off o = switchFields data .document off o := by
    rcases htype with rfl | rfl <;> rfl
  rw [Switches, hfields, hfill, hswitch]
  simp only [fillDataFields, switchFields]
  rw [sub32_eq (by omega) (by omega)]
  by_cases hroom : o ≥ data.length - 4
  · rw [if_pos hroom, if_pos hroom]
    exact .inl ⟨o, ho, rfl, rfl⟩
  rw [if_neg hroom, if_neg hroom, u32At_eq (by omega), Option.map_some, sub32_eq hle (by omega)]
  generalize readU32le data o = l at hl
  by_cases hlong : l > data.length ∨ l > data.length - o
  · rw [if_pos hlong, if_pos hlong]
    exact .inl ⟨o, ho, rfl, rfl⟩
  · rw [if_neg hlong, if_neg hlong, add32_eq (by omega)]
    exact .inr ⟨_, o, ho, rfl, rfl⟩

lemma switches_dbpointer : Switches data .dbpointer off o := by
  have hl := readU32le_lt data o
  have ho4 : add32 o 4 = o + 4 := add32_eq (by omega)
  rw [Switches]
  simp only [fillDataFields, switchFields, dataFields, ho4]
  rw [sub32_eq (by omega) (by omega)]
  by_cases hroom : o ≥ data.length - 4
  · rw [if_pos hroom, if_pos hroom]
    exact .inl ⟨o, ho, rfl, rfl⟩
  rw [if_neg hroom, if_neg hroom, u32At_eq (by omega), Option.bind_some,
    sub32_eq hle (by omega), sub32_eq (by omega) (by omega)]
  generalize readU32le data o = l at hl
  by_cases hlong : l = 0 ∨ l > data.length - o - 4
  · rw [if_pos hlong, if_pos hlong]
    exact .inl ⟨o, ho, rfl, rfl⟩
  rw [if_neg hlong, if_neg hlong, u8At_eq (by omega), Option.map_some]
  by_cases hlast : data.getD (o + l + 3) 0 ≠ 0
  · rw [if_pos hlast, if_pos hlast, add32_eq (show o + l < 2 ^ 32 by omega),
      add32_eq (by omega)]
    exact .inl ⟨_, by omega, rfl, rfl⟩
  · rw [if_neg hlast, if_neg hlast, add32_eq (show o + 4 + l < 2 ^ 32 by omega),
      add32_eq (by omega)]
    exact .inr ⟨_, o, ho, rfl, rfl⟩

lemma switches_codewscope : Switches data .codewscope off o := by
  have hl1 := readU32le_lt data o
  have hl2 := readU32le_lt data (o + 4)
  have ho4 : add32 o 4 = o + 4 := add32_eq (by omega)
  have ho44 : add32 (o + 4) 4 = o + 4 + 4 := add32_eq (by omega)
  have ho8 : add32 o 8 = o + 8 := add32_eq (by omega)
  rw [Switches]
  simp only [fillDataFields, switchFields, dataFields, ho4, ho44, ho8]
  by_cases hshort : data.length < 19
  · rw [if_pos (.inl hshort), if_pos (.inl hshort)]
    exact .inl ⟨o, ho, rfl, rfl⟩
  rw [sub32_eq (by omega) (by omega)]
  by_cases hroom : data.length < 19 ∨ o ≥ data.length - 14
  · rw [if_pos hroom, if_pos hroom]
    exact .inl ⟨o, ho, rfl, rfl⟩
  rw [if_neg hroom, if_neg hroom, u32At_eq (by omega), Option.bind_some, sub32_eq hle (by omega)]
  generalize readU32le data o = l1 at hl1
  by_cases hlong : l1 < 14 ∨ l1 ≥ data.length - o
  · rw [if_pos hlong, if_pos hlong]
    exact .inl ⟨o, ho, rfl, rfl⟩
  have hol1 : add32 o l1 = o + l1 := add32_eq (by omega)
  rw [if_neg hlong, if_neg hlong, hol1]
  by_cases hend : o + l1 ≥ data.length
  · rw [if_pos hend, if_pos hend]
    exact .inl ⟨o, ho, rfl, rfl⟩
  rw [if_neg hend, if_neg hend, u32At_eq (by omega), Option.bind_some,
    sub32_eq (a := data.length - o) (by omega) (by omega), sub32_eq (by omega) (by omega)]
  generalize readU32le data (o + 4) = l2 at hl2
  by_cases htext : l2 = 0 ∨ l2 ≥ data.length - o - 4 - 4
  · rw [if_pos htext, if_pos htext]
    exact .inl ⟨o, ho, rfl, rfl⟩
  have hol2 : add32 (o + 4 + 4) l2 = o + 4 + 4 + l2 := add32_eq (by omega)
  rw [if_neg htext, if_neg htext, hol2, add32_eq (show o + 4 + 4 + l2 + 4 < 2 ^ 32 by omega)]
  by_cases hscope : o + 4 + 4 + l2 + 4 ≥ o + l1
  · rw [if_pos hscope, if_pos hscope]
    exact .inl ⟨o + 4, by omega, rfl, rfl⟩
  rw [if_neg hscope, if_neg hscope, u32At_eq (by omega), Option.map_some]
  have hdoc := readU32le_lt data (o + 4 + 4 + l2)
  generalize readU32le data (o + 4 + 4 + l2) = doclen at hdoc
  -- a sum that wraps is below `o`, so it is not what it is compared with either
  have hwrap : add32 (o + 4 + 4 + l2) doclen ≠ o + l1 ↔ o + 4 + 4 + l2 + doclen ≠ o + l1 := by
    rw [add32]
    omega
  by_cases hother : o + 4 + 4 + l2 + doclen ≠ o + l1
  · rw [if_pos hother, if_pos (hwrap.mpr hother)]
    exact .inl ⟨_, by omega, rfl, rfl⟩
  · rw [if_neg hother, if_neg (mt hwrap.mp hother)]
    exact .inr ⟨_, o, ho, rfl, rfl⟩

/-- **The `switch`**, for every type. -/
lemma switches (hoff : 0 < off) (type : BsonType) : Switches data type off o := by
  cases type with
  | eod => exact .inl ⟨o, ho, rfl, rfl⟩
  | code => exact switches_string hsize ho hle (.inl rfl)
  | symbol => exact switches_string hsize ho hle (.inr (.inl rfl))
  | utf8 => exact switches_string hsize ho hle (.inr (.inr rfl))
  | binary => exact switches_binary hsize ho hle hfive
  | array => exact switches_document hsize ho hle hfive (.inl rfl)
  | document => exact switches_document hsize ho hle hfive (.inr rfl)
  | bool => exact switches_bool hsize ho
  | regex => exact switches_regex hsize hoff
  | dbpointer => exact switches_dbpointer hsize ho hle hfive
  | codewscope => exact switches_codewscope hsize ho hle hfive
  | double | dateTime | int64 | timestamp =>
      exact switches_fixed hsize ho hle 8 (by omega) rfl rfl rfl
  | oid => exact switches_fixed hsize ho hle 12 (by omega) rfl rfl rfl
  | int32 => exact switches_fixed hsize ho hle 4 (by omega) rfl rfl rfl
  | decimal128 => exact switches_fixed hsize ho hle 16 (by omega) rfl rfl rfl
  | maxkey | minkey | null | undefined => exact .inr ⟨o, o, ho, rfl, rfl⟩

end Switch

/-- The iterator at an element, with all its fields. -/
def BsonIterT.atElement (next : BsonIter) : BsonIterT :=
  let fields := dataFields next.raw (bsonIterType next) next.d1
  { raw := some next.raw, off := next.off, type := next.off, key := next.off + 1, d1 := next.d1
    d2 := fields.1, d3 := fields.2.1, d4 := fields.2.2, nextOff := next.nextOff, errOff := 0 }

/-- What `bsonIterNext` needs of an iterator. -/
def BsonIterT.position (iter : BsonIterT) (data : List UInt8) : BsonIter :=
  ⟨data, iter.off, iter.d1, iter.nextOff⟩

/-- An iterator that is not invalid: it has fewer than `2 ^ 31` bytes, and its next element starts
behind the header, inside them unless they are too few for a document. -/
structure BsonIterT.Valid (iter : BsonIterT) (data : List UInt8) : Prop where
  raw : iter.raw = some data
  size : data.length < 2 ^ 31
  started : 4 ≤ iter.nextOff
  inside : iter.nextOff < max data.length 5

/-- How a call ends that decodes nothing: no key is found and `err_off` is as it was, or it is set.
The iterator is invalid. -/
def Stops (iter : BsonIterT) (data : List UInt8) (result : NextResult) : Prop :=
  result.ok = false ∧ result.iter.raw = none ∧
    ((findNul data (iter.nextOff + 1) = none ∧ result.iter.errOff = iter.errOff) ∨
      ((findNul data (iter.nextOff + 1)).isSome ∧ 0 < result.iter.errOff))

section Position

variable {iter : BsonIter} {z : ℕ} {type : BsonType}
  (hnul : findNul iter.raw (iter.nextOff + 1) = some z)

include hnul

lemma bsonIterNext_of_unsupported
    (htype : BsonType.ofByte (iter.raw.getD iter.nextOff 0) = none) :
    bsonIterNext iter = none := by
  rw [bsonIterNext, hnul]
  simp only
  rw [htype]

variable (htype : BsonType.ofByte (iter.raw.getD iter.nextOff 0) = some type)

include htype

lemma bsonIterNext_of_corrupt (hfill : fillDataFields iter.raw type (z + 1) = none) :
    bsonIterNext iter = none := by
  rw [bsonIterNext, hnul]
  simp only
  rw [htype]
  simp only
  rw [hfill]

lemma bsonIterNext_of_fill {next : ℕ}
    (hfill : fillDataFields iter.raw type (z + 1) = some next) :
    bsonIterNext iter = if next ≥ iter.raw.length then none
      else some ⟨iter.raw, iter.nextOff, z + 1, next⟩ := by
  rw [bsonIterNext, hnul]
  simp only
  rw [htype]
  simp only
  rw [hfill]

end Position

/-- **Each call reads inside the bytes of the iterator, and does what `bsonIterNext` does.** -/
lemma nextInternal_eq {iter : BsonIterT} {data : List UInt8} (h : iter.Valid data) :
    (∃ next, bsonIterNext (iter.position data) = some next ∧
      nextInternal iter 0 = some ⟨.atElement next, true, false⟩) ∨
    (bsonIterNext (iter.position data) = none ∧
      ∃ result, nextInternal iter 0 = some result ∧ Stops iter data result) := by
  have hsize := h.size
  have hstarted := h.started
  have hinside := h.inside
  have hkey : add32 iter.nextOff 1 = iter.nextOff + 1 := add32_eq (by omega)
  rw [nextInternal, h.raw]
  simp only [hkey, keyEnd, if_true, scanNul_eq, Option.map_some, Option.bind_some]
  rcases hnul : findNul data (iter.nextOff + 1) with _ | z
  · have hpure : bsonIterNext (iter.position data) = none := by
      rw [bsonIterNext, BsonIterT.position, hnul]
    exact .inr ⟨hpure, _, rfl, rfl, rfl, .inl ⟨hnul, rfl⟩⟩
  have hz := findNul_lt hnul
  have hlez := le_of_findNul hnul
  have hz1 : add32 z 1 = z + 1 := add32_eq (by omega)
  have hsome : (findNul data (iter.nextOff + 1)).isSome := by
    rw [hnul]
    rfl
  simp only [Option.map_some, hz1, u8At_eq (show iter.nextOff < data.length by omega),
    Option.bind_some]
  rcases htype : BsonType.ofByte (data.getD iter.nextOff 0) with _ | type
  · refine .inr ⟨bsonIterNext_of_unsupported hnul htype, _, rfl, rfl, rfl, .inr ⟨hsome, ?_⟩⟩
    exact Nat.succ_pos z
  obtain ⟨e, he, hfill, hswitch⟩ | ⟨next, p, hp, hfill, hswitch⟩ :=
    switches hsize (Nat.succ_pos z) hz (by omega) (show 0 < iter.nextOff by omega) type
  · simp only [hswitch, Option.map_some]
    exact .inr ⟨bsonIterNext_of_corrupt hnul htype hfill, _, rfl, rfl, rfl, .inr ⟨hsome, he⟩⟩
  · have hpure : bsonIterNext (iter.position data) = if next ≥ data.length then none
        else some ⟨data, iter.nextOff, z + 1, next⟩ := bsonIterNext_of_fill hnul htype hfill
    simp only [hswitch, Option.map_some]
    by_cases hend : next ≥ data.length
    · rw [if_pos hend] at hpure ⊢
      exact .inr ⟨hpure, _, rfl, rfl, rfl, .inr ⟨hsome, hp⟩⟩
    · rw [if_neg hend] at hpure ⊢
      refine .inl ⟨_, hpure, ?_⟩
      have htype' : bsonIterType ⟨data, iter.nextOff, z + 1, next⟩ = type := by
        rw [bsonIterType, htype, Option.getD_some]
      rw [BsonIterT.atElement, htype']

/-- The iterator at an element is valid again. -/
lemma BsonIterT.Valid.atElement {iter : BsonIterT} {data : List UInt8} (h : iter.Valid data)
    {next : BsonIter} (hnext : bsonIterNext (iter.position data) = some next) :
    (BsonIterT.atElement next).Valid data := by
  obtain ⟨hraw, hd1, hle, hlt⟩ := bsonIterNext_advances hnext
  have hstarted := h.started
  simp only [BsonIterT.position] at hraw hd1 hlt
  refine ⟨congrArg some hraw, h.size, ?_, ?_⟩
  · simp only [BsonIterT.atElement]
    omega
  · simp only [BsonIterT.atElement]
    omega

end CBootstrap.Bson
