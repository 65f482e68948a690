import CBootstrap.Kmip.Reader
import CBootstrap.Kmip.Tags

/-!
# `kmip_dump`: the XML dumper over the TTLV reader

`kmip_dump_recursive_xml` walks one reader in a loop, prints an element for each item and
calls itself on a subreader for each Structure.  The translation keeps the parts of it that
decide what the dump can be trusted for:

* the results of the value reads are *not* looked at: the loop goes on with whatever the
  out-parameter holds.  What an out-parameter holds when nothing was stored in it is not
  defined by C, so `Env` supplies it, and every theorem is stated for all of them;
* `subreader` lives across the iterations of one call.  `kmip_reader_in_place` leaves it alone
  when it fails, so a later Structure recurses into an earlier one's reader, where the earlier
  recursion left it; before the first success it is taken as an empty reader
  (`KmipReader.unset`);
* `malloc (len + 1)` is computed in `uint32_t` and `valuestr[len]` is written before the text
  is read, and `gmtime` may return `NULL`, which is dereferenced.  Both end the process: they
  are the exit `fault`.

The loop is translated with fuel, one unit for each iteration and each call; `dumpFuel` is
enough for every input (`kmipDumpLoop_isSome`, `CBootstrap.Kmip.DumpRuns`).  Beside the text,
the state carries a ghost `log` of what happened: each iteration begun, each value used, each
call made, each iteration that went on, each level left.  Nothing reads it; the statements
about whole dumps are about it.
-/

namespace CBootstrap.Kmip

open Bytes

/-! ## The state -/

/-- What the dumper takes from outside: the C library's date formatting, and the contents of
variables nothing was stored in. -/
structure Env where
  /-- `strftime (timestr, 100, "%FT%T%z", gmtime (&time))`, or `none` where `gmtime` returns
  `NULL`. -/
  strftime : ℤ → Option (List UInt8)
  /-- The content of an `int32_t` or `int64_t` nothing was stored in. -/
  int : ℤ
  /-- The content of a `uint32_t` or `uint64_t` nothing was stored in. -/
  uint : ℕ
  /-- The memory behind a `uint8_t *` nothing was stored in. -/
  mem : List UInt8

/-- A ghost record of one thing the dumper did. -/
inductive Event
  /-- The loop is about to read a tag at `reader`. -/
  | head (reader : KmipReader)
  /-- A value of `size` bytes was used after the call that reads it at `reader` returned
  `ok`. -/
  | use (type : KmipItemType) (reader : KmipReader) (size : ℕ) (ok : Bool)
  /-- A level running on `caller` called itself on `callee`. -/
  | call (caller callee : KmipReader)
  /-- An iteration that started at `before` went on to the next one at `after`. -/
  | turn (before after : KmipReader)
  /-- A level returned, through the `error:` label or not. -/
  | leave (malformed : Bool) (reader : KmipReader)
  deriving DecidableEq, Repr

/-- The text appended so far (`kms_request_str_t`) and the ghost log. -/
structure Out where
  str : List UInt8
  log : List Event

/-- `kms_request_str_appendf`, `_append_char` and `_append_chars`. -/
def Out.append (out : Out) (text : List UInt8) : Out := { out with str := out.str ++ text }

/-- Record an event. -/
def Out.note (out : Out) (event : Event) : Out := { out with log := out.log ++ [event] }

/-- How a call of `kmip_dump_recursive_xml` ends. -/
inductive Exit
  /-- `kmip_reader_read_tag` returned `false`. -/
  | eof
  /-- Through the `error:` label. -/
  | malformed
  /-- The process died. -/
  | fault
  deriving DecidableEq, Repr

/-- What a call leaves behind. -/
structure Level where
  exit : Exit
  out : Out
  reader : KmipReader

/-- The reader a call starts its `subreader` variable with. -/
def KmipReader.unset : KmipReader := ⟨[], 0, 0⟩

/-! ## The pieces of an iteration -/

/-- `prefix_level`. -/
def prefixLevel (level : ℕ) : List UInt8 := List.replicate level 32

/-- A C string: the bytes up to the first NUL. -/
def cstr (bytes : List UInt8) : List UInt8 := bytes.takeWhile (· ≠ 0)

/-- `<%s tag="0x%02x%02x%02x"`. -/
def openTag (tag : ℕ) : List UInt8 :=
  ascii "<" ++ ascii (kmipTagTypeToString tag) ++ ascii " tag=\"0x" ++
    hexByte (tag / 2 ^ 16 % 256) ++ hexByte (tag / 2 ^ 8 % 256) ++ hexByte (tag % 256) ++
    ascii "\""

/-- ` type="%s"`. -/
def typeAttribute (type : KmipItemType) : List UInt8 :=
  ascii " type=\"" ++ ascii (kmipItemTypeToString type) ++ ascii "\""

/-- ` value="…"/>`. -/
def valueAttribute (text : List UInt8) : List UInt8 :=
  ascii " value=\"" ++ text ++ ascii "\"/>"

/-- `</%s>\n`. -/
def closeTag (tag : ℕ) : List UInt8 :=
  ascii "</" ++ ascii (kmipTagTypeToString tag) ++ ascii ">\n"

/-- What one branch of the `if`/`else if` chain does: fall out of the chain, go to `error`, or
kill the process. -/
inductive Branch
  | next (out : Out) (reader : KmipReader)
  | error (out : Out) (reader : KmipReader)
  | fault (out : Out) (reader : KmipReader)

/-- The branches of the `if`/`else if` chain other than Structure. -/
def dumpValue (env : Env) (tag : ℕ) (type : KmipItemType) (len : ℕ) (reader : KmipReader)
    (out : Out) : Branch :=
  match type with
  | .integer =>
      let value := kmipReaderReadInteger reader env.int
      .next ((out.note (.use type reader 8 value.ok)).append
        (valueAttribute (decimal value.out))) value.reader
  | .longInteger =>
      let value := kmipReaderReadLongInteger reader env.int
      .next ((out.note (.use type reader 8 value.ok)).append
        (valueAttribute (decimal value.out))) value.reader
  | .bigInteger | .interval =>
      -- the element is left open: no `/>` is printed
      .next (out.append (ascii " value=\"(TODO)\"")) (kmipReaderNext reader len).reader
  | .enumeration =>
      let value := kmipReaderReadEnumeration reader env.uint
      .next ((out.note (.use type reader 8 value.ok)).append
        (valueAttribute (decimal value.out) ++ addCommentDescribingEnumValue tag value.out))
        value.reader
  | .boolean =>
      let u64 := kmipReaderReadU64 reader env.uint
      .next ((out.note (.use type reader 8 u64.ok)).append
        (valueAttribute (ascii (if u64.out = 1 then "true" else "false")))) u64.reader
  | .textString =>
      -- `valuestr = malloc (len + 1); valuestr[len] = 0;` comes before the read
      if (len + 1) % 2 ^ 32 ≤ len then .fault out reader
      else
        let value := kmipReaderReadString reader env.mem len
        .next ((out.note (.use type reader len value.ok)).append
          (valueAttribute (cstr (value.out.take len)))) value.reader
  | .byteString =>
      let bytes := kmipReaderReadBytes reader env.mem len
      .next ((out.note (.use type reader len bytes.ok)).append
        (valueAttribute ((bytes.out.take len).flatMap (fun b => hexByte b.toNat)))) bytes.reader
  | .dateTime =>
      let u64 := kmipReaderReadU64 reader env.uint
      let out := out.note (.use type reader 8 u64.ok)
      match env.strftime (toSigned 64 u64.out) with
      | none => .fault out u64.reader
      | some timestr => .next (out.append (valueAttribute timestr)) u64.reader
  | .struct | .other _ => .error out reader

/-! ## The loop -/

/-- The `while (true)` loop of `kmip_dump_recursive_xml`.  `subreader` is the variable of that
name, as the previous iteration left it; `level` is a `uint32_t`. -/
def kmipDumpLoop (env : Env) : ℕ → Out → KmipReader → KmipReader → ℕ → Option Level
  | 0, _, _, _, _ => none
  | fuel + 1, out, reader, subreader, level =>
      let out := out.note (.head reader)
      let tag := kmipReaderReadTag reader env.uint
      if !tag.ok then
        -- EOF
        some ⟨.eof, out.note (.leave false tag.reader), tag.reader⟩
      else
        let error (out : Out) (reader : KmipReader) : Option Level :=
          some ⟨.malformed, (out.append (ascii "<Malformed/>")).note (.leave true reader), reader⟩
        let out := (out.append (prefixLevel level)).append (openTag tag.out)
        let u8 := kmipReaderReadType tag.reader env.uint
        if !u8.ok then error out u8.reader
        else
          let type := KmipItemType.ofU8 u8.out
          let out := out.append (typeAttribute type)
          let len := kmipReaderReadLength u8.reader env.uint
          if !len.ok then error out len.reader
          else if type = .struct then
            let sub := kmipReaderInPlace len.reader len.reader.pos len.out subreader
            let out := (out.note (.use type len.reader (computePaddedLength len.out) sub.ok)).append
              (ascii ">\n")
            match kmipDumpLoop env fuel (out.note (.call len.reader sub.out)) sub.out
              KmipReader.unset ((level + 1) % 2 ^ 32) with
            | none => none
            | some sub =>
                if sub.exit = .fault then some ⟨.fault, sub.out, len.reader⟩
                else
                  let out := (sub.out.append (prefixLevel level)).append (closeTag tag.out)
                  let next := kmipReaderNext len.reader len.out
                  kmipDumpLoop env fuel (out.note (.turn reader next.reader)) next.reader
                    sub.reader level
          else
            match dumpValue env tag.out type len.out len.reader out with
            | .error out reader => error out reader
            | .fault out reader => some ⟨.fault, out, reader⟩
            | .next out after =>
                kmipDumpLoop env fuel ((out.append (ascii "\n")).note (.turn reader after)) after
                  subreader level

/-- `kmip_dump_recursive_xml`. -/
def kmipDumpRecursiveXml (env : Env) (fuel : ℕ) (out : Out) (reader : KmipReader) (level : ℕ) :
    Option Level :=
  kmipDumpLoop env fuel out reader KmipReader.unset level

/-- Enough fuel for every buffer of the given length. -/
def dumpFuel (len : ℕ) : ℕ := len * len + len + 1

/-! ## The whole dump -/

/-- The comma-separated byte list `kmip_dump` prints after the XML. -/
def kmipDumpByteList : List UInt8 → List UInt8
  | [] => []
  | [b] => ascii "0x" ++ hexByte b.toNat
  | b :: bs => ascii "0x" ++ hexByte b.toNat ++ ascii ", " ++ kmipDumpByteList bs

/-- The call `kmip_dump` makes of `kmip_dump_recursive_xml`. -/
def kmipDumpXml (env : Env) (data : List UInt8) : Option Level :=
  kmipDumpRecursiveXml env (dumpFuel data.length) ⟨[], []⟩ (kmipReaderNew data data.length) 0

/-- `kmip_dump`: the text it returns, `none` where the process dies first. -/
def kmipDump (env : Env) (data : List UInt8) : Option (List UInt8) :=
  match kmipDumpXml env data with
  | none => none
  | some xml =>
      if xml.exit = .fault then none
      else some (xml.out.str ++ ascii "\n" ++ kmipDumpByteList data ++ ascii "\n")

end CBootstrap.Kmip
