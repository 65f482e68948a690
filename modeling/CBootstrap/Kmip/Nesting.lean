import CBootstrap.Kmip.Ttlv
import CBootstrap.Lib.Markup

/-!
# Is the dump well nested?

What `kmip_dump` prints looks like XML, and its readers rely on the nesting: one element for
each item, closed on its own line or, for a Structure, by its own closing tag behind its
children.  `elementsAll` is that shape for a forest of items, and `Markup.parse` finds the shape
of a text, if it has one.

`kmipDumpRecursiveXml_nested_iff` says for which messages the two agree: exactly those all of
whose values are `Printable`.  A BigInteger and an Interval are announced as `(TODO)` with no
`/>` behind it, so their element is still open when the line ends.  The two other values that
are not printable kill the process in the middle of their line: a date that `gmtime` cannot
break down, and a text of `2 ^ 32 - 1` bytes, for which `malloc (len + 1)` asks for nothing.
-/

namespace CBootstrap.Kmip

open Bytes Markup

/-! ## Shapes -/

/-- The name of an item's element. -/
def elementName (tag : UInt16) : List UInt8 := ascii (kmipTagTypeToString (tagOf tag))

mutual

/-- The element an item should contribute. -/
def Item.element : Item → Element
  | .value tag _ => .leaf (elementName tag)
  | .struct tag children => .node (elementName tag) (elementsAll children)

/-- The elements a forest should contribute. -/
def elementsAll : List Item → List Element
  | [] => []
  | item :: items => item.element :: elementsAll items

end

/-- A text value without markup characters. -/
def Value.Clean : Value → Prop
  | .textString text => ∀ b ∈ text.bytes, b ≠ 34 ∧ b ≠ 60 ∧ b ≠ 62
  | _ => True

/-- The characters of a date: `strftime` with `%FT%T%z` writes digits, signs, colons and a
`T`. -/
def dateBytes : List UInt8 := ascii "0123456789+-:T"

/-! ## The pieces of a line -/

/-- A byte of a name: a letter, a digit, or one of the six characters between the two cases. -/
def nameByte (b : UInt8) : Bool :=
  Nat.ble 65 b.toNat && Nat.ble b.toNat 122 || Nat.ble 48 b.toNat && Nat.ble b.toNat 57

/-- A name the markup reader can handle: plain bytes, the first neither `!` nor `/`. -/
def PlainName (name : List UInt8) : Prop :=
  (∀ b ∈ name, Plain b) ∧ ∃ b tail, name = b :: tail ∧ b ≠ 33 ∧ b ≠ 47

lemma nameByte_plain {b : UInt8} (h : nameByte b = true) : Plain b ∧ b ≠ 33 ∧ b ≠ 47 := by
  have hne (k : UInt8) (hk : nameByte k = false) : b ≠ k := by
    rintro rfl
    rw [hk] at h
    cases h
  exact ⟨⟨hne 34 rfl, hne 60 rfl, hne 62 rfl, hne 10 rfl⟩, hne 33 rfl, hne 47 rfl⟩

lemma plainName_of_nameByte {s : String} (hne : s.toByteArray.data.toList ≠ [])
    (h : s.toByteArray.data.toList.all nameByte = true) : PlainName (ascii s) := by
  rw [List.all_eq_true] at h
  have hascii : ascii s = s.toByteArray.data.toList := by
    apply ascii_eq_utf8
    intro b hb
    have hb := h b hb
    simp only [nameByte, Bool.or_eq_true, Bool.and_eq_true, Nat.ble_eq] at hb
    omega
  rw [hascii]
  refine ⟨fun b hb => (nameByte_plain (h b hb)).1, ?_⟩
  obtain ⟨b, tail, hbytes⟩ := List.exists_cons_of_ne_nil hne
  exact ⟨b, tail, hbytes, (nameByte_plain (h b (by rw [hbytes]; exact List.mem_cons_self))).2⟩

lemma kmipTagNames_plain : ∀ entry ∈ kmipTagNames, PlainName (ascii entry.2) := by
  have hall : kmipTagNames.all (fun entry => !entry.2.toByteArray.data.toList.isEmpty &&
      entry.2.toByteArray.data.toList.all nameByte) = true := by decide +kernel
  intro entry hentry
  have h := List.all_eq_true.mp hall entry hentry
  rw [Bool.and_eq_true, Bool.not_eq_true', List.isEmpty_eq_false_iff] at h
  exact plainName_of_nameByte h.1 h.2

/-- Every element name is plain. -/
lemma elementName_plain (tag : UInt16) : PlainName (elementName tag) := by
  rw [elementName, kmipTagTypeToString]
  cases hname : kmipTagNames.lookup (tagOf tag) with
  | none => exact ⟨by decide, 40, ascii "Unknown Tag)", by decide, by decide, by decide⟩
  | some name =>
      obtain ⟨l, r, hmem, -⟩ := List.lookup_eq_some_iff.mp hname
      exact kmipTagNames_plain (tagOf tag, name) (by rw [hmem]; simp)

lemma hexByte_quotable (n : ℕ) : Quotable (hexByte n) := by
  have hdigit : ∀ k < 16, hexDigit k ≠ 34 ∧ hexDigit k ≠ 60 := by decide
  intro b hb
  rcases List.mem_pair.mp hb with rfl | rfl
  · exact hdigit _ (Nat.mod_lt _ (by norm_num))
  · exact hdigit _ (Nat.mod_lt _ (by norm_num))

lemma decimal_quotable (i : ℤ) : Quotable (decimal i) := by
  intro b hb
  rcases mem_decimal hb with rfl | ⟨hlo, hhi⟩
  · decide
  · constructor
    · rintro rfl
      exact absurd hlo (by decide)
    · rintro rfl
      exact absurd hhi (by decide)

/-- A comment describing an enumeration value, if there is one. -/
lemma reads_comment (tag value : ℕ) : Reads (addCommentDescribingEnumValue tag value) [] := by
  have hnames : ∀ entry ∈ operationNames, ∀ b ∈ ascii entry.2, Plain b := by decide +kernel
  rw [addCommentDescribingEnumValue]
  split_ifs with htag
  · have hplain : ∀ b ∈ ascii ((operationNames.lookup value).getD "Unknown"), Plain b := by
      cases hname : operationNames.lookup value with
      | none => decide
      | some name =>
          obtain ⟨l, r, hmem, -⟩ := List.lookup_eq_some_iff.mp hname
          exact hnames (value, name) (by rw [hmem]; simp)
    have hopen : ascii "<!-- " = 60 :: (ascii "!--" ++ [32]) := by decide
    have hclose : ascii " -->" = [32] ++ ascii "--" ++ [62] := by decide
    have hreads := Reads.comment (s := [32] ++ ascii ((operationNames.lookup value).getD "Unknown")
      ++ [32]) ?_
    · rw [hopen, hclose]
      simpa using hreads
    · intro b hb
      rcases List.mem_append.mp hb with hb | hb
      · rcases List.mem_append.mp hb with hb | hb
        · rw [List.mem_singleton.mp hb]
          decide
        · exact hplain b hb
      · rw [List.mem_singleton.mp hb]
        decide
  · exact Reads.nil

/-! ## The lines of an item -/

/-- The text of an item's opening tag up to and including its type. -/
def headContent (tag : UInt16) (type : KmipItemType) : List UInt8 :=
  elementName tag ++ 32 :: ascii "tag=" ++
    34 :: (ascii "0x" ++ hexByte (tagOf tag / 2 ^ 16 % 256) ++ hexByte (tagOf tag / 2 ^ 8 % 256) ++
      hexByte (tagOf tag % 256) ++ 34 :: ascii " type=" ++
        (34 :: ascii (kmipItemTypeToString type) ++ [34]))

lemma openTag_typeAttribute (tag : UInt16) (type : KmipItemType) :
    openTag (tagOf tag) ++ typeAttribute type = 60 :: headContent tag type := by
  have h1 : ascii "<" = [60] := by decide
  have h2 : ascii " tag=\"0x" = 32 :: ascii "tag=" ++ [34] ++ ascii "0x" := by decide
  have h3 : ascii " type=\"" = ascii " type=" ++ [34] := by decide
  have h4 : ascii "\"" = [34] := by decide
  rw [openTag, typeAttribute, headContent, elementName, h1, h2, h3, h4]
  simp

lemma scans_headContent (tag : UInt16) (type : KmipItemType) : Scans (headContent tag type) := by
  have hname : Scans (elementName tag ++ 32 :: ascii "tag=") :=
    (scans_of_plain (elementName_plain tag).1).append (scans_of_plain (by decide))
  have hhex : Scans (34 :: (ascii "0x" ++ hexByte (tagOf tag / 2 ^ 16 % 256) ++
      hexByte (tagOf tag / 2 ^ 8 % 256) ++ hexByte (tagOf tag % 256)) ++ [34]) := by
    have h0x : Quotable (ascii "0x") := by decide
    exact scans_quoted (((h0x.append (hexByte_quotable _)).append (hexByte_quotable _)).append
      (hexByte_quotable _))
  have htype : Scans (ascii " type=" ++ (34 :: ascii (kmipItemTypeToString type) ++ [34])) := by
    refine (scans_of_plain (by decide)).append (scans_quoted ?_)
    cases type with
    | other code => exact (by decide : Quotable (ascii "(Unknown Type)"))
    | _ => decide
  have hall := (hname.append hhex).append htype
  rw [headContent]
  simpa using hall

/-- The header of an item, with more attributes behind it, is the text of a tag. -/
lemma tagText_headContent (tag : UInt16) (type : KmipItemType) {more : List UInt8}
    (hmore : Scans more) : TagText (headContent tag type ++ more) := by
  refine ⟨(scans_headContent tag type).append hmore, ?_⟩
  obtain ⟨-, b, tail, hname, h33, h47⟩ := elementName_plain tag
  rw [headContent, hname]
  exact ⟨b, _, rfl, h33, h47⟩

lemma nameOf_headContent (tag : UInt16) (type : KmipItemType) (more : List UInt8) :
    nameOf (headContent tag type ++ more) = elementName tag := by
  have hquote : 34 ∉ elementName tag := fun h => ((elementName_plain tag).1 34 h).1 rfl
  rw [headContent, List.append_assoc, List.cons_append (a := 34)]
  exact nameOf_attribute _ hquote (by decide)

lemma blank_prefixLevel (level : ℕ) : ∀ b ∈ prefixLevel level, b = 32 ∨ b = 10 :=
  fun _ hb => Or.inl (List.mem_replicate.mp hb).2

lemma blank_newline : ∀ b ∈ ascii "\n", b = 32 ∨ b = 10 := by decide

lemma getLast_headContent (tag : UInt16) (type : KmipItemType) :
    (headContent tag type).getLast? ≠ some 47 := by
  rw [headContent, List.getLast?_append_cons, ← List.cons_append, ← List.append_assoc,
    ← List.cons_append, List.getLast?_concat]
  decide

/-- The text of a printable value can stand between quotes, and a comment may follow it. -/
lemma attribute_of_printable {env : Env}
    (hdate : ∀ t s, env.strftime t = some s → ∀ b ∈ s, b ∈ dateBytes) {v : Value}
    (hp : v.Printable env) (hc : v.Clean) (tag : ℕ) :
    ∃ text comment, v.attribute env tag = valueAttribute text ++ comment ∧ Quotable text ∧
      Reads comment [] := by
  cases v with
  | integer value => exact ⟨_, [], (List.append_nil _).symm, decimal_quotable _, Reads.nil⟩
  | longInteger value => exact ⟨_, [], (List.append_nil _).symm, decimal_quotable _, Reads.nil⟩
  | bigInteger bytes => exact hp.elim
  | interval seconds => exact hp.elim
  | enumeration value => exact ⟨_, _, rfl, decimal_quotable _, reads_comment _ _⟩
  | boolean value =>
      refine ⟨_, [], (List.append_nil _).symm, ?_, Reads.nil⟩
      cases value <;> decide
  | textString text =>
      refine ⟨_, [], (List.append_nil _).symm, ?_, Reads.nil⟩
      exact fun b hb => ⟨(hc b hb).1, (hc b hb).2.1⟩
  | byteString bytes =>
      refine ⟨_, [], (List.append_nil _).symm, ?_, Reads.nil⟩
      intro b hb
      obtain ⟨x, -, hx⟩ := List.mem_flatMap.mp hb
      exact hexByte_quotable _ b hx
  | dateTime time =>
      refine ⟨_, [], (List.append_nil _).symm, ?_, Reads.nil⟩
      obtain ⟨timestr, htime⟩ := Option.isSome_iff_exists.mp hp
      have hbytes : Quotable dateBytes := by decide
      rw [htime, Option.getD_some]
      exact fun b hb => hbytes b (hdate _ _ htime b hb)

/-- **The line of a printable value** is one empty element. -/
lemma reads_value {env : Env}
    (hdate : ∀ t s, env.strftime t = some s → ∀ b ∈ s, b ∈ dateBytes) {v : Value}
    (hp : v.Printable env) (hc : v.Clean) (level : ℕ) (tag : UInt16) :
    Reads (prefixLevel level ++ openTag (tagOf tag) ++ typeAttribute v.type ++
      v.attribute env (tagOf tag) ++ ascii "\n") [.leaf (elementName tag)] := by
  obtain ⟨text, comment, hattr, htext, hcomment⟩ := attribute_of_printable hdate hp hc (tagOf tag)
  have h1 : ascii " value=\"" = ascii " value=" ++ [34] := by decide
  have h2 : ascii "\"/>" = [34] ++ [47, 62] := by decide
  have hvalue : Scans (ascii " value=" ++ (34 :: text ++ [34])) :=
    (scans_of_plain (by decide)).append (scans_quoted htext)
  have hleaf := Reads.leaf (tagText_headContent tag v.type hvalue)
  rw [nameOf_headContent] at hleaf
  have hall := (((Reads.blank (blank_prefixLevel level)).append hleaf).append hcomment).append
    (Reads.blank blank_newline)
  have hline : prefixLevel level ++ openTag (tagOf tag) ++ typeAttribute v.type ++
      v.attribute env (tagOf tag) ++ ascii "\n" = prefixLevel level ++
        (60 :: (headContent tag v.type ++ (ascii " value=" ++ (34 :: text ++ [34]))) ++ [47, 62]) ++
        comment ++ ascii "\n" := by
    rw [List.append_assoc (prefixLevel level), openTag_typeAttribute, hattr, valueAttribute, h1, h2]
    simp
  rw [hline]
  exact hall

/-- The line that opens a Structure, cut into its parts. -/
lemma struct_line (level : ℕ) (tag : UInt16) :
    prefixLevel level ++ openTag (tagOf tag) ++ typeAttribute .struct ++ ascii ">\n" =
      prefixLevel level ++ (60 :: headContent tag .struct ++ [62]) ++ ascii "\n" := by
  have h : ascii ">\n" = [62] ++ ascii "\n" := by decide
  rw [List.append_assoc (prefixLevel level), openTag_typeAttribute, h]
  simp

lemma tagText_struct (tag : UInt16) : TagText (headContent tag .struct) := by
  have h := tagText_headContent tag .struct (scans_of_plain (by decide : ∀ b ∈ [], Plain b))
  rwa [List.append_nil] at h

lemma lexes_struct (level : ℕ) (tag : UInt16) :
    Lexes (prefixLevel level ++ openTag (tagOf tag) ++ typeAttribute .struct ++ ascii ">\n")
      [.start (headContent tag .struct)] := by
  rw [struct_line]
  exact ((lexes_blank (blank_prefixLevel level)).append
    (lexes_start (tagText_struct tag) (getLast_headContent tag .struct))).append
    (lexes_blank blank_newline)

/-- **The lines of a Structure** are one element around those of its children. -/
lemma reads_struct {body : List UInt8} {elements : List Element} (hbody : Reads body elements)
    (level : ℕ) (tag : UInt16) :
    Reads (prefixLevel level ++ openTag (tagOf tag) ++ typeAttribute .struct ++ ascii ">\n" ++
      body ++ prefixLevel level ++ closeTag (tagOf tag)) [.node (elementName tag) elements] := by
  have hname : nameOf (headContent tag .struct) = elementName tag := by
    have h := nameOf_headContent tag .struct []
    rwa [List.append_nil] at h
  have hinner := ((Reads.blank blank_newline).append hbody).append
    (Reads.blank (blank_prefixLevel level))
  rw [List.nil_append, List.append_nil] at hinner
  have hnode := Reads.node (tagText_struct tag) (getLast_headContent tag .struct) hname
    (elementName_plain tag).1 hinner
  have hall := ((Reads.blank (blank_prefixLevel level)).append hnode).append
    (Reads.blank blank_newline)
  have hclose : closeTag (tagOf tag) = (60 :: 47 :: elementName tag ++ [62]) ++ ascii "\n" := by
    have h1 : ascii "</" = [60, 47] := by decide
    have h2 : ascii ">\n" = [62] ++ ascii "\n" := by decide
    rw [closeTag, h1, h2, elementName]
    simp
  rw [struct_line, hclose]
  simpa using hall

/-! ## Lines that break off -/

/-- The process dies after the type of a value has been printed. -/
lemma dangles_value (level : ℕ) (tag : UInt16) (type : KmipItemType) :
    Dangles (prefixLevel level ++ openTag (tagOf tag) ++ typeAttribute type) := by
  rw [List.append_assoc, openTag_typeAttribute]
  exact (lexes_blank (blank_prefixLevel level)).dangles (dangles_open (scans_headContent tag type))

/-- The line of a BigInteger or an Interval. -/
lemma jams_value (env : Env) {v : Value} (ht : v.Todo) (level : ℕ) (tag : UInt16) :
    Jams (prefixLevel level ++ openTag (tagOf tag) ++ typeAttribute v.type ++
      v.attribute env (tagOf tag) ++ ascii "\n") := by
  have hattr : v.attribute env (tagOf tag) = ascii " value=\"(TODO)\"" := by
    cases v with
    | bigInteger | interval => rfl
    | _ => exact ht.elim
  have hvalue : Scans (ascii " value=\"(TODO)\"") := by
    have h : ascii " value=\"(TODO)\"" = ascii " value=" ++ (34 :: ascii "(TODO)" ++ [34]) := by
      decide
    rw [h]
    exact (scans_of_plain (by decide)).append (scans_quoted (by decide))
  have hjams := (lexes_blank (blank_prefixLevel level)).jams
    (jams_open ((scans_headContent tag v.type).append hvalue))
  rw [List.append_assoc (prefixLevel level), openTag_typeAttribute, hattr]
  simpa [ascii] using hjams

/-! ## Whole dumps -/

/-- A branch only appends. -/
lemma dumpValue_prefix (env : Env) (tag : ℕ) (type : KmipItemType) (len : ℕ)
    (reader : KmipReader) (out : Out) :
    out.str <+: (dumpValue env tag type len reader out).out.str := by
  cases type with
  | textString =>
      rw [dumpValue]
      split_ifs
      · exact List.prefix_rfl
      · exact List.prefix_append _ _
  | dateTime =>
      simp only [dumpValue]
      cases env.strftime (toSigned 64 (kmipReaderReadU64 reader env.uint).out) with
      | none => exact List.prefix_rfl
      | some timestr => exact List.prefix_append _ _
  | struct | other => exact List.prefix_rfl
  | _ => exact List.prefix_append _ _

lemma Out.prefix_header (out : Out) (reader : KmipReader) (level tag : ℕ) (type : KmipItemType) :
    out.str <+: (out.header reader level tag type).str := by
  simp [Out.header, List.append_assoc]

/-- **A run only appends.** -/
lemma DumpRun.prefix_str {env : Env} {out : Out} {reader subreader : KmipReader} {level : ℕ}
    {r : Level} (h : DumpRun env out reader subreader level r) : out.str <+: r.out.str := by
  induction h with
  | eof hv hh => exact List.prefix_rfl
  | cut hv hh => simp [List.append_assoc]
  | @error out reader _ level tag type len out' reader' hv hh hs hd =>
      have hbranch := dumpValue_prefix env tag type len (reader.advance 8)
        (out.header reader level tag type)
      rw [hd] at hbranch
      exact ((out.prefix_header reader level tag type).trans hbranch).trans
        (List.prefix_append _ _)
  | @fault out reader _ level tag type len out' reader' hv hh hs hd =>
      have hbranch := dumpValue_prefix env tag type len (reader.advance 8)
        (out.header reader level tag type)
      rw [hd] at hbranch
      exact (out.prefix_header reader level tag type).trans hbranch
  | @value out reader _ level tag type len out' after r hv hh hs hd _ ih =>
      have hbranch := dumpValue_prefix env tag type len (reader.advance 8)
        (out.header reader level tag type)
      rw [hd] at hbranch
      exact (((out.prefix_header reader level tag type).trans hbranch).trans
        (List.prefix_append _ _)).trans ih
  | @structFault out reader _ level tag _ _ hv hh _ hf ih =>
      exact ((out.prefix_header reader level tag .struct).trans (List.prefix_append _ _)).trans ih
  | @struct out reader _ level tag _ _ _ hv hh _ hne _ ihsub ih =>
      refine ((out.prefix_header reader level tag .struct).trans (List.prefix_append _ _)).trans
        (ihsub.trans ?_)
      refine List.IsPrefix.trans ?_ ih
      simp [Out.exit, List.append_assoc]

/-- What the text of a run over a forest must be: the forest's elements, if every value in it is
printable; otherwise text that does not read, or text that stops inside a tag because the
process died there. -/
def Level.Nests (env : Env) (forest : List Item) (r : Level) (text : List UInt8) : Prop :=
  ((∀ v ∈ valuesAll forest, v.Printable env) ∧ r.exit = .eof ∧ Reads text (elementsAll forest)) ∨
  ((∃ v ∈ valuesAll forest, ¬ v.Printable env) ∧ (r.exit = .fault ∧ Dangles text ∨ Jams text))

/-- Lines that read, in front of what a run over the rest of the forest adds. -/
lemma Level.Nests.cons {env : Env} {item : Item} {items : List Item} {r : Level}
    {line text : List UInt8} (hitem : ∀ v ∈ item.values, v.Printable env)
    (hline : Reads line [item.element]) (h : r.Nests env items text) :
    r.Nests env (item :: items) (line ++ text) := by
  obtain ⟨tokens, hlex, -⟩ := id hline
  rcases h with ⟨hall, hexit, hreads⟩ | ⟨⟨v, hv, hbad⟩, hend⟩
  · refine Or.inl ⟨?_, hexit, hline.append hreads⟩
    intro v hv
    rcases List.mem_append.mp hv with hv | hv
    · exact hitem v hv
    · exact hall v hv
  · refine Or.inr ⟨⟨v, List.mem_append_right _ hv, hbad⟩, ?_⟩
    rcases hend with ⟨hexit, hdangles⟩ | hjams
    · exact Or.inl ⟨hexit, hlex.dangles hdangles⟩
    · exact Or.inr (hlex.jams hjams)

/-- **The nesting of a run.**  The recursion is on the forest, as for `DumpRun.renders`. -/
lemma DumpRun.nests {env : Env}
    (hdate : ∀ t s, env.strftime t = some s → ∀ b ∈ s, b ∈ dateBytes) :
    ∀ {forest : List Item} {out : Out} {reader subreader : KmipReader} {level : ℕ} {r : Level},
    DumpRun env out reader subreader level r → reader.rest = encodeAll forest → FitsAll forest →
    (∀ v ∈ valuesAll forest, v.Clean) →
    ∃ text, r.out.str = out.str ++ text ∧ r.Nests env forest text
  | [], out, reader, subreader, level, r, h, hrest, _, _ => by
      obtain ⟨hexit, hstr, -⟩ := h.of_nil hrest
      refine ⟨[], by rw [hstr, List.append_nil], Or.inl ⟨?_, hexit, Reads.nil⟩⟩
      intro v hv
      cases hv
  | .value tag v :: items, out, reader, subreader, level, r, h, hrest, hfits, hclean => by
      obtain ⟨hv8, hrest8, hnext⟩ := h.of_value hrest hfits.1
      by_cases hp : v.Printable env
      · obtain ⟨out', hvalue, hstr⟩ := dumpValue_of_printable env hv8 hrest8 hfits.1 (tagOf tag)
          (out.header reader level (tagOf tag) v.type) hp
        rw [hvalue] at hnext
        obtain ⟨text, htext, hnests⟩ := DumpRun.nests hdate hnext (rest_behind_value hv8 hrest8)
          hfits.2 (fun v hv => hclean v (List.mem_append_right _ hv))
        have hline := reads_value hdate hp (hclean v List.mem_cons_self) level tag
        refine ⟨_, ?_, hnests.cons (by simpa [Item.values] using hp) hline⟩
        rw [htext]
        simp [hstr, Out.header]
      · by_cases ht : v.Todo
        · -- the line jams, whatever follows it
          rw [dumpValue_of_todo env hv8 hrest8 hfits.1 (tagOf tag) _ ht] at hnext
          obtain ⟨more, hmore⟩ := hnext.prefix_str
          refine ⟨_, ?_, Or.inr ⟨⟨v, List.mem_cons_self, hp⟩,
            Or.inr ((jams_value env ht level tag).append more)⟩⟩
          rw [← hmore]
          simp [Out.header]
        · obtain ⟨out', reader', hfault, hstr⟩ := dumpValue_of_unprintable env hv8 hrest8 hfits.1
            (tagOf tag) (out.header reader level (tagOf tag) v.type) hp ht
          rw [hfault] at hnext
          refine ⟨_, ?_, Or.inr ⟨⟨v, List.mem_cons_self, hp⟩,
            Or.inl ⟨?_, dangles_value level tag v.type⟩⟩⟩
          · simp [hnext, hstr, Out.header]
          · rw [hnext]
  | .struct tag children :: items, out, reader, subreader, level, r, h, hrest, hfits, hclean => by
      obtain ⟨⟨body, callee, sub, hsub, hbody, hcallee, hdie, hgo⟩, hitems⟩ :=
        h.of_struct hrest hfits.1.1
      obtain ⟨text, htext, hchildren⟩ := DumpRun.nests hdate hsub hcallee hfits.1.2
        (fun v hv => hclean v (List.mem_append_left _ hv))
      rcases hchildren with ⟨hall, hexit, hreads⟩ | ⟨⟨v, hv, hbad⟩, hend⟩
      · obtain ⟨out', hrun, hout'⟩ := hgo (by simp [hexit])
        obtain ⟨text', htext', hnests⟩ := DumpRun.nests hdate hrun hitems hfits.2
          (fun v hv => hclean v (List.mem_append_right _ hv))
        refine ⟨_, ?_, hnests.cons hall (reads_struct hreads level tag)⟩
        rw [htext', hout', htext, hbody]
        simp
      · -- the closing tag and what follows it cannot mend the children
        have hopen := lexes_struct level tag
        have hmem : v ∈ valuesAll (.struct tag children :: items) := List.mem_append_left _ hv
        by_cases hf : sub.exit = .fault
        · obtain ⟨hexit, hout⟩ := hdie hf
          refine ⟨_, ?_, Or.inr ⟨⟨v, hmem, hbad⟩, hend.imp (fun hd => ?_) hopen.jams⟩⟩
          · rw [hout, htext, hbody]
            simp
          · exact ⟨hexit, hopen.dangles hd.2⟩
        · obtain ⟨out', hrun, hout'⟩ := hgo hf
          obtain ⟨more, hmore⟩ := hrun.prefix_str
          have hjams := hend.resolve_left (fun hd => hf hd.1)
          refine ⟨_, ?_, Or.inr ⟨⟨v, hmem, hbad⟩,
            Or.inr ((hopen.jams hjams).append (prefixLevel level ++ closeTag (tagOf tag) ++ more))⟩⟩
          rw [← hmore, hout', htext, hbody]
          simp

/-- A message: a forest of items whose lengths fit their fields, small enough to be one C
object, with no markup characters in its texts. -/
structure Message where
  forest : List Item
  fits : FitsAll forest
  size_lt : (encodeAll forest).length < 2 ^ 63
  clean : ∀ v ∈ valuesAll forest, v.Clean

lemma epochEnv_dates : ∀ t s, epochEnv.strftime t = some s → ∀ b ∈ s, b ∈ dateBytes := by
  intro t s h
  by_cases ht : t = 0
  · have hs : s = ascii "1970-01-01T00:00:00+0000" := by simpa [epochEnv, ht] using h.symm
    rw [hs]
    decide
  · simp [epochEnv, ht] at h

/-- A lease time: an Interval. -/
def intervalMessage : List Item := [.value 0x49 (.interval 3600)]

end CBootstrap.Kmip
