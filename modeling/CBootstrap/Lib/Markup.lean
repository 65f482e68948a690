import CBootstrap.Lib.Bytes

/-!
# Nested markup

A reader for text made of tags, `<name attribute="value">` … `</name>` and
`<name attribute="value"/>`, with comments and white space between them, and nothing else.  It
has two stages.  The lexer (`Lexer.step`) goes over the bytes one by one and cuts out the tags;
it refuses a tag that is not finished when its line ends or when the next one starts.  The
second stage (`nest`) keeps a stack of open elements, and refuses a closing tag that is not the
one of the innermost open element.

`parse text = some elements` is therefore what it means for a text to be well nested, with the
elements it has.  Two relations make it compositional.  `Reads text elements` says that `text`
can be read wherever a tag may begin and contributes `elements`; it holds of a concatenation
when it holds of the parts.  `Jams text` says that the lexer fails somewhere in `text`, and
`Dangles text` that it ends inside a tag; after text that reads, these carry over to the whole.
-/

namespace Markup

open Bytes

/-! ## Tags -/

/-- A tag, with its text between the angle brackets. -/
inductive Token
  /-- `<content>` -/
  | start (content : List UInt8)
  /-- `<content/>` -/
  | empty (content : List UInt8)
  /-- `</name>` -/
  | stop (name : List UInt8)
  deriving DecidableEq, Repr

/-- Where the lexer is: between tags, or inside one, in or out of quotes. -/
inductive Mode
  | between
  | inside (content : List UInt8) (quoted : Bool)
  deriving DecidableEq, Repr

/-- The state of the lexer: where it is, and the tags found so far. -/
structure Lexer where
  mode : Mode
  tokens : List Token
  deriving DecidableEq, Repr

/-- What `<content>` is; a comment is no token. -/
def classify (content : List UInt8) : List Token :=
  if ascii "!--" <+: content ∧ ascii "--" <:+ content then []
  else if content.head? = some 47 then [.stop content.tail]
  else if content.getLast? = some 47 then [.empty content.dropLast]
  else [.start content]

/-- One byte: `"` is 34, `<` is 60, `>` is 62, a space is 32 and a newline 10. -/
def Lexer.step (lexer : Lexer) (b : UInt8) : Option Lexer :=
  match lexer.mode with
  | .between =>
      if b = 60 then some ⟨.inside [] false, lexer.tokens⟩
      else if b = 32 ∨ b = 10 then some lexer
      else none
  | .inside content quoted =>
      if b = 60 then none
      else if b = 34 then some ⟨.inside (content ++ [b]) (!quoted), lexer.tokens⟩
      else if quoted then some ⟨.inside (content ++ [b]) true, lexer.tokens⟩
      else if b = 10 then none
      else if b = 62 then some ⟨.between, lexer.tokens ++ classify content⟩
      else some ⟨.inside (content ++ [b]) false, lexer.tokens⟩

/-- Go over a text. -/
def lex (lexer : Lexer) (text : List UInt8) : Option Lexer := text.foldlM Lexer.step lexer

@[simp] lemma lex_nil (lexer : Lexer) : lex lexer [] = some lexer := rfl

lemma lex_append (lexer : Lexer) (s t : List UInt8) :
    lex lexer (s ++ t) = (lex lexer s).bind (fun l => lex l t) := by
  rw [lex, List.foldlM_append]
  rfl

lemma lex_cons (lexer : Lexer) (b : UInt8) (t : List UInt8) :
    lex lexer (b :: t) = (lexer.step b).bind (fun l => lex l t) := rfl

/-! ## Elements -/

/-- An element: empty, or with the elements between its two tags. -/
inductive Element
  | leaf (name : List UInt8)
  | node (name : List UInt8) (children : List Element)

/-- The name of an element: what stands before its attributes.  The first attribute's own name
is the last word before the first quote. -/
def nameOf (content : List UInt8) : List UInt8 :=
  if 34 ∈ content then
    ((content.takeWhile (· ≠ 34)).reverse.dropWhile (· ≠ 32)).tail.reverse
  else content

/-- Match the tags: `found` are the elements found so far inside the innermost open element,
`outer` the open elements with the elements found before them. -/
def nest : List Token → List Element → List (List UInt8 × List Element) → Option (List Element)
  | [], found, [] => some found
  | [], _, _ :: _ => none
  | .empty content :: tokens, found, outer =>
      nest tokens (found ++ [.leaf (nameOf content)]) outer
  | .start content :: tokens, found, outer => nest tokens [] ((nameOf content, found) :: outer)
  | .stop name :: tokens, found, (opened, before) :: outer =>
      if name = opened then nest tokens (before ++ [.node opened found]) outer else none
  | .stop _ :: _, _, [] => none

/-- The elements of a text, `none` if it is not well nested. -/
def parse (text : List UInt8) : Option (List Element) :=
  match lex ⟨.between, []⟩ text with
  | some ⟨.between, tokens⟩ => nest tokens [] []
  | _ => none

/-! ## Text that reads -/

/-- The text takes the lexer from between tags to between tags and adds these tokens. -/
def Lexes (text : List UInt8) (tokens : List Token) : Prop :=
  ∀ before, lex ⟨.between, before⟩ text = some ⟨.between, before ++ tokens⟩

/-- The tokens add these elements to the innermost open element, and leave no other open. -/
def Nests (tokens : List Token) (elements : List Element) : Prop :=
  ∀ rest found outer, nest (tokens ++ rest) found outer = nest rest (found ++ elements) outer

/-- The text contributes these elements, wherever a tag may begin. -/
def Reads (text : List UInt8) (elements : List Element) : Prop :=
  ∃ tokens, Lexes text tokens ∧ Nests tokens elements

lemma Lexes.append {s t : List UInt8} {ss ts : List Token} (hs : Lexes s ss) (ht : Lexes t ts) :
    Lexes (s ++ t) (ss ++ ts) := by
  intro before
  rw [lex_append, hs before, Option.bind_some, ht, List.append_assoc]

lemma Nests.append {ss ts : List Token} {es fs : List Element} (hs : Nests ss es)
    (ht : Nests ts fs) : Nests (ss ++ ts) (es ++ fs) := by
  intro rest found outer
  rw [List.append_assoc, hs, ht, List.append_assoc]

/-- **Concatenation.** -/
lemma Reads.append {s t : List UInt8} {es fs : List Element} (hs : Reads s es)
    (ht : Reads t fs) : Reads (s ++ t) (es ++ fs) := by
  obtain ⟨ss, hslex, hsnest⟩ := hs
  obtain ⟨ts, htlex, htnest⟩ := ht
  exact ⟨ss ++ ts, hslex.append htlex, hsnest.append htnest⟩

/-- A text that reads is well nested, with the elements it contributes. -/
theorem parse_of_reads {text : List UInt8} {elements : List Element} (h : Reads text elements) :
    parse text = some elements := by
  obtain ⟨tokens, hlex, hnest⟩ := h
  have hall := hnest [] [] []
  rw [List.append_nil, List.nil_append] at hall
  rw [parse, hlex []]
  exact hall

/-! ## The inside of a tag -/

/-- The text stays inside the tag it began in, and leaves no quote open. -/
def Scans (content : List UInt8) : Prop :=
  ∀ before tokens, lex ⟨.inside before false, tokens⟩ content =
    some ⟨.inside (before ++ content) false, tokens⟩

lemma Scans.append {s t : List UInt8} (hs : Scans s) (ht : Scans t) : Scans (s ++ t) := by
  intro before tokens
  rw [lex_append, hs, Option.bind_some, ht, List.append_assoc]

/-- A byte that means nothing special inside a tag. -/
def Plain (b : UInt8) : Prop := b ≠ 34 ∧ b ≠ 60 ∧ b ≠ 62 ∧ b ≠ 10

instance (b : UInt8) : Decidable (Plain b) := by
  unfold Plain
  infer_instance

lemma scans_of_plain {content : List UInt8} (h : ∀ b ∈ content, Plain b) : Scans content := by
  induction content with
  | nil =>
      intro before tokens
      rw [lex_nil, List.append_nil]
  | cons b content ih =>
      obtain ⟨h34, h60, h62, h10⟩ := h b List.mem_cons_self
      intro before tokens
      have hstep : Lexer.step ⟨.inside before false, tokens⟩ b =
          some ⟨.inside (before ++ [b]) false, tokens⟩ := by
        simp [Lexer.step, h34, h60, h62, h10]
      rw [lex_cons, hstep, Option.bind_some, ih (fun c hc => h c (List.mem_cons_of_mem b hc)),
        List.append_assoc, List.singleton_append]

/-- Text that may stand between quotes: a quote would end it, and a `<` is not allowed. -/
def Quotable (s : List UInt8) : Prop := ∀ b ∈ s, b ≠ 34 ∧ b ≠ 60

instance (s : List UInt8) : Decidable (Quotable s) := by
  unfold Quotable
  infer_instance

lemma Quotable.append {s t : List UInt8} (hs : Quotable s) (ht : Quotable t) :
    Quotable (s ++ t) := fun b hb => (List.mem_append.mp hb).elim (hs b) (ht b)

lemma lex_quoted {s : List UInt8} (h : Quotable s) (before : List UInt8) (tokens : List Token) :
    lex ⟨.inside before true, tokens⟩ s = some ⟨.inside (before ++ s) true, tokens⟩ := by
  induction s generalizing before with
  | nil => rw [lex_nil, List.append_nil]
  | cons b s ih =>
      obtain ⟨h34, h60⟩ := h b List.mem_cons_self
      have hstep : Lexer.step ⟨.inside before true, tokens⟩ b =
          some ⟨.inside (before ++ [b]) true, tokens⟩ := by
        simp [Lexer.step, h34, h60]
      rw [lex_cons, hstep, Option.bind_some, ih (fun c hc => h c (List.mem_cons_of_mem b hc)),
        List.append_assoc, List.singleton_append]

lemma scans_quoted {s : List UInt8} (h : Quotable s) : Scans (34 :: s ++ [34]) := by
  intro before tokens
  have hopen : Lexer.step ⟨.inside before false, tokens⟩ 34 =
      some ⟨.inside (before ++ [34]) true, tokens⟩ := rfl
  have hclose (c : List UInt8) : Lexer.step ⟨.inside c true, tokens⟩ 34 =
      some ⟨.inside (c ++ [34]) false, tokens⟩ := rfl
  rw [List.cons_append, lex_cons, hopen, Option.bind_some, lex_append, lex_quoted h,
    Option.bind_some, lex_cons, hclose]
  simp

/-- The name of an element whose first attribute has a name without spaces. -/
lemma nameOf_attribute {name attr : List UInt8} (rest : List UInt8) (hname : 34 ∉ name)
    (hattr : ∀ b ∈ attr, b ≠ 34 ∧ b ≠ 32) :
    nameOf (name ++ 32 :: attr ++ 34 :: rest) = name := by
  have htake : (name ++ 32 :: attr ++ 34 :: rest).takeWhile (· ≠ 34) =
      name ++ 32 :: attr := by
    rw [List.takeWhile_append_of_pos]
    · simp
    · intro b hb
      rcases List.mem_append.mp hb with hb | hb
      · exact decide_eq_true (fun h => hname (h ▸ hb))
      · rcases List.mem_cons.mp hb with rfl | hb
        · decide
        · exact decide_eq_true (hattr b hb).1
  have hdrop : (name ++ 32 :: attr).reverse.dropWhile (· ≠ 32) = 32 :: name.reverse := by
    rw [List.reverse_append, List.reverse_cons, List.append_assoc, List.dropWhile_append_of_pos]
    · simp
    · intro b hb
      exact decide_eq_true (hattr b (List.mem_reverse.mp hb)).2
  rw [nameOf, if_pos (by simp), htake, hdrop, List.tail_cons, List.reverse_reverse]

/-- Text between the angle brackets of an opening tag: it is scanned, and begins with neither
`!` nor `/`. -/
structure TagText (content : List UInt8) : Prop where
  scans : Scans content
  head : ∃ b tail, content = b :: tail ∧ b ≠ 33 ∧ b ≠ 47

/-- The bytes from `<` up to the end of the tag's text. -/
lemma lex_open {content : List UInt8} (h : Scans content) (before : List Token) :
    lex ⟨.between, before⟩ (60 :: content) = some ⟨.inside content false, before⟩ := by
  have hstep : Lexer.step ⟨.between, before⟩ 60 = some ⟨.inside [] false, before⟩ := rfl
  rw [lex_cons, hstep, Option.bind_some, h, List.nil_append]

/-- The byte `>`. -/
lemma lex_close (content : List UInt8) (before : List Token) :
    lex ⟨.inside content false, before⟩ [62] = some ⟨.between, before ++ classify content⟩ := rfl

lemma lexes_tag {content : List UInt8} (h : Scans content) :
    Lexes (60 :: content ++ [62]) (classify content) := by
  intro before
  rw [lex_append, lex_open h, Option.bind_some, lex_close]

/-! ## What the tags contribute -/

lemma not_comment {b : UInt8} (hb : b ≠ 33) (tail : List UInt8) :
    ¬ (ascii "!--" <+: b :: tail ∧ ascii "--" <:+ b :: tail) := by
  rintro ⟨⟨t, ht⟩, -⟩
  have hhead : ascii "!--" = [33, 45, 45] := by decide
  rw [hhead, List.cons_append, List.cons.injEq] at ht
  exact hb ht.1.symm

/-- An opening tag. -/
lemma lexes_start {content : List UInt8} (h : TagText content)
    (hlast : content.getLast? ≠ some 47) :
    Lexes (60 :: content ++ [62]) [.start content] := by
  have hclass : classify content = [.start content] := by
    obtain ⟨b, tail, rfl, h33, h47⟩ := h.head
    rw [classify, if_neg (not_comment h33 tail), if_neg (by simpa using h47), if_neg hlast]
  rw [← hclass]
  exact lexes_tag h.scans

/-- **An empty element.** -/
lemma Reads.leaf {content : List UInt8} (h : TagText content) :
    Reads (60 :: content ++ [47, 62]) [.leaf (nameOf content)] := by
  have hslash : Scans [47] := scans_of_plain (by decide)
  have hclass : classify (content ++ [47]) = [.empty content] := by
    obtain ⟨b, tail, rfl, h33, h47⟩ := h.head
    have hlast : (b :: tail ++ [47]).getLast? = some 47 := List.getLast?_concat
    have hcomment := not_comment h33 (tail ++ [47])
    rw [← List.cons_append] at hcomment
    rw [classify, if_neg hcomment, if_neg (by simpa using h47), if_pos hlast,
      List.dropLast_concat]
  refine ⟨[.empty content], ?_, ?_⟩
  · have htag := lexes_tag (h.scans.append hslash)
    rw [hclass] at htag
    simpa using htag
  · intro rest found outer
    rfl

/-- **An element with its two tags.** -/
lemma Reads.node {content name body : List UInt8} {elements : List Element} (h : TagText content)
    (hlast : content.getLast? ≠ some 47) (hname : nameOf content = name)
    (hplain : ∀ b ∈ name, Plain b) (hbody : Reads body elements) :
    Reads (60 :: content ++ [62] ++ body ++ (60 :: 47 :: name ++ [62])) [.node name elements] := by
  obtain ⟨tokens, hlex, hnest⟩ := hbody
  have hstop : Lexes (60 :: 47 :: name ++ [62]) [.stop name] := by
    have hclass : classify (47 :: name) = [.stop name] := by
      rw [classify, if_neg (not_comment (by decide) name), if_pos List.head?_cons, List.tail_cons]
    rw [← hclass]
    refine lexes_tag (scans_of_plain (show ∀ b ∈ 47 :: name, Plain b from ?_))
    intro b hb
    rcases List.mem_cons.mp hb with rfl | hb
    · decide
    · exact hplain b hb
  refine ⟨[.start content] ++ tokens ++ [.stop name], ?_, ?_⟩
  · exact ((lexes_start h hlast).append hlex).append hstop
  · intro rest found outer
    rw [List.append_assoc, List.append_assoc, List.singleton_append, nest, hname, hnest,
      List.singleton_append, nest, if_pos rfl, List.nil_append]

lemma nests_nil : Nests [] [] := by
  intro rest found outer
  rw [List.nil_append, List.append_nil]

/-- White space contributes nothing. -/
lemma lexes_blank {s : List UInt8} (h : ∀ b ∈ s, b = 32 ∨ b = 10) : Lexes s [] := by
  induction s with
  | nil =>
      intro before
      rw [lex_nil, List.append_nil]
  | cons b s ih =>
      intro before
      have hstep : Lexer.step ⟨.between, before⟩ b = some ⟨.between, before⟩ := by
        rcases h b List.mem_cons_self with rfl | rfl
        · rfl
        · rfl
      rw [lex_cons, hstep, Option.bind_some, ih (fun c hc => h c (List.mem_cons_of_mem b hc))]

lemma Reads.blank {s : List UInt8} (h : ∀ b ∈ s, b = 32 ∨ b = 10) : Reads s [] :=
  ⟨[], lexes_blank h, nests_nil⟩

lemma Reads.nil : Reads [] [] := Reads.blank (by simp)

/-- A comment contributes nothing. -/
lemma Reads.comment {s : List UInt8} (h : ∀ b ∈ s, Plain b) :
    Reads (60 :: (ascii "!--" ++ s ++ ascii "--") ++ [62]) [] := by
  have hclass : classify (ascii "!--" ++ s ++ ascii "--") = [] := by
    rw [classify, if_pos]
    exact ⟨⟨s ++ ascii "--", by rw [List.append_assoc]⟩, ⟨ascii "!--" ++ s, rfl⟩⟩
  have hscans : Scans (ascii "!--" ++ s ++ ascii "--") :=
    ((scans_of_plain (by decide)).append (scans_of_plain h)).append (scans_of_plain (by decide))
  refine ⟨[], ?_, nests_nil⟩
  rw [← hclass]
  exact lexes_tag hscans

/-! ## Text that does not read -/

/-- The lexer fails in this text. -/
def Jams (text : List UInt8) : Prop := ∀ before, lex ⟨.between, before⟩ text = none

/-- The lexer ends inside a tag. -/
def Dangles (text : List UInt8) : Prop :=
  ∀ before, ∃ content quoted tokens,
    lex ⟨.between, before⟩ text = some ⟨.inside content quoted, tokens⟩

lemma Jams.append {s : List UInt8} (hs : Jams s) (t : List UInt8) : Jams (s ++ t) := by
  intro before
  rw [lex_append, hs before, Option.bind_none]

lemma Lexes.jams {s t : List UInt8} {tokens : List Token} (hs : Lexes s tokens) (ht : Jams t) :
    Jams (s ++ t) := by
  intro before
  rw [lex_append, hs before, Option.bind_some, ht]

lemma Lexes.dangles {s t : List UInt8} {tokens : List Token} (hs : Lexes s tokens)
    (ht : Dangles t) : Dangles (s ++ t) := by
  intro before
  rw [lex_append, hs before, Option.bind_some]
  exact ht _

/-- A tag that is not finished. -/
lemma dangles_open {content : List UInt8} (h : Scans content) : Dangles (60 :: content) :=
  fun before => ⟨content, false, before, lex_open h before⟩

/-- A tag that is not finished at the end of its line. -/
lemma jams_open {content : List UInt8} (h : Scans content) : Jams (60 :: content ++ [10]) := by
  intro before
  rw [lex_append, lex_open h, Option.bind_some]
  rfl

lemma parse_of_jams {text : List UInt8} (h : Jams text) : parse text = none := by
  rw [parse, h]

lemma parse_of_dangles {text : List UInt8} (h : Dangles text) : parse text = none := by
  obtain ⟨content, quoted, tokens, hlex⟩ := h []
  rw [parse, hlex]

end Markup
