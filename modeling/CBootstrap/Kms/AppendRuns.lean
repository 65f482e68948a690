import CBootstrap.Kms.RequestStr

/-!
# Runs of appends

What a program does with a `kms_request_str_t` is a sequence of calls that append.  Whatever the
sequence, and whatever fresh memory holds, no call writes outside the block, and the text is what
the calls add, one behind the other (`runAppends_holds`).

Two of the functions need a word about what they add.  `kms_request_str_append_lowercase` adds
the text with its ASCII letters in lower case.  `kms_request_str_append_stripped` drops white space
at both ends, and puts one character for each run of it in between: a comma if the run has a
newline, a space if not.  It goes through the text once with two flags, and `squeeze` says the same
with the runs (`kmsRequestStrAppendStripped_holds`).

The size of the block is a power of two, and for the functions that reserve what they write it
depends on the length of the text alone, not on the calls (`runAppends_size`).
-/

namespace CBootstrap.Kms

/-! ## Stripping -/

/-- The characters that are not white space, each with the white space in front of it; `gap` is
what has been read of that. -/
def gapped (gap : List UInt8) : List UInt8 → List (List UInt8 × UInt8)
  | [] => []
  | c :: rest => if isspace c then gapped (gap ++ [c]) rest else (gap, c) :: gapped [] rest

/-- What stands for a run of white space. -/
def separator (gap : List UInt8) : List UInt8 :=
  if gap = [] then [] else if 10 ∈ gap then [44] else [32]

/-- A character, behind what stands for the white space in front of it. -/
def separated (p : List UInt8 × UInt8) : List UInt8 := separator p.1 ++ [p.2]

/-- The text without white space at its ends, and with one character for each run in between. -/
def squeeze (text : List UInt8) : List UInt8 :=
  (gapped [] (text.dropWhile isspace)).flatMap separated

lemma length_separator_le (gap : List UInt8) : (separator gap).length ≤ 1 := by
  unfold separator
  split_ifs <;> simp

lemma length_flatMap_gapped_le (gap src : List UInt8) :
    ((gapped gap src).flatMap separated).length ≤ 2 * src.length := by
  induction src generalizing gap with
  | nil => exact Nat.zero_le _
  | cons c src ih =>
      rw [gapped]
      split_ifs
      · exact le_trans (ih _) (by rw [List.length_cons]; omega)
      · have hsep := length_separator_le gap
        have hrest := ih []
        simp only [List.flatMap_cons, List.length_append, separated, List.length_cons,
          List.length_nil]
        omega

lemma length_squeeze_le (text : List UInt8) : (squeeze text).length ≤ 2 * text.length := by
  have hdrop : (text.dropWhile isspace).length ≤ text.length :=
    (List.dropWhile_suffix isspace).length_le
  exact le_trans (length_flatMap_gapped_le [] _) (by omega)

/-- The characters in `gapped` are not white space. -/
lemma isspace_of_mem_gapped {gap src : List UInt8} {p : List UInt8 × UInt8}
    (hp : p ∈ gapped gap src) : isspace p.2 = false := by
  induction src generalizing gap with
  | nil => exact absurd hp List.not_mem_nil
  | cons c src ih =>
      rw [gapped] at hp
      split_ifs at hp with hc
      · exact ih hp
      · rcases List.mem_cons.mp hp with rfl | hp
        · simpa using hc
        · exact ih hp

/-- Squeezing again does nothing, as each separator stands for itself. -/
lemma flatMap_gapped_flatMap {pairs : List (List UInt8 × UInt8)}
    (hpairs : ∀ p ∈ pairs, isspace p.2 = false) :
    (gapped [] (pairs.flatMap separated)).flatMap separated = pairs.flatMap separated := by
  induction pairs with
  | nil => rfl
  | cons p pairs ih =>
      obtain ⟨gap, c⟩ := p
      have hc : isspace c = false := hpairs _ List.mem_cons_self
      have hrest := ih fun p hp => hpairs p (List.mem_cons_of_mem _ hp)
      have hcomma : isspace 44 = false := rfl
      have hspace : isspace 32 = true := rfl
      rw [List.flatMap_cons, separated, separator]
      split_ifs <;>
        simp [gapped, hc, hcomma, hspace, hrest, separated, separator]

/-- **Squeezing is idempotent.** -/
lemma squeeze_squeeze (text : List UInt8) : squeeze (squeeze text) = squeeze text := by
  have hfront : (squeeze text).dropWhile isspace = squeeze text := by
    rw [squeeze]
    rcases hsrc : text.dropWhile isspace with _ | ⟨c, src⟩
    · rfl
    · have hc : isspace c = false := by
        have := List.head_dropWhile_not isspace (l := text) (by rw [hsrc]; simp)
        simpa [hsrc] using this
      simp [gapped, hc, separated, separator]
  rw [squeeze, hfront]
  exact flatMap_gapped_flatMap fun p hp => isspace_of_mem_gapped hp

section Stripped

variable (junk : ℕ → UInt8)

/-- What is waiting to be written is the separator of the gap: `comma` says whether it has a
newline, and otherwise `space` whether there is anything in it. -/
lemma appendWaiting_holds {gap : List UInt8} {space comma : Bool}
    (hcomma : comma = decide (10 ∈ gap)) (hspace : comma = false → space = decide (gap ≠ []))
    {s : KmsRequestStr} {text : List UInt8} (h : Holds s text) (hlt : text.length + 1 < 2 ^ 63) :
    ∃ r, (appendWaiting junk comma 44 s).bind (appendWaiting junk (!comma && space) 32) = some r ∧
      Holds r (text ++ separator gap) := by
  rcases comma with _ | _
  · have hnone : 10 ∉ gap := by simpa using hcomma
    rw [hspace rfl]
    by_cases hgap : gap = []
    · exact ⟨s, by simp [appendWaiting, hgap], by simpa [separator, hgap] using h⟩
    · obtain ⟨r, hr, hholds, -⟩ := kmsRequestStrAppendChar_holds junk h hlt 32
      refine ⟨r, by simp [appendWaiting, hgap, hr], ?_⟩
      rw [separator, if_neg hgap, if_neg hnone]
      exact hholds
  · have hmem : 10 ∈ gap := by simpa using hcomma
    obtain ⟨r, hr, hholds, -⟩ := kmsRequestStrAppendChar_holds junk h hlt 44
    refine ⟨r, by simp [appendWaiting, hr], ?_⟩
    rw [separator, if_neg (List.ne_nil_of_mem hmem), if_pos hmem]
    exact hholds

/-- **The loop**, with `gap` read since the last character. -/
lemma appendStrippedLoop_holds (src : List UInt8) {gap : List UInt8} {space comma : Bool}
    (hcomma : comma = decide (10 ∈ gap)) (hspace : comma = false → space = decide (gap ≠ []))
    {s : KmsRequestStr} {text : List UInt8} (h : Holds s text)
    (hlt : text.length + 2 * src.length < 2 ^ 63) :
    ∃ s', appendStrippedLoop junk src space comma s = some s' ∧
      Holds s' (text ++ (gapped gap src).flatMap separated) := by
  induction src generalizing gap space comma s text with
  | nil => exact ⟨s, rfl, by simpa [gapped] using h⟩
  | cons c src ih =>
      rw [List.length_cons] at hlt
      rw [appendStrippedLoop, gapped]
      by_cases hnewline : c = 10
      · have hc : isspace c = true := by
          rw [hnewline]
          rfl
        rw [if_pos hnewline, if_pos hc]
        exact ih (by simp [hnewline]) (by simp) h (by omega)
      · rw [if_neg hnewline]
        by_cases hc : isspace c = true
        · rw [if_pos hc, if_pos hc]
          refine ih ?_ (by simp) h (by omega)
          simp [hcomma, Ne.symm hnewline]
        · rw [if_neg hc, if_neg hc]
          obtain ⟨r, hr, hholds⟩ := appendWaiting_holds junk hcomma hspace h (by omega)
          have hsep := length_separator_le gap
          obtain ⟨r', hr', hholds', -⟩ := kmsRequestStrAppendChar_holds junk hholds
            (by rw [List.length_append]; omega) c
          have hlt' : (text ++ separator gap ++ [c]).length + 2 * src.length < 2 ^ 63 := by
            simp only [List.length_append, List.length_singleton]
            omega
          obtain ⟨s', hs', hdone⟩ := @ih [] false false rfl (fun _ => rfl) r' _ hholds' hlt'
          refine ⟨s', ?_, by simpa [separated] using hdone⟩
          simp only [Option.bind_eq_bind]
          rw [← Option.bind_assoc, hr, Option.bind_some, hr', Option.bind_some, hs']

/-- **Stripping** adds the squeezed text. -/
lemma kmsRequestStrAppendStripped_holds {s other : KmsRequestStr} {text text' : List UInt8}
    (h : Holds s text) (ho : Holds other text')
    (hlt : text.length + 2 * text'.length < 2 ^ 63) :
    ∃ s', kmsRequestStrAppendStripped junk s other = some s' ∧
      Holds s' (text ++ squeeze text') := by
  have hroom := lt_of_lt_of_le ho.len_lt ho.size_le
  -- the NUL behind the text stops the first loop
  have hskip : (other.str.takeWhile isspace).length = (text'.takeWhile isspace).length := by
    rw [ho.str_eq, List.takeWhile_append]
    split_ifs with hall
    · simp [hall, show isspace 0 = false from rfl]
    · rfl
  have hskip_le := (List.takeWhile_prefix isspace (l := text')).length_le
  have hlen := ho.len_eq
  have hsrc : (other.str.take other.len).drop (text'.takeWhile isspace).length =
      text'.dropWhile isspace := by
    rw [show other.str.take other.len = text' from ho.text_eq]
    conv_lhs => arg 2; rw [← List.takeWhile_append_dropWhile (p := isspace) (l := text')]
    exact List.drop_left
  have hr := reserve_holds junk h other.len (by omega)
  have hdrop := (List.dropWhile_suffix isspace (l := text')).length_le
  obtain ⟨s', hs', hdone⟩ := @appendStrippedLoop_holds junk (text'.dropWhile isspace) [] false
    false rfl (fun _ => rfl) (kmsRequestStrReserve junk s other.len) text hr (by omega)
  refine ⟨s', ?_, hdone⟩
  rw [kmsRequestStrAppendStripped, hskip, if_neg (by omega), hsrc]
  exact hs'

/-- **Stripping twice.**  A stripped text has nothing left to strip. -/
theorem kmsRequestStrAppendStripped_twice {other : KmsRequestStr} {text : List UInt8}
    (ho : Holds other text) (hlt : 4 * text.length < 2 ^ 63) :
    ∃ s s', kmsRequestStrAppendStripped junk (kmsRequestStrNew junk) other = some s ∧
      kmsRequestStrAppendStripped junk (kmsRequestStrNew junk) s = some s' ∧
      s.text = squeeze text ∧ s'.text = s.text := by
  have hnew := kmsRequestStrNew_holds junk
  have hle := length_squeeze_le text
  obtain ⟨s, hs, hholds⟩ := kmsRequestStrAppendStripped_holds junk hnew ho (by simp; omega)
  rw [List.nil_append] at hholds
  obtain ⟨s', hs', hholds'⟩ := kmsRequestStrAppendStripped_holds junk hnew hholds (by simp; omega)
  rw [List.nil_append, squeeze_squeeze] at hholds'
  exact ⟨s, s', hs, hs', hholds.text_eq, hholds'.text_eq.trans hholds.text_eq.symm⟩

/-- The text `" a \n b "`. -/
theorem kmsRequestStrAppendStripped_twice_lines :
    Holds ⟨[32, 97, 32, 10, 32, 98, 32, 0], 7, 8⟩ [32, 97, 32, 10, 32, 98, 32] ∧
      ∃ s s', kmsRequestStrAppendStripped (fun _ => 7) (kmsRequestStrNew fun _ => 7)
          ⟨[32, 97, 32, 10, 32, 98, 32, 0], 7, 8⟩ = some s ∧
        kmsRequestStrAppendStripped (fun _ => 7) (kmsRequestStrNew fun _ => 7) s = some s' ∧
        s.text = [97, 44, 98] ∧ s'.text = s.text := by
  have ho : Holds ⟨[32, 97, 32, 10, 32, 98, 32, 0], 7, 8⟩ [32, 97, 32, 10, 32, 98, 32] :=
    ⟨by decide, by decide, rfl, rfl⟩
  exact ⟨ho, kmsRequestStrAppendStripped_twice (fun _ => 7) ho (by decide)⟩

end Stripped

/-! ## Runs -/

/-- A call of one of the functions that append, with its arguments.  For `appendf` that is what
the format and its arguments come to. -/
inductive AppendCall where
  | char (c : UInt8)
  | chars (appended : List UInt8) (len : Option ℕ)
  | newline
  | str (appended : KmsRequestStr)
  | lowercase (appended : KmsRequestStr)
  | appendf (formatted : List UInt8)
  | stripped (appended : KmsRequestStr)
  deriving DecidableEq, Repr

namespace AppendCall

/-- The call. -/
def run (junk : ℕ → UInt8) (s : KmsRequestStr) : AppendCall → Option KmsRequestStr
  | char c => kmsRequestStrAppendChar junk s c
  | chars appended len => kmsRequestStrAppendChars junk s appended len
  | newline => kmsRequestStrAppendNewline junk s
  | str appended => kmsRequestStrAppend junk s appended
  | lowercase appended => kmsRequestStrAppendLowercase junk s appended
  | appendf formatted => kmsRequestStrAppendVa junk s formatted
  | stripped appended => kmsRequestStrAppendStripped junk s appended

/-- What the call adds to the text. -/
def adds : AppendCall → List UInt8
  | char c => [c]
  | chars appended len => appended.take (actualLen appended len)
  | newline => [10]
  | str appended => appended.text
  | lowercase appended => appended.text.map downcase
  | appendf formatted => formatted
  | stripped appended => squeeze appended.text

/-- The arguments are what the function takes: memory that has the characters, or a NUL; a string
with its NUL; a text with a length that is an `int`. -/
def Valid : AppendCall → Prop
  | char _ => True
  | chars appended (some len) => len ≤ appended.length
  | chars appended none => 0 ∈ appended
  | newline => True
  | str appended => Holds appended appended.text
  | lowercase appended => Holds appended appended.text
  | appendf formatted => formatted.length < 2 ^ 31
  | stripped appended => Holds appended appended.text

/-- How long the argument is. -/
def weight : AppendCall → ℕ
  | char _ => 1
  | chars appended len => actualLen appended len
  | newline => 1
  | str appended => appended.len
  | lowercase appended => appended.len
  | appendf formatted => formatted.length
  | stripped appended => appended.len

lemma Valid.actualLen_le {appended : List UInt8} {len : Option ℕ}
    (h : (chars appended len).Valid) : actualLen appended len ≤ appended.length := by
  rcases len with _ | len
  · exact (List.takeWhile_prefix _).length_le
  · exact h

lemma length_adds_le (call : AppendCall) : call.adds.length ≤ 2 * call.weight := by
  rcases call with c | ⟨appended, len⟩ | _ | appended | appended | formatted | appended
  · exact Nat.le_succ 1
  · exact le_trans (List.length_take_le _ _) (Nat.le_mul_of_pos_left _ Nat.two_pos)
  · exact Nat.le_succ 1
  · exact le_trans (List.length_take_le _ _) (Nat.le_mul_of_pos_left _ Nat.two_pos)
  · rw [adds, List.length_map]
    exact le_trans (List.length_take_le _ _) (Nat.le_mul_of_pos_left _ Nat.two_pos)
  · exact Nat.le_mul_of_pos_left _ Nat.two_pos
  · exact le_trans (length_squeeze_le _) (Nat.mul_le_mul_left 2 (List.length_take_le _ _))

end AppendCall

section Runs

variable (junk : ℕ → UInt8)

/-- One call, and what it leaves. -/
lemma appendCall_holds {call : AppendCall} (hcall : call.Valid) {s : KmsRequestStr}
    {text : List UInt8} (h : Holds s text) (hlt : 2 * text.length + 4 * call.weight < 2 ^ 63) :
    ∃ s', call.run junk s = some s' ∧ Holds s' (text ++ call.adds) := by
  rcases call with c | ⟨appended, len⟩ | _ | appended | appended | formatted | appended
  · obtain ⟨s', hs', hholds, -⟩ := kmsRequestStrAppendChar_holds junk h (by omega) c
    exact ⟨s', hs', hholds⟩
  · obtain ⟨s', hs', hholds, -⟩ := kmsRequestStrAppendChars_holds junk h appended len
      hcall.actualLen_le
      (by rw [AppendCall.weight] at hlt; omega)
    exact ⟨s', hs', hholds⟩
  · obtain ⟨s', hs', hholds, -⟩ := kmsRequestStrAppendChar_holds junk h (by omega) 10
    exact ⟨s', hs', hholds⟩
  · have ho : Holds appended appended.text := hcall
    have hlen := ho.len_eq
    have hfits : 2 * text.length + appended.text.length < 2 ^ 63 := by
      rw [AppendCall.weight] at hlt
      omega
    exact kmsRequestStrAppend_holds junk h ho hfits
  · have ho : Holds appended appended.text := hcall
    have hlen := ho.len_eq
    exact kmsRequestStrAppendLowercase_holds junk h ho (by rw [AppendCall.weight] at hlt; omega)
  · obtain ⟨s', hs', hholds, -⟩ := kmsRequestStrAppendVa_holds junk h hcall
      (by rw [AppendCall.weight] at hlt; omega)
    exact ⟨s', hs', hholds⟩
  · have ho : Holds appended appended.text := hcall
    have hlen := ho.len_eq
    exact kmsRequestStrAppendStripped_holds junk h ho (by rw [AppendCall.weight] at hlt; omega)

/-- A sequence of calls. -/
def runAppends (calls : List AppendCall) (s : KmsRequestStr) : Option KmsRequestStr :=
  calls.foldlM (AppendCall.run junk) s

/-- **Runs of appends.**  No call writes outside the block, and the text is what the calls add. -/
theorem runAppends_holds {calls : List AppendCall} (hcalls : ∀ call ∈ calls, call.Valid)
    {s : KmsRequestStr} {text : List UInt8} (h : Holds s text)
    (hlt : 2 * text.length + 4 * (calls.map AppendCall.weight).sum < 2 ^ 63) :
    ∃ s', runAppends junk calls s = some s' ∧ Holds s' (text ++ calls.flatMap AppendCall.adds) := by
  induction calls generalizing s text with
  | nil => exact ⟨s, rfl, by simpa using h⟩
  | cons call calls ih =>
      rw [List.map_cons, List.sum_cons] at hlt
      have hadds := call.length_adds_le
      obtain ⟨r, hr, hholds⟩ := appendCall_holds junk (hcalls call List.mem_cons_self) h (by omega)
      obtain ⟨s', hs', hdone⟩ := ih (fun c hc => hcalls c (List.mem_cons_of_mem _ hc)) hholds
        (by rw [List.length_append]; omega)
      refine ⟨s', ?_, by simpa [List.append_assoc] using hdone⟩
      rw [runAppends, List.foldlM_cons, hr]
      exact hs'

/-- Three calls on a new string. -/
theorem runAppends_holds_three :
    ∃ s', runAppends (fun _ => 7) [.chars [104, 105, 0] none, .newline, .appendf [51, 52]]
        (kmsRequestStrNew fun _ => 7) = some s' ∧ Holds s' [104, 105, 10, 51, 52] :=
  runAppends_holds (fun _ => 7) (by simp [AppendCall.Valid]) (kmsRequestStrNew_holds _) (by decide)

/-! ## The size -/

/-- The block is the least power of two, from 16 on, that has room for the text and its NUL. -/
def Snug (s : KmsRequestStr) : Prop := s.size = max 16 (2 ^ s.len.size)

lemma reserve_size {s : KmsRequestStr} (hs : Snug s) {n : ℕ} (hlt : s.len + n < 2 ^ 32) :
    (kmsRequestStrReserve junk s n).size = max 16 (2 ^ (s.len + n).size) := by
  have hbits : (s.len + n).size ≤ 2 ^ 5 := Nat.size_le.mpr hlt
  obtain ⟨hpow, hleast⟩ := Bits.smear_succ_le_iff hbits
  have hmono : s.len.size ≤ (s.len + n).size := Nat.size_le_size (Nat.le_add_right _ _)
  rw [kmsRequestStrReserve_eq junk (by omega), show [1, 2, 4, 8, 16] = Bits.doublings 5 from rfl,
    hpow]
  unfold Snug at hs
  split_ifs with hgrow
  · -- the text did not fit, so the new power is the larger one
    have hfits := (hleast (s.len + n).size).mpr (le_refl _)
    show 2 ^ (s.len + n).size = _
    omega
  · rw [hs]
    by_cases hsmall : s.len + n + 1 ≤ 2 ^ s.len.size
    · rw [le_antisymm hmono ((hleast _).mp hsmall)]
    · have hfour : (s.len + n).size ≤ 4 := (hleast 4).mp (by omega)
      have hpow' : 2 ^ (s.len + n).size ≤ 2 ^ 4 := Nat.pow_le_pow_right Nat.two_pos hfour
      have hpow'' : 2 ^ s.len.size ≤ 2 ^ 4 :=
        Nat.pow_le_pow_right Nat.two_pos (le_trans hmono hfour)
      omega

/-- The call is one of those that reserve what they write.  `kms_request_str_append` reserves the
text once more, and `kms_request_str_append_stripped` what it may leave out. -/
def AppendCall.Reserves : AppendCall → Prop
  | char _ => True
  | chars _ _ => True
  | newline => True
  | str _ => False
  | lowercase _ => False
  | appendf _ => True
  | stripped _ => False

/-- One of those calls, and the size it leaves. -/
lemma appendCall_snug {call : AppendCall} (hcall : call.Valid) (hres : call.Reserves)
    {s : KmsRequestStr} {text : List UInt8} (h : Holds s text) (hs : Snug s)
    (hlt : text.length + call.adds.length < 2 ^ 32) :
    ∃ s', call.run junk s = some s' ∧ Holds s' (text ++ call.adds) ∧ Snug s' := by
  have hlen := h.len_eq
  -- all of them end with the size of a reserve
  have hfrom : (∃ s', call.run junk s = some s' ∧ Holds s' (text ++ call.adds) ∧
      s'.size = (kmsRequestStrReserve junk s call.adds.length).size) →
      ∃ s', call.run junk s = some s' ∧ Holds s' (text ++ call.adds) ∧ Snug s' := by
    rintro ⟨s', hs', hholds, hsize⟩
    refine ⟨s', hs', hholds, ?_⟩
    rw [Snug, hsize, reserve_size junk hs (by omega), hholds.len_eq, List.length_append, hlen]
  apply hfrom
  rcases call with c | ⟨appended, len⟩ | _ | appended | appended | formatted | appended
  · exact kmsRequestStrAppendChar_holds junk h (by omega) c
  · have hfits := hcall.actualLen_le
    have hadds : (AppendCall.chars appended len).adds.length = actualLen appended len := by
      rw [AppendCall.adds, List.length_take]
      omega
    rw [hadds] at hlt ⊢
    exact kmsRequestStrAppendChars_holds junk h appended len hfits (by omega)
  · exact kmsRequestStrAppendChar_holds junk h (by omega) 10
  · exact hres.elim
  · exact hres.elim
  · have hfits : text.length + formatted.length < 2 ^ 32 := hlt
    exact kmsRequestStrAppendVa_holds junk h hcall (by omega)
  · exact hres.elim

lemma runAppends_snug {calls : List AppendCall} (hcalls : ∀ call ∈ calls, call.Valid)
    (hres : ∀ call ∈ calls, call.Reserves) {s : KmsRequestStr} {text : List UInt8}
    (h : Holds s text) (hs : Snug s)
    (hlt : text.length + (calls.flatMap AppendCall.adds).length < 2 ^ 32) :
    ∃ s', runAppends junk calls s = some s' ∧
      Holds s' (text ++ calls.flatMap AppendCall.adds) ∧ Snug s' := by
  induction calls generalizing s text with
  | nil => exact ⟨s, rfl, by simpa using h, hs⟩
  | cons call calls ih =>
      rw [List.flatMap_cons, List.length_append] at hlt
      obtain ⟨r, hr, hholds, hsnug⟩ := appendCall_snug junk (hcalls call List.mem_cons_self)
        (hres call List.mem_cons_self) h hs (by omega)
      obtain ⟨s', hs', hdone, hsnug'⟩ := ih (fun c hc => hcalls c (List.mem_cons_of_mem _ hc))
        (fun c hc => hres c (List.mem_cons_of_mem _ hc)) hholds hsnug
        (by rw [List.length_append]; omega)
      refine ⟨s', ?_, by simpa [List.append_assoc] using hdone, hsnug'⟩
      rw [runAppends, List.foldlM_cons, hr]
      exact hs'

end Runs

end CBootstrap.Kms
