import CBootstrap.Kms.RequestStr
import CBootstrap.Kms.Segments

/-!
# `kms_request_str_path_normalized`

The function removes `.` and `..` from a path as RFC 3986 describes it, by looking at what the rest
of the path begins with, and it folds repeated slashes.  Each turn of its loop takes one segment,
and the output buffer is the rendered stack of the segments so far.  There is one ambiguity,
`Renders`: with an empty stack the buffer of an absolute path holds a slash, or nothing yet.

So the function computes `normalizePath`, never writes outside its buffer, and its result is normal
(`kmsRequestStrPathNormalized_normal`).
-/

namespace CBootstrap.Kms

/-! ## The functions -/

/-- `starts_with`, on what is in front of a NUL. -/
def startsWith (s pre : List UInt8) : Bool := pre.isPrefixOf s

/-- Where the last slash is among the first `i` characters: the `for` loop of
`delete_last_segment`. -/
def lastSlash (str : List UInt8) : ℕ → Option ℕ
  | 0 => none
  | i + 1 => if str[i]? = some 47 then some i else lastSlash str i

/-- `delete_last_segment`. -/
def deleteLastSegment (s : KmsRequestStr) (isAbsolute : Bool) : Option KmsRequestStr :=
  if s.len = 0 then some s
  else do
    let len := match lastSlash s.str s.len with
      | some i => if i = 0 ∧ isAbsolute then 1 else i
      | none => 0
    let str ← Block.write s.str len [0]
    pure ⟨str, len, s.size⟩

section Loop

variable (junk : ℕ → UInt8)

/-- What the last branch moves to the output: how far the next slash is, and how many characters
in front are skipped. -/
def moveSegment (isAbsolute : Bool) (slash : KmsRequestStr) (p : List UInt8) (rest : ℕ)
    (out : KmsRequestStr) : ℕ × ℕ :=
  let ahead := (p.tail.takeWhile (· ≠ 47)).length
  let nextSlash := if ahead < p.tail.length then ahead + 1 else rest
  -- fold repeated slashes
  let skip := if kmsRequestStrEndsWith out slash ∧ p.head? = some 47 then 1 else 0
  -- normalize "a/../b" as "b", not as "/b"
  let skip := if out.len = 0 ∧ isAbsolute = false ∧ (p.drop skip).head? = some 47 then skip + 1
    else skip
  (nextSlash, skip)

/-- The `while (p < end)` loop; `p` is what is left of the copy in front of its NUL, and `rest` is
`end - p`.  The copy ends at the first NUL of the text, so `p` may be used up before `rest` is. -/
def pathNormalizedLoop (isAbsolute : Bool) (slash : KmsRequestStr) :
    ℕ → List UInt8 → ℕ → KmsRequestStr → Option KmsRequestStr
  | 0, _, _, _ => none
  | fuel + 1, p, rest, out =>
      if rest = 0 then some out
      else if startsWith p [46, 46, 47] then
        pathNormalizedLoop isAbsolute slash fuel (p.drop 3) (rest - 3) out
      else if startsWith p [46, 47] then
        pathNormalizedLoop isAbsolute slash fuel (p.drop 2) (rest - 2) out
      else if startsWith p [47, 46, 47] then
        pathNormalizedLoop isAbsolute slash fuel (p.drop 2) (rest - 2) out
      else if p = [47, 46] then some out
      else if startsWith p [47, 46, 46, 47] then do
        let out ← deleteLastSegment out isAbsolute
        pathNormalizedLoop isAbsolute slash fuel (p.drop 3) (rest - 3) out
      else if p = [47, 46, 46] then deleteLastSegment out isAbsolute
      else if p = [46] ∨ p = [46, 46] then some out
      else if p = [] then none
      else do
        let (nextSlash, skip) := moveSegment isAbsolute slash p rest out
        let out ← kmsRequestStrAppendChars junk out (p.drop skip ++ [0])
          (if skip ≤ nextSlash then some (nextSlash - skip) else none)
        pathNormalizedLoop isAbsolute slash fuel (p.drop nextSlash) (rest - nextSlash) out

/-- What is in the output at the label `done`. -/
def pathNormalizedOut (slash : KmsRequestStr) (copy : List UInt8) (len : ℕ) :
    Option KmsRequestStr :=
  if copy = [47] then some (kmsRequestStrNew junk)
  else pathNormalizedLoop junk (copy.head? == some 47) slash (len + 1) copy len
    (kmsRequestStrNew junk)

/-- `kms_request_str_path_normalized`. -/
def kmsRequestStrPathNormalized (str : KmsRequestStr) : Option KmsRequestStr := do
  let slash ← kmsRequestStrNewFromChars junk [47] (some 1)
  let out ← pathNormalizedOut junk slash (str.str.takeWhile (· ≠ 0)) str.len
  if out.len = 0 then kmsRequestStrAppendChar junk out 47 else pure out

end Loop

/-! ## The loop -/

/-- So what is in front of a slash, or is everything, is the first segment. -/
lemma eq_first_of_startsWith {first pat : List UInt8} {segs : List (List UInt8)}
    (hfirst : 47 ∉ first) (hpat : 47 ∉ pat)
    (h : startsWith (first ++ slashed segs) (pat ++ [47]) = true ∨ first ++ slashed segs = pat) :
    first = pat := by
  have hown := takeWhile_segments hfirst segs
  rcases h with h | h
  · obtain ⟨rest, hrest⟩ := List.isPrefixOf_iff_prefix.mp h
    rw [← hrest, List.append_assoc, List.takeWhile_append_of_pos] at hown
    · simpa using hown.symm
    · intro c hc
      simpa using fun heq : c = 47 => hpat (heq ▸ hc)
  · rw [h] at hown
    have hown' := takeWhile_segments hpat []
    rw [show slashed [] = [] from rfl, List.append_nil] at hown'
    exact hown.symm.trans hown'

lemma startsWith_of_ne {first pat : List UInt8} (segs : List (List UInt8)) (hfirst : 47 ∉ first)
    (hpat : 47 ∉ pat) (hne : first ≠ pat) :
    startsWith (first ++ slashed segs) (pat ++ [47]) = false ∧ first ++ slashed segs ≠ pat := by
  refine ⟨Bool.eq_false_iff.mpr fun hstarts => hne ?_, fun hwhole => hne ?_⟩
  · exact eq_first_of_startsWith hfirst hpat (Or.inl hstarts)
  · exact eq_first_of_startsWith hfirst hpat (Or.inr hwhole)

/-- What the output buffer holds for a stack. -/
structure Renders (isAbsolute : Bool) (walk : List (List UInt8) × Bool) (text : List UInt8) :
    Prop where
  clean : Clean walk
  text_eq : walk.1 ≠ [] → text = render isAbsolute walk
  text_nil : walk.1 = [] → text = [] ∨ isAbsolute = true ∧ text = [47]

lemma lastSlash_eq_none {str : List UInt8} {n : ℕ} (h : ∀ i < n, str[i]? ≠ some 47) :
    lastSlash str n = none := by
  induction n with
  | zero => rfl
  | succ n ih =>
      rw [lastSlash, if_neg (h n (Nat.lt_succ_self n))]
      exact ih fun i hi => h i (Nat.lt_succ_of_lt hi)

lemma lastSlash_eq_some {str : List UInt8} {k n : ℕ} (hk : str[k]? = some 47) (hn : k < n)
    (h : ∀ i, k < i → i < n → str[i]? ≠ some 47) : lastSlash str n = some k := by
  induction n with
  | zero => exact absurd hn (Nat.not_lt_zero k)
  | succ n ih =>
      rw [lastSlash]
      by_cases hkn : k = n
      · rw [if_pos (hkn ▸ hk), hkn]
      · rw [if_neg (h n (by omega) (Nat.lt_succ_self n))]
        exact ih (by omega) fun i hi hi' => h i hi (Nat.lt_succ_of_lt hi')

section Buffer

variable {s : KmsRequestStr} (isAbsolute : Bool)

/-- The characters of a text, in its block. -/
lemma Holds.getElem?_str {text : List UInt8} (h : Holds s text) {i : ℕ} (hi : i < text.length) :
    s.str[i]? = text[i]? := by
  rw [h.str_eq, List.getElem?_append_left hi]

/-- Deleting the last segment of several. -/
lemma deleteLastSegment_slash {front seg : List UInt8} (h : Holds s (front ++ 47 :: seg))
    (hseg : 47 ∉ seg) :
    ∃ s', deleteLastSegment s isAbsolute = some s' ∧
      Holds s' (if front = [] ∧ isAbsolute = true then [47] else front) := by
  have hlen : s.len = front.length + 1 + seg.length := by
    rw [h.len_eq, List.length_append, List.length_cons]
    omega
  have hlast : lastSlash s.str s.len = some front.length := by
    refine lastSlash_eq_some ?_ (by omega) fun i hi hi' => ?_
    · rw [h.getElem?_str (by simp), List.getElem?_append_right (le_refl _), Nat.sub_self]
      rfl
    · rw [h.getElem?_str (by rw [← h.len_eq]; exact hi'), List.getElem?_append_right (by omega),
        List.getElem?_cons, if_neg (by omega)]
      exact fun hmem => hseg (List.mem_of_getElem? hmem)
  unfold deleteLastSegment
  rw [if_neg (by omega), hlast]
  by_cases hfront : front = [] ∧ isAbsolute = true
  · obtain ⟨str, hstr, hholds⟩ := h.truncate (k := 1)
      (by rw [List.length_append, List.length_cons]; omega)
    refine ⟨⟨str, 1, s.size⟩, ?_, ?_⟩
    · simp [hfront, hstr]
    · rw [if_pos hfront]
      simpa [hfront.1] using hholds
  · obtain ⟨str, hstr, hholds⟩ := h.truncate (k := front.length) (by simp)
    refine ⟨⟨str, front.length, s.size⟩, ?_, ?_⟩
    · have hne : ¬(front.length = 0 ∧ isAbsolute = true) := by simpa using hfront
      simp only [if_neg hne, hstr]
      rfl
    · rw [if_neg hfront]
      simpa using hholds

/-- Deleting the only segment. -/
lemma deleteLastSegment_single {seg : List UInt8} (h : Holds s seg) (hseg : 47 ∉ seg) :
    ∃ s', deleteLastSegment s isAbsolute = some s' ∧ Holds s' [] := by
  unfold deleteLastSegment
  split_ifs with hlen
  · have hnil : seg = [] := List.length_eq_zero_iff.mp (h.len_eq ▸ hlen)
    exact ⟨s, rfl, hnil ▸ h⟩
  · have hlast : lastSlash s.str s.len = none := by
      refine lastSlash_eq_none fun i hi => ?_
      rw [h.getElem?_str (h.len_eq ▸ hi)]
      exact fun hmem => hseg (List.mem_of_getElem? hmem)
    obtain ⟨str, hstr, hholds⟩ := h.truncate (k := 0) (Nat.zero_le _)
    refine ⟨⟨str, 0, s.size⟩, ?_, by simpa using hholds⟩
    rw [hlast]
    simp only [hstr]
    rfl

variable {isAbsolute}

/-- **Deleting** pops the stack, or takes a slash at the end away. -/
lemma Renders.delete {walk : List (List UInt8) × Bool} {text : List UInt8}
    (hr : Renders isAbsolute walk text) (h : Holds s text) :
    ∃ s' text', deleteLastSegment s isAbsolute = some s' ∧ Holds s' text' ∧
      Renders isAbsolute (walkStep walk [46, 46]) text' ∧ text'.length ≤ text.length := by
  have hclean : Clean (walkStep walk [46, 46]) := hr.clean.walkStep (by decide)
  obtain ⟨stack, slash⟩ := walk
  by_cases hne : stack = []
  · -- nothing to delete
    subst hne
    have hslash : slash = false := by
      by_contra hslash
      exact hr.clean.slash (by simpa using hslash) rfl
    subst hslash
    rcases hr.text_nil rfl with rfl | ⟨habs, rfl⟩
    · obtain ⟨s', hs', hholds⟩ := deleteLastSegment_single isAbsolute h (by simp)
      exact ⟨s', [], hs', hholds, ⟨hclean, fun hn => absurd rfl hn, fun _ => Or.inl rfl⟩, le_refl _⟩
    · obtain ⟨s', hs', hholds⟩ := deleteLastSegment_slash isAbsolute
        (show Holds s ([] ++ 47 :: []) from h) (by simp)
      rw [if_pos ⟨rfl, habs⟩] at hholds
      exact ⟨s', [47], hs', hholds,
        ⟨hclean, fun hn => absurd rfl hn, fun _ => Or.inr ⟨habs, rfl⟩⟩, le_refl _⟩
  rcases slash with _ | _
  · obtain ⟨stack, seg, rfl⟩ := (List.eq_nil_or_concat stack).resolve_left hne
    rw [List.concat_eq_append] at hr hclean ⊢
    have hstep : walkStep (stack ++ [seg], false) [46, 46] = (stack, false) := by simp [walkStep]
    rw [hstep] at hclean ⊢
    obtain ⟨-, -, -, hseg⟩ := hr.clean.segs seg (by simp)
    have htext := hr.text_eq (by simp)
    by_cases hconcat : stack ≠ [] ∨ isAbsolute = true
    · rw [render_concat hconcat] at htext
      obtain ⟨s', hs', hholds⟩ := deleteLastSegment_slash isAbsolute (htext ▸ h) hseg
      by_cases hnil : stack = []
      · have habs : isAbsolute = true := hconcat.resolve_left (not_not_intro hnil)
        have hfront : render isAbsolute (stack, false) = [] := by simp [hnil, habs, render, slashed]
        rw [if_pos ⟨hfront, habs⟩] at hholds
        refine ⟨s', [47], hs', hholds, ⟨hclean, fun hn => absurd hnil hn, fun _ => ?_⟩, ?_⟩
        · exact Or.inr ⟨habs, rfl⟩
        · simp only [htext, List.length_append, List.length_cons, List.length_nil]
          omega
      · rw [if_neg fun hboth => render_ne_nil isAbsolute hclean hnil hboth.1] at hholds
        refine ⟨s', _, hs', hholds, ⟨hclean, fun _ => rfl, fun hn => absurd hn hnil⟩, ?_⟩
        simp [htext]
    · push Not at hconcat
      obtain ⟨rfl, hrel⟩ := hconcat
      rw [List.nil_append, Bool.eq_false_iff.mpr hrel, render_single] at htext
      obtain ⟨s', hs', hholds⟩ := deleteLastSegment_single isAbsolute (htext ▸ h) hseg
      exact ⟨s', [], hs', hholds, ⟨hclean, fun hn => absurd rfl hn, fun _ => Or.inl rfl⟩,
        Nat.zero_le _⟩
  · have hstep : walkStep (stack, true) [46, 46] = (stack, false) := by simp [walkStep]
    rw [hstep] at hclean ⊢
    have htext := hr.text_eq hne
    rw [render_slash isAbsolute hne] at htext
    obtain ⟨s', hs', hholds⟩ := deleteLastSegment_slash isAbsolute (htext ▸ h) (by simp)
    rw [if_neg fun hboth => render_ne_nil isAbsolute hclean hne hboth.1] at hholds
    refine ⟨s', _, hs', hholds, ⟨hclean, fun _ => rfl, fun hn => absurd hn hne⟩, ?_⟩
    simp [htext]

/-- How many characters are skipped in front of a segment behind a slash. -/
def skipped (isAbsolute : Bool) (text : List UInt8) : ℕ :=
  if text.getLast? = some 47 ∨ text = [] ∧ isAbsolute = false then 1 else 0

/-- **Moving** pushes a segment; an empty one is a slash at the end. -/
lemma Renders.move {walk : List (List UInt8) × Bool} {text seg : List UInt8}
    (hr : Renders isAbsolute walk text) (hseg : 47 ∉ seg) (hdot : seg ≠ [46])
    (hdotdot : seg ≠ [46, 46]) :
    Renders isAbsolute (walkStep walk seg)
      (text ++ (47 :: seg).drop (skipped isAbsolute text)) := by
  have hclean : Clean (walkStep walk seg) := hr.clean.walkStep hseg
  obtain ⟨stack, slash⟩ := walk
  rw [walkStep, if_neg hdot, if_neg hdotdot] at hclean ⊢
  by_cases hne : stack = []
  · subst hne
    rcases hr.text_nil rfl with rfl | ⟨rfl, rfl⟩
    · have hskip : skipped isAbsolute [] = if isAbsolute then 0 else 1 := by
        rcases isAbsolute with _ | _ <;> rfl
      rw [hskip]
      by_cases hempty : seg = []
      · rw [if_pos hempty] at hclean ⊢
        refine ⟨hclean, fun hn => absurd rfl hn, fun _ => ?_⟩
        rcases isAbsolute with _ | _ <;> simp [hempty]
      · rw [if_neg hempty] at hclean ⊢
        refine ⟨hclean, fun _ => ?_, fun hn => by simp at hn⟩
        rcases isAbsolute with _ | _ <;> simp [render, slashed]
    · by_cases hempty : seg = []
      · rw [if_pos hempty] at hclean ⊢
        exact ⟨hclean, fun hn => absurd rfl hn, fun _ => Or.inr ⟨rfl, by simp [skipped, hempty]⟩⟩
      · rw [if_neg hempty] at hclean ⊢
        exact ⟨hclean, fun _ => by simp [skipped, render, slashed], fun hn => by simp at hn⟩
  have htext := hr.text_eq hne
  have hbare : Clean (stack, false) := ⟨hr.clean.segs, by simp⟩
  have hfront := render_ne_nil isAbsolute hbare hne
  -- in both cases a slash stands between the stack and the segment
  have hmoved : text ++ (47 :: seg).drop (skipped isAbsolute text) =
      render isAbsolute (stack, false) ++ 47 :: seg := by
    rcases slash with _ | _
    · obtain ⟨c, hlast, hc⟩ := getLast?_render isAbsolute hbare hne
      have hskip : skipped isAbsolute text = 0 := by
        rw [skipped, if_neg]
        rw [htext, hlast]
        simp [hc, hfront]
      rw [hskip, List.drop_zero, htext]
    · have hskip : skipped isAbsolute text = 1 := by
        rw [skipped, if_pos]
        exact Or.inl (by rw [htext, render_slash isAbsolute hne, List.getLast?_concat])
      rw [hskip, htext, render_slash isAbsolute hne]
      simp
  rw [hmoved]
  by_cases hempty : seg = []
  · rw [if_pos hempty] at hclean ⊢
    have hstack : stack.isEmpty = false := by simpa using hne
    refine ⟨hclean, fun _ => ?_, fun hn => absurd hn hne⟩
    rw [hempty, hstack]
    exact (render_slash isAbsolute hne).symm
  · rw [if_neg hempty] at hclean ⊢
    exact ⟨hclean, fun _ => (render_concat (Or.inl hne) seg).symm, fun hn => by simp at hn⟩

end Buffer

section Turns

variable (junk : ℕ → UInt8) (isAbsolute : Bool) {slash out : KmsRequestStr}

/-- The next slash is behind the segment, or the end is. -/
lemma nextSlash_eq (c : UInt8) (seg : List UInt8) (segs : List (List UInt8)) :
    (if seg.length < (seg ++ slashed segs).length then seg.length + 1
      else (c :: (seg ++ slashed segs)).length) = seg.length + 1 := by
  split_ifs with hlt
  · rfl
  · simp only [List.length_append, List.length_cons] at hlt ⊢
    omega

/-- The first segment of a relative path. -/
lemma moveSegment_first {c : UInt8} (hc : c ≠ 47) {seg : List UInt8} (hseg : 47 ∉ seg)
    (segs : List (List UInt8)) :
    moveSegment isAbsolute slash (c :: (seg ++ slashed segs))
      (c :: (seg ++ slashed segs)).length out = (seg.length + 1, 0) := by
  rw [moveSegment, List.tail_cons, takeWhile_segments hseg]
  exact Prod.ext (nextSlash_eq c seg segs) (by simp [hc])

/-- The next segment, behind a slash. -/
lemma moveSegment_slash (hslash : Holds slash [47]) {text : List UInt8} (h : Holds out text)
    {seg : List UInt8} (hseg : 47 ∉ seg) (segs : List (List UInt8)) :
    moveSegment isAbsolute slash (47 :: (seg ++ slashed segs))
      (47 :: (seg ++ slashed segs)).length out = (seg.length + 1, skipped isAbsolute text) := by
  have hends := kmsRequestStrEndsWith_iff h hslash (by decide)
  rw [List.singleton_suffix_iff_getLast?_eq_some] at hends
  have hlen : out.len = 0 ↔ text = [] := by rw [h.len_eq, List.length_eq_zero_iff]
  rw [moveSegment, List.tail_cons, takeWhile_segments hseg]
  refine Prod.ext (nextSlash_eq 47 seg segs) ?_
  simp only [hends, hlen, List.head?_cons, and_true, skipped]
  by_cases hlast : text.getLast? = some 47
  · have hne : text ≠ [] := by
      intro hnil
      simp [hnil] at hlast
    simp [hlast, hne]
  · by_cases hfirst : text = [] ∧ isAbsolute = false <;> simp [hlast, hfirst]

/-- **The last branch**: the segment goes to the output, less what is skipped. -/
lemma pathNormalizedLoop_move {text : List UInt8} (h : Holds out text) (fuel : ℕ) {skip : ℕ}
    {c : UInt8} {seg : List UInt8} {segs : List (List UInt8)}
    (hmove : moveSegment isAbsolute slash (c :: (seg ++ slashed segs))
      (c :: (seg ++ slashed segs)).length out = (seg.length + 1, skip))
    (hskip : skip ≤ 1) (hlt : text.length + (seg.length + 1) < 2 ^ 63)
    (hprefixes : ∀ pat ∈ [[46, 46, 47], [46, 47], [47, 46, 47], [47, 46, 46, 47]],
      startsWith (c :: (seg ++ slashed segs)) pat = false)
    (hwhole : c :: (seg ++ slashed segs) ∉ [[47, 46], [47, 46, 46], [46], [46, 46]]) :
    ∃ out', Holds out' (text ++ (c :: seg).drop skip) ∧
      pathNormalizedLoop junk isAbsolute slash (fuel + 1) (c :: (seg ++ slashed segs))
          (c :: (seg ++ slashed segs)).length out =
        pathNormalizedLoop junk isAbsolute slash fuel (slashed segs) (slashed segs).length
          out' := by
  have hcopied : ((c :: (seg ++ slashed segs)).drop skip ++ [0]).take (seg.length + 1 - skip) =
      (c :: seg).drop skip := by
    rw [← List.cons_append, List.drop_append_of_le_length (by rw [List.length_cons]; omega),
      List.append_assoc]
    exact List.take_left' (by rw [List.length_drop, List.length_cons])
  obtain ⟨out', hout', hholds, -⟩ := kmsRequestStrAppendChars_holds junk h
    ((c :: (seg ++ slashed segs)).drop skip ++ [0]) (some (seg.length + 1 - skip))
    (by simp [actualLen]; omega) (by simp [actualLen]; omega)
  refine ⟨out', hcopied ▸ hholds, ?_⟩
  simp only [List.mem_cons, List.not_mem_nil, or_false, forall_eq_or_imp, forall_eq, not_or]
    at hprefixes hwhole
  obtain ⟨h1, h2, h3, h4⟩ := hprefixes
  obtain ⟨h5, h6, h7, h8⟩ := hwhole
  have hdrop : (c :: (seg ++ slashed segs)).drop (seg.length + 1) = slashed segs := by
    rw [List.drop_succ_cons, List.drop_left]
  have hrest : (c :: (seg ++ slashed segs)).length - (seg.length + 1) = (slashed segs).length := by
    simp only [List.length_cons, List.length_append]
    omega
  rw [pathNormalizedLoop]
  simp only [h1, h2, h3, h4, h5, h6, h7, h8, hmove, Bool.false_eq_true, if_false, or_self,
    if_pos (show skip ≤ seg.length + 1 by omega), hout', hdrop, hrest, Option.bind_eq_bind,
    Option.bind_some]
  rfl

/-- **Segments behind slashes.**  Each turn takes one. -/
lemma pathNormalizedLoop_slashed {isAbsolute : Bool} (hslash : Holds slash [47])
    {segs : List (List UInt8)} (hsegs : ∀ seg ∈ segs, 47 ∉ seg) {fuel : ℕ}
    (hfuel : (slashed segs).length < fuel)
    {text : List UInt8} (h : Holds out text) {walk : List (List UInt8) × Bool}
    (hr : Renders isAbsolute walk text) (hlt : text.length + (slashed segs).length < 2 ^ 63) :
    ∃ out' text', pathNormalizedLoop junk isAbsolute slash fuel (slashed segs)
        (slashed segs).length out = some out' ∧
      Holds out' text' ∧ Renders isAbsolute (segs.foldl walkStep walk) text' ∧
      text'.length ≤ text.length + (slashed segs).length := by
  induction segs generalizing fuel out text walk with
  | nil =>
      obtain ⟨fuel, rfl⟩ : ∃ n, fuel = n + 1 := ⟨fuel - 1, by omega⟩
      exact ⟨out, text, by simp [pathNormalizedLoop, slashed], h, hr, Nat.le_add_right _ _⟩
  | cons seg segs ih =>
      obtain ⟨fuel, rfl⟩ : ∃ n, fuel = n + 1 := ⟨fuel - 1, by omega⟩
      have hseg := hsegs seg List.mem_cons_self
      have hsegs' : ∀ s ∈ segs, 47 ∉ s := fun s hs => hsegs s (List.mem_cons_of_mem _ hs)
      have hcons : slashed (seg :: segs) = 47 :: (seg ++ slashed segs) := by simp [slashed]
      have hlen : (slashed (seg :: segs)).length = 1 + seg.length + (slashed segs).length := by
        rw [hcons, List.length_cons, List.length_append]
        omega
      rw [hlen] at hfuel hlt
      by_cases hdot : seg = [46]
      · -- "/./" and "/."
        subst hdot
        have hstep : walkStep walk [46] = walk := rfl
        rw [List.foldl_cons, hstep]
        by_cases hnil : segs = []
        · subst hnil
          exact ⟨out, text, by simp [pathNormalizedLoop, slashed, startsWith], h, hr,
            Nat.le_add_right _ _⟩
        · obtain ⟨out', text', hout', hdone, hr', hle⟩ := ih hsegs'
            (show _ < fuel by omega) h hr (by omega)
          refine ⟨out', text', ?_, hdone, hr', by omega⟩
          obtain ⟨rest, hrest⟩ := exists_slashed hnil
          rw [← hout', hcons, hrest]
          simp [pathNormalizedLoop, startsWith]
      by_cases hdotdot : seg = [46, 46]
      · -- "/../" and "/.."
        subst hdotdot
        rw [List.foldl_cons]
        obtain ⟨r, mid, hdelete, hholds, hr', hle⟩ := hr.delete h
        by_cases hnil : segs = []
        · subst hnil
          exact ⟨r, mid, by simp [pathNormalizedLoop, slashed, startsWith, hdelete], hholds, hr',
            by omega⟩
        · obtain ⟨out', text', hout', hdone, hr'', hle'⟩ := ih hsegs'
            (show _ < fuel by omega) hholds hr' (by omega)
          refine ⟨out', text', ?_, hdone, hr'', by omega⟩
          obtain ⟨rest, hrest⟩ := exists_slashed hnil
          rw [← hout', hcons, hrest]
          simp [pathNormalizedLoop, startsWith, hdelete]
      · have hskip : skipped isAbsolute text ≤ 1 := by
          unfold skipped
          split_ifs <;> omega
        obtain ⟨hd, hd'⟩ := startsWith_of_ne segs hseg (by decide) hdot
        obtain ⟨hdd, hdd'⟩ := startsWith_of_ne segs hseg (by decide) hdotdot
        have hprefixes : ∀ pat ∈ [[46, 46, 47], [46, 47], [47, 46, 47], [47, 46, 46, 47]],
            startsWith (47 :: (seg ++ slashed segs)) pat = false := by
          simp only [List.mem_cons, List.not_mem_nil, or_false, forall_eq_or_imp, forall_eq]
          exact ⟨rfl, rfl, hd, hdd⟩
        obtain ⟨r, hholds, hturn⟩ := pathNormalizedLoop_move junk isAbsolute h fuel
          (moveSegment_slash isAbsolute hslash h hseg segs) hskip (by omega) hprefixes
          (by simpa using ⟨hd', hdd'⟩)
        have hdrop : ((47 :: seg).drop (skipped isAbsolute text)).length ≤ seg.length + 1 := by
          rw [List.length_drop, List.length_cons]
          omega
        have htext : (text ++ (47 :: seg).drop (skipped isAbsolute text)).length ≤
            text.length + (seg.length + 1) := by
          rw [List.length_append]
          omega
        obtain ⟨out', text', hout', hdone, hr', hle⟩ := ih hsegs' (show _ < fuel by omega) hholds
          (hr.move hseg hdot hdotdot) (by omega)
        refine ⟨out', text', ?_, hdone, hr', by omega⟩
        rw [hcons, hturn]
        exact hout'

lemma eq_dots {seg : List UInt8} (h : ¬(seg ≠ [46] ∧ seg ≠ [46, 46])) :
    seg = [46] ∨ seg = [46, 46] := by
  by_contra hnone
  push Not at hnone
  exact h hnone

/-- Nothing is in the output of a relative path at first. -/
lemma renders_nil : Renders false ([], false) [] :=
  ⟨clean_nil, fun hn => absurd rfl hn, fun _ => Or.inl rfl⟩

/-- A relative path that begins with a name. -/
lemma pathNormalizedLoop_named (hslash : Holds slash [47]) {first : List UInt8}
    (hfirst : 47 ∉ first) (hdot : first ≠ [46]) (hdotdot : first ≠ [46, 46])
    {segs : List (List UInt8)} (hsegs : ∀ seg ∈ segs, 47 ∉ seg) {fuel : ℕ}
    (hfuel : (first ++ slashed segs).length < fuel) (h : Holds out [])
    (hlt : (first ++ slashed segs).length < 2 ^ 63) :
    ∃ out' text', pathNormalizedLoop junk false slash fuel (first ++ slashed segs)
        (first ++ slashed segs).length out = some out' ∧
      Holds out' text' ∧ Renders false ((first :: segs).foldl walkStep ([], false)) text' := by
  rcases first with _ | ⟨c, seg⟩
  · obtain ⟨out', text', hout', hdone, hr, -⟩ :=
      pathNormalizedLoop_slashed junk hslash hsegs hfuel h renders_nil (by simpa using hlt)
    exact ⟨out', text', hout', hdone, hr⟩
  · obtain ⟨fuel, rfl⟩ : ∃ n, fuel = n + 1 := ⟨fuel - 1, by omega⟩
    simp only [List.cons_append, List.length_cons, List.length_append] at hfuel hlt
    have hmem := hfirst
    rw [List.mem_cons, not_or] at hmem
    obtain ⟨hd, hd'⟩ := startsWith_of_ne segs hfirst (by decide) hdot
    obtain ⟨hdd, hdd'⟩ := startsWith_of_ne segs hfirst (by decide) hdotdot
    have hc : (47 == c) = false := by simpa using hmem.1
    have hprefixes : ∀ pat ∈ [[46, 46, 47], [46, 47], [47, 46, 47], [47, 46, 46, 47]],
        startsWith (c :: (seg ++ slashed segs)) pat = false := by
      simp only [List.mem_cons, List.not_mem_nil, or_false, forall_eq_or_imp, forall_eq]
      refine ⟨hdd, hd, ?_, ?_⟩ <;> rw [startsWith, List.isPrefixOf_cons_cons, hc, Bool.false_and]
    have hwhole : c :: (seg ++ slashed segs) ∉ [[47, 46], [47, 46, 46], [46], [46, 46]] := by
      simp only [List.mem_cons, List.not_mem_nil, or_false, not_or]
      exact ⟨fun heq => hmem.1 (List.cons.inj heq).1.symm,
        fun heq => hmem.1 (List.cons.inj heq).1.symm, hd', hdd'⟩
    obtain ⟨r, hholds, hturn⟩ := pathNormalizedLoop_move junk false h fuel
      (moveSegment_first false (Ne.symm hmem.1) hmem.2 segs) (Nat.zero_le 1)
      (by simp only [List.length_nil]; omega) hprefixes hwhole
    rw [List.drop_zero, List.nil_append] at hholds
    have hr : Renders false (walkStep ([], false) (c :: seg)) (c :: seg) :=
      renders_nil.move hfirst hdot hdotdot
    obtain ⟨out', text', hout', hdone, hr', -⟩ := pathNormalizedLoop_slashed junk hslash hsegs
      (show _ < fuel by omega) hholds hr (by rw [List.length_cons]; omega)
    refine ⟨out', text', ?_, hdone, hr'⟩
    rw [List.cons_append, hturn]
    exact hout'

/-- **A relative path.**  As long as nothing is in the output, `.` and `..` in front are
dropped with the slash behind them. -/
lemma pathNormalizedLoop_relative (hslash : Holds slash [47]) {first : List UInt8}
    (hfirst : 47 ∉ first) {segs : List (List UInt8)} (hsegs : ∀ seg ∈ segs, 47 ∉ seg) {fuel : ℕ}
    (hfuel : (first ++ slashed segs).length < fuel) (h : Holds out [])
    (hlt : (first ++ slashed segs).length < 2 ^ 63) :
    ∃ out' text', pathNormalizedLoop junk false slash fuel (first ++ slashed segs)
        (first ++ slashed segs).length out = some out' ∧
      Holds out' text' ∧ Renders false ((first :: segs).foldl walkStep ([], false)) text' := by
  induction segs generalizing first fuel with
  | nil =>
      by_cases hname : first ≠ [46] ∧ first ≠ [46, 46]
      · exact pathNormalizedLoop_named junk hslash hfirst hname.1 hname.2 hsegs hfuel h hlt
      · obtain ⟨fuel, rfl⟩ : ∃ n, fuel = n + 1 := ⟨fuel - 1, by omega⟩
        refine ⟨out, [], ?_, h, ?_⟩
        all_goals rcases eq_dots hname with rfl | rfl
        · simp [pathNormalizedLoop, slashed, startsWith]
        · simp [pathNormalizedLoop, slashed, startsWith]
        · exact renders_nil
        · exact renders_nil
  | cons seg segs ih =>
      by_cases hname : first ≠ [46] ∧ first ≠ [46, 46]
      · exact pathNormalizedLoop_named junk hslash hfirst hname.1 hname.2 hsegs hfuel h hlt
      · obtain ⟨fuel, rfl⟩ : ∃ n, fuel = n + 1 := ⟨fuel - 1, by omega⟩
        have hcons : slashed (seg :: segs) = 47 :: (seg ++ slashed segs) := by simp [slashed]
        simp only [List.length_append, hcons, List.length_cons] at hfuel hlt
        obtain ⟨out', text', hout', hdone, hr⟩ := ih (hsegs seg List.mem_cons_self)
          (fun s hs => hsegs s (List.mem_cons_of_mem _ hs))
          (show _ < fuel by rw [List.length_append]; omega) (by rw [List.length_append]; omega)
        refine ⟨out', text', ?_, hdone, ?_⟩
        · rw [← hout', hcons]
          rcases eq_dots hname with rfl | rfl <;> simp [pathNormalizedLoop, startsWith]
        · have hstep : walkStep ([], false) first = ([], false) := by
            rcases eq_dots hname with rfl | rfl <;> rfl
          rw [List.foldl_cons, hstep]
          exact hr

end Turns

/-! ## The result -/

/-- The loop, and the slash that stands for an empty path. -/
lemma kmsRequestStrPathNormalized_holds (junk : ℕ → UInt8) {str : KmsRequestStr}
    {text : List UInt8} (h : Holds str text) (hnul : 0 ∉ text) (hlt : text.length < 2 ^ 62) :
    ∃ out, kmsRequestStrPathNormalized junk str = some out ∧ Holds out (normalizePath text) := by
  have hcopy : str.str.takeWhile (· ≠ 0) = text := by
    rw [h.str_eq, List.takeWhile_append_of_pos]
    · simp
    · intro c hc
      simpa using fun heq : c = 0 => hnul (heq ▸ hc)
  obtain ⟨slash, hslash, hholds⟩ := kmsRequestStrNewFromChars_holds junk
    (show actualLen [47] (some 1) ≤ [(47 : UInt8)].length from le_refl _)
  have hnew := kmsRequestStrNew_holds junk
  obtain ⟨first, segs, hsplit, htext, hfirst, hsegs⟩ := exists_segments text
  -- the loop, or the path that is only a slash
  have hloop : ∃ out text', pathNormalizedOut junk slash text str.len = some out ∧
      Holds out text' ∧
      Renders (text.head? == some 47) ((text.splitOn 47).foldl walkStep ([], false)) text' := by
    unfold pathNormalizedOut
    by_cases honly : text = [47]
    · rw [if_pos honly, honly]
      exact ⟨_, [], rfl, hnew, clean_nil, fun hn => absurd rfl hn, fun _ => Or.inl rfl⟩
    rw [if_neg honly, hsplit, h.len_eq]
    by_cases habs : first = [] ∧ segs ≠ []
    · obtain ⟨rfl, hne⟩ := habs
      obtain ⟨rest, hrest⟩ := exists_slashed hne
      rw [List.nil_append] at htext
      have hhead : (text.head? == some 47) = true := by rw [htext, hrest]; rfl
      rw [hhead, htext]
      obtain ⟨out, text', hout, hdone, hr, -⟩ := pathNormalizedLoop_slashed junk hholds hsegs
        (Nat.lt_succ_self _) hnew
        (⟨clean_nil, fun hn => absurd rfl hn, fun _ => Or.inl rfl⟩ : Renders true ([], false) [])
        (by rw [← htext, List.length_nil]; omega)
      exact ⟨out, text', hout, hdone, hr⟩
    · have hhead : (text.head? == some 47) = false := by
        rw [htext]
        rcases first with _ | ⟨c, first⟩
        · have hnil : segs = [] := by simpa using habs
          rw [hnil]
          rfl
        · have hc : c ≠ 47 := fun hc => hfirst (hc ▸ List.mem_cons_self)
          simpa using hc
      rw [hhead, htext]
      exact pathNormalizedLoop_relative junk hholds hfirst hsegs (Nat.lt_succ_self _) hnew
        (by rw [← htext]; omega)
  obtain ⟨out, text', hout, hdone, hr⟩ := hloop
  have hrun : kmsRequestStrPathNormalized junk str =
      if out.len = 0 then kmsRequestStrAppendChar junk out 47 else some out := by
    simp only [kmsRequestStrPathNormalized, hslash, hcopy, Option.bind_eq_bind, Option.bind_some,
      hout]
    rfl
  rw [hrun, normalizePath]
  by_cases hempty : ((text.splitOn 47).foldl walkStep ([], false)).1 = []
  · rw [if_pos hempty]
    rcases hr.text_nil hempty with rfl | ⟨-, rfl⟩
    · rw [if_pos (show out.len = 0 from hdone.len_eq)]
      obtain ⟨out', hout', hholds', -⟩ := kmsRequestStrAppendChar_holds junk hdone (by simp) 47
      exact ⟨out', hout', hholds'⟩
    · rw [if_neg (by rw [hdone.len_eq]; simp)]
      exact ⟨out, rfl, hdone⟩
  · rw [if_neg hempty]
    have htext' := hr.text_eq hempty
    have hne : text' ≠ [] := htext' ▸ render_ne_nil _ hr.clean hempty
    rw [if_neg (by rw [hdone.len_eq]; simpa using hne)]
    exact ⟨out, rfl, htext' ▸ hdone⟩

end CBootstrap.Kms
