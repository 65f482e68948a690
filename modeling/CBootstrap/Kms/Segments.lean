import Mathlib.Data.List.Flatten
import Mathlib.Data.List.Infix
import Mathlib.Data.Nat.Notation
import Mathlib.Tactic.Push
import Mathlib.Tactic.SplitIfs

/-!
# The segments of a path

What `kms_request_str_path_normalized` computes is easier to say with the segments between the
slashes than with what the rest of the path begins with.  They are pushed on a stack, `..` pops it,
`.` does nothing, and an empty segment is remembered as a slash at the end, which the next segment
takes away again (`walkStep`, `normalizePath`).

Everything about normal paths follows from the stack: nothing is left of `.` and `..`, no slash is
repeated (`mem_splitOn_normalizePath`), and a normal path is left as it is
(`normalizePath_normalizePath`).
-/

namespace CBootstrap.Kms

/-! ## The stack -/

/-- One segment, on a stack and whether there is a slash at its end. -/
def walkStep (walk : List (List UInt8) × Bool) (seg : List UInt8) : List (List UInt8) × Bool :=
  if seg = [] then (walk.1, !walk.1.isEmpty)
  else if seg = [46] then walk
  else if seg = [46, 46] then (if walk.2 then walk.1 else walk.1.dropLast, false)
  else (walk.1 ++ [seg], false)

/-- Segments, each behind a slash. -/
def slashed (segs : List (List UInt8)) : List UInt8 := segs.flatMap (47 :: ·)

/-- A stack, as a path: a relative one has no slash in front. -/
def render (isAbsolute : Bool) (walk : List (List UInt8) × Bool) : List UInt8 :=
  let path := slashed walk.1 ++ (if walk.2 then [47] else [])
  if isAbsolute then path else path.tail

/-- What `kms_request_str_path_normalized` is for. -/
def normalizePath (text : List UInt8) : List UInt8 :=
  let walk := (text.splitOn 47).foldl walkStep ([], false)
  if walk.1 = [] then [47] else render (text.head? == some 47) walk

/-- The segments of a stack are names, and a slash at the end is behind one of them. -/
structure Clean (walk : List (List UInt8) × Bool) : Prop where
  segs : ∀ seg ∈ walk.1, seg ≠ [] ∧ seg ≠ [46] ∧ seg ≠ [46, 46] ∧ 47 ∉ seg
  slash : walk.2 = true → walk.1 ≠ []

lemma clean_nil : Clean ([], false) := ⟨by simp, by simp⟩

lemma Clean.walkStep {walk : List (List UInt8) × Bool} (h : Clean walk) {seg : List UInt8}
    (hseg : 47 ∉ seg) : Clean (walkStep walk seg) := by
  unfold Kms.walkStep
  split_ifs with hempty hdot hdotdot hslash
  · exact ⟨h.segs, by simp⟩
  · exact h
  · exact ⟨h.segs, by simp⟩
  · exact ⟨fun seg hmem => h.segs seg (List.mem_of_mem_dropLast hmem), by simp⟩
  · refine ⟨fun other hmem => ?_, by simp⟩
    rcases List.mem_append.mp hmem with hmem | hmem
    · exact h.segs other hmem
    · rw [List.mem_singleton.mp hmem]
      exact ⟨hempty, hdot, hdotdot, hseg⟩

lemma Clean.foldl {segs : List (List UInt8)} (hsegs : ∀ seg ∈ segs, 47 ∉ seg)
    {walk : List (List UInt8) × Bool} (h : Clean walk) : Clean (segs.foldl Kms.walkStep walk) := by
  induction segs generalizing walk with
  | nil => exact h
  | cons seg segs ih =>
      exact ih (fun s hs => hsegs s (List.mem_cons_of_mem _ hs))
        (h.walkStep (hsegs seg List.mem_cons_self))

/-- Clean segments are pushed. -/
lemma foldl_walkStep_clean {segs stack : List (List UInt8)} (h : Clean (segs, false)) :
    segs.foldl walkStep (stack, false) = (stack ++ segs, false) := by
  induction segs generalizing stack with
  | nil => rw [List.foldl_nil, List.append_nil]
  | cons seg segs ih =>
      obtain ⟨hempty, hdot, hdotdot, -⟩ := h.segs seg List.mem_cons_self
      rw [List.foldl_cons, walkStep, if_neg hempty, if_neg hdot, if_neg hdotdot,
        ih ⟨fun s hs => h.segs s (List.mem_cons_of_mem _ hs), by simp⟩, List.append_assoc]
      rfl

/-! ## Splitting -/

lemma not_mem_of_mem_splitOn {text seg : List UInt8} (h : seg ∈ text.splitOn 47) : 47 ∉ seg := by
  induction text generalizing seg with
  | nil =>
      rw [List.splitOn_nil, List.mem_singleton] at h
      simp [h]
  | cons c text ih =>
      rw [List.splitOn_cons_eq_if_modifyHead] at h
      split_ifs at h with hc
      · rcases List.mem_cons.mp h with rfl | h
        · simp
        · exact ih h
      · rcases hsplit : text.splitOn 47 with _ | ⟨first, segs⟩
        · exact absurd hsplit (List.splitOn_ne_nil _ _)
        · rw [hsplit] at h ih
          rcases List.mem_cons.mp h with rfl | h
          · have := ih List.mem_cons_self
            simp only [List.mem_cons, not_or]
            exact ⟨by simpa using Ne.symm (by simpa using hc), this⟩
          · exact ih (List.mem_cons_of_mem _ h)

/-- The slashes between segments are those in front of all but the first. -/
lemma intercalate_cons (first : List UInt8) (segs : List (List UInt8)) :
    [47].intercalate (first :: segs) = first ++ slashed segs := by
  induction segs generalizing first with
  | nil => simp [slashed]
  | cons seg segs ih =>
      rw [List.intercalate_cons_cons, ih]
      simp [slashed]

/-- A path is its first segment, and the others behind slashes. -/
lemma exists_segments (text : List UInt8) :
    ∃ first segs, text.splitOn 47 = first :: segs ∧ text = first ++ slashed segs ∧
      47 ∉ first ∧ ∀ seg ∈ segs, 47 ∉ seg := by
  rcases hsplit : text.splitOn 47 with _ | ⟨first, segs⟩
  · exact absurd hsplit (List.splitOn_ne_nil _ _)
  · refine ⟨first, segs, rfl, ?_, ?_, fun seg hseg => ?_⟩
    · rw [← intercalate_cons, ← hsplit, List.intercalate_splitOn]
    · exact not_mem_of_mem_splitOn (hsplit ▸ List.mem_cons_self)
    · exact not_mem_of_mem_splitOn (hsplit ▸ List.mem_cons_of_mem _ hseg)

lemma splitOn_segments {first : List UInt8} {segs : List (List UInt8)} (hfirst : 47 ∉ first)
    (hsegs : ∀ seg ∈ segs, 47 ∉ seg) : (first ++ slashed segs).splitOn 47 = first :: segs := by
  rw [← intercalate_cons, List.splitOn_intercalate]
  · intro seg hseg
    rcases List.mem_cons.mp hseg with rfl | hseg
    · exact hfirst
    · exact hsegs seg hseg
  · exact List.cons_ne_nil _ _

/-- The first segment ends at the first slash. -/
lemma takeWhile_segments {first : List UInt8} (hfirst : 47 ∉ first) (segs : List (List UInt8)) :
    (first ++ slashed segs).takeWhile (· ≠ 47) = first := by
  have hall : ∀ c ∈ first, decide (c ≠ 47) = true := by
    intro c hc
    simpa using fun heq : c = 47 => hfirst (heq ▸ hc)
  rw [List.takeWhile_append_of_pos hall]
  rcases segs with _ | ⟨seg, segs⟩ <;> simp [slashed]

/-! ## Normal paths -/

/-- The empty segment behind a slash at the end. -/
def lastSegment (slash : Bool) : List (List UInt8) := if slash then [[]] else []

/-- A rendered stack, segment by segment. -/
lemma render_cons (isAbsolute : Bool) (seg : List UInt8) (stack : List (List UInt8))
    (slash : Bool) :
    render isAbsolute (seg :: stack, slash) =
      (if isAbsolute then 47 :: seg else seg) ++ slashed (stack ++ lastSegment slash) := by
  have hends : (if slash then [(47 : UInt8)] else []) = slashed (lastSegment slash) := by
    rcases slash with _ | _ <;> rfl
  simp only [render, hends, slashed, List.flatMap_append, List.flatMap_cons]
  rcases isAbsolute with _ | _ <;> simp

lemma slashed_concat (stack : List (List UInt8)) (seg : List UInt8) :
    slashed (stack ++ [seg]) = slashed stack ++ 47 :: seg := by
  simp [slashed]

lemma exists_slashed {segs : List (List UInt8)} (h : segs ≠ []) :
    ∃ rest, slashed segs = 47 :: rest := by
  rcases segs with _ | ⟨seg, segs⟩
  · exact absurd rfl h
  · exact ⟨seg ++ slashed segs, rfl⟩

lemma slashed_ne_nil {segs : List (List UInt8)} (h : segs ≠ []) : slashed segs ≠ [] := by
  obtain ⟨rest, hrest⟩ := exists_slashed h
  rw [hrest]
  exact List.cons_ne_nil _ _

/-- A slash at the end. -/
lemma render_slash (isAbsolute : Bool) {stack : List (List UInt8)} (h : stack ≠ []) :
    render isAbsolute (stack, true) = render isAbsolute (stack, false) ++ [47] := by
  rcases isAbsolute with _ | _
  · simp [render, List.tail_append_of_ne_nil (slashed_ne_nil h)]
  · simp [render]

/-- One segment more. -/
lemma render_concat {isAbsolute : Bool} {stack : List (List UInt8)}
    (h : stack ≠ [] ∨ isAbsolute = true) (seg : List UInt8) :
    render isAbsolute (stack ++ [seg], false) = render isAbsolute (stack, false) ++ 47 :: seg := by
  rcases isAbsolute with _ | _
  · have hne : stack ≠ [] := by simpa using h
    simp [render, slashed_concat, List.tail_append_of_ne_nil (slashed_ne_nil hne)]
  · simp [render, slashed_concat]

/-- The only segment of a relative path. -/
lemma render_single (seg : List UInt8) : render false ([seg], false) = seg := by
  simp [render, slashed]

/-- A rendered stack ends with its last segment. -/
lemma getLast?_render (isAbsolute : Bool) {stack : List (List UInt8)} (h : Clean (stack, false))
    (hne : stack ≠ []) :
    ∃ c, (render isAbsolute (stack, false)).getLast? = some c ∧ c ≠ 47 := by
  obtain ⟨stack, seg, rfl⟩ := List.eq_nil_or_concat stack |>.resolve_left hne
  rw [List.concat_eq_append] at h ⊢
  obtain ⟨hempty, -, -, hseg⟩ := h.segs seg (by simp)
  have hlast := List.getLast?_eq_some_getLast hempty
  refine ⟨seg.getLast hempty, ?_, fun heq => hseg (heq ▸ List.getLast_mem hempty)⟩
  by_cases hconcat : stack ≠ [] ∨ isAbsolute = true
  · rw [render_concat hconcat, List.getLast?_append, List.getLast?_cons]
    simp [hlast]
  · push Not at hconcat
    obtain ⟨rfl, hrel⟩ := hconcat
    rw [Bool.eq_false_iff.mpr hrel, List.nil_append, render_single]
    exact hlast

lemma render_ne_nil (isAbsolute : Bool) {walk : List (List UInt8) × Bool} (h : Clean walk)
    (hne : walk.1 ≠ []) : render isAbsolute walk ≠ [] := by
  obtain ⟨stack, slash⟩ := walk
  rcases slash with _ | _
  · obtain ⟨c, hlast, -⟩ := getLast?_render isAbsolute h hne
    intro hnil
    simp [hnil] at hlast
  · rw [render_slash isAbsolute hne]
    exact List.append_ne_nil_of_right_ne_nil _ (List.cons_ne_nil _ _)

/-- The segments of a rendered stack: those on it, and an empty one for each slash at an end. -/
lemma splitOn_render (isAbsolute : Bool) {walk : List (List UInt8) × Bool} (h : Clean walk)
    (hne : walk.1 ≠ []) :
    (render isAbsolute walk).splitOn 47 =
      lastSegment isAbsolute ++ (walk.1 ++ lastSegment walk.2) := by
  obtain ⟨stack, slash⟩ := walk
  rcases stack with _ | ⟨seg, stack⟩
  · exact absurd rfl hne
  obtain ⟨-, -, -, hseg⟩ := h.segs seg List.mem_cons_self
  have hstack : ∀ s ∈ stack ++ lastSegment slash, 47 ∉ s := by
    intro s hs
    rcases List.mem_append.mp hs with hs | hs
    · exact (h.segs s (List.mem_cons_of_mem _ hs)).2.2.2
    · rcases slash with _ | _
      · exact absurd hs List.not_mem_nil
      · rw [List.mem_singleton.mp hs]
        exact List.not_mem_nil
  rw [render_cons]
  rcases isAbsolute with _ | _
  · rw [if_neg Bool.false_ne_true, splitOn_segments hseg hstack]
    rfl
  · have hcons : 47 :: seg ++ slashed (stack ++ lastSegment slash) =
        [] ++ slashed (seg :: (stack ++ lastSegment slash)) := by simp [slashed]
    rw [if_pos rfl, hcons, splitOn_segments List.not_mem_nil]
    · rfl
    · intro s hs
      rcases List.mem_cons.mp hs with rfl | hs
      · exact hseg
      · exact hstack s hs

/-- **A normal path** is left as it is. -/
lemma normalizePath_render {isAbsolute : Bool} {walk : List (List UInt8) × Bool}
    (h : Clean walk) (hne : walk.1 ≠ []) :
    normalizePath (render isAbsolute walk) = render isAbsolute walk := by
  have hwalk : ((render isAbsolute walk).splitOn 47).foldl walkStep ([], false) = walk := by
    have hfront : (lastSegment isAbsolute).foldl walkStep ([], false) = ([], false) := by
      rcases isAbsolute with _ | _ <;> rfl
    rw [splitOn_render isAbsolute h hne, List.foldl_append, hfront, List.foldl_append,
      foldl_walkStep_clean ⟨h.segs, by simp⟩, List.nil_append]
    obtain ⟨stack, slash⟩ := walk
    rcases slash with _ | _
    · rfl
    · have hstack : stack.isEmpty = false := by simpa using hne
      simp [lastSegment, walkStep, hstack]
  have hhead : (render isAbsolute walk).head? == some 47 ↔ isAbsolute = true := by
    obtain ⟨stack, slash⟩ := walk
    rcases stack with _ | ⟨seg, stack⟩
    · exact absurd rfl hne
    obtain ⟨hempty, -, -, hseg⟩ := h.segs seg List.mem_cons_self
    rw [render_cons]
    rcases isAbsolute with _ | _
    · rcases seg with _ | ⟨c, seg⟩
      · exact absurd rfl hempty
      · have hc : c ≠ 47 := fun hc => hseg (hc ▸ List.mem_cons_self)
        simp [hc]
    · simp
  rw [normalizePath]
  simp only [hwalk, if_neg hne]
  rw [Bool.eq_iff_iff.mpr hhead]

/-- The stack of a path. -/
lemma clean_walk (text : List UInt8) : Clean ((text.splitOn 47).foldl walkStep ([], false)) :=
  clean_nil.foldl fun _ => not_mem_of_mem_splitOn

/-- **Normalizing is idempotent.** -/
lemma normalizePath_normalizePath (text : List UInt8) :
    normalizePath (normalizePath text) = normalizePath text := by
  by_cases hempty : ((text.splitOn 47).foldl walkStep ([], false)).1 = []
  · have htext : normalizePath text = [47] := by
      rw [normalizePath]
      exact if_pos hempty
    rw [htext]
    decide
  · have htext : normalizePath text = render (text.head? == some 47) _ := if_neg hempty
    rw [htext]
    exact normalizePath_render (clean_walk text) hempty

/-- **Normal paths.**  No segment is `.` or `..`, and there is something between two slashes. -/
lemma mem_splitOn_normalizePath {text seg : List UInt8} :
    (seg ∈ (normalizePath text).splitOn 47 → seg ≠ [46] ∧ seg ≠ [46, 46]) ∧
      (seg ∈ ((normalizePath text).splitOn 47).tail.dropLast → seg ≠ []) := by
  rw [normalizePath]
  have hclean := clean_walk text
  split_ifs with hempty
  · have hsplit : List.splitOn 47 [(47 : UInt8)] = [[], []] := by decide
    rw [hsplit]
    refine ⟨fun hmem => ?_, fun hmem => absurd hmem List.not_mem_nil⟩
    have hseg : seg = [] := by simpa using hmem
    simp [hseg]
  generalize (text.splitOn 47).foldl walkStep ([], false) = walk at hclean hempty
  rw [splitOn_render _ hclean hempty]
  have hlast : ∀ {slash : Bool}, seg ∈ lastSegment slash → seg = [] := by
    rintro (_ | _) hmem
    · exact absurd hmem List.not_mem_nil
    · exact List.mem_singleton.mp hmem
  constructor
  · intro hmem
    rw [List.mem_append, List.mem_append] at hmem
    rcases hmem with hmem | hmem | hmem
    · simp [hlast hmem]
    · exact ⟨(hclean.segs seg hmem).2.1, (hclean.segs seg hmem).2.2.1⟩
    · simp [hlast hmem]
  · intro hmem
    -- without its ends, all of this is on the stack
    have hstack : seg ∈ walk.1 := by
      have hends : ∀ {segs : List (List UInt8)} {slash : Bool},
          seg ∈ (segs ++ lastSegment slash).dropLast → seg ∈ segs := by
        rintro segs (_ | _) hmem
        · rw [lastSegment, if_neg Bool.false_ne_true, List.append_nil] at hmem
          exact List.mem_of_mem_dropLast hmem
        · rw [lastSegment, if_pos rfl, List.dropLast_concat] at hmem
          exact hmem
      generalize (text.head? == some 47) = isAbsolute at hmem
      rcases isAbsolute with _ | _
      · rw [lastSegment, if_neg Bool.false_ne_true, List.nil_append,
          List.tail_append_of_ne_nil hempty] at hmem
        exact List.mem_of_mem_tail (hends hmem)
      · exact hends hmem
    exact (hclean.segs seg hstack).1

/-- The stack has segments of the path only. -/
lemma mem_foldl_walkStep {segs : List (List UInt8)} {walk : List (List UInt8) × Bool}
    {seg : List UInt8} (h : seg ∈ (segs.foldl walkStep walk).1) : seg ∈ walk.1 ∨ seg ∈ segs := by
  induction segs generalizing walk with
  | nil => exact Or.inl h
  | cons first segs ih =>
      rcases ih h with hmem | hmem
      · unfold walkStep at hmem
        split_ifs at hmem
        · exact Or.inl hmem
        · exact Or.inl hmem
        · exact Or.inl hmem
        · exact Or.inl (List.mem_of_mem_dropLast hmem)
        · rcases List.mem_append.mp hmem with hmem | hmem
          · exact Or.inl hmem
          · exact Or.inr (List.mem_singleton.mp hmem ▸ List.mem_cons_self)
      · exact Or.inr (List.mem_cons_of_mem _ hmem)

/-- How long a stack is, with the slashes. -/
def walkLength (walk : List (List UInt8) × Bool) : ℕ := (slashed walk.1).length + walk.2.toNat

lemma walkLength_foldl_le (segs : List (List UInt8)) (walk : List (List UInt8) × Bool) :
    walkLength (segs.foldl walkStep walk) ≤ walkLength walk + (slashed segs).length := by
  induction segs generalizing walk with
  | nil => exact Nat.le_add_right _ _
  | cons seg segs ih =>
      have hstep : walkLength (walkStep walk seg) ≤ walkLength walk + (seg.length + 1) := by
        have hbool := Bool.toNat_le (!walk.1.isEmpty)
        have hpop : (slashed walk.1.dropLast).length ≤ (slashed walk.1).length :=
          ((List.dropLast_sublist walk.1).flatMap _).length_le
        unfold walkStep walkLength
        split_ifs
        · simp only
          omega
        · omega
        · simp only [Bool.toNat_false]
          omega
        · simp only [Bool.toNat_false]
          omega
        · simp only [slashed_concat, List.length_append, List.length_cons, Bool.toNat_false]
          omega
      have hcons : (slashed (seg :: segs)).length = seg.length + 1 + (slashed segs).length := by
        simp [slashed]
        omega
      have hrest := ih (walkStep walk seg)
      rw [List.foldl_cons]
      omega

/-- A normal path has no characters of its own but slashes, and it is at most one longer. -/
lemma normalizePath_bounds (text : List UInt8) :
    (∀ c ∈ normalizePath text, c = 47 ∨ c ∈ text) ∧
      (normalizePath text).length ≤ text.length + 1 := by
  obtain ⟨first, segs, hsplit, htext, -, -⟩ := exists_segments text
  rw [normalizePath]
  split_ifs with hempty
  · exact ⟨fun c hc => Or.inl (List.mem_singleton.mp hc), by simp⟩
  have hlength := walkLength_foldl_le (text.splitOn 47) ([], false)
  have hstack := @mem_foldl_walkStep (text.splitOn 47) ([], false)
  generalize (text.splitOn 47).foldl walkStep ([], false) = walk at hlength hstack
  -- a relative path is the same, less a slash
  have hsub : render (text.head? == some 47) walk <:+
      slashed walk.1 ++ (if walk.2 then [47] else []) := by
    rw [render]
    rcases text.head? == some 47 with _ | _
    · exact List.tail_suffix _
    · exact List.suffix_refl _
  constructor
  · intro c hc
    rcases List.mem_append.mp (hsub.subset hc) with hc | hc
    · obtain ⟨seg, hseg, hc⟩ := List.mem_flatMap.mp hc
      rcases List.mem_cons.mp hc with rfl | hc
      · exact Or.inl rfl
      · have hmem := (hstack hseg).resolve_left List.not_mem_nil
        refine Or.inr ?_
        rw [hsplit] at hmem
        rw [htext]
        rcases List.mem_cons.mp hmem with rfl | hmem
        · exact List.mem_append_left _ hc
        · exact List.mem_append_right _
            (List.mem_flatMap.mpr ⟨seg, hmem, List.mem_cons_of_mem _ hc⟩)
    · split_ifs at hc
      · exact Or.inl (List.mem_singleton.mp hc)
      · exact absurd hc List.not_mem_nil
  · have hwhole : (slashed (text.splitOn 47)).length = text.length + 1 := by
      rw [hsplit]
      conv_rhs => rw [htext]
      simp [slashed]
    have hrender : (slashed walk.1 ++ (if walk.2 then [47] else [])).length = walkLength walk := by
      rw [walkLength, List.length_append]
      rcases walk.2 with _ | _ <;> rfl
    have hle := hsub.length_le
    have hzero : walkLength ([], false) = 0 := rfl
    omega

end CBootstrap.Kms
