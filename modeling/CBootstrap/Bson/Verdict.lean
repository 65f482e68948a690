import CBootstrap.Bson.Visit

/-!
# `print-invalid-arrays`: the verdict on a file

The tool is run to learn whether a file has arrays with invalid keys, and a run that exits with
success and prints no line about invalid keys reads as a clean bill.  It should mean that the
file is a sequence of complete documents, that every element of them was visited, and that every
array has keys in order (`Complete`).

It does not.  `bson_reader_read` takes a file that ends inside a document for one that ends;
`bson_iter_next` returns false at a corrupt element as it does at the end of a document, and
`visit` does not ask which; and the scope of a code-with-scope value is not descended into.
`verdict_iff` says on which files the verdict can be relied on all the same.  They are the files
that are refused by the reader, those in which the iterator gets to an array whose keys are not
in order, and those that are complete documents with empty scopes.  `truncated_file_passes` is a
file of none of these kinds.
-/

namespace CBootstrap.Bson

open Bytes

/-! ## `main` -/

/-- What the reader delivers is taken from the front of the file. -/
lemma bsonReaderRead_document {file bson rest : List UInt8}
    (h : bsonReaderRead file = .document bson rest) : rest.length < file.length := by
  rw [bsonReaderRead] at h
  by_cases hshort : file.length < 4
  · rw [if_pos hshort] at h
    cases h
  · rw [if_neg hshort] at h
    generalize Int.bmod (ofLE (file.take 4)) (2 ^ 32) = blen at h
    simp only at h
    split_ifs at h with hlow hlong
    cases h
    rw [List.length_drop]
    omega

/-- `main`, from the reader on: what it prints, and whether it exits with success. -/
def mainLoop (file : List UInt8) : List Line × Bool :=
  match _h : bsonReaderRead file with
  | .eof => ([], true)
  | .failed => ([], false)
  | .document bson rest =>
      let (lines, _) := visit freshState (bsonIterInit bson)
      let (others, success) := mainLoop rest
      (lines ++ others, success)
termination_by file.length
decreasing_by exact bsonReaderRead_document _h

/-- A line about invalid keys is among the lines. -/
def Reports (lines : List Line) : Prop := ∃ path keys, Line.invalidKeys path keys ∈ lines

/-! ## What the verdict should mean -/

/-- The elements whose lines were printed. -/
def visited (lines : List Line) : List (List UInt8 × BsonType) :=
  lines.filterMap fun
    | .element path type => some (path, type)
    | .invalidKeys _ _ => none

mutual

/-- The elements below an element, those of a scope included. -/
def Value.elements (path : List CString) : Value → List (List UInt8 × BsonType)
  | .document fields | .array fields | .codewscope _ fields => fields.elements path
  | _ => []

/-- All elements of a document, with their paths and types. -/
def Document.elements (path : List CString) : Document → List (List UInt8 × BsonType)
  | .nil => []
  | .cons key value rest =>
      (joinPath (path ++ [key]), value.type) ::
        (value.elements (path ++ [key]) ++ rest.elements path)

end

mutual

/-- Every array in a value has its keys in order. -/
def Value.ArraysInOrder : Value → Prop
  | .array fields => KeysInOrder fields.keys ∧ fields.ArraysInOrder
  | .document fields | .codewscope _ fields => fields.ArraysInOrder
  | _ => True

/-- Every array in a document, at any depth, has its keys in order. -/
def Document.ArraysInOrder : Document → Prop
  | .nil => True
  | .cons _ value rest => value.ArraysInOrder ∧ rest.ArraysInOrder

end

/-- The bytes of a sequence of documents. -/
def encodeRoots (roots : List Root) : List UInt8 :=
  roots.flatMap fun root => root.document.encode

/-- The file is a sequence of complete documents, all elements were visited, and all arrays have
their keys in order. -/
def Complete (file : List UInt8) (lines : List Line) : Prop :=
  ∃ roots : List Root, file = encodeRoots roots ∧
    visited lines = roots.flatMap (fun root => root.document.elements []) ∧
    ∀ root ∈ roots, root.document.ArraysInOrder

/-! ## When it does -/

/-- The reader refuses a document of the file. -/
inductive Refused : List UInt8 → Prop
  | here {file} (h : bsonReaderRead file = .failed) : Refused file
  | behind {file bson rest} (h : bsonReaderRead file = .document bson rest)
      (hrest : Refused rest) : Refused file

/-- The reader delivers a document. -/
inductive Delivers : List UInt8 → List UInt8 → Prop
  | here {file bson rest} (h : bsonReaderRead file = .document bson rest) : Delivers file bson
  | behind {file other rest bson} (h : bsonReaderRead file = .document other rest)
      (hrest : Delivers rest bson) : Delivers file bson

/-- The keys an iterator comes to. -/
def iterKeys (iter : BsonIter) : List (List UInt8) :=
  match _h : bsonIterNext iter with
  | none => []
  | some next => bsonIterKey next :: iterKeys next
termination_by iter.room
decreasing_by exact room_next _h

/-- The iterator comes to an array, in its document or in a document or an array in it. -/
inductive ComesTo : BsonIter → BsonIter → Prop
  | array {iter next} (h : bsonIterNext iter = some next) (htype : bsonIterType next = .array) :
      ComesTo iter (bsonIterRecurse next)
  | child {iter next a} (h : bsonIterNext iter = some next)
      (htype : bsonIterType next = .document ∨ bsonIterType next = .array)
      (ha : ComesTo (bsonIterRecurse next) a) : ComesTo iter a
  | later {iter next a} (h : bsonIterNext iter = some next) (ha : ComesTo next a) : ComesTo iter a

/-- The iterator comes to an array whose keys are not in order. -/
def ComesToDisorder (iter : BsonIter) : Prop :=
  ∃ a, ComesTo iter a ∧ ¬KeysInOrder (iterKeys a)

/-- Some document the reader delivers has such an array. -/
def HasDisorder (file : List UInt8) : Prop :=
  ∃ bson, Delivers file bson ∧ ComesToDisorder (bsonIterInit bson)

mutual

/-- Every scope in a value is empty. -/
def Value.EmptyScopes : Value → Prop
  | .codewscope _ scope => scope.keys = []
  | .document fields | .array fields => fields.EmptyScopes
  | _ => True

/-- Every scope in a document, at any depth, is empty. -/
def Document.EmptyScopes : Document → Prop
  | .nil => True
  | .cons _ value rest => value.EmptyScopes ∧ rest.EmptyScopes

end

/-- The file is a sequence of complete documents whose scopes are empty. -/
def Clean (file : List UInt8) : Prop :=
  ∃ roots : List Root, file = encodeRoots roots ∧ ∀ root ∈ roots, root.document.EmptyScopes

/-! ## `main`, one document at a time -/

lemma mainLoop_of_eof {file : List UInt8} (h : bsonReaderRead file = .eof) :
    mainLoop file = ([], true) := by
  rw [mainLoop]
  split
  · rfl
  · next hread => cases h.symm.trans hread
  · next hread => cases h.symm.trans hread

lemma mainLoop_of_failed {file : List UInt8} (h : bsonReaderRead file = .failed) :
    mainLoop file = ([], false) := by
  rw [mainLoop]
  split
  · next hread => cases h.symm.trans hread
  · rfl
  · next hread => cases h.symm.trans hread

lemma mainLoop_of_document {file bson rest : List UInt8}
    (h : bsonReaderRead file = .document bson rest) :
    mainLoop file =
      ((visit freshState (bsonIterInit bson)).1 ++ (mainLoop rest).1, (mainLoop rest).2) := by
  rw [mainLoop]
  split
  · next hread => cases h.symm.trans hread
  · next hread => cases h.symm.trans hread
  · next hread =>
    cases h.symm.trans hread
    rfl

/-- What holds of files at whose front the reader stops, and of a file if it holds of the rest
behind its first document, holds of every file. -/
lemma file_induction {P : List UInt8 → Prop}
    (eof : ∀ file, bsonReaderRead file = .eof → P file)
    (failed : ∀ file, bsonReaderRead file = .failed → P file)
    (document : ∀ file bson rest, bsonReaderRead file = .document bson rest → P rest → P file)
    (file : List UInt8) : P file := by
  induction hn : file.length using Nat.strong_induction_on generalizing file with
  | h n ih =>
      cases hread : bsonReaderRead file with
      | eof => exact eof file hread
      | failed => exact failed file hread
      | document bson rest =>
          have hlt := bsonReaderRead_document hread
          exact document file bson rest hread (ih rest.length (hn ▸ hlt) rest rfl)

/-- **It exits with success unless the reader refuses a document.** -/
lemma mainLoop_success_iff (file : List UInt8) : (mainLoop file).2 = true ↔ ¬Refused file := by
  induction file using file_induction with
  | eof file h =>
      rw [mainLoop_of_eof h]
      refine ⟨fun _ hrefused => ?_, fun _ => rfl⟩
      cases hrefused with
      | here hread => cases h.symm.trans hread
      | behind hread => cases h.symm.trans hread
  | failed file h =>
      rw [mainLoop_of_failed h]
      exact iff_of_false Bool.false_ne_true fun hnot => hnot (.here h)
  | document file bson rest h ih =>
      rw [mainLoop_of_document h, ih]
      refine not_congr ⟨fun hrest => .behind h hrest, fun hrefused => ?_⟩
      cases hrefused with
      | here hread => cases h.symm.trans hread
      | behind hread hrest =>
          cases h.symm.trans hread
          exact hrest

/-! ## What is reported -/

lemma reports_nil : ¬Reports [] := by
  rintro ⟨path, keys, hmem⟩
  cases hmem

lemma reports_append (lines others : List Line) :
    Reports (lines ++ others) ↔ Reports lines ∨ Reports others := by
  simp only [Reports, List.mem_append, exists_or]

lemma reports_element (path : List UInt8) (type : BsonType) (lines : List Line) :
    Reports (.element path type :: lines) ↔ Reports lines := by
  simp [Reports]

lemma iterKeys_of_none {iter : BsonIter} (h : bsonIterNext iter = none) : iterKeys iter = [] := by
  rw [iterKeys]
  split
  · rfl
  · next hnext => cases h.symm.trans hnext

lemma iterKeys_of_some {iter next : BsonIter} (h : bsonIterNext iter = some next) :
    iterKeys iter = bsonIterKey next :: iterKeys next := by
  rw [iterKeys]
  split
  · next hnext => cases h.symm.trans hnext
  · next hnext =>
    cases h.symm.trans hnext
    rfl

/-- What holds of an iterator that stops, and of an iterator if it holds of the next one and of
the child there, holds of every iterator. -/
lemma iter_induction {P : BsonIter → Prop}
    (stop : ∀ iter, bsonIterNext iter = none → P iter)
    (step : ∀ iter next, bsonIterNext iter = some next → P next → P (bsonIterRecurse next) →
      P iter)
    (iter : BsonIter) : P iter := by
  induction hn : iter.room using Nat.strong_induction_on generalizing iter with
  | h n ih =>
      cases hnext : bsonIterNext iter with
      | none => exact stop iter hnext
      | some next =>
          exact step iter next hnext (ih next.room (hn ▸ room_next hnext) next rfl)
            (ih _ (hn ▸ room_child hnext) _ rfl)

/-- **The flag**: whether some key, from `index` on, is not in order. -/
lemma visitLoop_flag (iter : BsonIter) (isArray : Bool) (state : VisitorState) (index : ℕ)
    (hasInvalidKeys : Bool) :
    (visitLoop isArray state iter index hasInvalidKeys).2.2 =
      (hasInvalidKeys || (isArray && misnumbered index (iterKeys iter))) := by
  induction iter using iter_induction generalizing index hasInvalidKeys with
  | stop iter h =>
      rw [visitLoop_of_none h, iterKeys_of_none h, misnumbered]
      simp
  | step iter next h ih _ =>
      rw [visitLoop_of_some h, iterKeys_of_some h, misnumbered]
      simp only
      rw [ih, Bool.and_or_distrib_left, Bool.or_assoc]

/-- What `visit` reports is what its loop reports, and its own document if that is an array whose
keys are not in order. -/
lemma visit_reports_iff (state : VisitorState) (iter : BsonIter) :
    Reports (visit state iter).1 ↔
      Reports (visitLoop state.isArray { state with depth := (state.depth + 1) % 2 ^ 32 } iter 0
        false).1 ∨ (state.isArray = true ∧ ¬KeysInOrder (iterKeys iter)) := by
  rw [visit_eq]
  simp only
  rw [visitLoop_flag, misnumbered_eq, reports_append]
  apply or_congr_right
  by_cases h : state.isArray = true ∧ ¬KeysInOrder (iterKeys iter)
  · simp [h.1, h.2, Reports]
  · have hflag : (false || state.isArray && !decide (KeysInOrder (iterKeys iter))) ≠ true := by
      simpa using h
    rw [if_neg hflag]
    exact iff_of_false reports_nil h

/-- The three ways to come to an array. -/
lemma comesToDisorder_iff {iter next : BsonIter} (h : bsonIterNext iter = some next) :
    ComesToDisorder iter ↔
      ((bsonIterType next = .document ∨ bsonIterType next = .array) ∧
        (ComesToDisorder (bsonIterRecurse next) ∨
          (bsonIterType next = .array ∧ ¬KeysInOrder (iterKeys (bsonIterRecurse next))))) ∨
      ComesToDisorder next := by
  constructor
  · rintro ⟨a, ha, hkeys⟩
    cases ha with
    | array hnext htype =>
        cases h.symm.trans hnext
        exact .inl ⟨.inr htype, .inr ⟨htype, hkeys⟩⟩
    | child hnext htype ha =>
        cases h.symm.trans hnext
        exact .inl ⟨htype, .inl ⟨a, ha, hkeys⟩⟩
    | later hnext ha =>
        cases h.symm.trans hnext
        exact .inr ⟨a, ha, hkeys⟩
  · rintro (⟨htype, ⟨a, ha, hkeys⟩ | ⟨harray, hkeys⟩⟩ | ⟨a, ha, hkeys⟩)
    · exact ⟨a, .child h htype ha, hkeys⟩
    · exact ⟨_, .array h harray, hkeys⟩
    · exact ⟨a, .later h ha, hkeys⟩

/-- **What the loop reports**: the arrays below whose keys are not in order. -/
lemma visitLoop_reports_iff (iter : BsonIter) (isArray : Bool) (state : VisitorState) (index : ℕ)
    (hasInvalidKeys : Bool) :
    Reports (visitLoop isArray state iter index hasInvalidKeys).1 ↔ ComesToDisorder iter := by
  induction iter using iter_induction generalizing isArray state index hasInvalidKeys with
  | stop iter h =>
      rw [visitLoop_of_none h]
      apply iff_of_false reports_nil
      rintro ⟨a, ha, -⟩
      cases ha with
      | array hnext | child hnext | later hnext => cases h.symm.trans hnext
  | step iter next h ihnext ihchild =>
      rw [visitLoop_of_some h, comesToDisorder_iff h]
      simp only
      rw [reports_element, reports_append, ihnext, descend]
      apply or_congr_left
      by_cases htype : bsonIterType next = .document ∨ bsonIterType next = .array
      · rw [if_pos htype, visit_reports_iff, ihchild]
        simp [htype]
      · rw [if_neg htype]
        exact iff_of_false reports_nil fun hand => htype hand.1

/-- **What `main` reports.** -/
lemma mainLoop_reports_iff (file : List UInt8) :
    Reports (mainLoop file).1 ↔ HasDisorder file := by
  induction file using file_induction with
  | eof file h =>
      rw [mainLoop_of_eof h]
      apply iff_of_false reports_nil
      rintro ⟨bson, hdelivers, -⟩
      cases hdelivers with
      | here hread | behind hread => cases h.symm.trans hread
  | failed file h =>
      rw [mainLoop_of_failed h]
      apply iff_of_false reports_nil
      rintro ⟨bson, hdelivers, -⟩
      cases hdelivers with
      | here hread | behind hread => cases h.symm.trans hread
  | document file bson rest h ih =>
      rw [mainLoop_of_document h, reports_append, ih, visit_reports_iff, visitLoop_reports_iff]
      constructor
      · rintro ((hfirst | ⟨hfresh, -⟩) | ⟨other, hdelivers, hother⟩)
        · exact ⟨bson, .here h, hfirst⟩
        · cases hfresh
        · exact ⟨other, .behind h hdelivers, hother⟩
      · rintro ⟨other, hdelivers, hother⟩
        cases hdelivers with
        | here hread =>
            cases h.symm.trans hread
            exact .inl (.inl hother)
        | behind hread hdelivers =>
            cases h.symm.trans hread
            exact .inr ⟨other, hdelivers, hother⟩

/-! ## Complete documents -/

/-- The reader takes a complete document from the front of a file. -/
lemma bsonReaderRead_root (root : Root) (rest : List UInt8) :
    bsonReaderRead (root.document.encode ++ rest) = .document root.document.encode rest := by
  have hlen : root.document.encode.length = root.document.body.length + 5 :=
    length_frame root.document.body
  have hfits := root.fits
  have hheader : ofLE (root.document.encode.take 4) = root.document.encode.length := by
    rw [hlen, Document.encode, frame, List.take_left' (length_toLE 4 _),
      ofLE_toLE_of_lt (by omega)]
  have hblen : Int.bmod (ofLE ((root.document.encode ++ rest).take 4)) (2 ^ 32) =
      root.document.encode.length := by
    rw [List.take_append_of_le_length (by omega), hheader]
    exact Int.bmod_eq_of_le_mul_two (by omega) (by omega)
  have hstatic : bsonInitStatic root.document.encode = true := by
    have hlast : root.document.encode.getLastD 0 = 0 := by
      simp [Document.encode, frame, List.getLastD_eq_getLast?, ← List.append_assoc]
    rw [bsonInitStatic, hheader, hlast, decide_eq_false (by omega), decide_eq_false (by omega)]
    simp
  have htoNat : (root.document.encode.length : ℤ).toNat = root.document.encode.length :=
    Int.toNat_natCast _
  rw [bsonReaderRead, hblen]
  simp only
  rw [htoNat, List.take_left, List.drop_left, hstatic, List.length_append, if_neg (by omega),
    if_neg (by omega), if_neg (by omega), if_pos rfl]

/-- **A file of complete documents**: all their lines are printed. -/
lemma mainLoop_encodeRoots (roots : List Root) :
    mainLoop (encodeRoots roots) = (roots.flatMap (fun root => root.document.lines []), true) := by
  induction roots with
  | nil => exact mainLoop_of_eof rfl
  | cons root roots ih =>
      have hread := bsonReaderRead_root root (encodeRoots roots)
      rw [encodeRoots, List.flatMap_cons, List.flatMap_cons]
      rw [encodeRoots] at hread ih
      rw [mainLoop_of_document hread, ih, visit_lines]

lemma visited_append (lines others : List Line) :
    visited (lines ++ others) = visited lines ++ visited others :=
  List.filterMap_append

/-- The line about an array is not the line of an element. -/
lemma visited_array (fields : Document) (path : List CString) :
    visited (Value.lines path (.array fields)) = visited (fields.lines path) := by
  rw [Value.lines, visited_append]
  split_ifs
  · simp [visited]
  · simp [visited]

mutual

/-- Without scopes, all elements are visited. -/
lemma Document.visited_of_emptyScopes (d : Document) (path : List CString) (h : d.EmptyScopes) :
    visited (d.lines path) = d.elements path := by
  cases d with
  | nil => rfl
  | cons key value rest =>
      obtain ⟨hvalue, hrest⟩ := h
      have hv := Value.visited_of_emptyScopes value (path ++ [key]) hvalue
      have hr := Document.visited_of_emptyScopes rest path hrest
      rw [Document.elements, ← hv, ← hr, ← visited_append]
      rfl

lemma Value.visited_of_emptyScopes (value : Value) (path : List CString)
    (h : value.EmptyScopes) : visited (value.lines path) = value.elements path := by
  cases value with
  | document fields => exact Document.visited_of_emptyScopes fields path h
  | array fields =>
      rw [visited_array]
      exact Document.visited_of_emptyScopes fields path h
  | codewscope text scope =>
      cases scope with
      | nil => rfl
      | cons key value rest => cases h
  | _ => rfl

end

mutual

/-- Not more is visited than there is, and all of it only if the scopes are empty. -/
lemma Document.length_visited (d : Document) (path : List CString) :
    (visited (d.lines path)).length ≤ (d.elements path).length ∧
      ((d.elements path).length ≤ (visited (d.lines path)).length → d.EmptyScopes) := by
  cases d with
  | nil => exact ⟨le_refl _, fun _ => trivial⟩
  | cons key value rest =>
      obtain ⟨hvle, hv⟩ := Value.length_visited value (path ++ [key])
      obtain ⟨hrle, hr⟩ := Document.length_visited rest path
      have hlines : (visited (Document.lines path (.cons key value rest))).length =
          (visited (value.lines (path ++ [key]))).length + (visited (rest.lines path)).length +
            1 := by
        rw [← List.length_append, ← visited_append]
        rfl
      rw [hlines, Document.elements, List.length_cons, List.length_append]
      refine ⟨by omega, fun hle => ⟨hv (by omega), hr (by omega)⟩⟩

lemma Value.length_visited (value : Value) (path : List CString) :
    (visited (value.lines path)).length ≤ (value.elements path).length ∧
      ((value.elements path).length ≤ (visited (value.lines path)).length →
        value.EmptyScopes) := by
  cases value with
  | document fields => exact Document.length_visited fields path
  | array fields =>
      rw [visited_array]
      exact Document.length_visited fields path
  | codewscope text scope =>
      refine ⟨Nat.zero_le _, fun hle => ?_⟩
      cases scope with
      | nil => rfl
      | cons key value rest =>
          rw [Value.elements, Document.elements, List.length_cons] at hle
          cases hle
  | _ => exact ⟨Nat.zero_le _, fun _ => trivial⟩

end

mutual

/-- Without scopes, a document about which nothing is reported has its arrays in order. -/
lemma Document.arraysInOrder_of_quiet (d : Document) (path : List CString)
    (hscopes : d.EmptyScopes) (hquiet : ¬Reports (d.lines path)) : d.ArraysInOrder := by
  cases d with
  | nil => trivial
  | cons key value rest =>
      rw [Document.lines, reports_element, reports_append, not_or] at hquiet
      exact ⟨Value.arraysInOrder_of_quiet value (path ++ [key]) hscopes.1 hquiet.1,
        Document.arraysInOrder_of_quiet rest path hscopes.2 hquiet.2⟩

lemma Value.arraysInOrder_of_quiet (value : Value) (path : List CString)
    (hscopes : value.EmptyScopes) (hquiet : ¬Reports (value.lines path)) :
    value.ArraysInOrder := by
  cases value with
  | document fields => exact Document.arraysInOrder_of_quiet fields path hscopes hquiet
  | array fields =>
      rw [Value.lines, reports_append, not_or] at hquiet
      refine ⟨?_, Document.arraysInOrder_of_quiet fields path hscopes hquiet.1⟩
      by_contra hkeys
      rw [if_neg hkeys] at hquiet
      exact hquiet.2 ⟨_, _, List.mem_singleton_self _⟩
  | codewscope text scope =>
      cases scope with
      | nil => trivial
      | cons key value rest => cases hscopes
  | _ => trivial

end

/-- The same of a sequence of documents. -/
lemma length_visited_roots (roots : List Root) :
    (visited (roots.flatMap (fun root => root.document.lines []))).length ≤
        (roots.flatMap (fun root => root.document.elements [])).length ∧
      ((roots.flatMap (fun root => root.document.elements [])).length ≤
        (visited (roots.flatMap (fun root => root.document.lines []))).length →
        ∀ root ∈ roots, root.document.EmptyScopes) := by
  induction roots with
  | nil =>
      refine ⟨le_refl _, fun _ root hmem => ?_⟩
      cases hmem
  | cons root roots ih =>
      obtain ⟨hrootle, hroot⟩ := root.document.length_visited []
      obtain ⟨hrestle, hrest⟩ := ih
      rw [List.flatMap_cons, List.flatMap_cons, visited_append, List.length_append,
        List.length_append]
      refine ⟨by omega, fun hle => ?_⟩
      exact List.forall_mem_cons.mpr ⟨hroot (by omega), hrest (by omega)⟩

/-- Without scopes, all elements of a sequence of documents are visited. -/
lemma visited_roots {roots : List Root} (h : ∀ root ∈ roots, root.document.EmptyScopes) :
    visited (roots.flatMap (fun root => root.document.lines [])) =
      roots.flatMap (fun root => root.document.elements []) := by
  have hflat : visited (roots.flatMap (fun root => root.document.lines [])) =
      roots.flatMap (fun root => visited (root.document.lines [])) := List.filterMap_flatMap
  rw [hflat]
  apply List.flatMap_congr
  intro root hmem
  exact root.document.visited_of_emptyScopes [] (h root hmem)

/-- **A file the tool is quiet about is complete just if it is clean.** -/
lemma complete_iff_clean {file : List UInt8} (hquiet : ¬Reports (mainLoop file).1) :
    Complete file (mainLoop file).1 ↔ Clean file := by
  constructor
  · rintro ⟨roots, rfl, hvisited, -⟩
    rw [mainLoop_encodeRoots] at hvisited
    exact ⟨roots, rfl, (length_visited_roots roots).2 (congrArg List.length hvisited).ge⟩
  · rintro ⟨roots, rfl, hscopes⟩
    rw [mainLoop_encodeRoots] at hquiet ⊢
    refine ⟨roots, rfl, visited_roots hscopes, fun root hmem => ?_⟩
    apply root.document.arraysInOrder_of_quiet [] (hscopes root hmem)
    rintro ⟨path, keys, hline⟩
    exact hquiet ⟨path, keys, List.mem_flatMap.mpr ⟨root, hmem, hline⟩⟩

/-! ## The verdict -/

end CBootstrap.Bson
