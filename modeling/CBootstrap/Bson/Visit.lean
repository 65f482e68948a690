import CBootstrap.Bson.Iter

/-!
# `print-invalid-arrays`: the visitor

`visit` prints a line for each element of a document, descending into documents and arrays, and
after the elements of an array a line with its keys if they are not `"0"`, `"1"`, ….  There is
one `visitor_state_t` for all levels: before it descends, the caller copies it, sets path and
depth for the child, and afterwards writes the copy back.  Depth is counted twice per level, once
by the caller and once by the callee, and is only ever compared with one.

`visit_lines` says that this comes to what the tool is for.  What it should print is
`Document.lines`, by recursion over the document and with the whole list of ancestor keys at
hand.  The loop lemma `loopPrints` is stated for an iterator in the middle of a document, at any
level, and a state that is in step with the ancestors (`InStep`); it says that the state comes
back as it was.
-/

namespace CBootstrap.Bson

open Bytes

/-! ## The code -/

/-- `visitor_state_t`. -/
structure VisitorState where
  depth : ℕ
  path : List UInt8
  isArray : Bool
  deriving DecidableEq, Repr

/-- A line of output: that of an element, or that of an array with the list of its keys. -/
inductive Line
  | element (path : List UInt8) (type : BsonType)
  | invalidKeys (path keys : List UInt8)
  deriving DecidableEq, Repr

/-- `type_to_string`. -/
def typeToString : BsonType → String
  | .eod => "eod"
  | .double => "double"
  | .utf8 => "utf8"
  | .document => "document"
  | .array => "array"
  | .binary => "binary"
  | .undefined => "undefined"
  | .oid => "oid"
  | .bool => "bool"
  | .dateTime => "date_time"
  | .null => "null"
  | .regex => "regex"
  | .dbpointer => "dbpointer"
  | .code => "code"
  | .symbol => "symbol"
  | .codewscope => "codewscope"
  | .int32 => "int32"
  | .timestamp => "timestamp"
  | .int64 => "int64"
  | .decimal128 => "decimal128"
  | .maxkey => "maxkey"
  | .minkey => "minkey"

/-- The text of a line. -/
def Line.text : Line → List UInt8
  | .element path type =>
      ascii "'" ++ path ++ ascii "': [" ++ ascii (typeToString type) ++ ascii "]\n"
  | .invalidKeys path keys =>
      ascii "'" ++ path ++ ascii "' has invalid array keys: " ++ keys ++ ascii "\n"

/-- The path of an element with the given key, as it is printed and as it is set for a child. -/
def VisitorState.pathTo (state : VisitorState) (key : List UInt8) : List UInt8 :=
  if state.depth = 1 then key else state.path ++ (ascii "." ++ key)

/-- What is left to an iterator.  It gets less with each element and in each child. -/
def BsonIter.room (iter : BsonIter) : ℕ := 2 * iter.raw.length - iter.nextOff

lemma room_next {iter next : BsonIter} (h : bsonIterNext iter = some next) :
    next.room < iter.room := by
  obtain ⟨hraw, hd1, hnext, hlen⟩ := bsonIterNext_advances h
  rw [BsonIter.room, BsonIter.room, hraw]
  omega

lemma room_child {iter next : BsonIter} (h : bsonIterNext iter = some next) :
    (bsonIterRecurse next).room < iter.room := by
  obtain ⟨hraw, hd1, hnext, hlen⟩ := bsonIterNext_advances h
  have hchild : (bsonIterRecurse next).raw.length ≤ iter.raw.length - next.d1 := by
    rw [bsonIterRecurse, List.length_take, List.length_drop, hraw]
    exact Nat.min_le_right _ _
  have hoff : (bsonIterRecurse next).nextOff = 4 := rfl
  rw [BsonIter.room, BsonIter.room, hoff]
  omega

/-- The loop that lists the keys of an array; `first` is the source's flag, which is set once the
first key has been printed. -/
def printKeys (first : Bool) (iter : BsonIter) : List UInt8 :=
  match _h : bsonIterNext iter with
  | none => []
  | some iter => (if first then ascii ", " else []) ++ (bsonIterKey iter ++ printKeys true iter)
termination_by iter.room
decreasing_by exact room_next _h

mutual

/-- `visit`: what it prints, and the state it leaves. -/
def visit (state : VisitorState) (iter : BsonIter) : List Line × VisitorState :=
  let state := { state with depth := (state.depth + 1) % 2 ^ 32 }
  let (lines, state, hasInvalidKeys) := visitLoop state.isArray state iter 0 false
  if hasInvalidKeys then (lines ++ [.invalidKeys state.path (printKeys false iter)], state)
  else (lines, state)
termination_by (iter.room, 1)

/-- The loop of `visit` over the elements: what it prints, the state it leaves, and
`has_invalid_keys`. -/
def visitLoop (isArray : Bool) (state : VisitorState) (iter : BsonIter) (index : ℕ)
    (hasInvalidKeys : Bool) : List Line × VisitorState × Bool :=
  match _h : bsonIterNext iter with
  | none => ([], state, hasInvalidKeys)
  | some iter =>
      let key := bsonIterKey iter
      let type := bsonIterType iter
      let hasInvalidKeys := hasInvalidKeys || (isArray && key != decimal index)
      let path := state.pathTo key
      if type = .document ∨ type = .array then
        let oldState := state
        let state : VisitorState := ⟨(state.depth + 1) % 2 ^ 32, path, type = .array⟩
        let (inner, _) := visit state (bsonIterRecurse iter)
        let (rest, state, hasInvalidKeys) :=
          visitLoop isArray oldState iter (index + 1) hasInvalidKeys
        (.element path type :: (inner ++ rest), state, hasInvalidKeys)
      else
        let (rest, state, hasInvalidKeys) :=
          visitLoop isArray state iter (index + 1) hasInvalidKeys
        (.element path type :: rest, state, hasInvalidKeys)
termination_by (iter.room, 0)
decreasing_by
  · exact Prod.Lex.left _ _ (room_child _h)
  · exact Prod.Lex.left _ _ (room_next _h)
  · exact Prod.Lex.left _ _ (room_next _h)

end

/-- The state `main` starts `visit` with. -/
def freshState : VisitorState := ⟨0, [], false⟩

/-! ## The code, one iteration at a time -/

/-- What an iteration prints behind the line of its element. -/
def descend (state : VisitorState) (iter : BsonIter) : List Line :=
  if bsonIterType iter = .document ∨ bsonIterType iter = .array then
    (visit ⟨(state.depth + 1) % 2 ^ 32, state.pathTo (bsonIterKey iter),
      bsonIterType iter = .array⟩ (bsonIterRecurse iter)).1
  else []

lemma visitLoop_of_none {iter : BsonIter} (h : bsonIterNext iter = none) (isArray : Bool)
    (state : VisitorState) (index : ℕ) (hasInvalidKeys : Bool) :
    visitLoop isArray state iter index hasInvalidKeys = ([], state, hasInvalidKeys) := by
  rw [visitLoop]
  split
  · rfl
  · next next hnext =>
    rw [h] at hnext
    cases hnext

lemma visitLoop_of_some {iter next : BsonIter} (h : bsonIterNext iter = some next)
    (isArray : Bool) (state : VisitorState) (index : ℕ) (hasInvalidKeys : Bool) :
    visitLoop isArray state iter index hasInvalidKeys =
      let rest := visitLoop isArray state next (index + 1)
        (hasInvalidKeys || (isArray && bsonIterKey next != decimal index))
      (.element (state.pathTo (bsonIterKey next)) (bsonIterType next) ::
        (descend state next ++ rest.1), rest.2) := by
  rw [visitLoop]
  split
  · next hnext =>
    rw [h] at hnext
    cases hnext
  · next next' hnext =>
    rw [h] at hnext
    cases hnext
    simp only [descend]
    split_ifs
    · rfl
    · rfl

lemma visit_eq (state : VisitorState) (iter : BsonIter) :
    (visit state iter).1 =
      let loop := visitLoop state.isArray { state with depth := (state.depth + 1) % 2 ^ 32 } iter
        0 false
      loop.1 ++ if loop.2.2 then [.invalidKeys loop.2.1.path (printKeys false iter)] else [] := by
  rw [visit]
  simp only
  split_ifs
  · rfl
  · rw [List.append_nil]

/-! ## What it should print -/

/-- Keys joined by dots. -/
def joinPath (path : List CString) : List UInt8 :=
  (ascii ".").intercalate (path.map CString.bytes)

/-- The `i`-th key is the decimal string of `i`, for every `i`. -/
def KeysInOrder (keys : List (List UInt8)) : Prop :=
  keys = (List.range keys.length).map (fun i : ℕ => decimal i)

instance (keys : List (List UInt8)) : Decidable (KeysInOrder keys) :=
  inferInstanceAs (Decidable (keys = _))

mutual

/-- The lines behind the line of an element with the given path. -/
def Value.lines (path : List CString) : Value → List Line
  | .document fields => fields.lines path
  | .array fields =>
      fields.lines path ++
        if KeysInOrder fields.keys then []
        else [.invalidKeys (joinPath path) ((ascii ", ").intercalate fields.keys)]
  | _ => []

/-- The lines of a document whose ancestors are `path`: those of its elements, in order. -/
def Document.lines (path : List CString) : Document → List Line
  | .nil => []
  | .cons key value rest =>
      .element (joinPath (path ++ [key])) value.type ::
        (value.lines (path ++ [key]) ++ rest.lines path)

end

/-! ## Keys and paths -/

lemma joinPath_concat (path : List CString) (key : CString) :
    joinPath (path ++ [key]) =
      if path = [] then key.bytes else joinPath path ++ (ascii "." ++ key.bytes) := by
  induction path with
  | nil => simp [joinPath]
  | cons first path ih =>
      rw [if_neg (List.cons_ne_nil first path)]
      cases path with
      | nil => simp [joinPath, List.intercalate_cons_cons]
      | cons second path =>
          rw [if_neg (List.cons_ne_nil second path)] at ih
          simp only [joinPath, List.cons_append, List.map_cons, List.intercalate_cons_cons,
            List.append_assoc] at ih ⊢
          rw [ih]

/-- Some key, counted from `index` on, is not the decimal string of its position. -/
def misnumbered (index : ℕ) : List (List UInt8) → Bool
  | [] => false
  | key :: keys => key != decimal index || misnumbered (index + 1) keys

lemma misnumbered_eq_false_iff (index : ℕ) (keys : List (List UInt8)) :
    misnumbered index keys = false ↔
      keys = (List.range' index keys.length).map (fun i : ℕ => decimal i) := by
  induction keys generalizing index with
  | nil => simp [misnumbered]
  | cons key keys ih =>
      rw [misnumbered, Bool.or_eq_false_iff, ih, bne_eq_false_iff_eq, List.length_cons,
        List.range'_succ, List.map_cons, List.cons.injEq]

lemma misnumbered_eq (keys : List (List UInt8)) :
    misnumbered 0 keys = !decide (KeysInOrder keys) := by
  have h := misnumbered_eq_false_iff 0 keys
  rw [← List.range_eq_range'] at h
  by_cases hkeys : KeysInOrder keys
  · rw [h.mpr hkeys, decide_eq_true hkeys, Bool.not_true]
  · rw [decide_eq_false hkeys, Bool.not_false, ← Bool.not_eq_false]
    exact fun hfalse => hkeys (h.mp hfalse)

lemma printKeys_of_none {iter : BsonIter} (h : bsonIterNext iter = none) (first : Bool) :
    printKeys first iter = [] := by
  rw [printKeys]
  split
  · rfl
  · next hnext =>
    rw [h] at hnext
    cases hnext

lemma printKeys_of_some {iter next : BsonIter} (h : bsonIterNext iter = some next)
    (first : Bool) :
    printKeys first iter =
      (if first then ascii ", " else []) ++ (bsonIterKey next ++ printKeys true next) := by
  rw [printKeys]
  split
  · next hnext =>
    rw [h] at hnext
    cases hnext
  · next next' hnext =>
    rw [h] at hnext
    cases hnext
    rfl

/-- The keys that come after the first are each printed behind a comma. -/
lemma printKeys_true : ∀ (d : Document) {iter : BsonIter}, iter.At d →
    ∀ key : List UInt8, key ++ printKeys true iter = (ascii ", ").intercalate (key :: d.keys)
  | .nil, iter, h, key => by
      rw [printKeys_of_none h.next_nil, Document.keys, List.intercalate_singleton, List.append_nil]
  | .cons key value rest, iter, h, key' => by
      rw [printKeys_of_some h.next_cons, h.key_eq, printKeys_true rest h.behind, Document.keys,
        List.intercalate_cons_cons, if_pos rfl, List.append_assoc]

/-- **The list of keys.** -/
lemma printKeys_eq {d : Document} {iter : BsonIter} (h : iter.At d) :
    printKeys false iter = (ascii ", ").intercalate d.keys := by
  match d with
  | .nil =>
      rw [printKeys_of_none h.next_nil]
      rfl
  | .cons key value rest =>
      rw [printKeys_of_some h.next_cons, h.key_eq, printKeys_true rest h.behind, Document.keys]
      rfl

/-! ## What it prints -/

/-- The state while the elements of a document with ancestors `path` are visited.  The bound is
what keeps the depth from wrapping around to one: every level takes bytes. -/
structure InStep (state : VisitorState) (ancestors : List CString) (iter : BsonIter) : Prop where
  depth : state.depth = 2 * ancestors.length + 1
  path : ancestors ≠ [] → state.path = joinPath ancestors
  room : ancestors.length + iter.raw.length < 2 ^ 31

lemma InStep.pathTo_eq {state : VisitorState} {path : List CString} {iter : BsonIter}
    (h : InStep state path iter) (key : CString) :
    state.pathTo key.bytes = joinPath (path ++ [key]) := by
  rw [VisitorState.pathTo, joinPath_concat, h.depth]
  by_cases hpath : path = []
  · rw [if_pos hpath, hpath, List.length_nil, if_pos rfl]
  · have hpos := List.length_pos_of_ne_nil hpath
    rw [if_neg hpath, if_neg (by omega), h.path hpath]

/-- A child one level down is in step, too. -/
lemma InStep.child {state : VisitorState} {path : List CString} {iter child : BsonIter}
    (h : InStep state path iter) (key : CString) (hchild : child.raw.length < iter.raw.length)
    (isArray : Bool) :
    InStep ⟨((state.depth + 1) % 2 ^ 32 + 1) % 2 ^ 32, state.pathTo key.bytes, isArray⟩
      (path ++ [key]) child := by
  have hroom := h.room
  have hdepth := h.depth
  refine ⟨?_, fun _ => h.pathTo_eq key, ?_⟩
  · rw [List.length_append, List.length_singleton]
    simp only
    omega
  · rw [List.length_append, List.length_singleton]
    omega

/-- The loop over a document with ancestors `path` prints its lines, leaves the state as it was and
finds out whether the keys are in order. -/
def LoopPrints (d : Document) (path : List CString) : Prop :=
  ∀ (isArray : Bool) (state : VisitorState) (iter : BsonIter), iter.At d →
    InStep state path iter → ∀ (index : ℕ) (hasInvalidKeys : Bool),
    visitLoop isArray state iter index hasInvalidKeys =
      (d.lines path, state, hasInvalidKeys || (isArray && misnumbered index d.keys))

/-- **A document or an array**, from the lines of its elements. -/
lemma LoopPrints.visit_eq {d : Document} {path : List CString} (h : LoopPrints d path)
    {state : VisitorState} {iter : BsonIter} (hiter : iter.At d)
    (hstep : InStep { state with depth := (state.depth + 1) % 2 ^ 32 } path iter) :
    (visit state iter).1 =
      d.lines path ++
        if state.isArray = true ∧ ¬KeysInOrder d.keys then
          [.invalidKeys state.path ((ascii ", ").intercalate d.keys)]
        else [] := by
  rw [Bson.visit_eq, h _ _ iter hiter hstep, misnumbered_eq, printKeys_eq hiter]
  simp

section Nested

variable {iter : BsonIter} {key : CString} {value : Value} {rest fields : Document}

/-- The iterator over a document or an array in a document. -/
lemma child_at (h : iter.At (.cons key value rest)) (hvalue : value.encode = frame fields.body) :
    (bsonIterInit (frame fields.body)).At fields ∧
      (bsonIterInit (frame fields.body)).raw.length < iter.raw.length := by
  have hd1 := h.drop_value
  rw [hvalue] at hd1
  have hlen := length_of_drop hd1 (by simp)
  have hfits := h.fits
  have hraw : (bsonIterInit (frame fields.body)).raw = frame fields.body := rfl
  refine ⟨at_init fields (by omega), ?_⟩
  rw [hraw]
  omega

/-- **Descending** into a document or an array. -/
lemma LoopPrints.descend_eq {state : VisitorState} {path : List CString}
    (hfields : LoopPrints fields (path ++ [key])) (h : iter.At (.cons key value rest))
    (hstep : InStep state path iter) (hvalue : value.encode = frame fields.body)
    (htype : value.type = .document ∨ value.type = .array) :
    descend state (atElement iter key value) =
      fields.lines (path ++ [key]) ++
        if value.type = .array ∧ ¬KeysInOrder fields.keys then
          [.invalidKeys (joinPath (path ++ [key])) ((ascii ", ").intercalate fields.keys)]
        else [] := by
  obtain ⟨hchild, hlen⟩ := child_at h hvalue
  rw [descend, h.type_eq, h.key_eq, h.recurse_eq hvalue, if_pos htype,
    hfields.visit_eq hchild (hstep.child key hlen _), hstep.pathTo_eq]
  simp

/-- A value that is neither a document nor an array. -/
lemma descend_leaf {state : VisitorState} (h : iter.At (.cons key value rest))
    (htype : ¬(value.type = .document ∨ value.type = .array)) :
    descend state (atElement iter key value) = [] := by
  rw [descend, h.type_eq, if_neg htype]

end Nested

mutual

/-- **The loop prints the lines of the elements.**  By recursion over the document, with
`descend_lines`. -/
lemma loopPrints : ∀ (d : Document) (path : List CString), LoopPrints d path
  | .nil, path => by
      intro isArray state iter h _ index hasInvalidKeys
      rw [visitLoop_of_none h.next_nil, Document.lines, Document.keys, misnumbered]
      simp
  | .cons key value rest, path => by
      intro isArray state iter h hstep index hasInvalidKeys
      have hrest : InStep state path (atElement iter key value) :=
        ⟨hstep.depth, hstep.path, hstep.room⟩
      rw [visitLoop_of_some h.next_cons, h.key_eq, h.type_eq, hstep.pathTo_eq,
        loopPrints rest path _ _ _ h.behind hrest, descend_lines value h hstep, Document.lines,
        Document.keys, misnumbered]
      simp [Bool.and_or_distrib_left, Bool.or_assoc]

/-- **Behind the line of an element are those of its value.** -/
lemma descend_lines (value : Value) {state : VisitorState} {path : List CString} {iter : BsonIter}
    {key : CString} {rest : Document} (h : iter.At (.cons key value rest))
    (hstep : InStep state path iter) :
    descend state (atElement iter key value) = value.lines (path ++ [key]) := by
  cases value with
  | document fields =>
      rw [(loopPrints fields (path ++ [key])).descend_eq h hstep rfl (Or.inl rfl)]
      simp [Value.lines, Value.type]
  | array fields =>
      rw [(loopPrints fields (path ++ [key])).descend_eq h hstep rfl (Or.inr rfl), Value.lines]
      simp [Value.type]
  | _ => exact descend_leaf h (by simp [Value.type])

end

/-- **What the visitor prints.**  On every document, from a fresh state, it prints the lines of the
document: one for each element, in order, with its full path and its type, and behind the
descendants of an array the line with its keys just in case they are not in order. -/
theorem visit_lines (root : Root) :
    (visit freshState (bsonIterInit root.document.encode)).1 = root.document.lines [] := by
  have hsize := root.fits
  have hiter := at_init root.document hsize
  have hstep : InStep { freshState with depth := (freshState.depth + 1) % 2 ^ 32 } []
      (bsonIterInit (frame root.document.body)) := by
    refine ⟨rfl, fun h => absurd rfl h, ?_⟩
    rw [List.length_nil, Nat.zero_add]
    exact hsize
  rw [Document.encode, (loopPrints root.document []).visit_eq hiter hstep]
  simp [freshState]

-- the document of `test-invalid.bson` and what `test.sh` expects for it
example :
    ((Document.cons ⟨ascii "array", by decide⟩
      (.array (.cons ⟨ascii "0", by decide⟩ (.utf8 (ascii "foo"))
        (.cons ⟨ascii "2", by decide⟩ (.utf8 (ascii "bar")) .nil))) .nil).lines []).flatMap
      Line.text =
    ascii "'array': [array]\n'array.0': [utf8]\n'array.2': [utf8]\n" ++
      ascii "'array' has invalid array keys: 0, 2\n" := by
  decide

end CBootstrap.Bson
