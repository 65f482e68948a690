import Mathlib.Data.Int.Notation
import Mathlib.Data.List.Perm.Basic
import Mathlib.Data.Nat.Notation
import Mathlib.Tactic.Common

/-!
# The in-flight vector of `db-queue.cpp`

`inflight` is a `std::vector<InFlight>`, and the worker takes the completed tasks out of it with
an index loop: an element found ready is moved into `completed` and erased, and the index stays
where it is.  Moving is not copying.  `Bson` and `Future` hand their pointer over when they are
moved from, and their move assignment is a swap; `op` and `value` are copied.  `vector::erase`
shifts the elements behind the erased one down by move assignment and destroys the last.

The translation keeps all of that, pointers included.  `moveCompleted_eq` says that it comes to
what one would write down in the first place (`stay` and `leave`): each element is examined once,
in order, the ready ones are moved and the others stay.

`moveCompletedTrace` is the loop once more with ghosts: which element each question was about,
and which objects were destroyed on the way.  Only moved-from objects are, so no task is
cancelled and no document freed by all the moving.
-/

namespace CBootstrap.DbQueue

/-- `enum class Op`. -/
inductive Op
  | insert
  | count
  | shutdown
  deriving DecidableEq, Repr

/-- `struct Request`; `arg` is the pointer a `Bson` owns. -/
structure Request where
  op : Op
  value : ℤ
  arg : Option ℕ
  deriving DecidableEq, Repr

/-- `struct InFlight`; `fut` is the handle a `Future` owns. -/
structure InFlight where
  req : Request
  fut : Option ℕ
  deriving DecidableEq, Repr

/-! ## Moving -/

/-- What is left of an object that a new one was move-constructed from. -/
def InFlight.movedFrom (x : InFlight) : InFlight := ⟨⟨x.req.op, x.req.value, none⟩, none⟩

/-- `*this = std::move(o)`: the new `*this` and the new `o`. -/
def InFlight.moveAssign (this o : InFlight) : InFlight × InFlight :=
  (⟨⟨o.req.op, o.req.value, o.req.arg⟩, o.fut⟩,
    ⟨⟨o.req.op, o.req.value, this.req.arg⟩, this.fut⟩)

/-- The elements from an erased one on: each is assigned the one behind it, and the last is
destroyed. -/
def shiftDown : InFlight → List InFlight → List InFlight
  | _, [] => []
  | x, y :: ys => (x.moveAssign y).1 :: shiftDown (x.moveAssign y).2 ys

/-- `v.erase(v.begin() + i)`. -/
def erase (v : List InFlight) (i : ℕ) : List InFlight :=
  match v.drop i with
  | [] => v
  | x :: xs => v.take i ++ shiftDown x xs

/-- The pointers of the erased element travel to the end of the vector; the others arrive where
they should. -/
lemma shiftDown_eq (x : InFlight) (xs : List InFlight) : shiftDown x xs = xs := by
  induction xs generalizing x with
  | nil => rfl
  | cons y ys ih => rw [shiftDown, ih, InFlight.moveAssign]

lemma erase_append (v xs : List InFlight) (x : InFlight) :
    erase (v ++ x :: xs) v.length = v ++ xs := by
  rw [erase, List.drop_left, List.take_left]
  simp only [shiftDown_eq]

/-! ## The loop -/

section Decreases

variable {v xs : List InFlight} {x : InFlight} {i : ℕ} (h : v.drop i = x :: xs)

include h

/-- Going on to the next element leaves fewer to examine. -/
lemma examined_decreases : v.length - (i + 1) < v.length - i := by
  have hlen := congrArg List.length h
  rw [List.length_drop, List.length_cons] at hlen
  omega

/-- So does erasing the one at the index, whatever is left of it. -/
lemma erased_decreases {moved : InFlight} :
    (erase (v.take i ++ moved :: xs) i).length - i < v.length - i := by
  have hlen := congrArg List.length h
  rw [List.length_drop, List.length_cons] at hlen
  have hi : (v.take i).length = i := by
    rw [List.length_take]
    omega
  have herase := erase_append (v.take i) xs moved
  rw [hi] at herase
  rw [herase, List.length_append, hi]
  omega

end Decreases

/-- The loop that moves completed tasks out; `isReady n` is the answer to its `n`-th question,
and `n` the number of questions asked so far. -/
def moveCompletedLoop (isReady : ℕ → Bool) (n i : ℕ) (inflight completed : List InFlight) :
    List InFlight × List InFlight :=
  match _h : inflight.drop i with
  | [] => (inflight, completed)
  | x :: xs =>
      if !isReady n then moveCompletedLoop isReady (n + 1) (i + 1) inflight completed
      else
        moveCompletedLoop isReady (n + 1) i (erase (inflight.take i ++ x.movedFrom :: xs) i)
          (completed ++ [x])
termination_by inflight.length - i
decreasing_by
  · exact examined_decreases _h
  · exact erased_decreases _h

/-- Move completed tasks out of `inflight`: what is left, and `completed`. -/
def moveCompleted (isReady : ℕ → Bool) (inflight : List InFlight) :
    List InFlight × List InFlight :=
  moveCompletedLoop isReady 0 0 inflight []

/-- The elements that are to stay, from the `n`-th question on. -/
def stay (isReady : ℕ → Bool) : ℕ → List InFlight → List InFlight
  | _, [] => []
  | n, x :: xs => if isReady n then stay isReady (n + 1) xs else x :: stay isReady (n + 1) xs

/-- The elements that are to be moved, from the `n`-th question on. -/
def leave (isReady : ℕ → Bool) : ℕ → List InFlight → List InFlight
  | _, [] => []
  | n, x :: xs => if isReady n then x :: leave isReady (n + 1) xs else leave isReady (n + 1) xs

/-- **The rest of the loop**: `kept` has been examined and stays, `xs` is still to be
examined. -/
lemma moveCompletedLoop_eq (isReady : ℕ → Bool) (n : ℕ) (kept xs completed : List InFlight) :
    moveCompletedLoop isReady n kept.length (kept ++ xs) completed =
      (kept ++ stay isReady n xs, completed ++ leave isReady n xs) := by
  induction xs generalizing n kept completed with
  | nil =>
      rw [moveCompletedLoop]
      split
      · simp [stay, leave]
      · next h => simp at h
  | cons x xs ih =>
      rw [moveCompletedLoop]
      split
      · next h => simp at h
      · next y ys h =>
        rw [List.drop_left, List.cons.injEq] at h
        obtain ⟨rfl, rfl⟩ := h
        rw [List.take_left, erase_append]
        cases hr : isReady n with
        | true =>
            simp only [Bool.not_true, Bool.false_eq_true, if_false]
            rw [ih, stay, leave, if_pos hr, if_pos hr, List.append_assoc, List.singleton_append]
        | false =>
            have hkept := ih (n + 1) (kept ++ [x]) completed
            rw [List.length_append, List.length_singleton, List.append_assoc,
              List.singleton_append] at hkept
            simp only [Bool.not_false, if_true]
            rw [hkept, stay, leave, if_neg (by simp [hr]), if_neg (by simp [hr]),
              List.append_assoc, List.singleton_append]

/-- **The loop as a whole.** -/
theorem moveCompleted_eq (isReady : ℕ → Bool) (inflight : List InFlight) :
    moveCompleted isReady inflight = (stay isReady 0 inflight, leave isReady 0 inflight) :=
  moveCompletedLoop_eq isReady 0 [] inflight []

/-- Nothing is lost and nothing doubled. -/
lemma stay_leave_perm (isReady : ℕ → Bool) (n : ℕ) (xs : List InFlight) :
    (stay isReady n xs ++ leave isReady n xs).Perm xs := by
  induction xs generalizing n with
  | nil => exact List.Perm.refl _
  | cons x xs ih =>
      rw [stay, leave]
      split_ifs with hr
      · exact List.perm_middle.trans ((ih (n + 1)).cons x)
      · exact (ih (n + 1)).cons x

/-! ## What the loop looks at, and what it destroys -/

/-- A new object move-constructed from `o`: the new object and what is left of `o`. -/
def InFlight.moveConstruct (o : InFlight) : InFlight × InFlight :=
  (⟨⟨o.req.op, o.req.value, o.req.arg⟩, o.fut⟩, o.movedFrom)

/-- `v.push_back(std::move(item))`: the vector, and the objects destroyed.  A vector that has to
grow move-constructs its elements into new storage and destroys the old ones. -/
def pushBack (reallocates : Bool) (v : List InFlight) (item : InFlight) :
    List InFlight × List InFlight :=
  if reallocates then
    (v.map (fun x => x.moveConstruct.1) ++ [item.moveConstruct.1],
      v.map (fun x => x.moveConstruct.2))
  else (v ++ [item.moveConstruct.1], [])

/-- Growing or not, the elements are the same. -/
lemma pushBack_fst (reallocates : Bool) (v : List InFlight) (item : InFlight) :
    (pushBack reallocates v item).1 = v ++ [item] := by
  have hmap : v.map (fun x => x.moveConstruct.1) = v := List.map_id v
  rw [pushBack]
  split_ifs
  · rw [hmap]
    rfl
  · rfl

/-- Growing destroys moved-from objects only. -/
lemma pushBack_destroyed (reallocates : Bool) (v : List InFlight) (item : InFlight) :
    ∀ x ∈ (pushBack reallocates v item).2, x.fut = none ∧ x.req.arg = none := by
  intro x hx
  rw [pushBack] at hx
  split_ifs at hx
  · obtain ⟨y, -, rfl⟩ := List.mem_map.mp hx
    exact ⟨rfl, rfl⟩
  · cases hx

/-- The object at the end of the vector that `erase` destroys after the shift. -/
def shiftedOut : InFlight → List InFlight → InFlight
  | x, [] => x
  | x, y :: ys => shiftedOut (x.moveAssign y).2 ys

/-- It has the pointers of the erased element. -/
lemma shiftedOut_pointers (x : InFlight) (xs : List InFlight) :
    (shiftedOut x xs).fut = x.fut ∧ (shiftedOut x xs).req.arg = x.req.arg := by
  induction xs generalizing x with
  | nil => exact ⟨rfl, rfl⟩
  | cons y ys ih => exact ih (x.moveAssign y).2

/-- The state of the loop, with its ghosts: the elements asked about with the answers, and the
objects destroyed. -/
structure MoveTrace where
  inflight : List InFlight
  completed : List InFlight
  asked : List (InFlight × Bool)
  destroyed : List InFlight

/-- `moveCompletedLoop` with its ghosts; `grows k` says whether `completed` has to grow when it
holds `k` elements. -/
def moveCompletedTrace (isReady grows : ℕ → Bool) (i : ℕ) (t : MoveTrace) : MoveTrace :=
  match _h : t.inflight.drop i with
  | [] => t
  | x :: xs =>
      if !isReady t.asked.length then
        moveCompletedTrace isReady grows (i + 1) { t with asked := t.asked ++ [(x, false)] }
      else
        let pushed := pushBack (grows t.completed.length) t.completed x
        moveCompletedTrace isReady grows i
          { inflight := erase (t.inflight.take i ++ x.movedFrom :: xs) i
            completed := pushed.1
            asked := t.asked ++ [(x, true)]
            destroyed := t.destroyed ++ pushed.2 ++ [shiftedOut x.movedFrom xs] }
termination_by t.inflight.length - i
decreasing_by
  · exact examined_decreases _h
  · exact erased_decreases _h

/-- The questions about `xs`, from the `n`-th on. -/
def questions (isReady : ℕ → Bool) (n : ℕ) (xs : List InFlight) : List (InFlight × Bool) :=
  (xs.zipIdx n).map fun p => (p.1, isReady p.2)

@[simp] lemma questions_cons (isReady : ℕ → Bool) (n : ℕ) (x : InFlight) (xs : List InFlight) :
    questions isReady n (x :: xs) = (x, isReady n) :: questions isReady (n + 1) xs := rfl

/-- The elements asked about, in the order of the questions. -/
lemma questions_fst (isReady : ℕ → Bool) (n : ℕ) (xs : List InFlight) :
    (questions isReady n xs).map Prod.fst = xs := by
  induction xs generalizing n with
  | nil => rfl
  | cons x xs ih => rw [questions_cons, List.map_cons, ih]

/-- The answers, in the order of the questions. -/
lemma questions_snd (isReady : ℕ → Bool) (n : ℕ) (xs : List InFlight) :
    (questions isReady n xs).map Prod.snd = (List.range' n xs.length).map isReady := by
  rw [questions, List.map_map, ← List.zipIdx_map_snd, List.map_map]
  rfl

/-- Those observed ready are moved. -/
lemma leave_eq_filter (isReady : ℕ → Bool) (n : ℕ) (xs : List InFlight) :
    leave isReady n xs = ((questions isReady n xs).filter (fun q => q.2)).map Prod.fst := by
  induction xs generalizing n with
  | nil => rfl
  | cons x xs ih =>
      rw [leave, questions_cons, ih]
      by_cases hr : isReady n = true <;> simp [hr]

/-- The others stay. -/
lemma stay_eq_filter (isReady : ℕ → Bool) (n : ℕ) (xs : List InFlight) :
    stay isReady n xs = ((questions isReady n xs).filter (fun q => !q.2)).map Prod.fst := by
  induction xs generalizing n with
  | nil => rfl
  | cons x xs ih =>
      rw [stay, questions_cons, ih]
      by_cases hr : isReady n = true <;> simp [hr]

/-- **The rest of the loop, with its ghosts**: `kept` has been examined and stays, `xs` is still
to be examined, and nothing destroyed so far owned anything. -/
lemma moveCompletedTrace_rest (isReady grows : ℕ → Bool) (kept xs : List InFlight)
    (t : MoveTrace) (hinflight : t.inflight = kept ++ xs)
    (hdestroyed : ∀ x ∈ t.destroyed, x.fut = none ∧ x.req.arg = none) :
    let r := moveCompletedTrace isReady grows kept.length t
    r.inflight = kept ++ stay isReady t.asked.length xs ∧
      r.completed = t.completed ++ leave isReady t.asked.length xs ∧
      r.asked = t.asked ++ questions isReady t.asked.length xs ∧
      ∀ x ∈ r.destroyed, x.fut = none ∧ x.req.arg = none := by
  induction xs generalizing kept t with
  | nil =>
      rw [moveCompletedTrace]
      split
      · exact ⟨by simp [hinflight, stay], by simp [leave], by simp [questions], hdestroyed⟩
      · next h => simp [hinflight] at h
  | cons x xs ih =>
      rw [moveCompletedTrace]
      split
      · next h => simp [hinflight] at h
      · next y ys h =>
        rw [hinflight, List.drop_left, List.cons.injEq] at h
        obtain ⟨rfl, rfl⟩ := h
        by_cases hr : isReady t.asked.length = true
        · have herase : erase (t.inflight.take kept.length ++ x.movedFrom :: xs) kept.length =
              kept ++ xs := by
            rw [hinflight, List.take_left, erase_append]
          simp only [hr, Bool.not_true, Bool.false_eq_true, if_false, herase, pushBack_fst]
          have hrest := ih kept
            { inflight := kept ++ xs
              completed := t.completed ++ [x]
              asked := t.asked ++ [(x, true)]
              destroyed := t.destroyed ++ (pushBack (grows t.completed.length) t.completed x).2 ++
                [shiftedOut x.movedFrom xs] } rfl
          simp only [List.length_append, List.length_singleton, List.append_assoc,
            List.singleton_append] at hrest ⊢
          rw [stay, leave, questions_cons, if_pos hr, if_pos hr, hr]
          apply hrest
          intro z hz
          rw [List.mem_append, List.mem_append, List.mem_singleton] at hz
          rcases hz with hz | hz | rfl
          · exact hdestroyed z hz
          · exact pushBack_destroyed _ _ _ z hz
          · exact shiftedOut_pointers x.movedFrom xs
        · rw [Bool.not_eq_true] at hr
          simp only [hr, Bool.not_false, if_true]
          have hrest := ih (kept ++ [x]) { t with asked := t.asked ++ [(x, false)] }
            (by simp [hinflight]) hdestroyed
          simp only [List.length_append, List.length_singleton, List.append_assoc,
            List.singleton_append] at hrest
          rw [stay, leave, questions_cons, hr, if_neg (by simp), if_neg (by simp)]
          exact hrest

/-- **Each element once.**  For every vector and every sequence of answers, the loop asks about
each element once, in order; `completed` ends as the elements observed ready and `inflight` as
the others, in their original order, each one with its own `op`, `value`, argument and future;
and no pointer was destroyed on the way. -/
theorem moveCompletedTrace_eq (isReady grows : ℕ → Bool) (inflight : List InFlight) :
    let r := moveCompletedTrace isReady grows 0 ⟨inflight, [], [], []⟩
    r.asked.map Prod.fst = inflight ∧
      r.asked.map Prod.snd = (List.range inflight.length).map isReady ∧
      r.completed = (r.asked.filter (fun q => q.2)).map Prod.fst ∧
      r.inflight = (r.asked.filter (fun q => !q.2)).map Prod.fst ∧
      (r.inflight, r.completed) = moveCompleted isReady inflight ∧
      ∀ x ∈ r.destroyed, x.fut = none ∧ x.req.arg = none := by
  intro r
  obtain ⟨hinflight, hcompleted, hasked, hdestroyed⟩ :=
    moveCompletedTrace_rest isReady grows [] inflight ⟨inflight, [], [], []⟩ rfl (by simp)
  change r.inflight = stay isReady 0 inflight at hinflight
  change r.completed = leave isReady 0 inflight at hcompleted
  change r.asked = questions isReady 0 inflight at hasked
  refine ⟨?_, ?_, ?_, ?_, ?_, hdestroyed⟩
  · rw [hasked, questions_fst]
  · rw [hasked, questions_snd, List.range_eq_range']
  · rw [hcompleted, hasked, leave_eq_filter]
  · rw [hinflight, hasked, stay_eq_filter]
  · rw [hinflight, hcompleted, moveCompleted_eq]

end CBootstrap.DbQueue
