import CBootstrap.Lib.Bytes

/-!
# `_recvall`

`_recvall(conn, want)` is to receive exactly `want` bytes.  A socket hands out its bytes in
chunks of its own choosing: `recv(n)` returns between one and `n` of the next bytes, and nothing
only when the peer has closed.  Here `stream` is everything that arrives before the peer closes
and `Chunks` is the socket's choice.

The loop asks for `want` bytes each time round, not for the bytes still missing.  So a chunk
that follows a shorter one can reach past the end of what was wanted, and then too much is
returned and too little left on the socket.  `recvall_exact_iff` says when this does not
happen: no chunk that arrives while bytes are missing is longer than what is missing.
-/

namespace CBootstrap.Miniclient

/-- How many bytes the socket is willing to hand out at its `i`-th call; at least one. -/
structure Chunks where
  size : ℕ → ℕ
  size_pos : ∀ i, 0 < size i

/-- `conn.recv(n)`, as the `i`-th call: the bytes received, and the bytes still to come. -/
def Chunks.recv (chunks : Chunks) (i n : ℕ) (stream : List UInt8) : List UInt8 × List UInt8 :=
  (stream.take (min n (chunks.size i)), stream.drop (min n (chunks.size i)))

/-- How `_recvall` ends. -/
inductive Received
  /-- It returns `out`, and `rest` is left on the socket. -/
  | returned (out rest : List UInt8)
  /-- It raises: the peer closed. -/
  | raised
  deriving DecidableEq, Repr

/-- The `while` loop of `_recvall`, before its `i`-th call of `recv`. -/
def recvallLoop (chunks : Chunks) (want i : ℕ) (out stream : List UInt8) : Received :=
  if _h : out.length < want then
    if (chunks.recv i want stream).1 = [] then .raised
    else
      recvallLoop chunks want (i + 1) (out ++ (chunks.recv i want stream).1)
        (chunks.recv i want stream).2
  else .returned out stream
termination_by want - out.length
decreasing_by
  have hpos := List.length_pos_of_ne_nil ‹_›
  rw [List.length_append]
  omega

/-- `_recvall`. -/
def recvall (chunks : Chunks) (want : ℕ) (stream : List UInt8) : Received :=
  recvallLoop chunks want 0 [] stream

/-- What `_recvall` is to do: return the next `want` bytes and leave the others, or raise
because there are fewer. -/
def Received.Exact (want : ℕ) (stream : List UInt8) (r : Received) : Prop :=
  (want ≤ stream.length ∧ r = .returned (stream.take want) (stream.drop want)) ∨
    (stream.length < want ∧ r = .raised)

/-- How many bytes the first `i` chunks have room for. -/
def Chunks.room (chunks : Chunks) (want : ℕ) : ℕ → ℕ
  | 0 => 0
  | i + 1 => chunks.room want i + min want (chunks.size i)

/-- No chunk that arrives while bytes are missing is longer than what is missing. -/
def Chunks.Fit (chunks : Chunks) (want : ℕ) (stream : List UInt8) : Prop :=
  ∀ i, chunks.room want i < want → min (chunks.room want (i + 1)) stream.length ≤ want

lemma Chunks.room_mono (chunks : Chunks) (want : ℕ) {i j : ℕ} (h : i ≤ j) :
    chunks.room want i ≤ chunks.room want j := by
  induction h with
  | refl => exact le_refl _
  | step _ ih => exact le_trans ih (Nat.le_add_right _ _)

/-- **One turn of the loop**, on what the calls before it have received and left. -/
lemma recvallLoop_turn (chunks : Chunks) (want i : ℕ) (stream : List UInt8) :
    recvallLoop chunks want i (stream.take (chunks.room want i))
        (stream.drop (chunks.room want i)) =
      if min (chunks.room want i) stream.length < want then
        if stream.length ≤ chunks.room want i then .raised
        else
          recvallLoop chunks want (i + 1) (stream.take (chunks.room want (i + 1)))
            (stream.drop (chunks.room want (i + 1)))
      else .returned (stream.take (chunks.room want i)) (stream.drop (chunks.room want i)) := by
  rw [recvallLoop]
  simp only [Chunks.recv, List.length_take, dite_eq_ite]
  by_cases hmiss : min (chunks.room want i) stream.length < want
  · rw [if_pos hmiss, if_pos hmiss]
    have hsize := chunks.size_pos i
    have hempty : (stream.drop (chunks.room want i)).take (min want (chunks.size i)) = [] ↔
        stream.length ≤ chunks.room want i := by
      rw [← List.length_eq_zero_iff, List.length_take, List.length_drop]
      omega
    apply if_congr hempty rfl
    rw [Chunks.room, List.take_add, List.drop_drop]
  · rw [if_neg hmiss, if_neg hmiss]

/-- **The rest of a run**, from a call on at which nothing too much has been received yet. -/
lemma recvallLoop_exact_iff (chunks : Chunks) (want : ℕ) (stream : List UInt8) (i : ℕ)
    (hi : min (chunks.room want i) stream.length ≤ want) :
    (recvallLoop chunks want i (stream.take (chunks.room want i))
        (stream.drop (chunks.room want i))).Exact want stream ↔
      ∀ j ≥ i, chunks.room want j < want →
        min (chunks.room want (j + 1)) stream.length ≤ want := by
  -- on the number of bytes missing
  induction hn : want - min (chunks.room want i) stream.length using Nat.strong_induction_on
    generalizing i with
  | _ n ih =>
      rw [recvallLoop_turn]
      split_ifs with hmiss hclosed
      · -- the peer has closed
        refine iff_of_true (Or.inr ⟨by omega, rfl⟩) ?_
        intro j _ _
        omega
      · have hroom : chunks.room want (i + 1) = chunks.room want i + min want (chunks.size i) := rfl
        have hsize := chunks.size_pos i
        by_cases hnext : min (chunks.room want (i + 1)) stream.length ≤ want
        · rw [ih (want - min (chunks.room want (i + 1)) stream.length) (by omega) (i + 1) hnext rfl]
          constructor
          · intro h j hj hlt
            rcases Nat.eq_or_lt_of_le hj with rfl | hj
            · exact hnext
            · exact h j hj hlt
          · exact fun h j hj => h j (by omega)
        · -- this chunk reaches past the end: too much is returned
          have hmore : ¬ min (chunks.room want (i + 1)) stream.length < want := by omega
          rw [recvallLoop_turn, if_neg hmore]
          refine iff_of_false ?_ (fun h => hnext (h i (le_refl i) (by omega)))
          rintro (⟨hle, hr⟩ | ⟨_, hr⟩)
          · have hout := congrArg List.length (Received.returned.inj hr).1
            rw [List.length_take, List.length_take] at hout
            omega
          · cases hr
      · -- nothing is missing
        have hwant : min (chunks.room want i) stream.length = want := by omega
        refine iff_of_true (Or.inl ⟨by omega, ?_⟩) ?_
        · rcases Nat.le_total (chunks.room want i) stream.length with hle | hle
          · rw [show chunks.room want i = want by omega]
          · rw [List.take_of_length_le hle, List.drop_of_length_le hle,
              List.take_of_length_le (by omega), List.drop_of_length_le (by omega)]
        · intro j hj hlt
          have := chunks.room_mono want hj
          omega

/-- **`_recvall` is exact** — it returns the next `want` bytes and leaves the others, or raises
because the peer closed before — if and only if no chunk that arrives while bytes are missing
is longer than what is missing. -/
theorem recvall_exact_iff (chunks : Chunks) (want : ℕ) (stream : List UInt8) :
    (recvall chunks want stream).Exact want stream ↔ chunks.Fit want stream := by
  have h := recvallLoop_exact_iff chunks want stream 0 (by simp [Chunks.room])
  rw [recvall, Chunks.Fit]
  simpa [Chunks.room] using h

/-- The second chunk is longer than the one byte that is missing after the first. -/
def longSecondChunk : Chunks := ⟨fun i => if i = 0 then 3 else 4, by intro i; split <;> decide⟩

/-- Four bytes are wanted and seven returned. -/
theorem longSecondChunk_not_exact :
    recvall longSecondChunk 4 [1, 2, 3, 4, 5, 6, 7, 8] = .returned [1, 2, 3, 4, 5, 6, 7] [8] ∧
      ¬ (recvall longSecondChunk 4 [1, 2, 3, 4, 5, 6, 7, 8]).Exact 4 [1, 2, 3, 4, 5, 6, 7, 8] := by
  have hr : recvall longSecondChunk 4 [1, 2, 3, 4, 5, 6, 7, 8] =
      .returned [1, 2, 3, 4, 5, 6, 7] [8] := by
    simp [recvall, recvallLoop, Chunks.recv, longSecondChunk]
  refine ⟨hr, ?_⟩
  rw [hr]
  rintro (⟨_, h⟩ | ⟨_, h⟩)
  · exact absurd h (by decide)
  · cases h

end CBootstrap.Miniclient
