import Mathlib.Data.List.Basic
import Mathlib.Data.Nat.Notation
import Mathlib.Tactic.SplitIfs

/-!
# Blocks of memory

A block is the list of cells an allocation owns.  `write` and `read` are `memcpy` into and out of
a block, and have no result where they would leave it; `realloc` moves a block to one of another
size.  Cells that were never written hold whatever `junk` says, so what is proved for every `junk`
does not depend on them.

A buffer is a block of which the first so many cells are in use.  The lemmas are about those:
appending to them (`take_write`), overwriting some of them (`take_write_inside`), and moving them
(`take_realloc`).
-/

namespace Block

variable {α : Type}

/-- `memcpy (block + o, data, data.length)`. -/
def write (block : List α) (o : ℕ) (data : List α) : Option (List α) :=
  if o + data.length ≤ block.length then
    some (block.take o ++ data ++ block.drop (o + data.length))
  else none

/-- The `n` cells of a block from `o` on. -/
def read (block : List α) (o n : ℕ) : Option (List α) :=
  if o + n ≤ block.length then some ((block.drop o).take n) else none

/-- `malloc (n)`. -/
def malloc (junk : ℕ → α) (n : ℕ) : List α := (List.range n).map junk

/-- `realloc (block, n)`. -/
def realloc (junk : ℕ → α) (block : List α) (n : ℕ) : List α :=
  block.take n ++ (List.range' block.length (n - block.length)).map junk

@[simp] lemma length_malloc (junk : ℕ → α) (n : ℕ) : (malloc junk n).length = n := by
  simp [malloc]

@[simp] lemma length_realloc (junk : ℕ → α) (block : List α) (n : ℕ) :
    (realloc junk block n).length = n := by
  rw [realloc, List.length_append, List.length_take, List.length_map, List.length_range']
  omega

/-- Moving a block keeps the cells that fit. -/
lemma take_realloc (junk : ℕ → α) {block : List α} {k n : ℕ} (hk : k ≤ block.length)
    (hn : k ≤ n) : (realloc junk block n).take k = block.take k := by
  have hlen : k ≤ (block.take n).length := by
    rw [List.length_take]
    omega
  rw [realloc, List.take_append_of_le_length hlen, List.take_take, Nat.min_eq_left hn]

lemma getElem?_realloc (junk : ℕ → α) {block : List α} {i n : ℕ} (hi : i < block.length)
    (hn : i < n) : (realloc junk block n)[i]? = block[i]? := by
  rw [realloc, List.getElem?_append_left (by rw [List.length_take]; omega),
    List.getElem?_take_of_lt hn]

section Write

variable {block data : List α} {o : ℕ}

/-- A write inside the block. -/
lemma write_eq_some (h : o + data.length ≤ block.length) :
    write block o data = some (block.take o ++ data ++ block.drop (o + data.length)) :=
  if_pos h

lemma write_isSome_iff : (write block o data).isSome ↔ o + data.length ≤ block.length := by
  rw [write]
  split_ifs with h
  · exact iff_of_true rfl h
  · exact iff_of_false (by simp) h

variable {block' : List α} (h : write block o data = some block')

include h

lemma write_fits : o + data.length ≤ block.length :=
  write_isSome_iff.mp (by rw [h]; rfl)

lemma eq_of_write : block' = block.take o ++ data ++ block.drop (o + data.length) := by
  rw [write_eq_some (write_fits h)] at h
  exact (Option.some.inj h).symm

/-- A write does not change the size of a block. -/
lemma length_write : block'.length = block.length := by
  have hfits := write_fits h
  rw [eq_of_write h]
  simp only [List.length_append, List.length_take, List.length_drop]
  omega

/-- **Appending.**  The cells in use are the old ones and those written behind them. -/
lemma take_write : block'.take (o + data.length) = block.take o ++ data := by
  have hfits := write_fits h
  have hlen : (block.take o ++ data).length = o + data.length := by
    rw [List.length_append, List.length_take]
    omega
  rw [eq_of_write h, List.take_left' hlen]

/-- The cells in front of a write are left alone. -/
lemma take_write_before {k : ℕ} (hk : k ≤ o) : block'.take k = block.take k := by
  have hfits := write_fits h
  have hlen : k ≤ (block.take o).length := by
    rw [List.length_take]
    omega
  rw [eq_of_write h, List.append_assoc, List.take_append_of_le_length hlen, List.take_take,
    Nat.min_eq_left hk]

/-- **Overwriting.**  Among the cells in use, a write replaces those it covers. -/
lemma take_write_inside {k : ℕ} (hk : o + data.length ≤ k) :
    block'.take k = block.take o ++ data ++ (block.take k).drop (o + data.length) := by
  have hfits := write_fits h
  have hlen : (block.take o ++ data).length = o + data.length := by
    rw [List.length_append, List.length_take]
    omega
  rw [eq_of_write h, List.take_append, hlen, List.take_of_length_le (by omega), List.drop_take]

lemma getElem?_write {i : ℕ} (hi : i < data.length) : block'[o + i]? = data[i]? := by
  have hfits := write_fits h
  have htake : (block.take o).length = o := by
    rw [List.length_take]
    omega
  rw [eq_of_write h, List.append_assoc, List.getElem?_append_right (by omega), htake,
    Nat.add_sub_cancel_left, List.getElem?_append_left hi]

lemma getElem?_write_before {i : ℕ} (hi : i < o) : block'[i]? = block[i]? := by
  have hfits := write_fits h
  rw [eq_of_write h, List.append_assoc,
    List.getElem?_append_left (by rw [List.length_take]; omega), List.getElem?_take_of_lt hi]

/-- The cells behind a write are left alone. -/
lemma getElem?_write_behind {i : ℕ} (hi : o + data.length ≤ i) : block'[i]? = block[i]? := by
  have hfits := write_fits h
  have hlen : (block.take o ++ data).length = o + data.length := by
    rw [List.length_append, List.length_take]
    omega
  rw [eq_of_write h, List.getElem?_append_right (by omega), hlen, List.getElem?_drop]
  congr 1
  omega

end Write

end Block
