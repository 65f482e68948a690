import Mathlib.Data.List.Infix

/-!
# Decoders that look at what they consume

A decoder takes a value off the front of a list, or fails.  Every decoder here carries the proof
that it depends on the part it consumes only: more input behind changes nothing but what is left
over.  So a list that a decoder takes up completely has no proper prefix on which it succeeds
(`run_eq_none_of_prefix`), which is what self-delimiting formats have in common.
-/

/-- A decoder of values of type `α` from lists over `τ`. -/
structure Decoder (τ α : Type) where
  /-- The value and the rest, `none` where it fails. -/
  run : List τ → Option (α × List τ)
  /-- More input is left over. -/
  extend : ∀ {data rest : List τ} {a : α} (more : List τ), run data = some (a, rest) →
    run (data ++ more) = some (a, rest ++ more)

namespace Decoder

variable {τ α β : Type}

/-! ## Combinators -/

/-- Consume nothing. -/
def succeed (a : α) : Decoder τ α where
  run data := some (a, data)
  extend more h := by
    cases h
    rfl

/-- Fail. -/
def fail : Decoder τ α where
  run _ := none
  extend _ h := by cases h

/-- One decoder behind another. -/
def andThen (d : Decoder τ α) (f : α → Decoder τ β) : Decoder τ β where
  run data := (d.run data).bind fun p => (f p.1).run p.2
  extend more h := by
    obtain ⟨⟨a, middle⟩, hd, hf⟩ := Option.bind_eq_some_iff.mp h
    rw [d.extend more hd]
    exact (f a).extend more hf

instance : Monad (Decoder τ) where
  pure := succeed
  bind := andThen

/-- The next `n` elements. -/
def take (n : ℕ) : Decoder τ (List τ) where
  run data := if n ≤ data.length then some (data.take n, data.drop n) else none
  extend {data rest a} more h := by
    split_ifs at h with hn
    cases h
    rw [if_pos (by rw [List.length_append]; omega), List.take_append_of_le_length hn,
      List.drop_append_of_le_length hn]

/-- The same decoder `n` times. -/
def times (d : Decoder τ α) : ℕ → Decoder τ (List α)
  | 0 => pure []
  | n + 1 => do
      let a ← d
      let as ← times d n
      pure (a :: as)

/-! ## Running them -/

@[simp] lemma run_pure (a : α) (data : List τ) :
    (pure a : Decoder τ α).run data = some (a, data) := rfl

lemma run_bind {d : Decoder τ α} {f : α → Decoder τ β} {data middle : List τ} {a : α}
    (h : d.run data = some (a, middle)) : (d >>= f).run data = (f a).run middle := by
  show (d.run data).bind _ = _
  rw [h]
  rfl

lemma run_bind_eq_some {d : Decoder τ α} {f : α → Decoder τ β} {data rest : List τ} {b : β} :
    (d >>= f).run data = some (b, rest) ↔
      ∃ a middle, d.run data = some (a, middle) ∧ (f a).run middle = some (b, rest) := by
  show (d.run data).bind _ = _ ↔ _
  rw [Option.bind_eq_some_iff, Prod.exists]

lemma run_take {l : List τ} {n : ℕ} (h : l.length = n) (rest : List τ) :
    (take n).run (l ++ rest) = some (l, rest) := by
  subst h
  show (if l.length ≤ (l ++ rest).length then some ((l ++ rest).take l.length, _) else none) = _
  rw [if_pos (by simp), List.take_left, List.drop_left]

lemma run_take_eq_some {n : ℕ} {data l rest : List τ} (h : (take n).run data = some (l, rest)) :
    n ≤ data.length ∧ l = data.take n := by
  change (if n ≤ data.length then some (data.take n, data.drop n) else none) = _ at h
  split_ifs at h with hn
  cases h
  exact ⟨hn, rfl⟩

/-- What is written one behind the other is read one behind the other. -/
lemma run_times {d : Decoder τ α} {write : α → List τ} {as : List α}
    (h : ∀ a ∈ as, ∀ rest, d.run (write a ++ rest) = some (a, rest)) (rest : List τ) :
    (times d as.length).run (as.flatMap write ++ rest) = some (as, rest) := by
  induction as with
  | nil => rfl
  | cons a as ih =>
      rw [List.flatMap_cons, List.append_assoc, List.length_cons, times,
        run_bind (h a List.mem_cons_self _),
        run_bind (ih fun b hb => h b (List.mem_cons_of_mem a hb)), run_pure]

/-- **No proper prefix.**  Where a decoder takes up everything, it fails on every proper
prefix. -/
theorem run_eq_none_of_prefix {d : Decoder τ α} {full data : List τ} {a : α}
    (hfull : d.run full = some (a, [])) (hdata : data <+: full) (hne : data ≠ full) :
    d.run data = none := by
  obtain ⟨more, rfl⟩ := hdata
  by_contra hsome
  obtain ⟨⟨b, rest⟩, hb⟩ := Option.ne_none_iff_exists'.mp hsome
  have hall := d.extend more hb
  rw [hfull] at hall
  have hrest : rest ++ more = [] := (Prod.mk.inj (Option.some.inj hall)).2.symm
  rw [(List.append_eq_nil_iff.mp hrest).2, List.append_nil] at hne
  exact hne rfl

end Decoder
