import Mathlib.Tactic.Common

/-!
# Checks

A check is a computation that succeeds or fails with an error; it can also go wrong (`none`), where
the code would stop the process or read what is not there.  Checks are made one after the other, and
the first that fails decides.

`Decides good c P` is the specification of a check: it does not go wrong, it succeeds if and only
if `P`, and what it fails with is `good`.  The rules put specifications together as the checks are
put together, so a validator gets its specification from those of its parts.
-/

namespace Checks

variable {ε : Type}

/-- A check with errors `ε`. -/
abbrev Check (ε : Type) := Option (Except ε Unit)

/-- The check that succeeds. -/
def pass : Check ε := some (.ok ())

/-- The check that fails. -/
def fail (e : ε) : Check ε := some (.error e)

/-- Check a condition. -/
def require (condition : Prop) [Decidable condition] (e : ε) : Check ε :=
  if condition then pass else fail e

/-- Two checks, the second where the first succeeds. -/
def Check.andThen (c d : Check ε) : Check ε :=
  match c with
  | some (.ok ()) => d
  | some (.error e) => some (.error e)
  | none => none

/-- Put another error in the place of an error, which may go wrong. -/
def Check.orElse (c : Check ε) (f : ε → Check ε) : Check ε :=
  match c with
  | some (.error e) => f e
  | some (.ok ()) => some (.ok ())
  | none => none

/-- The check does not go wrong, succeeds exactly if `P`, and fails with a good error. -/
def Decides (good : ε → Prop) (c : Check ε) (P : Prop) : Prop :=
  (c = pass ∧ P) ∨ ∃ e, c = fail e ∧ ¬P ∧ good e

variable {good : ε → Prop} {c d : Check ε} {P Q : Prop} {e : ε}

lemma Decides.congr (h : Decides good c P) (hiff : P ↔ Q) : Decides good c Q := by
  rw [← hiff]
  exact h

lemma decides_pass (hP : P) : Decides good pass P := .inl ⟨rfl, hP⟩

lemma decides_fail (hP : ¬P) (he : good e) : Decides good (fail e) P := .inr ⟨e, rfl, hP, he⟩

lemma decides_require [Decidable P] (he : good e) : Decides good (require P e) P := by
  by_cases hP : P
  · exact .inl ⟨if_pos hP, hP⟩
  · exact .inr ⟨e, if_neg hP, hP, he⟩

/-- The rule for two checks: the second is made where the first succeeds. -/
lemma Decides.andThen (hc : Decides good c P) (hd : P → Decides good d Q) :
    Decides good (c.andThen d) (P ∧ Q) := by
  rcases hc with ⟨rfl, hP⟩ | ⟨e, rfl, hP, he⟩
  · exact (hd hP).congr (iff_and_self.mpr fun _ => hP)
  · exact .inr ⟨e, rfl, fun h => hP h.1, he⟩

/-- The rule for a check whose errors are replaced. -/
lemma Decides.orElse {f : ε → Check ε} (hc : Decides good c P)
    (hf : ∀ e, good e → ∃ e', f e = fail e' ∧ good e') : Decides good (c.orElse f) P := by
  rcases hc with ⟨rfl, hP⟩ | ⟨e, rfl, hP, he⟩
  · exact .inl ⟨rfl, hP⟩
  · obtain ⟨e', hfail, he'⟩ := hf e he
    exact .inr ⟨e', hfail, hP, he'⟩

/-- A check that is made only under a condition. -/
lemma Decides.ite [Decidable Q] (hc : Decides good c P) :
    Decides good (if Q then c else pass) (Q → P) := by
  by_cases hQ : Q
  · rw [if_pos hQ]
    exact hc.congr (by simp [hQ])
  · rw [if_neg hQ]
    exact decides_pass fun h => absurd h hQ

end Checks
