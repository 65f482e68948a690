import CBootstrap.Lib.Dict
import Mathlib.Data.List.Perm.Basic

/-!
# `replace-evergreen-vars.py`

`do_replacements` reads the variables of a project, looks up the one variable that holds each
old value, collects the new values in a dictionary and sends that dictionary in one PATCH.  All
matching is done against the variables as they were read, so a new value that is another
replacement's old value is not replaced in turn; and it is done before anything is sent, so a
failure at any position sends nothing.

The dictionary is keyed by the variable, so of several replacements of one old value the last one
in the list decides.  Where these disagree the order of the list matters
(`conflicting_not_both`); where they agree it does not.  `doReplacements_spec` says both.
-/

namespace CBootstrap.Evergreen

/-! ## The program -/

/-- The variables of a project, by name. -/
abbrev Vars := Dict String String

/-- `Replacement`. -/
structure Replacement where
  old : String
  new : String
  deriving DecidableEq, Repr

/-- What `do_replacements` prints. -/
inductive Line
  /-- `Going to apply the following variables:` and the payload. -/
  | goingToApply (vars : Vars)
  /-- `Doing dry run. Not proceeding`. -/
  | dryRun
  /-- `Project … has been updated`. -/
  | updated (project : String)

/-- What a call of `do_replacements` has done: the message of the `RuntimeError` it raised, the
lines it printed, the payloads it sent, and the project's variables after it. -/
structure Outcome where
  raised : Option String
  printed : List Line
  patches : List Vars
  vars : Vars

/-- `[kv_old for kv_old in vars_old.items() if kv_old[1] == repl.old]`. -/
def matchesOf (varsOld : Vars) (old : String) : List (String × String) :=
  varsOld.items.filter fun kv => kv.2 = old

/-- The message of the `RuntimeError`. -/
def mismatch (varsOld : Vars) (old : String) : String :=
  "Found " ++ toString (matchesOf varsOld old).length ++ " matches for old value: " ++ old ++
    ". Expected 1. Not proceeding."

/-- The `for` loop: `vars_new` after it, or the message of the `RuntimeError`. -/
def collect (varsOld : Vars) : List Replacement → Vars → Except String Vars
  | [], varsNew => .ok varsNew
  | repl :: repls, varsNew =>
      match matchesOf varsOld repl.old with
      | [kv] => collect varsOld repls (varsNew.set kv.1 repl.new)
      | _ => .error (mismatch varsOld repl.old)

/-- `EvgApi.project_patch`: the variables after it.  A PATCH overwrites the variables named in
its payload. -/
def projectPatch (vars payload : Vars) : Vars := vars.update payload

/-- `do_replacements` on a project with the variables `vars`. -/
def doReplacements (vars : Vars) (project : String) (repls : List Replacement) (dryRun : Bool) :
    Outcome :=
  match collect vars repls Dict.empty with
  | .error message => ⟨some message, [], [], vars⟩
  | .ok varsNew =>
      if dryRun then ⟨none, [.goingToApply varsNew, .dryRun], [], vars⟩
      else ⟨none, [.updated project], [varsNew], projectPatch vars varsNew⟩

/-! ## Who holds a value -/

/-- Exactly one variable holds the value. -/
def HeldOnce (vars : Vars) (old : String) : Prop := (matchesOf vars old).length = 1

instance (vars : Vars) (old : String) : Decidable (HeldOnce vars old) :=
  inferInstanceAs (Decidable (_ = _))

/-- The new value the last replacement of an old value asks for. -/
def lastNew (repls : List Replacement) (old : String) : Option String :=
  (repls.filter fun repl => repl.old = old).getLast?.map Replacement.new

lemma mem_matchesOf {vars : Vars} {old : String} {kv : String × String} :
    kv ∈ matchesOf vars old ↔ vars.get? kv.1 = some old ∧ kv.2 = old := by
  rw [matchesOf, List.mem_filter, decide_eq_true_eq]
  constructor
  · rintro ⟨hmem, rfl⟩
    exact ⟨Dict.mem_items.mp hmem, rfl⟩
  · rintro ⟨hget, rfl⟩
    exact ⟨Dict.mem_items.mpr hget, rfl⟩

/-- The one variable that holds a value. -/
lemma HeldOnce.holder {vars : Vars} {old : String} (h : HeldOnce vars old) :
    ∃ kv, matchesOf vars old = [kv] ∧ ∀ key, vars.get? key = some old ↔ key = kv.1 := by
  obtain ⟨kv, hkv⟩ := List.length_eq_one_iff.mp h
  refine ⟨kv, hkv, ?_⟩
  have hsnd : kv.2 = old := (mem_matchesOf.mp (hkv ▸ List.mem_singleton_self kv)).2
  intro key
  have hmem : (key, old) ∈ matchesOf vars old ↔ vars.get? key = some old := by
    rw [mem_matchesOf]
    exact and_iff_left rfl
  rw [← hmem, hkv, List.mem_singleton]
  constructor
  · rintro rfl
    rfl
  · rintro rfl
    rw [← hsnd]

lemma lastNew_cons (repl : Replacement) (repls : List Replacement) (old : String) :
    lastNew (repl :: repls) old =
      (lastNew repls old).or (if repl.old = old then some repl.new else none) := by
  rw [lastNew, lastNew, List.filter_cons]
  by_cases hold : repl.old = old
  · simp only [hold, decide_true, if_true, List.getLast?_cons]
    cases (repls.filter fun repl => repl.old = old).getLast? <;> rfl
  · simp only [hold, decide_false, if_false, Bool.false_eq_true, Option.or_none]

/-! ## The loop -/

/-- The loop raises for the first replacement whose old value is not held exactly once. -/
lemma collect_error {vars : Vars} {repls : List Replacement} (varsNew : Vars) {repl : Replacement}
    (h : repls.find? (fun repl => ¬HeldOnce vars repl.old) = some repl) :
    collect vars repls varsNew = .error (mismatch vars repl.old) := by
  induction repls generalizing varsNew with
  | nil => cases h
  | cons first rest ih =>
      rw [List.find?_cons] at h
      by_cases hheld : HeldOnce vars first.old
      · obtain ⟨kv, hkv, -⟩ := hheld.holder
        rw [collect, hkv]
        apply ih
        simpa [hheld] using h
      · have hfirst : first = repl := by simpa [hheld] using h
        rw [collect, hfirst]
        split
        · next kv hkv =>
          rw [hfirst] at hheld
          exact absurd (congrArg List.length hkv) hheld
        · rfl

/-- **The loop, when every old value is held exactly once.**  What it collects for a variable is
the last new value for what that variable held. -/
lemma collect_ok {vars : Vars} {repls : List Replacement} (varsNew : Vars)
    (h : ∀ repl ∈ repls, HeldOnce vars repl.old) :
    ∃ collected, collect vars repls varsNew = .ok collected ∧
      (∀ key value, vars.get? key = some value →
        collected.get? key = (lastNew repls value).or (varsNew.get? key)) ∧
      ∀ key, vars.get? key = none → collected.get? key = varsNew.get? key := by
  induction repls generalizing varsNew with
  | nil =>
      refine ⟨varsNew, rfl, ?_, fun _ _ => rfl⟩
      intro key value _
      rfl
  | cons first rest ih =>
      obtain ⟨kv, hkv, hholder⟩ := (h first (by simp)).holder
      obtain ⟨collected, hcollect, hheld, hother⟩ :=
        ih (varsNew.set kv.1 first.new) fun repl hrepl => h repl (by simp [hrepl])
      refine ⟨collected, ?_, ?_, ?_⟩
      · rw [collect, hkv]
        exact hcollect
      · intro key value hvalue
        have hkey : key = kv.1 ↔ first.old = value := by
          rw [← hholder key, hvalue, Option.some.injEq, eq_comm]
        rw [hheld key value hvalue, Dict.get?_set, lastNew_cons, Option.or_assoc]
        by_cases hfirst : first.old = value
        · simp [hfirst, hkey.mpr hfirst]
        · have hne : key ≠ kv.1 := fun hkey' => hfirst (hkey.mp hkey')
          simp [hfirst, hne]
      · intro key hnone
        have hne : key ≠ kv.1 := by
          intro hkey
          rw [(hholder key).mpr hkey] at hnone
          cases hnone
        rw [hother key hnone, Dict.get?_set, if_neg hne]

/-! ## The whole call -/

/-- Replacements of the same old value ask for the same new one. -/
def Agree (repls : List Replacement) : Prop :=
  ∀ repl ∈ repls, ∀ other ∈ repls, repl.old = other.old → repl.new = other.new

/-- Two calls come to the same: both raise or neither, they send as many payloads, and the
variables have the same values after them. -/
def SameOutcome (run run' : Outcome) : Prop :=
  run.raised.isSome = run'.raised.isSome ∧ run.patches.length = run'.patches.length ∧
    ∀ key, run.vars.get? key = run'.vars.get? key

/-- A call that raises names the first replacement that does not match, and has sent nothing. -/
lemma doReplacements_of_error {vars : Vars} {repls : List Replacement} {repl : Replacement}
    (h : repls.find? (fun repl => ¬HeldOnce vars repl.old) = some repl) (project : String)
    (dryRun : Bool) :
    doReplacements vars project repls dryRun = ⟨some (mismatch vars repl.old), [], [], vars⟩ := by
  rw [doReplacements, collect_error Dict.empty h]

lemma doReplacements_of_not_held {vars : Vars} {repls : List Replacement}
    (h : ∃ repl ∈ repls, ¬HeldOnce vars repl.old) (project : String) :
    ∃ message, doReplacements vars project repls false = ⟨some message, [], [], vars⟩ := by
  have hfound : (repls.find? fun repl => ¬HeldOnce vars repl.old).isSome := by
    rw [List.find?_isSome]
    obtain ⟨repl, hrepl, hheld⟩ := h
    exact ⟨repl, hrepl, decide_eq_true hheld⟩
  obtain ⟨repl, hrepl⟩ := Option.isSome_iff_exists.mp hfound
  exact ⟨_, doReplacements_of_error hrepl project false⟩

/-- A call that does not raise sends one payload, after which each variable holds the last new
value for what it held, if there is one. -/
lemma doReplacements_of_held {vars : Vars} {repls : List Replacement}
    (h : ∀ repl ∈ repls, HeldOnce vars repl.old) (project : String) :
    (doReplacements vars project repls false).raised = none ∧
      (doReplacements vars project repls false).patches.length = 1 ∧
      ∀ key, (doReplacements vars project repls false).vars.get? key =
        (vars.get? key).map fun value => (lastNew repls value).getD value := by
  obtain ⟨collected, hcollect, hheld, hother⟩ := collect_ok Dict.empty h
  rw [doReplacements, hcollect]
  refine ⟨rfl, rfl, ?_⟩
  intro key
  show (vars.update collected).get? key = _
  rw [Dict.get?_update]
  cases hvalue : vars.get? key with
  | none => rw [hother key hvalue, Dict.get?_empty, Option.or_none, Option.map_none]
  | some value =>
      rw [hheld key value hvalue, Dict.get?_empty, Option.or_none, Option.map_some]
      cases lastNew repls value <;> rfl

lemma lastNew_eq_none {repls : List Replacement} {old : String}
    (h : ∀ repl ∈ repls, repl.old ≠ old) : lastNew repls old = none := by
  rw [lastNew, List.filter_eq_nil_iff.mpr]
  · rfl
  · intro repl hrepl
    simpa using h repl hrepl

/-- The last new value for an old value is one that some replacement asks for. -/
lemma mem_of_lastNew {repls : List Replacement} {old new : String}
    (h : lastNew repls old = some new) : ∃ repl ∈ repls, repl.old = old ∧ repl.new = new := by
  obtain ⟨repl, hlast, hnew⟩ := Option.map_eq_some_iff.mp h
  obtain ⟨hmem, hold⟩ := List.mem_filter.mp (List.mem_of_getLast? hlast)
  exact ⟨repl, hmem, of_decide_eq_true hold, hnew⟩

lemma lastNew_isSome {repls : List Replacement} {repl : Replacement} (h : repl ∈ repls) :
    (lastNew repls repl.old).isSome := by
  rw [lastNew, Option.isSome_map, Option.isSome_iff_ne_none, Ne, List.getLast?_eq_none_iff]
  intro hnil
  exact List.filter_eq_nil_iff.mp hnil repl h (by simp)

/-- Where replacements agree, the last one asks for what each of them asks for. -/
lemma Agree.lastNew_eq {repls : List Replacement} (h : Agree repls) {repl : Replacement}
    (hrepl : repl ∈ repls) : lastNew repls repl.old = some repl.new := by
  obtain ⟨new, hnew⟩ := Option.isSome_iff_exists.mp (lastNew_isSome hrepl)
  obtain ⟨other, hother, hold, rfl⟩ := mem_of_lastNew hnew
  rw [hnew, h other hother repl hrepl hold]

/-- Where replacements agree, the order of the list does not matter. -/
lemma Agree.lastNew_perm {repls repls' : List Replacement} (h : Agree repls)
    (hperm : repls'.Perm repls) (old : String) : lastNew repls' old = lastNew repls old := by
  have h' : Agree repls' := by
    intro repl hrepl other hother
    exact h repl (hperm.mem_iff.mp hrepl) other (hperm.mem_iff.mp hother)
  by_cases hsome : ∃ repl ∈ repls, repl.old = old
  · obtain ⟨repl, hrepl, rfl⟩ := hsome
    rw [h.lastNew_eq hrepl, h'.lastNew_eq (hperm.mem_iff.mpr hrepl)]
  · push Not at hsome
    rw [lastNew_eq_none hsome, lastNew_eq_none]
    intro repl hrepl
    exact hsome repl (hperm.mem_iff.mp hrepl)

/-- The order of a list of replacements that agree does not matter. -/
lemma Agree.sameOutcome {repls repls' : List Replacement} (h : Agree repls)
    (hperm : repls'.Perm repls) (vars : Vars) (project : String) :
    SameOutcome (doReplacements vars project repls' false)
      (doReplacements vars project repls false) := by
  by_cases hheld : ∀ repl ∈ repls, HeldOnce vars repl.old
  · have hheld' : ∀ repl ∈ repls', HeldOnce vars repl.old := by
      intro repl hrepl
      exact hheld repl (hperm.mem_iff.mp hrepl)
    obtain ⟨hraised, hpatches, hvars⟩ := doReplacements_of_held hheld project
    obtain ⟨hraised', hpatches', hvars'⟩ := doReplacements_of_held hheld' project
    refine ⟨by rw [hraised, hraised'], by rw [hpatches, hpatches'], ?_⟩
    intro key
    rw [hvars, hvars']
    simp only [h.lastNew_perm hperm]
  · push Not at hheld
    obtain ⟨repl, hrepl, hnot⟩ := hheld
    obtain ⟨message, hrun⟩ := doReplacements_of_not_held ⟨repl, hrepl, hnot⟩ project
    obtain ⟨message', hrun'⟩ :=
      doReplacements_of_not_held ⟨repl, hperm.mem_iff.mpr hrepl, hnot⟩ project
    rw [hrun, hrun']
    exact ⟨rfl, rfl, fun _ => rfl⟩

/-- **All or nothing.**  For all variables and all lists of replacements: the call raises, and
sends nothing, exactly when some old value is not held by exactly one variable.  Otherwise it
sends one PATCH, after which the variable that held a replacement's old value holds the new value
of the last replacement of that old value, and every other variable is unchanged.  If
replacements of the same old value agree, each of them is carried out, and the outcome does not
depend on the order of the list. -/
theorem doReplacements_spec (vars : Vars) (project : String) (repls : List Replacement) :
    let run := doReplacements vars project repls false
    (run.raised ≠ none ↔ ∃ repl ∈ repls, ¬HeldOnce vars repl.old) ∧
      (run.raised ≠ none → run.patches = [] ∧ run.vars = vars) ∧
      (run.raised = none →
        run.patches.length = 1 ∧
          (∀ repl ∈ repls, ∃ key new, vars.get? key = some repl.old ∧
            lastNew repls repl.old = some new ∧ run.vars.get? key = some new) ∧
          ∀ key, (∀ repl ∈ repls, vars.get? key ≠ some repl.old) →
            run.vars.get? key = vars.get? key) ∧
      (Agree repls →
        (run.raised = none → ∀ repl ∈ repls, ∀ key, vars.get? key = some repl.old →
          run.vars.get? key = some repl.new) ∧
        ∀ repls', repls'.Perm repls →
          SameOutcome (doReplacements vars project repls' false) run) := by
  intro run
  by_cases hheld : ∀ repl ∈ repls, HeldOnce vars repl.old
  · obtain ⟨hraised, hpatches, hvars⟩ :
        run.raised = none ∧ run.patches.length = 1 ∧ ∀ key, run.vars.get? key =
          (vars.get? key).map fun value => (lastNew repls value).getD value :=
      doReplacements_of_held hheld project
    have hholder : ∀ {old new}, lastNew repls old = some new → ∀ key,
        vars.get? key = some old → run.vars.get? key = some new := by
      intro old new hnew key hkey
      rw [hvars, hkey, Option.map_some, hnew, Option.getD_some]
    refine ⟨?_, fun h => absurd hraised h, fun _ => ⟨hpatches, ?_, ?_⟩, fun hagree => ⟨?_, ?_⟩⟩
    · constructor
      · exact fun h => absurd hraised h
      · rintro ⟨repl, hrepl, hnot⟩
        exact absurd (hheld repl hrepl) hnot
    · intro repl hrepl
      obtain ⟨kv, -, hkey⟩ := (hheld repl hrepl).holder
      obtain ⟨new, hnew⟩ := Option.isSome_iff_exists.mp (lastNew_isSome hrepl)
      exact ⟨kv.1, new, (hkey kv.1).mpr rfl, hnew, hholder hnew kv.1 ((hkey kv.1).mpr rfl)⟩
    · intro key hkey
      rw [hvars]
      cases hvalue : vars.get? key with
      | none => rfl
      | some value =>
          have hnone : lastNew repls value = none := by
            apply lastNew_eq_none
            rintro repl hrepl rfl
            exact hkey repl hrepl hvalue
          rw [Option.map_some, hnone, Option.getD_none]
    · intro _ repl hrepl key hkey
      exact hholder (hagree.lastNew_eq hrepl) key hkey
    · intro repls' hperm
      exact hagree.sameOutcome hperm vars project
  · push Not at hheld
    obtain ⟨message, hrun⟩ : ∃ message, run = ⟨some message, [], [], vars⟩ :=
      doReplacements_of_not_held hheld project
    have hraised : run.raised ≠ none := by
      rw [hrun]
      exact Option.some_ne_none _
    refine ⟨iff_of_true hraised hheld, fun _ => ?_, fun h => absurd h hraised,
      fun hagree => ⟨fun h => absurd h hraised, ?_⟩⟩
    · rw [hrun]
      exact ⟨rfl, rfl⟩
    · intro repls' hperm
      exact hagree.sameOutcome hperm vars project

/-- A project with one variable. -/
def oneVariable : Vars := ⟨[("SECRET", "x")], by simp⟩

/-- Two replacements of one old value that do not agree. -/
def conflicting : List Replacement := [⟨"x", "y"⟩, ⟨"x", "z"⟩]

/-- The call does not raise, and the variable does not hold the first one's new value but the
second one's; in the other order it holds the other. -/
theorem conflicting_not_both :
    (doReplacements oneVariable "p" conflicting false).raised = none ∧
      (doReplacements oneVariable "p" conflicting false).vars.get? "SECRET" = some "z" ∧
      (doReplacements oneVariable "p" conflicting.reverse false).vars.get? "SECRET" = some "y" ∧
      ¬ ∀ repl ∈ conflicting, ∀ key, oneVariable.get? key = some repl.old →
        (doReplacements oneVariable "p" conflicting false).vars.get? key = some repl.new := by
  have hlast :
      (doReplacements oneVariable "p" conflicting false).vars.get? "SECRET" = some "z" := by
    decide
  refine ⟨by decide, hlast, by decide, ?_⟩
  intro hall
  have hfirst := hall ⟨"x", "y"⟩ (by decide) "SECRET" (by decide)
  rw [hlast] at hfirst
  exact absurd hfirst (by decide)

end CBootstrap.Evergreen
