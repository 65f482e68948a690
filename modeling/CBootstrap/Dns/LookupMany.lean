import CBootstrap.Lib.Dict
import CBootstrap.Lib.Transition
import Mathlib.Algebra.BigOperators.Group.List.Basic
import Mathlib.Algebra.Field.Rat
import Mathlib.Data.List.Perm.Basic

/-!
# `lookup-many.js`: many lookups on one event loop

A trial makes its requests all at once; from then on everything happens in callbacks: of the
resolver, of retry timers, and of the `then` that forwards the result of a retry.  `Trial.tasks`
is what is outstanding.  A step takes any one of the tasks, with any outcome where it is a lookup
that ends, and runs its handler; so a run of the system is a trial with its callbacks in any order
and with any outcomes, each called once.

Each request is, at any time, in exactly one task or settled.  The counters count the tasks that
have passed a point, so each of them makes up a constant together with the tasks that have not
(`Trial.Accounted`); when no task is left, these are the identities the printed failure rate rests
on (`lookupMany_accounted`).
-/

namespace CBootstrap.Dns

open Transition

/-! ## A trial -/

/-- `retryStrategy`. -/
inductive RetryStrategy
  | immediate
  | wait
  | waitWithJitter
  deriving DecidableEq, Repr

/-- The counters of a trial, and `totals`. -/
structure Counters where
  failures : ℕ
  successes : ℕ
  retrySuccesses : ℕ
  retryFailures : ℕ
  deriving DecidableEq, Repr

/-- Something outstanding for a request. -/
inductive Task
  /-- The callback of `resolver.resolveSrv`. -/
  | callback (request : ℕ) (isRetry : Bool)
  /-- The callback of `setTimeout`. -/
  | timer (request : ℕ)
  /-- The callbacks given to `then`, once the promise of the retry is settled: `resolve (res)` if
  it was resolved, `reject (err)` if not. -/
  | forward (request : ℕ) (ok : Bool)
  deriving DecidableEq, Repr

/-- The request a task is for. -/
def Task.request : Task → ℕ
  | .callback request _ | .timer request | .forward request _ => request

/-- The state of a trial.  `settlements` are the calls of `resolve` (`true`) and `reject` of the
promises in `promises`, and `retries` the requests made with `is_retry`, both in the order in
which they happened. -/
structure Trial where
  tasks : List Task
  counters : Counters
  settlements : List (ℕ × Bool)
  retries : List ℕ
  deriving DecidableEq, Repr

/-- `makeDNSRequest`. -/
def Trial.makeDNSRequest (t : Trial) (request : ℕ) (isRetry : Bool) : Trial :=
  { t with
    tasks := t.tasks ++ [.callback request isRetry]
    retries := if isRetry then t.retries ++ [request] else t.retries }

/-- What a failed first lookup does, by strategy. -/
def Trial.retry (strategy : RetryStrategy) (t : Trial) (request : ℕ) : Trial :=
  match strategy with
  | .immediate => t.makeDNSRequest request true
  | .wait | .waitWithJitter => { t with tasks := t.tasks ++ [.timer request] }

/-- The callback of `resolver.resolveSrv`; `ok` says that `err` is null.  A retry settles a
promise of its own, whose `then` callbacks become due. -/
def Trial.resolved (strategy : RetryStrategy) (t : Trial) (request : ℕ) (isRetry ok : Bool) :
    Trial :=
  if !ok then
    if isRetry then
      { t with
        counters := { t.counters with retryFailures := t.counters.retryFailures + 1 }
        tasks := t.tasks ++ [.forward request false] }
    else
      Trial.retry strategy
        { t with counters := { t.counters with failures := t.counters.failures + 1 } } request
  else
    if isRetry then
      { t with
        counters := { t.counters with retrySuccesses := t.counters.retrySuccesses + 1 }
        tasks := t.tasks ++ [.forward request true] }
    else
      { t with
        counters := { t.counters with successes := t.counters.successes + 1 }
        settlements := t.settlements ++ [(request, true)] }

/-- The handler of a task; `ok` is how a lookup ended. -/
def Trial.handle (strategy : RetryStrategy) (t : Trial) (task : Task) (ok : Bool) : Trial :=
  match task with
  | .callback request isRetry => t.resolved strategy request isRetry ok
  | .timer request => t.makeDNSRequest request true
  | .forward request ok => { t with settlements := t.settlements ++ [(request, ok)] }

/-- The task at some position is due; `ok` is how the lookup ended if it is one. -/
structure Action where
  position : ℕ
  ok : Bool
  deriving DecidableEq, Repr

/-- One step: the task is taken out, and its handler runs. -/
def Trial.step (strategy : RetryStrategy) (t : Trial) (a : Action) : Option Trial :=
  match t.tasks[a.position]? with
  | none => none
  | some task =>
      some (Trial.handle strategy { t with tasks := t.tasks.eraseIdx a.position } task a.ok)

/-- The `for` loop of `runTrial`, for `n` requests. -/
def startTrial (n : ℕ) : Trial :=
  (List.range n).foldl (fun t request => t.makeDNSRequest request false)
    ⟨[], ⟨0, 0, 0, 0⟩, [], []⟩

/-- The runs of a trial of `n` requests. -/
def trial (strategy : RetryStrategy) (n : ℕ) : System Trial Action :=
  ⟨fun t => t = startTrial n, Trial.step strategy⟩

/-! ## The whole program -/

/-- `results[request].status`, `none` while the promise is pending: the first call decides. -/
def Trial.status (t : Trial) (request : ℕ) : Option Bool := t.settlements.lookup request

/-- The number of rejected promises among `n`. -/
def Trial.rejected (t : Trial) (n : ℕ) : ℕ :=
  ((List.range n).filter fun request => t.status request = some false).length

/-- `Promise.allSettled (promises)` of `n` promises is due. -/
def Trial.AllSettled (t : Trial) (n : ℕ) : Prop := ∀ request < n, (t.status request).isSome

/-- `totals.… += counters.…`. -/
def Counters.add (totals counters : Counters) : Counters where
  failures := totals.failures + counters.failures
  successes := totals.successes + counters.successes
  retrySuccesses := totals.retrySuccesses + counters.retrySuccesses
  retryFailures := totals.retryFailures + counters.retryFailures

/-- `totals` after the trials. -/
def totals (trials : List Counters) : Counters := trials.foldl Counters.add ⟨0, 0, 0, 0⟩

/-- `failureRate`, before it is rounded to a `Number`. -/
def failureRate (totals : Counters) : ℚ :=
  100 * totals.retryFailures / (totals.successes + totals.failures)

/-! ## What a step can do -/

/-- The moves of a trial: `task` was due, `rest` are the other tasks. -/
inductive Moves (t : Trial) : Task → List Task → Trial → Prop
  | succeed {request rest} :
      Moves t (.callback request false) rest
        { t with
          tasks := rest
          counters := { t.counters with successes := t.counters.successes + 1 }
          settlements := t.settlements ++ [(request, true)] }
  | retryNow {request rest} :
      Moves t (.callback request false) rest
        { t with
          tasks := rest ++ [.callback request true]
          counters := { t.counters with failures := t.counters.failures + 1 }
          retries := t.retries ++ [request] }
  | retryLater {request rest} :
      Moves t (.callback request false) rest
        { t with
          tasks := rest ++ [.timer request]
          counters := { t.counters with failures := t.counters.failures + 1 } }
  | elapse {request rest} :
      Moves t (.timer request) rest
        { t with
          tasks := rest ++ [.callback request true]
          retries := t.retries ++ [request] }
  | retrySucceed {request rest} :
      Moves t (.callback request true) rest
        { t with
          tasks := rest ++ [.forward request true]
          counters := { t.counters with retrySuccesses := t.counters.retrySuccesses + 1 } }
  | retryFail {request rest} :
      Moves t (.callback request true) rest
        { t with
          tasks := rest ++ [.forward request false]
          counters := { t.counters with retryFailures := t.counters.retryFailures + 1 } }
  | forward {request ok rest} :
      Moves t (.forward request ok) rest
        { t with tasks := rest, settlements := t.settlements ++ [(request, ok)] }

lemma Trial.handle_moves (strategy : RetryStrategy) (t : Trial) (task : Task) (rest : List Task)
    (ok : Bool) : Moves t task rest (Trial.handle strategy { t with tasks := rest } task ok) := by
  cases task with
  | callback request isRetry =>
      cases isRetry with
      | true =>
          cases ok with
          | true => exact .retrySucceed
          | false => exact .retryFail
      | false =>
          cases ok with
          | true => exact .succeed
          | false =>
              cases strategy with
              | immediate => exact .retryNow
              | wait => exact .retryLater
              | waitWithJitter => exact .retryLater
  | timer request => exact .elapse
  | forward request ok => exact .forward

lemma Trial.step_moves {strategy : RetryStrategy} {t t' : Trial} {a : Action}
    (h : t.step strategy a = some t') :
    ∃ task rest, t.tasks.Perm (task :: rest) ∧ Moves t task rest t' := by
  rw [Trial.step] at h
  split at h
  · cases h
  · next task htask =>
    cases h
    refine ⟨task, t.tasks.eraseIdx a.position, ?_, t.handle_moves strategy task _ a.ok⟩
    obtain ⟨hlt, rfl⟩ := List.getElem?_eq_some_iff.mp htask
    exact (List.getElem_cons_eraseIdx_perm hlt).symm

/-- A trial can go on exactly while something is outstanding. -/
lemma Trial.step_eq_none_iff {strategy : RetryStrategy} {t : Trial} :
    (∀ a, t.step strategy a = none) ↔ t.tasks = [] := by
  constructor
  · intro h
    by_contra hne
    obtain ⟨task, rest, htasks⟩ := List.exists_cons_of_ne_nil hne
    have hstep := h ⟨0, true⟩
    rw [Trial.step, htasks] at hstep
    cases hstep
  · intro htasks a
    rw [Trial.step, htasks]
    rfl

/-! ## Where the requests are -/

/-- A first lookup is outstanding. -/
def Task.isFirst : Task → Bool
  | .callback _ isRetry => !isRetry
  | .timer _ | .forward _ _ => false

/-- The request has not been retried. -/
def Task.beforeRetry : Task → Bool
  | .callback _ isRetry => !isRetry
  | .timer _ => true
  | .forward _ _ => false

/-- The first lookup has failed, and the retry has not ended. -/
def Task.inRetry : Task → Bool
  | .callback _ isRetry => isRetry
  | .timer _ => true
  | .forward _ _ => false

/-- A rejection is to be forwarded. -/
def Task.isReject : Task → Bool
  | .forward _ ok => !ok
  | .callback _ _ | .timer _ => false

/-- How many steps a task can lead to. -/
def Task.weight : Task → ℕ
  | .callback _ false => 4
  | .timer _ => 3
  | .callback _ true => 2
  | .forward _ _ => 1

/-- How many steps a trial can still take. -/
def Trial.weight (t : Trial) : ℕ := (t.tasks.map Task.weight).sum

/-- **The invariant**: each request is in one task or settled, it has been retried at most once,
and each counter, together with the tasks still before it, accounts for what is behind it. -/
structure Trial.Accounted (n : ℕ) (t : Trial) : Prop where
  requests : (t.tasks.map Task.request ++ t.settlements.map Prod.fst).Perm (List.range n)
  retried : ((t.tasks.filter Task.beforeRetry).map Task.request ++ t.retries).Nodup
  first : t.counters.successes + t.counters.failures + t.tasks.countP Task.isFirst = n
  retry : t.counters.retrySuccesses + t.counters.retryFailures + t.tasks.countP Task.inRetry =
    t.counters.failures
  reject : t.settlements.countP (fun s => !s.2) + t.tasks.countP Task.isReject =
    t.counters.retryFailures

/-- The order of the tasks does not matter. -/
lemma Trial.Accounted.perm {n : ℕ} {t : Trial} (h : t.Accounted n) {tasks : List Task}
    (hperm : t.tasks.Perm tasks) : Trial.Accounted n { t with tasks := tasks } where
  requests := ((hperm.map Task.request).append_right _).symm.trans h.requests
  retried := (((hperm.filter Task.beforeRetry).map Task.request).append_right _).nodup_iff.mp
    h.retried
  first := by
    rw [← h.first]
    exact congrArg _ (hperm.countP_eq Task.isFirst).symm
  retry := by
    rw [← h.retry]
    exact congrArg _ (hperm.countP_eq Task.inRetry).symm
  reject := by
    rw [← h.reject]
    exact congrArg _ (hperm.countP_eq Task.isReject).symm

/-- An element at the front may as well be at the end of the first part. -/
lemma perm_concat_append {α : Type} (x : α) (l m : List α) :
    (x :: (l ++ m)).Perm (l ++ [x] ++ m) := by
  rw [List.append_assoc, List.singleton_append]
  exact List.perm_middle.symm

/-- An element at the front may as well be at the end. -/
lemma perm_append_concat {α : Type} (x : α) (l m : List α) :
    (x :: (l ++ m)).Perm (l ++ (m ++ [x])) := by
  rw [← List.append_assoc]
  exact (List.perm_append_singleton x _).symm

/-- A task that takes the place of another one of the same request. -/
lemma replace_perm {n : ℕ} {rest : List Task} {settled : List ℕ} (task : Task)
    (h : (task.request :: (rest.map Task.request ++ settled)).Perm (List.range n)) :
    ((rest ++ [task]).map Task.request ++ settled).Perm (List.range n) := by
  rw [List.map_append, List.map_singleton]
  exact (perm_concat_append _ _ _).symm.trans h

/-- **A step keeps the invariant.** -/
lemma Moves.accounted {n : ℕ} {t t' : Trial} {task : Task} {rest : List Task}
    (h : Moves t task rest t') (ht : Trial.Accounted n { t with tasks := task :: rest }) :
    t'.Accounted n := by
  obtain ⟨hrequests, hretried, hfirst, hretry, hreject⟩ := ht
  simp only [List.map_cons, List.cons_append] at hrequests
  simp only [List.filter_cons, List.countP_cons] at hretried hfirst hretry hreject
  cases h with
  | @succeed request =>
      refine ⟨?_, (List.nodup_cons.mp hretried).2, ?_, ?_, ?_⟩
      · rw [List.map_append]
        exact (perm_append_concat _ _ _).symm.trans hrequests
      · simp [Task.isFirst] at hfirst ⊢
        omega
      · simpa [Task.inRetry] using hretry
      · simpa [Task.isReject] using hreject
  | @retryNow request =>
      refine ⟨replace_perm (.callback request true) hrequests, ?_, ?_, ?_, ?_⟩
      · rw [List.filter_append, List.filter_singleton]
        simpa [Task.beforeRetry, Task.request] using
          (perm_append_concat _ _ _).nodup_iff.mp hretried
      · simp [Task.isFirst] at hfirst ⊢
        omega
      · simp [Task.inRetry] at hretry ⊢
        omega
      · simpa [Task.isReject] using hreject
  | @retryLater request =>
      refine ⟨replace_perm (.timer request) hrequests, ?_, ?_, ?_, ?_⟩
      · rw [List.filter_append, List.filter_singleton, List.map_append]
        exact (perm_concat_append _ _ _).nodup_iff.mp hretried
      · simp [Task.isFirst] at hfirst ⊢
        omega
      · simp [Task.inRetry] at hretry ⊢
        omega
      · simpa [Task.isReject] using hreject
  | @elapse request =>
      refine ⟨replace_perm (.callback request true) hrequests, ?_, ?_, ?_, ?_⟩
      · rw [List.filter_append, List.filter_singleton]
        simpa [Task.beforeRetry, Task.request] using
          (perm_append_concat _ _ _).nodup_iff.mp hretried
      · simpa [Task.isFirst] using hfirst
      · simp [Task.inRetry] at hretry ⊢
        omega
      · simpa [Task.isReject] using hreject
  | @retrySucceed request =>
      refine ⟨replace_perm (.forward request true) hrequests, ?_, ?_, ?_, ?_⟩
      · simpa [Task.beforeRetry] using hretried
      · simpa [Task.isFirst] using hfirst
      · simp [Task.inRetry] at hretry ⊢
        omega
      · simpa [Task.isReject] using hreject
  | @retryFail request =>
      refine ⟨replace_perm (.forward request false) hrequests, ?_, ?_, ?_, ?_⟩
      · simpa [Task.beforeRetry] using hretried
      · simpa [Task.isFirst] using hfirst
      · simp [Task.inRetry] at hretry ⊢
        omega
      · simp [Task.isReject] at hreject ⊢
        omega
  | @forward request ok =>
      refine ⟨?_, ?_, ?_, ?_, ?_⟩
      · rw [List.map_append]
        exact (perm_append_concat _ _ _).symm.trans hrequests
      · simpa [Task.beforeRetry] using hretried
      · simpa [Task.isFirst] using hfirst
      · simpa [Task.inRetry] using hretry
      · rw [List.countP_append, List.countP_singleton, Nat.add_right_comm, Nat.add_assoc]
        exact hreject

/-- **A step uses up weight.** -/
lemma Moves.weight_lt {t t' : Trial} {task : Task} {rest : List Task} (h : Moves t task rest t')
    (hperm : t.tasks.Perm (task :: rest)) : t'.weight < t.weight := by
  have hweight : t.weight = task.weight + (rest.map Task.weight).sum := by
    rw [Trial.weight, (hperm.map Task.weight).sum_eq, List.map_cons, List.sum_cons]
  rw [hweight]
  cases h with
  | succeed | forward => simp [Trial.weight, Task.weight]
  | retryNow | retryLater | elapse | retrySucceed | retryFail =>
      simp only [Trial.weight, List.map_append, List.sum_append, List.map_singleton,
        List.sum_singleton, Task.weight]
      omega

/-! ## Whole runs -/

lemma startTrial_eq (n : ℕ) :
    startTrial n = ⟨(List.range n).map (Task.callback · false), ⟨0, 0, 0, 0⟩, [], []⟩ := by
  induction n with
  | zero => rfl
  | succ n ih =>
      rw [startTrial, List.range_succ, List.foldl_append]
      rw [startTrial] at ih
      rw [ih, List.map_append]
      rfl

lemma accounted_startTrial (n : ℕ) : (startTrial n).Accounted n := by
  have hrequests : ((List.range n).map (Task.callback · false)).map Task.request =
      List.range n := by
    rw [List.map_map]
    exact List.map_id _
  have hfilter : ((List.range n).map (Task.callback · false)).filter Task.beforeRetry =
      (List.range n).map (Task.callback · false) := by
    rw [List.filter_eq_self]
    intro task htask
    obtain ⟨request, -, rfl⟩ := List.mem_map.mp htask
    rfl
  rw [startTrial_eq]
  refine ⟨?_, ?_, ?_, ?_, ?_⟩
  · simp [hrequests]
  · simp [hfilter, hrequests, List.nodup_range]
  · simp [List.countP_map, Function.comp_def, Task.isFirst]
  · simp [List.countP_map, Function.comp_def, Task.inRetry]
  · simp [List.countP_map, Function.comp_def, Task.isReject]

lemma weight_startTrial (n : ℕ) : (startTrial n).weight = 4 * n := by
  rw [startTrial_eq, Trial.weight, List.map_map]
  simp [Function.comp_def, Task.weight, Nat.mul_comm]

/-- A trial of `n` requests, run as far as `actions` go. -/
structure TrialRun (strategy : RetryStrategy) where
  n : ℕ
  actions : List Action
  state : Trial
  run_eq : run (trial strategy n) always (startTrial n) actions = some state

namespace TrialRun

variable {strategy : RetryStrategy} (t : TrialRun strategy)

lemma accounted : t.state.Accounted t.n := by
  have hreached : Reachable (trial strategy t.n) t.state :=
    Reaches.of_run t.actions (.init rfl) t.run_eq
  refine Reaches.invariant (P := Trial.Accounted t.n) ?_ ?_ hreached
  · rintro s rfl
    exact accounted_startTrial t.n
  · intro s a s' hs _ hstep
    obtain ⟨task, rest, hperm, hmoves⟩ := Trial.step_moves hstep
    exact hmoves.accounted (hs.perm hperm)

/-- A trial of `n` requests takes at most `4 * n` steps. -/
lemma length_actions_le : t.actions.length ≤ 4 * t.n := by
  have hlength := run_length_le (m := Trial.weight) (fun s a s' hstep => by
    obtain ⟨task, rest, hperm, hmoves⟩ := Trial.step_moves hstep
    exact hmoves.weight_lt hperm) t.run_eq
  rw [weight_startTrial] at hlength
  omega

end TrialRun

/-! ## What the counters say in the end -/

section Counted

variable {n : ℕ} {t : Trial} (ht : t.Accounted n)

include ht

/-- No request is in two places. -/
lemma Trial.Accounted.nodup :
    (t.tasks.map Task.request ++ t.settlements.map Prod.fst).Nodup :=
  ht.requests.nodup_iff.mpr List.nodup_range

/-- A promise is settled at most once. -/
lemma Trial.Accounted.count_settlements_le (request : ℕ) :
    (t.settlements.map Prod.fst).count request ≤ 1 :=
  List.nodup_iff_count_le_one.mp (List.nodup_append.mp ht.nodup).2.1 request

/-- A request is retried at most once. -/
lemma Trial.Accounted.count_retries_le (request : ℕ) : t.retries.count request ≤ 1 :=
  List.nodup_iff_count_le_one.mp (List.nodup_append.mp ht.retried).2.1 request

/-- The calls of `resolve` and `reject` are what the promises' states say. -/
lemma Trial.Accounted.status_eq {s : ℕ × Bool} (hs : s ∈ t.settlements) :
    t.status s.1 = some s.2 := by
  have hnodup := (List.nodup_append.mp ht.nodup).2.1
  exact (Dict.mem_items (d := ⟨t.settlements, hnodup⟩)).mp hs

/-- With no task left, every promise is settled. -/
lemma Trial.Accounted.allSettled (htasks : t.tasks = []) : t.AllSettled n := by
  intro request hrequest
  have hperm := ht.requests
  rw [htasks, List.map_nil, List.nil_append] at hperm
  obtain ⟨s, hs, rfl⟩ := List.mem_map.mp (hperm.mem_iff.mpr (List.mem_range.mpr hrequest))
  rw [ht.status_eq hs]
  rfl

/-- When every promise is settled, no task is left. -/
lemma Trial.Accounted.tasks_eq_nil (hsettled : t.AllSettled n) : t.tasks = [] := by
  rw [List.eq_nil_iff_forall_not_mem]
  intro task htask
  have hmem : task.request ∈ t.tasks.map Task.request := List.mem_map_of_mem htask
  have hrange : task.request < n :=
    List.mem_range.mp (ht.requests.mem_iff.mp (List.mem_append_left _ hmem))
  obtain ⟨ok, hok⟩ := Option.isSome_iff_exists.mp (hsettled task.request hrange)
  have hsettled : task.request ∈ t.settlements.map Prod.fst := by
    by_contra hnot
    rw [Trial.status, Dict.lookup_eq_none_of_notMem hnot] at hok
    cases hok
  exact (List.nodup_append.mp ht.nodup).2.2 _ hmem _ hsettled rfl

/-- With no task left, the rejected promises are the calls of `reject`. -/
lemma Trial.Accounted.rejected_eq (htasks : t.tasks = []) :
    t.rejected n = t.settlements.countP fun s => !s.2 := by
  have hperm := ht.requests
  rw [htasks, List.map_nil, List.nil_append] at hperm
  rw [Trial.rejected, ← List.countP_eq_length_filter, ← hperm.countP_eq, List.countP_map]
  apply List.countP_congr
  intro s hs
  simp [ht.status_eq hs]

/-- **The counters, once all promises have settled.** -/
lemma Trial.Accounted.counted (hsettled : t.AllSettled n) :
    t.counters.successes + t.counters.failures = n ∧
      t.counters.retrySuccesses + t.counters.retryFailures = t.counters.failures ∧
      t.rejected n = t.counters.retryFailures := by
  have htasks := ht.tasks_eq_nil hsettled
  have hfirst := ht.first
  have hretry := ht.retry
  have hreject := ht.reject
  rw [htasks, List.countP_nil, Nat.add_zero] at hfirst hretry hreject
  exact ⟨hfirst, hretry, (ht.rejected_eq htasks).trans hreject⟩

end Counted

/-- The totals are sums. -/
lemma totals_eq (trials : List Counters) :
    (totals trials).retryFailures = (trials.map Counters.retryFailures).sum ∧
      (totals trials).successes + (totals trials).failures =
        (trials.map fun c => c.successes + c.failures).sum := by
  have hfold : ∀ start : Counters,
      (trials.foldl Counters.add start).retryFailures =
          start.retryFailures + (trials.map Counters.retryFailures).sum ∧
        (trials.foldl Counters.add start).successes + (trials.foldl Counters.add start).failures =
          start.successes + start.failures +
            (trials.map fun c => c.successes + c.failures).sum := by
    induction trials with
    | nil => exact fun start => ⟨rfl, rfl⟩
    | cons c trials ih =>
        intro start
        obtain ⟨hretry, hall⟩ := ih (start.add c)
        rw [List.foldl_cons, hretry, hall, List.map_cons, List.map_cons, List.sum_cons,
          List.sum_cons]
        simp only [Counters.add]
        omega
  simpa [totals] using hfold ⟨0, 0, 0, 0⟩

/-- **The lookups are accounted for.**  For every strategy and every trial, with its callbacks in
any order and with any outcomes: there are at most `4 * n` of them; each promise is settled at
most once, and each request retried at most once; a trial ends exactly when all promises are
settled, each of them once; and then the counters add up to the requests, to the failures, and to
the rejected promises.  So the failure rate over any number of trials is the share of their
requests whose promise was rejected. -/
theorem lookupMany_accounted (strategy : RetryStrategy) :
    (∀ t : TrialRun strategy,
      t.actions.length ≤ 4 * t.n ∧
      (∀ request, (t.state.settlements.map Prod.fst).count request ≤ 1 ∧
        t.state.retries.count request ≤ 1) ∧
      ((∀ a, t.state.step strategy a = none) ↔ t.state.AllSettled t.n) ∧
      (t.state.AllSettled t.n →
        (∀ request < t.n, (t.state.settlements.map Prod.fst).count request = 1) ∧
        t.state.counters.successes + t.state.counters.failures = t.n ∧
        t.state.counters.retrySuccesses + t.state.counters.retryFailures =
          t.state.counters.failures ∧
        t.state.rejected t.n = t.state.counters.retryFailures)) ∧
    ∀ trials : List (TrialRun strategy), (∀ t ∈ trials, t.state.AllSettled t.n) →
      failureRate (totals (trials.map fun t => t.state.counters)) =
        100 * (trials.map fun t => t.state.rejected t.n).sum / (trials.map TrialRun.n).sum := by
  constructor
  · intro t
    have ht := t.accounted
    refine ⟨t.length_actions_le, fun request => ⟨ht.count_settlements_le request,
      ht.count_retries_le request⟩, ?_, ?_⟩
    · rw [Trial.step_eq_none_iff]
      exact ⟨ht.allSettled, ht.tasks_eq_nil⟩
    intro hsettled
    refine ⟨?_, ht.counted hsettled⟩
    intro request hrequest
    have hperm := ht.requests
    rw [ht.tasks_eq_nil hsettled, List.map_nil, List.nil_append] at hperm
    rw [hperm.count_eq]
    exact List.count_eq_one_of_mem List.nodup_range (List.mem_range.mpr hrequest)
  · intro trials hsettled
    obtain ⟨hretry, hall⟩ := totals_eq (trials.map fun t => t.state.counters)
    have hrejected : (trials.map fun t => t.state.counters.retryFailures) =
        trials.map fun t => t.state.rejected t.n :=
      List.map_congr_left fun t ht => (t.accounted.counted (hsettled t ht)).2.2.symm
    have hn : (trials.map fun t => t.state.counters.successes + t.state.counters.failures) =
        trials.map TrialRun.n :=
      List.map_congr_left fun t ht => (t.accounted.counted (hsettled t ht)).1
    rw [List.map_map] at hretry hall
    rw [failureRate, ← Nat.cast_add, hretry, hall]
    simp only [Function.comp_def, hrejected, hn]

/-- The first request fails, waits and fails again, while the second one succeeds. -/
example :
    run (trial .wait 2) always (startTrial 2)
        [⟨0, false⟩, ⟨1, true⟩, ⟨1, false⟩, ⟨0, true⟩, ⟨0, true⟩] =
      some ⟨[], ⟨1, 1, 0, 1⟩, [(1, true), (0, false)], [0]⟩ := rfl

end CBootstrap.Dns
