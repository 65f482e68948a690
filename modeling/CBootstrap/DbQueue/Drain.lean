import CBootstrap.DbQueue.Queue

/-!
# How `db-queue.cpp` comes to an end

Nothing that was accepted is lost, but that alone would hold of threads that never get anywhere.
Here it is shown that they do.  After a `Shutdown` the main thread has one step left, `worker.join`,
and the worker goes round its loop until `inflight` is empty.  `remaining` counts the steps they
have left.  Each of their steps uses up some of it, as long as the futures in flight are ready by
the time the worker asks for them: an iteration that moves nothing out is followed by another.

`stops_after` is about every run from there on, with the two threads' steps in any order and tasks
completing in between: the threads take a bounded number of steps, and stop nowhere short of the
end.  `can_stop` is about every reachable state: there is a way to the end from it.
-/

namespace CBootstrap.DbQueue

open Transition

/-! ## The threads' steps -/

/-- Whether an action is a step of one of the two threads; a task completes on its own. -/
def Action.isThread : Action → Bool
  | .complete _ => false
  | .start _ | .push | .stop | .join | .snapshot | .driven | .move _ | .handle _ _ | .again => true

/-- The steps the worker has left, with `n` tasks in flight that it will find ready. -/
def Worker.remaining (n : ℕ) : Worker → ℕ
  | .top => if n = 0 then 1 else n + 5
  | .driving _ => n + 4
  | .moving => n + 3
  | .handling completed => completed.length + 1 + if n = 0 then 1 else n + 5
  | .returned => 0

/-- The steps the threads have left, once the main thread is in `worker.join`. -/
def State.remaining (s : State) : ℕ :=
  s.worker.remaining s.inflight.length + if s.main = .joining then 1 else 0

/-- The main thread has requested shutdown, and has returned from `worker.join` only behind the
worker. -/
structure State.Stopped (s : State) : Prop where
  shutdown : s.shutdownRequested = true
  main : s.main = .joining ∨ s.main = .finished ∧ s.worker = .returned

/-- The futures in flight are ready. -/
def State.AllReady (s : State) : Prop :=
  ∀ item ∈ s.inflight, ∃ handle ∈ s.ready, item.fut = some handle

/-- There are no more steps left than one for each task, and seven. -/
lemma State.remaining_le (s : State) :
    s.remaining ≤ s.inflight.length + s.worker.completed.length + 7 := by
  rw [State.remaining]
  cases s.worker <;> simp only [Worker.remaining, Worker.completed, List.length_nil] <;>
    split_ifs <;> omega

lemma stay_eq_nil {isReady : ℕ → Bool} {n : ℕ} {xs : List InFlight}
    (h : ∀ k < xs.length, isReady (n + k) = true) : stay isReady n xs = [] := by
  induction xs generalizing n with
  | nil => rfl
  | cons x xs ih =>
      have hx := h 0 (by simp)
      rw [Nat.add_zero] at hx
      rw [stay, if_pos hx]
      apply ih
      intro k hk
      have hnext := h (k + 1) (by simpa using hk)
      rwa [← Nat.add_assoc, Nat.add_right_comm] at hnext

/-- What is ready stays ready, so the worker takes all of it. -/
lemma State.AllReady.stay {s : State} (hs : s.AllReady) {isReady : ℕ → Bool}
    (hready : StaysReady s.ready isReady s.inflight) : DbQueue.stay isReady 0 s.inflight = [] := by
  apply stay_eq_nil
  intro k hk
  rw [Nat.zero_add]
  obtain ⟨handle, hmem, hfut⟩ := hs s.inflight[k] (List.getElem_mem hk)
  apply hready k hk handle hmem
  rw [List.getElem?_eq_getElem hk, Option.bind_some, hfut]

/-! ## What they can do behind a shutdown -/

lemma State.step_join {s t : State} (h : s.step .join = some t) :
    s.main = .joining ∧ s.worker = .returned ∧ t = { s with main := .finished } := by
  rw [State.step] at h
  split_ifs at h with hjoin
  cases h
  exact ⟨hjoin.1, hjoin.2, rfl⟩

lemma State.step_snapshot {s t : State} (h : s.step .snapshot = some t) :
    s.worker = .top ∧
      (s.inflight = [] ∧ s.shutdownRequested = true ∧ t = { s with worker := .returned } ∨
        ¬(s.inflight = [] ∧ s.shutdownRequested = true) ∧
          t = { s with worker := .driving (s.inflight.map InFlight.fut) }) := by
  rw [State.step] at h
  split_ifs at h with hworker hexit
  · cases h
    exact ⟨hworker, .inl ⟨hexit.1, hexit.2, rfl⟩⟩
  · cases h
    exact ⟨hworker, .inr ⟨hexit, rfl⟩⟩

/-- Only the worker has returned when the main thread comes back from `worker.join`. -/
lemma State.Stopped.joining {s : State} (hs : s.Stopped) (hworker : s.worker ≠ .returned) :
    s.main = .joining :=
  hs.main.resolve_right fun hfinished => hworker hfinished.2

/-- The main thread does nothing but wait, or has waited. -/
lemma State.Stopped.main_ne {s : State} (hs : s.Stopped) {main : Main} (hjoining : main ≠ .joining)
    (hfinished : main ≠ .finished) : s.main ≠ main := by
  rintro rfl
  rcases hs.main with hmain | ⟨hmain, -⟩
  · exact hjoining hmain
  · exact hfinished hmain

/-- The worker goes on while the main thread waits for it. -/
lemma State.Stopped.goOn {s t : State} (hs : s.Stopped) (hworker : s.worker ≠ .returned)
    (hmain : t.main = s.main) (hshutdown : t.shutdownRequested = s.shutdownRequested) :
    t.Stopped :=
  ⟨hshutdown.trans hs.shutdown, .inl (hmain.trans (hs.joining hworker))⟩

/-- **A step behind a shutdown.**  Nothing is pushed, and each step of a thread uses up some of what
is left, unless the worker finds a task that is not ready. -/
lemma State.Stopped.step {s t : State} (hs : s.Stopped) {a : Action} (h : s.step a = some t)
    (hmove : ∀ isReady, a = .move isReady → s.worker = .moving →
      StaysReady s.ready isReady s.inflight → stay isReady 0 s.inflight = []) :
    t.Stopped ∧ (t.inflight = s.inflight ∨ t.inflight = []) ∧ s.ready ⊆ t.ready ∧
      t.accepted = s.accepted ∧ t.remaining + a.isThread.toNat ≤ s.remaining := by
  by_cases hjoin : a = .join
  · rw [hjoin] at h ⊢
    obtain ⟨hmain, hworker, rfl⟩ := State.step_join h
    refine ⟨⟨hs.shutdown, .inr ⟨rfl, hworker⟩⟩, .inl rfl, List.Subset.refl _, rfl, ?_⟩
    simp [State.remaining, hworker, hmain, Worker.remaining, Action.isThread]
  by_cases hsnapshot : a = .snapshot
  · rw [hsnapshot] at h ⊢
    obtain ⟨hworker, ⟨hempty, -, rfl⟩ | ⟨hbusy, rfl⟩⟩ := State.step_snapshot h
    · refine ⟨hs.goOn (by simp [hworker]) rfl rfl, .inl rfl, List.Subset.refl _, rfl, ?_⟩
      simp [State.remaining, hworker, hempty, Worker.remaining, Action.isThread]
    · have hinflight : s.inflight.length ≠ 0 := by
        intro hempty
        exact hbusy ⟨List.length_eq_zero_iff.mp hempty, hs.shutdown⟩
      refine ⟨hs.goOn (by simp [hworker]) rfl rfl, .inl rfl, List.Subset.refl _, rfl, ?_⟩
      simp only [State.remaining, hworker, Worker.remaining, if_neg hinflight, Action.isThread,
        Bool.toNat_true]
      omega
  cases State.step_moves h with
  | accept hmain _ => exact absurd hmain (hs.main_ne (by simp) (by simp))
  | receiveShutdown hmain => exact absurd hmain (hs.main_ne (by simp) (by simp))
  | push hmain => exact absurd hmain (hs.main_ne (by simp) (by simp))
  | stop hmain => exact absurd hmain (hs.main_ne (by simp) (by simp))
  | join _ => exact absurd rfl hjoin
  | exit _ _ _ => exact absurd rfl hsnapshot
  | snapshot _ => exact absurd rfl hsnapshot
  | driven hworker =>
      refine ⟨hs.goOn (by simp [hworker]) rfl rfl, .inl rfl, List.Subset.refl _, rfl, ?_⟩
      simp only [State.remaining, hworker, Worker.remaining, Action.isThread, Bool.toNat_true]
      omega
  | @move isReady hworker hready =>
      have hstay := hmove isReady rfl hworker hready
      have hleave := (stay_leave_perm isReady 0 s.inflight).length_eq
      rw [hstay, List.nil_append] at hleave
      refine ⟨hs.goOn (by simp [hworker]) rfl rfl, .inr hstay, List.subset_append_left _ _, rfl, ?_⟩
      simp only [State.remaining, hworker, Worker.remaining, hstay, hleave, Action.isThread,
        Bool.toNat_true, List.length_nil, if_true]
      omega
  | handle hworker =>
      refine ⟨hs.goOn (by simp [hworker]) rfl rfl, .inl rfl, List.Subset.refl _, rfl, ?_⟩
      simp only [State.remaining, hworker, Worker.remaining, Action.isThread, Bool.toNat_true,
        List.length_cons]
      omega
  | again hworker =>
      refine ⟨hs.goOn (by simp [hworker]) rfl rfl, .inl rfl, List.Subset.refl _, rfl, ?_⟩
      simp only [State.remaining, hworker, Worker.remaining, Action.isThread, Bool.toNat_true,
        List.length_nil]
      omega
  | complete _ =>
      refine ⟨⟨hs.shutdown, hs.main⟩, .inl rfl, List.subset_append_left _ _, rfl, ?_⟩
      simp [State.remaining, Action.isThread]

/-- **The threads are not stuck.**  While the main thread waits in `worker.join`, one of them has a
step; and where it is the worker's question which tasks are ready, the answer may be all of them. -/
lemma State.enabled_of_joining {s : State} (hmain : s.main = .joining) :
    ∃ a t, a.isThread = true ∧ s.step a = some t ∧
      ∀ isReady, a = .move isReady → stay isReady 0 s.inflight = [] := by
  cases hworker : s.worker with
  | top =>
      refine ⟨.snapshot, ?_⟩
      by_cases hempty : s.inflight = [] ∧ s.shutdownRequested = true
      · exact ⟨_, rfl, by rw [State.step, if_pos hworker, if_pos hempty], by simp⟩
      · exact ⟨_, rfl, by rw [State.step, if_pos hworker, if_neg hempty], by simp⟩
  | driving pending =>
      exact ⟨.driven, { s with worker := .moving }, rfl, by rw [State.step, hworker], by simp⟩
  | moving =>
      have hready : StaysReady s.ready (fun _ => true) s.inflight := fun _ _ _ _ _ => rfl
      refine ⟨.move fun _ => true, _, rfl, by rw [State.step, if_pos ⟨hworker, hready⟩], ?_⟩
      rintro isReady hisReady
      rw [← Action.move.inj hisReady]
      exact stay_eq_nil fun _ _ => rfl
  | handling completed =>
      cases completed with
      | nil => exact ⟨.again, _, rfl, by rw [State.step, if_pos hworker], by simp⟩
      | cons item completed =>
          refine ⟨.handle none 0, ?_⟩
          simp only [State.step, hworker]
          exact ⟨_, rfl, rfl, by simp⟩
  | returned => exact ⟨.join, _, rfl, by rw [State.step, if_pos ⟨hmain, hworker⟩], by simp⟩

/-! ## Every run behind a shutdown -/

/-- What the main thread's place says in a reachable state. -/
structure State.Ordered (s : State) : Prop where
  shutdown : s.main = .joining ∨ s.main = .finished → s.shutdownRequested = true
  finished : s.main = .finished → s.worker = .returned

lemma State.Ordered.step {s t : State} (hs : s.Ordered) {a : Action} (h : s.step a = some t) :
    t.Ordered := by
  by_cases hjoin : a = .join
  · rw [hjoin] at h
    obtain ⟨hmain, hworker, rfl⟩ := State.step_join h
    exact ⟨fun _ => hs.shutdown (.inl hmain), fun _ => hworker⟩
  -- a worker that has a step to take has not returned
  have hworking : ∀ {worker : Worker}, s.worker ≠ .returned →
      s.main = .finished → worker = .returned :=
    fun hworker hmain => absurd (hs.finished hmain) hworker
  cases State.step_moves h with
  | accept _ _ => exact ⟨by simp, by simp⟩
  | receiveShutdown _ => exact ⟨by simp, by simp⟩
  | push _ => exact ⟨by simp, by simp⟩
  | stop _ => exact ⟨fun _ => rfl, by simp⟩
  | join _ => exact absurd rfl hjoin
  | exit _ _ _ => exact ⟨hs.shutdown, fun _ => rfl⟩
  | snapshot hworker => exact ⟨hs.shutdown, hworking (by simp [hworker])⟩
  | driven hworker => exact ⟨hs.shutdown, hworking (by simp [hworker])⟩
  | move hworker _ => exact ⟨hs.shutdown, hworking (by simp [hworker])⟩
  | handle hworker => exact ⟨hs.shutdown, hworking (by simp [hworker])⟩
  | again hworker => exact ⟨hs.shutdown, hworking (by simp [hworker])⟩
  | complete _ => exact ⟨hs.shutdown, hs.finished⟩

lemma ordered_of_reachable {s : State} (h : Reachable dbQueue s) : s.Ordered := by
  refine Reaches.invariant (P := State.Ordered) ?_ (fun _ _ _ hs _ hstep => hs.step hstep) h
  intro s hinit
  rw [hinit]
  exact ⟨by simp, by simp⟩

/-- The main thread is in `worker.join`, or behind it. -/
lemma State.Ordered.stopped {s : State} (hs : s.Ordered)
    (hmain : s.main = .joining ∨ s.main = .finished) : s.Stopped :=
  ⟨hs.shutdown hmain, hmain.imp_right fun hfinished => ⟨hfinished, hs.finished hfinished⟩⟩

/-- A step keeps what is in flight ready. -/
lemma State.Stopped.step_allReady {s t : State} (hs : s.Stopped) (hready : s.AllReady) {a : Action}
    (h : s.step a = some t) :
    t.Stopped ∧ t.AllReady ∧ t.accepted = s.accepted ∧
      t.remaining + a.isThread.toNat ≤ s.remaining := by
  obtain ⟨hstopped, hinflight, hsubset, haccepted, hremaining⟩ :=
    hs.step h fun isReady _ _ hstays => hready.stay hstays
  refine ⟨hstopped, ?_, haccepted, hremaining⟩
  intro item hmem
  rcases hinflight with hsame | hempty
  · obtain ⟨handle, hhandle, hfut⟩ := hready item (hsame ▸ hmem)
    exact ⟨handle, hsubset hhandle, hfut⟩
  · rw [hempty] at hmem
    cases hmem

/-- **Shutdown comes to an end.**  Let the main thread be in `worker.join` and the futures in flight
be ready.  Then in any run, with the steps of the threads in any order and tasks completing in
between, the threads take no more steps than one for each task in flight or being handled, and
seven; and where they have no step left, the main thread has come back and the requests that were
accepted have been handled, each once. -/
theorem stops_after {s : State} (h : Reachable dbQueue s) (hmain : s.main = .joining)
    (hready : s.AllReady) {actions : List Action} {t : State}
    (hrun : run dbQueue always s actions = some t) :
    actions.countP Action.isThread ≤ s.inflight.length + s.worker.completed.length + 7 ∧
      ((∀ a, a.isThread = true → t.step a = none) →
        t.main = .finished ∧ t.worker = .returned ∧
          (t.handled : Multiset InFlight) = s.accepted) := by
  have hstopped := (ordered_of_reachable h).stopped (.inl hmain)
  have hreachable : Reachable dbQueue t := h.of_run actions hrun
  obtain ⟨⟨ht, -, haccepted⟩, hcount⟩ :=
    run_wears (P := fun u => u.Stopped ∧ u.AllReady ∧ u.accepted = s.accepted)
      (m := State.remaining) Action.isThread
      (by
        rintro u a v ⟨hu, huready, huaccepted⟩ hstep
        obtain ⟨hv, hvready, hvaccepted, hle⟩ := hu.step_allReady huready hstep
        exact ⟨⟨hv, hvready, hvaccepted.trans huaccepted⟩, hle⟩)
      ⟨hstopped, hready, rfl⟩ hrun
  refine ⟨?_, ?_⟩
  · have hle := s.remaining_le
    omega
  · intro hstuck
    obtain ⟨hfinished, hreturned⟩ : t.main = .finished ∧ t.worker = .returned := by
      refine ht.main.resolve_left ?_
      intro hjoining
      obtain ⟨a, u, hthread, hstep, -⟩ := State.enabled_of_joining hjoining
      rw [hstuck a hthread] at hstep
      cases hstep
    have hhandled := (accounted_of_reachable hreachable).handled_of_returned hreturned
    rw [haccepted] at hhandled
    exact ⟨hfinished, hreturned, Multiset.coe_eq_coe.mpr hhandled⟩

/-- Shutdown is requested with the second task in flight, which then completes. -/
def untilShutdown : List Action :=
  [.start false, .push, .snapshot, .start false, .complete 0, .driven, .move fun k => k == 0,
    .push, .start false, .handle none 0, .stop, .complete 1]

/-- The state behind it. -/
def atShutdown : State where
  stream := []
  main := .joining
  worker := .handling []
  inflight := [⟨⟨.count, 0, some 1⟩, some 1⟩]
  shutdownRequested := true
  nextHandle := 2
  ready := [0, 0, 1]
  output := ["[OK] insert 50"]
  accepted := [⟨⟨.insert, 50, some 0⟩, some 0⟩, ⟨⟨.count, 0, some 1⟩, some 1⟩]
  handled := [⟨⟨.insert, 50, some 0⟩, some 0⟩]

lemma run_untilShutdown :
    run dbQueue always (atStart shortStream) untilShutdown = some atShutdown := by
  have hinsert : "[OK] insert " ++ Int.repr 50 = "[OK] insert 50" := by decide
  simp [run, untilShutdown, dbQueue, State.step, moveCompleted_eq, stay, leave, atStart,
    shortStream, awaitRequest, always, StaysReady, handleResult, atShutdown, hinsert]

lemma reachable_atShutdown : Reachable dbQueue atShutdown :=
  Reaches.of_run untilShutdown (.init (s := atStart shortStream) rfl) run_untilShutdown

theorem stops_after_overlapping :
    ∃ t, run dbQueue always atShutdown [.again, .complete 0, .snapshot, .driven] = some t ∧
      List.countP Action.isThread [.again, .complete 0, .snapshot, .driven] ≤ 1 + 0 + 7 ∧
        ((∀ a, a.isThread = true → t.step a = none) →
          t.main = .finished ∧ t.worker = .returned ∧
            (t.handled : Multiset InFlight) = atShutdown.accepted) := by
  have hready : atShutdown.AllReady := by
    intro item hmem
    rw [List.mem_singleton.mp hmem]
    exact ⟨1, by decide, rfl⟩
  have hrun : run dbQueue always atShutdown [.again, .complete 0, .snapshot, .driven] =
      some { atShutdown with worker := .moving, ready := [0, 0, 1, 0] } := by
    simp [run, dbQueue, State.step, always, atShutdown]
  exact ⟨_, hrun, stops_after reachable_atShutdown rfl hready hrun⟩

/-! ## A way to the end -/

/-- The steps the main thread has left before `worker.join`. -/
def State.untilJoining (s : State) : ℕ :=
  match s.main with
  | .awaiting => 2 * s.stream.length + 2
  | .pushing _ => 2 * s.stream.length + 3
  | .stopping => 1
  | .joining | .finished => 0

/-- Until then it has a step to take, whatever the worker does. -/
lemma State.step_untilJoining (s : State) (hmain : ¬(s.main = .joining ∨ s.main = .finished)) :
    ∃ a t, s.step a = some t ∧ t.untilJoining < s.untilJoining := by
  cases hcase : s.main with
  | awaiting =>
      refine ⟨.start false, ?_⟩
      rw [State.step, if_pos hcase]
      cases hstream : s.stream with
      | nil => exact ⟨_, rfl, by simp [State.untilJoining, hcase]⟩
      | cons req stream =>
          rw [awaitRequest]
          by_cases hop : req.op = .shutdown
          · simp only [if_pos hop]
            exact ⟨_, rfl, by simp [State.untilJoining, hcase]⟩
          · simp only [if_neg hop]
            refine ⟨_, rfl, ?_⟩
            simp only [State.untilJoining, hcase, hstream, List.length_cons]
            omega
  | pushing item =>
      refine ⟨.push, { s with main := .awaiting, inflight := s.inflight ++ [item] }, ?_, ?_⟩
      · rw [State.step, hcase]
      · simp [State.untilJoining, hcase]
  | stopping =>
      refine ⟨.stop, { s with main := .joining, shutdownRequested := true }, ?_, ?_⟩
      · rw [State.step, if_pos hcase]
      · simp [State.untilJoining, hcase]
  | joining => exact absurd (.inl hcase) hmain
  | finished => exact absurd (.inr hcase) hmain

/-- One step further in a run. -/
lemma reachable_step {s t : State} (hs : Reachable dbQueue s) {a : Action}
    (h : s.step a = some t) : Reachable dbQueue t :=
  Reaches.step hs trivial h

/-- **Nothing the program does makes the end unreachable.**  From every reachable state some run
ends with the main thread back from `worker.join` and every accepted request handled, each once. -/
theorem can_stop {s : State} (h : Reachable dbQueue s) :
    ∃ actions t, run dbQueue always s actions = some t ∧ t.main = .finished ∧
      t.worker = .returned ∧ (t.handled : Multiset InFlight) = t.accepted := by
  -- the main thread can get to `worker.join` on its own
  obtain ⟨actions, u, hrun, hu, hmain⟩ : ∃ actions u, run dbQueue always s actions = some u ∧
      Reachable dbQueue u ∧ (u.main = .joining ∨ u.main = .finished) := by
    refine exists_run (P := Reachable dbQueue)
      (Q := fun u => u.main = .joining ∨ u.main = .finished) State.untilJoining ?_ h
    intro u hu hmain
    obtain ⟨a, v, hstep, hlt⟩ := u.step_untilJoining hmain
    exact ⟨a, v, hstep, reachable_step hu hstep, hlt⟩
  -- and from there the worker can find every task ready
  obtain ⟨more, t, hmore, ⟨ht, -⟩, hfinished⟩ : ∃ more t, run dbQueue always u more = some t ∧
      (Reachable dbQueue t ∧ t.Stopped) ∧ t.main = .finished := by
    refine exists_run (P := fun v => Reachable dbQueue v ∧ v.Stopped)
      (Q := fun v => v.main = .finished) State.remaining ?_
      ⟨hu, (ordered_of_reachable hu).stopped hmain⟩
    rintro v ⟨hv, hstopped⟩ hgoing
    have hjoining := hstopped.main.resolve_right fun hfinished => hgoing hfinished.1
    obtain ⟨a, w, hthread, hstep, hmove⟩ := State.enabled_of_joining hjoining
    obtain ⟨hw, -, -, -, hle⟩ := hstopped.step hstep fun isReady ha _ _ => hmove isReady ha
    rw [hthread, Bool.toNat_true] at hle
    exact ⟨a, w, hstep, ⟨reachable_step hv hstep, hw⟩, hle⟩
  have hreturned := (ordered_of_reachable ht).finished hfinished
  have hhandled := (accounted_of_reachable ht).handled_of_returned hreturned
  refine ⟨actions ++ more, t, ?_, hfinished, hreturned, Multiset.coe_eq_coe.mpr hhandled⟩
  rw [run_append hrun more]
  exact hmore

theorem can_stop_atShutdown :
    ∃ actions t, run dbQueue always atShutdown actions = some t ∧ t.main = .finished ∧
      t.worker = .returned ∧ (t.handled : Multiset InFlight) = t.accepted :=
  can_stop reachable_atShutdown

end CBootstrap.DbQueue
