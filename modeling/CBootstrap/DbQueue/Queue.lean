import CBootstrap.DbQueue.Inflight
import CBootstrap.Lib.Bytes
import CBootstrap.Lib.Transition
import Mathlib.Data.Multiset.AddSub

/-!
# The two threads of `db-queue.cpp`

The main thread awaits requests, starts a task for each, and pushes request and future onto
`inflight`; the worker takes a snapshot of the handles, blocks on them, moves the completed tasks
out and handles them.  Every access to `inflight` and `shutdown_requested` is made under one
lock, so a locked block is one step, and between two such steps anything may happen: the other
thread takes steps, and tasks complete.  `cv.wait_for` gives up after ten milliseconds, so the
worker's next step never waits for the condition.

A request the main thread has accepted is in one of four places, and `accepted_accounted` says
so for every reachable state: it is being pushed, in `inflight`, in the worker's `completed`, or
handled.  The worker returns when `inflight` is empty and shutdown was requested; the main thread
requests it after its last push, so by then everything accepted has been handled.
-/

namespace CBootstrap.DbQueue

open Transition

/-! ## The state -/

/-- Where the main thread is. -/
inductive Main
  /-- In `await_request`. -/
  | awaiting
  /-- The task has been started; `item` is about to be pushed. -/
  | pushing (item : InFlight)
  /-- It has received a `Shutdown`. -/
  | stopping
  /-- In `worker.join`. -/
  | joining
  | finished
  deriving DecidableEq, Repr

/-- Where the worker thread is. -/
inductive Worker
  /-- At the top of its loop. -/
  | top
  /-- Driving the runtime, with the handles of its snapshot. -/
  | driving (pending : List (Option ℕ))
  /-- About to move the completed tasks out. -/
  | moving
  /-- Handling results; `completed` is what is left to handle. -/
  | handling (completed : List InFlight)
  | returned
  deriving DecidableEq, Repr

/-- The state of the program.  `accepted` and `handled` record what the threads have done; neither
thread reads them. -/
structure State where
  /-- What `await_request` has not returned yet. -/
  stream : List Request
  main : Main
  worker : Worker
  inflight : List InFlight
  shutdownRequested : Bool
  /-- The handles `mongoac_collection_insert_one_async` and `_count_documents_async` have given
  out are those below `nextHandle`. -/
  nextHandle : ℕ
  /-- The handles that are ready. -/
  ready : List ℕ
  /-- What `handle_result` has printed. -/
  output : List String
  accepted : List InFlight
  handled : List InFlight
  deriving DecidableEq, Repr

/-- What can happen. -/
inductive Action
  /-- `await_request` returns, and unless it is a `Shutdown` a task is started; `null` says
  whether the driver returned a null future for it. -/
  | start (null : Bool)
  /-- The main thread pushes the started task. -/
  | push
  /-- The main thread sets `shutdown_requested`. -/
  | stop
  /-- `worker.join` returns. -/
  | join
  /-- The worker takes its snapshot, or exits. -/
  | snapshot
  /-- The worker comes back from driving the runtime. -/
  | driven
  /-- The worker moves the completed tasks out; `isReady n` is the answer to the `n`-th
  question. -/
  | move (isReady : ℕ → Bool)
  /-- The worker handles the next result: the error message, and the count where there is one. -/
  | handle (err : Option String) (count : ℤ)
  /-- The worker has handled all of `completed`. -/
  | again
  /-- A task completes. -/
  | complete (handle : ℕ)

/-! ## The steps -/

/-- `await_request`: once the stream is exhausted, a `Shutdown`. -/
def awaitRequest : List Request → Request × List Request
  | [] => (⟨.shutdown, 0, none⟩, [])
  | req :: stream => (req, stream)

/-- The lines `handle_result` prints. -/
def handleResult (req : Request) (err : Option String) (count : ℤ) : List String :=
  match req.op, err with
  | .insert, none => ["[OK] insert " ++ toString req.value]
  | .insert, some message => ["[ERR] insert " ++ toString req.value ++ ": " ++ message]
  | .count, none => ["[OK] count -> " ++ toString count]
  | .count, some message => ["[ERR] count: " ++ message]
  | .shutdown, _ => []

/-- `isReady` answers yes where the future was ready before: once ready, it stays so. -/
def StaysReady (ready : List ℕ) (isReady : ℕ → Bool) (inflight : List InFlight) : Prop :=
  ∀ k < inflight.length, ∀ handle ∈ ready,
    inflight[k]?.bind InFlight.fut = some handle → isReady k = true

instance (ready : List ℕ) (isReady : ℕ → Bool) (inflight : List InFlight) :
    Decidable (StaysReady ready isReady inflight) := by
  unfold StaysReady
  infer_instance

/-- One step, `none` if the action is not enabled. -/
def State.step (s : State) : Action → Option State
  | .start null =>
      if s.main = .awaiting then
        let (req, stream) := awaitRequest s.stream
        if req.op = .shutdown then some { s with stream := stream, main := .stopping }
        else
          let item : InFlight := ⟨req, if null then none else some s.nextHandle⟩
          some { s with
            stream := stream
            main := .pushing item
            nextHandle := if null then s.nextHandle else s.nextHandle + 1
            accepted := s.accepted ++ [item] }
      else none
  | .push =>
      match s.main with
      | .pushing item => some { s with main := .awaiting, inflight := s.inflight ++ [item] }
      | _ => none
  | .stop =>
      if s.main = .stopping then some { s with main := .joining, shutdownRequested := true }
      else none
  | .join =>
      if s.main = .joining ∧ s.worker = .returned then some { s with main := .finished }
      else none
  | .snapshot =>
      if s.worker = .top then
        if s.inflight = [] ∧ s.shutdownRequested = true then some { s with worker := .returned }
        else some { s with worker := .driving (s.inflight.map InFlight.fut) }
      else none
  | .driven =>
      match s.worker with
      | .driving _ => some { s with worker := .moving }
      | _ => none
  | .move isReady =>
      if s.worker = .moving ∧ StaysReady s.ready isReady s.inflight then
        let (inflight, completed) := moveCompleted isReady s.inflight
        some { s with
          worker := .handling completed
          inflight := inflight
          ready := s.ready ++ completed.filterMap InFlight.fut }
      else none
  | .handle err count =>
      match s.worker with
      | .handling (item :: completed) =>
          some { s with
            worker := .handling completed
            output := s.output ++ handleResult item.req err count
            handled := s.handled ++ [item] }
      | _ => none
  | .again => if s.worker = .handling [] then some { s with worker := .top } else none
  | .complete handle =>
      if handle < s.nextHandle then some { s with ready := s.ready ++ [handle] } else none

/-- The program starts, with any stream of requests. -/
def State.Initial (s : State) : Prop :=
  s = ⟨s.stream, .awaiting, .top, [], false, 0, [], [], [], []⟩

/-- The runs of the program. -/
def dbQueue : System State Action := ⟨State.Initial, State.step⟩

/-! ## What a step can do -/

/-- The moves of the program, one for each way a step can go. -/
inductive Moves (s : State) : Action → State → Prop
  | accept {null req stream item} (hmain : s.main = .awaiting)
      (hitem : item = ⟨req, if null then none else some s.nextHandle⟩) :
      Moves s (.start null)
        { s with
          stream := stream
          main := .pushing item
          nextHandle := if null then s.nextHandle else s.nextHandle + 1
          accepted := s.accepted ++ [item] }
  | receiveShutdown {null stream} (hmain : s.main = .awaiting) :
      Moves s (.start null) { s with stream := stream, main := .stopping }
  | push {item} (hmain : s.main = .pushing item) :
      Moves s .push { s with main := .awaiting, inflight := s.inflight ++ [item] }
  | stop (hmain : s.main = .stopping) :
      Moves s .stop { s with main := .joining, shutdownRequested := true }
  | join (hmain : s.main = .joining) : Moves s .join { s with main := .finished }
  | exit (hworker : s.worker = .top) (hempty : s.inflight = [])
      (hshutdown : s.shutdownRequested = true) :
      Moves s .snapshot { s with worker := .returned }
  | snapshot (hworker : s.worker = .top) :
      Moves s .snapshot { s with worker := .driving (s.inflight.map InFlight.fut) }
  | driven {pending} (hworker : s.worker = .driving pending) :
      Moves s .driven { s with worker := .moving }
  | move {isReady} (hworker : s.worker = .moving)
      (hready : StaysReady s.ready isReady s.inflight) :
      Moves s (.move isReady)
        { s with
          worker := .handling (leave isReady 0 s.inflight)
          inflight := stay isReady 0 s.inflight
          ready := s.ready ++ (leave isReady 0 s.inflight).filterMap InFlight.fut }
  | handle {err count item completed} (hworker : s.worker = .handling (item :: completed)) :
      Moves s (.handle err count)
        { s with
          worker := .handling completed
          output := s.output ++ handleResult item.req err count
          handled := s.handled ++ [item] }
  | again (hworker : s.worker = .handling []) : Moves s .again { s with worker := .top }
  | complete {handle} (hstarted : handle < s.nextHandle) :
      Moves s (.complete handle) { s with ready := s.ready ++ [handle] }

lemma State.step_moves {s t : State} {a : Action} (h : s.step a = some t) : Moves s a t := by
  cases a with
  | start null =>
      rw [State.step] at h
      by_cases hmain : s.main = .awaiting
      swap
      · rw [if_neg hmain] at h
        cases h
      rw [if_pos hmain] at h
      generalize awaitRequest s.stream = awaited at h
      obtain ⟨req, stream⟩ := awaited
      simp only at h
      by_cases hop : req.op = .shutdown
      · rw [if_pos hop] at h
        cases h
        exact .receiveShutdown hmain
      · rw [if_neg hop] at h
        cases h
        exact .accept hmain rfl
  | push =>
      rw [State.step] at h
      split at h
      · next item hmain =>
        cases h
        exact .push hmain
      · cases h
  | stop =>
      rw [State.step] at h
      split_ifs at h with hmain
      cases h
      exact .stop hmain
  | join =>
      rw [State.step] at h
      split_ifs at h with hjoin
      cases h
      exact .join hjoin.1
  | snapshot =>
      rw [State.step] at h
      split_ifs at h with hworker hexit
      · cases h
        exact .exit hworker hexit.1 hexit.2
      · cases h
        exact .snapshot hworker
  | driven =>
      rw [State.step] at h
      split at h
      · next pending hworker =>
        cases h
        exact .driven hworker
      · cases h
  | move isReady =>
      rw [State.step, moveCompleted_eq] at h
      split_ifs at h with hmoving
      cases h
      exact .move hmoving.1 hmoving.2
  | handle err count =>
      rw [State.step] at h
      split at h
      · next item completed hworker =>
        cases h
        exact .handle hworker
      · cases h
  | again =>
      rw [State.step] at h
      split_ifs at h with hworker
      cases h
      exact .again hworker
  | complete handle =>
      rw [State.step] at h
      split_ifs at h with hstarted
      cases h
      exact .complete hstarted

/-! ## Where the requests are -/

/-- What the main thread is about to push. -/
def Main.item : Main → List InFlight
  | .pushing item => [item]
  | .awaiting | .stopping | .joining | .finished => []

/-- What is left of the worker's `completed`. -/
def Worker.completed : Worker → List InFlight
  | .handling completed => completed
  | .top | .driving _ | .moving | .returned => []

/-- The four places a request can be in. -/
def State.places (s : State) : List InFlight :=
  s.main.item ++ (s.inflight ++ (s.worker.completed ++ s.handled))

/-- **The invariant**: each accepted request is in one place, each future was given out once, and
shutdown is requested behind the last push and seen by the worker before it returns. -/
structure State.Accounted (s : State) : Prop where
  places : s.accepted.Perm s.places
  handles : s.accepted.filterMap InFlight.fut = List.range s.nextHandle
  ended : s.shutdownRequested = true → s.main.item = [] ∧ s.main ≠ .awaiting
  returned : s.worker = .returned → s.inflight = [] ∧ s.shutdownRequested = true

lemma accounted_of_initial {s : State} (h : s.Initial) : s.Accounted := by
  rw [State.Initial] at h
  rw [h]
  refine ⟨List.Perm.refl _, rfl, ?_, ?_⟩
  · intro hshutdown
    cases hshutdown
  · intro hworker
    cases hworker

/-- The worker goes on with the same requests in hand. -/
lemma State.Accounted.goOn {s : State} (hs : s.Accounted) {worker : Worker}
    (hcompleted : worker.completed = s.worker.completed)
    (hreturned : worker = .returned → s.inflight = [] ∧ s.shutdownRequested = true) :
    ({ s with worker := worker } : State).Accounted := by
  refine ⟨?_, hs.handles, hs.ended, hreturned⟩
  show s.accepted.Perm (s.main.item ++ (s.inflight ++ (worker.completed ++ s.handled)))
  rw [hcompleted]
  exact hs.places

/-- **A step keeps the invariant.** -/
lemma Moves.accounted {s t : State} {a : Action} (h : Moves s a t) (hs : s.Accounted) :
    t.Accounted := by
  have hplaces := hs.places
  rw [State.places] at hplaces
  cases h with
  | accept hmain hitem =>
      rw [hmain, Main.item, List.nil_append] at hplaces
      refine ⟨?_, ?_, ?_, hs.returned⟩
      · exact (List.perm_append_singleton _ _).trans (hplaces.cons _)
      · rw [List.filterMap_append, hs.handles, hitem]
        cases ‹Bool› with
        | true => simp
        | false => simp [List.range_succ]
      · intro hshutdown
        exact absurd hmain (hs.ended hshutdown).2
  | receiveShutdown hmain =>
      rw [hmain, Main.item] at hplaces
      exact ⟨hplaces, hs.handles, fun _ => ⟨rfl, by simp⟩, hs.returned⟩
  | push hmain =>
      rw [hmain, Main.item, List.singleton_append] at hplaces
      -- while an item is being pushed, shutdown has not been requested
      have hrunning : ¬s.shutdownRequested = true := by
        intro hshutdown
        have hitem := (hs.ended hshutdown).1
        rw [hmain, Main.item] at hitem
        cases hitem
      refine ⟨?_, hs.handles, fun hshutdown => absurd hshutdown hrunning, ?_⟩
      · rw [State.places, Main.item, List.nil_append, List.append_assoc, List.singleton_append]
        exact hplaces.trans List.perm_middle.symm
      · intro hworker
        exact absurd (hs.returned hworker).2 hrunning
  | stop hmain =>
      rw [hmain, Main.item] at hplaces
      exact ⟨hplaces, hs.handles, fun _ => ⟨rfl, by simp⟩, fun hworker =>
        ⟨(hs.returned hworker).1, rfl⟩⟩
  | join hmain =>
      rw [hmain, Main.item] at hplaces
      exact ⟨hplaces, hs.handles, fun _ => ⟨rfl, by simp⟩, hs.returned⟩
  | exit hworker hempty hshutdown =>
      exact hs.goOn (by rw [hworker]; rfl) fun _ => ⟨hempty, hshutdown⟩
  | snapshot hworker => exact hs.goOn (by rw [hworker]; rfl) fun h => by cases h
  | driven hworker => exact hs.goOn (by rw [hworker]; rfl) fun h => by cases h
  | @move isReady hworker hready =>
      rw [hworker, Worker.completed, List.nil_append] at hplaces
      refine ⟨?_, hs.handles, hs.ended, fun h => by cases h⟩
      have hsplit := stay_leave_perm isReady 0 s.inflight
      rw [State.places, Worker.completed, ← List.append_assoc (stay isReady 0 s.inflight)]
      exact hplaces.trans ((hsplit.symm.append_right s.handled).append_left s.main.item)
  | @handle err count item completed hworker =>
      rw [hworker, Worker.completed] at hplaces
      refine ⟨?_, hs.handles, hs.ended, fun h => by cases h⟩
      have hmoved : (item :: completed ++ s.handled).Perm (completed ++ (s.handled ++ [item])) := by
        rw [← List.append_assoc]
        exact (List.perm_append_singleton item _).symm
      exact hplaces.trans ((hmoved.append_left s.inflight).append_left s.main.item)
  | again hworker => exact hs.goOn (by rw [hworker]; rfl) fun h => by cases h
  | complete hstarted => exact ⟨hplaces, hs.handles, hs.ended, hs.returned⟩

/-- The invariant holds in every reachable state. -/
lemma accounted_of_reachable {s : State} (h : Reachable dbQueue s) : s.Accounted := by
  refine Reaches.invariant (P := State.Accounted) ?_ ?_ h
  · intro s hinit
    exact accounted_of_initial hinit
  · intro s a t hs _ hstep
    exact (State.step_moves hstep).accounted hs

/-- When the worker has returned, `handled` is the only place that is not empty. -/
lemma State.Accounted.handled_of_returned {s : State} (hs : s.Accounted)
    (hworker : s.worker = .returned) : s.handled.Perm s.accepted := by
  obtain ⟨hempty, hshutdown⟩ := hs.returned hworker
  have hplaces := hs.places
  rw [State.places, (hs.ended hshutdown).1, hempty, hworker, Worker.completed] at hplaces
  exact hplaces.symm

/-- An item that owns a future no other item owns occurs once. -/
lemma count_eq_one_of_fut {items : List InFlight} (hnodup : (items.filterMap InFlight.fut).Nodup)
    {item : InFlight} (hmem : item ∈ items) (hfut : item.fut ≠ none) : items.count item = 1 := by
  obtain ⟨handle, hhandle⟩ := Option.ne_none_iff_exists'.mp hfut
  have hpos := List.count_pos_iff.mpr hmem
  have hle : items.count item ≤ (items.filterMap InFlight.fut).count handle := by
    rw [List.count_filterMap, List.count]
    apply List.countP_mono_left
    intro x _ hx
    rw [eq_of_beq hx, hhandle]
    exact beq_self_eq_true _
  have hone := List.nodup_iff_count_le_one.mp hnodup handle
  omega

/-- **No request is lost and none is handled twice.**  In every reachable state the accepted
requests are, as a multiset, those being pushed, those in `inflight`, those in `completed` and
those handled, and no future is owned in two of these places.  Once the worker has returned they
have all been handled, each one once. -/
theorem accepted_accounted {s : State} (h : Reachable dbQueue s) :
    (s.accepted : Multiset InFlight) =
        ↑s.main.item + ↑s.inflight + ↑s.worker.completed + ↑s.handled ∧
      ((s.main.item ++ s.inflight ++ s.worker.completed ++ s.handled).filterMap
        InFlight.fut).Nodup ∧
      (s.worker = .returned →
        (s.handled : Multiset InFlight) = s.accepted ∧
          ∀ item ∈ s.accepted, item.fut ≠ none → s.handled.count item = 1) := by
  have hs := accounted_of_reachable h
  have hplaces :
      s.accepted.Perm (s.main.item ++ s.inflight ++ s.worker.completed ++ s.handled) := by
    rw [List.append_assoc, List.append_assoc]
    exact hs.places
  have hnodup : (s.accepted.filterMap InFlight.fut).Nodup := by
    rw [hs.handles]
    exact List.nodup_range
  refine ⟨?_, ?_, ?_⟩
  · rw [Multiset.coe_add, Multiset.coe_add, Multiset.coe_add]
    exact Multiset.coe_eq_coe.mpr hplaces
  · exact (hplaces.filterMap InFlight.fut).nodup_iff.mp hnodup
  · intro hworker
    have hall := hs.handled_of_returned hworker
    refine ⟨Multiset.coe_eq_coe.mpr hall, ?_⟩
    intro item hmem hfut
    rw [hall.count_eq]
    exact count_eq_one_of_fut hnodup hmem hfut

/-- Two requests and a shutdown. -/
def shortStream : List Request := [⟨.insert, 50, some 0⟩, ⟨.count, 0, some 1⟩, ⟨.shutdown, 0, none⟩]

/-- The state before `main` has taken a step. -/
def atStart (stream : List Request) : State :=
  ⟨stream, .awaiting, .top, [], false, 0, [], [], [], []⟩

/-- The second request is pushed and shutdown is requested while the worker handles the first. -/
def overlapping : List Action :=
  [.start false, .push, .snapshot, .start false, .complete 0, .driven, .move fun k => k == 0,
    .push, .start false, .handle none 0, .stop, .again, .snapshot, .driven, .move fun _ => false,
    .again, .snapshot, .driven, .move fun _ => true, .handle none 1, .again, .snapshot, .join]

/-- Its last state. -/
def atEnd : State where
  stream := []
  main := .finished
  worker := .returned
  inflight := []
  shutdownRequested := true
  nextHandle := 2
  ready := [0, 0, 1]
  output := ["[OK] insert 50", "[OK] count -> 1"]
  accepted := [⟨⟨.insert, 50, some 0⟩, some 0⟩, ⟨⟨.count, 0, some 1⟩, some 1⟩]
  handled := [⟨⟨.insert, 50, some 0⟩, some 0⟩, ⟨⟨.count, 0, some 1⟩, some 1⟩]

lemma run_overlapping : run dbQueue always (atStart shortStream) overlapping = some atEnd := by
  have hinsert : "[OK] insert " ++ Int.repr 50 = "[OK] insert 50" := by decide
  have hcount : "[OK] count -> " ++ Int.repr 1 = "[OK] count -> 1" := by decide
  simp [run, overlapping, dbQueue, State.step, moveCompleted_eq, stay, leave, atStart, shortStream,
    awaitRequest, always, StaysReady, handleResult, atEnd, hinsert, hcount]

theorem overlapping_accounted :
    Reachable dbQueue atEnd ∧ atEnd.worker = .returned ∧
      (atEnd.handled : Multiset InFlight) = atEnd.accepted ∧
        ∀ item ∈ atEnd.accepted, item.fut ≠ none → atEnd.handled.count item = 1 := by
  have hstart : Reachable dbQueue (atStart shortStream) := .init rfl
  have hend : Reachable dbQueue atEnd := hstart.of_run overlapping run_overlapping
  exact ⟨hend, rfl, (accepted_accounted hend).2.2 rfl⟩

end CBootstrap.DbQueue
