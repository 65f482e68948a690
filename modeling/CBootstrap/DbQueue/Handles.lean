import CBootstrap.DbQueue.Queue

/-!
# The handles the worker holds

The worker copies the raw handles of the in-flight futures under the lock and blocks on them
without it.  Meanwhile the main thread may push, and a push may move every element of `inflight`
to new storage.  A handle stays good all the same: moving hands it over and nulls the source, so
the object destroyed owns nothing, and only the worker, which is blocked, takes elements out.

`Traced` follows a run of the program together with what is destroyed in it: the old elements
when a vector grows, the last element when one is erased, and `completed` at the end of an
iteration of the worker.  `pending_owned` is the statement about every state in which the worker
is blocked.  It is about runs in which the driver returns a handle for every task
(`nonNullHandles`): a null future would put a null pointer into `pending`.
-/

namespace CBootstrap.DbQueue

open Transition

/-! ## What is destroyed -/

/-- A state, the elements of `inflight` at the worker's last snapshot, all of its last
`completed`, and the objects destroyed so far. -/
structure Traced where
  state : State
  snapshot : List InFlight
  batch : List InFlight
  destroyed : List InFlight

/-- The objects an action destroys.  `grows k` says whether a vector of `k` elements has to be
reallocated by the next `push_back`. -/
def Traced.destroys (t : Traced) (grows : ℕ → Bool) : Action → List InFlight
  | .push =>
      match t.state.main with
      | .pushing item =>
          (pushBack (grows t.state.inflight.length) t.state.inflight item).2 ++
            [item.moveConstruct.2]
      | _ => []
  | .move isReady =>
      (moveCompletedTrace isReady grows 0 ⟨t.state.inflight, [], [], []⟩).destroyed
  | .again => t.batch
  | .start _ | .stop | .join | .snapshot | .driven | .handle _ _ | .complete _ => []

/-- The snapshot after an action. -/
def Traced.snapshotAfter (t : Traced) : Action → List InFlight
  | .snapshot => t.state.inflight
  | _ => t.snapshot

/-- The worker's `completed` after an action. -/
def Traced.batchAfter (t : Traced) : Action → List InFlight
  | .move isReady => (moveCompleted isReady t.state.inflight).2
  | _ => t.batch

/-- One step. -/
def Traced.step (t : Traced) (a : Action × (ℕ → Bool)) : Option Traced :=
  match t.state.step a.1 with
  | none => none
  | some s =>
      some ⟨s, t.snapshotAfter a.1, t.batchAfter a.1, t.destroyed ++ t.destroys a.2 a.1⟩

/-- The runs of the program with everything they destroy. -/
def tracedQueue : System Traced (Action × (ℕ → Bool)) :=
  ⟨fun t => t.state.Initial ∧ t.snapshot = [] ∧ t.batch = [] ∧ t.destroyed = [], Traced.step⟩

/-- The driver returns a future for every task it starts. -/
def nonNullHandles (_ : Traced) (a : Action × (ℕ → Bool)) : Prop :=
  match a.1 with
  | .start null => null = false
  | _ => True

/-! ## What a step does to the handles -/

section Steps

variable {s s' : State} {a : Action}

/-- What was handled stays handled. -/
lemma Moves.handled_subset (h : Moves s a s') : s.handled ⊆ s'.handled := by
  cases h with
  | handle hworker => exact List.subset_append_left _ _
  | _ => exact List.Subset.refl _

/-- Tasks started with a handle have one. -/
lemma Moves.started (h : Moves s a s') (hnull : ∀ null, a = .start null → null = false)
    (hs : ∀ x ∈ s.accepted, x.fut ≠ none) : ∀ x ∈ s'.accepted, x.fut ≠ none := by
  cases h with
  | @accept null req stream item hmain hitem =>
      intro x hx
      rcases List.mem_append.mp hx with hx | hx
      · exact hs x hx
      · rw [List.mem_singleton.mp hx, hitem, hnull null rfl]
        simp
  | _ => exact hs

/-- The worker blocks on a fresh snapshot, or goes on blocking while `inflight` may grow. -/
lemma Moves.driving (h : Moves s a s') {pending : List (Option ℕ)}
    (hworker : s'.worker = .driving pending) :
    (a = .snapshot ∧ pending = s.inflight.map InFlight.fut ∧ s'.inflight = s.inflight) ∨
      (a ≠ .snapshot ∧ s.worker = .driving pending ∧ s.inflight <+: s'.inflight) := by
  cases h with
  | accept | receiveShutdown | stop | join | complete =>
      exact Or.inr ⟨by simp, hworker, List.prefix_refl _⟩
  | push => exact Or.inr ⟨by simp, hworker, List.prefix_append _ _⟩
  | snapshot => exact Or.inl ⟨rfl, (Worker.driving.inj hworker).symm, rfl⟩
  | _ => cases hworker

/-- What the worker has in hand is a fresh `completed`, or what is left of the last one. -/
lemma Moves.handling (h : Moves s a s') {completed : List InFlight}
    (hworker : s'.worker = .handling completed) :
    (∃ isReady, a = .move isReady ∧ completed = (moveCompleted isReady s.inflight).2) ∨
      ((∀ isReady, a ≠ .move isReady) ∧ ∃ before, s.worker = .handling before ∧
        ∀ x ∈ before, x ∈ completed ∨ x ∈ s'.handled) := by
  cases h with
  | accept | receiveShutdown | push | stop | join | complete =>
      exact Or.inr ⟨by simp, completed, hworker, fun x hx => Or.inl hx⟩
  | @move isReady =>
      left
      refine ⟨isReady, rfl, ?_⟩
      rw [moveCompleted_eq]
      exact (Worker.handling.inj hworker).symm
  | @handle err count item rest hbefore =>
      right
      refine ⟨by simp, item :: rest, hbefore, ?_⟩
      intro x hx
      rw [← Worker.handling.inj hworker]
      rcases List.mem_cons.mp hx with rfl | hx
      · exact Or.inr (List.mem_append_right _ (List.mem_singleton_self _))
      · exact Or.inl hx
  | _ => cases hworker

end Steps

/-! ## The invariant -/

/-- **The ownership invariant.**  Handles blocked on belong to a snapshot that is still at the
front of `inflight`; what is left to handle of a batch is in `completed`; and what has been
destroyed owned no future or had been handled. -/
structure Traced.Owned (t : Traced) : Prop where
  accounted : t.state.Accounted
  started : ∀ x ∈ t.state.accepted, x.fut ≠ none
  driving : ∀ pending, t.state.worker = .driving pending →
    pending = t.snapshot.map InFlight.fut ∧ t.snapshot <+: t.state.inflight
  batch : ∀ completed, t.state.worker = .handling completed →
    ∀ x ∈ t.batch, x ∈ completed ∨ x ∈ t.state.handled
  destroyed : ∀ x ∈ t.destroyed, x.fut = none ∨ x ∈ t.state.handled

/-- What a step destroys owns no future or has been handled. -/
lemma Traced.Owned.destroys {t : Traced} (ht : t.Owned) {s : State} {a : Action}
    (h : Moves t.state a s) (grows : ℕ → Bool) :
    ∀ x ∈ t.destroys grows a, x.fut = none ∨ x ∈ t.state.handled := by
  intro x hx
  cases h with
  | @push item hmain =>
      rw [Traced.destroys, hmain] at hx
      rcases List.mem_append.mp hx with hx | hx
      · exact Or.inl (pushBack_destroyed _ _ _ x hx).1
      · rw [List.mem_singleton.mp hx]
        exact Or.inl rfl
  | @move isReady =>
      have hnull :=
        (moveCompletedTrace_rest isReady grows [] t.state.inflight ⟨t.state.inflight, [], [], []⟩
          rfl (by simp)).2.2.2
      exact Or.inl (hnull x hx).1
  | again hworker =>
      rcases ht.batch [] hworker x hx with hx | hx
      · cases hx
      · exact Or.inr hx
  | _ => cases hx

/-- **A step keeps the invariant.** -/
lemma Traced.Owned.step {t t' : Traced} {a : Action × (ℕ → Bool)} (ht : t.Owned)
    (hnull : nonNullHandles t a) (h : t.step a = some t') : t'.Owned := by
  obtain ⟨a, grows⟩ := a
  rw [Traced.step] at h
  split at h
  · cases h
  next s hs =>
  have hmoves := State.step_moves hs
  cases h
  refine ⟨hmoves.accounted ht.accounted, ?_, ?_, ?_, ?_⟩
  · apply hmoves.started ?_ ht.started
    rintro null rfl
    exact hnull
  · intro pending hworker
    rcases hmoves.driving hworker with ⟨rfl, hpending, hinflight⟩ | ⟨hne, hbefore, hgrown⟩
    · refine ⟨hpending, ?_⟩
      show t.state.inflight <+: s.inflight
      rw [hinflight]
    · have hsame : t.snapshotAfter a = t.snapshot := by
        cases a with
        | snapshot => exact absurd rfl hne
        | _ => rfl
      obtain ⟨hpending, hfront⟩ := ht.driving pending hbefore
      show pending = (t.snapshotAfter a).map InFlight.fut ∧ t.snapshotAfter a <+: s.inflight
      rw [hsame]
      exact ⟨hpending, hfront.trans hgrown⟩
  · intro completed hworker x hx
    rcases hmoves.handling hworker with ⟨isReady, rfl, hcompleted⟩ | ⟨hne, before, hbefore, hleft⟩
    · left
      rw [hcompleted]
      exact hx
    · have hsame : t.batchAfter a = t.batch := by
        cases a with
        | move isReady => exact absurd rfl (hne isReady)
        | _ => rfl
      rw [hsame] at hx
      rcases ht.batch before hbefore x hx with hx | hx
      · exact hleft x hx
      · exact Or.inr (hmoves.handled_subset hx)
  · intro x hx
    have hbefore : x.fut = none ∨ x ∈ t.state.handled := by
      rcases List.mem_append.mp hx with hx | hx
      · exact ht.destroyed x hx
      · exact ht.destroys hmoves grows x hx
    exact hbefore.imp_right fun hx => hmoves.handled_subset hx

/-- The invariant holds in every state reached while every task has a handle. -/
lemma owned_of_reaches {t : Traced} (h : Reaches tracedQueue nonNullHandles t) : t.Owned := by
  refine Reaches.invariant (P := Traced.Owned) ?_ ?_ h
  · rintro t ⟨hinit, hsnapshot, hbatch, hdestroyed⟩
    refine ⟨accounted_of_initial hinit, ?_, ?_, ?_, by simp [hdestroyed]⟩
    all_goals
      rw [State.Initial] at hinit
      rw [hinit]
      simp
  · intro t a t' ht hnull hstep
    exact ht.step hnull hstep

/-! ## The handles in `pending` -/

/-- The futures owned in the four places are distinct. -/
lemma State.Accounted.futures_nodup {s : State} (hs : s.Accounted) :
    (s.places.filterMap InFlight.fut).Nodup := by
  apply (hs.places.filterMap InFlight.fut).nodup_iff.mp
  rw [hs.handles]
  exact List.nodup_range

/-- Each in-flight task has a handle. -/
lemma Traced.Owned.fut_ne_none {t : Traced} (ht : t.Owned) {x : InFlight}
    (hx : x ∈ t.state.inflight) : x.fut ≠ none := by
  apply ht.started x
  apply ht.accounted.places.mem_iff.mpr
  exact List.mem_append_right _ (List.mem_append_left _ hx)

/-- The handles owned in `inflight` are distinct, and none of them is owned by what has been
handled. -/
lemma Traced.Owned.inflight_nodup {t : Traced} (ht : t.Owned) :
    (t.state.inflight.filterMap InFlight.fut).Nodup ∧
      ∀ x ∈ t.state.inflight, ∀ y ∈ t.state.handled, y.fut ≠ x.fut := by
  have hnodup := ht.accounted.futures_nodup
  rw [State.places, List.filterMap_append, List.filterMap_append, List.filterMap_append] at hnodup
  have hrest := (List.nodup_append.mp hnodup).2.1
  obtain ⟨hinflight, -, hapart⟩ := List.nodup_append.mp hrest
  refine ⟨hinflight, ?_⟩
  intro x hx y hy hsame
  obtain ⟨handle, hhandle⟩ := Option.ne_none_iff_exists'.mp (ht.fut_ne_none hx)
  apply hapart handle (List.mem_filterMap.mpr ⟨x, hx, hhandle⟩) handle ?_ rfl
  exact List.mem_append_right _ (List.mem_filterMap.mpr ⟨y, hy, hsame.trans hhandle⟩)

/-- A handle given out once is owned by one element. -/
lemma countP_fut_eq_one {items : List InFlight} (hnodup : (items.filterMap InFlight.fut).Nodup)
    {handle : ℕ} (hmem : some handle ∈ items.map InFlight.fut) :
    items.countP (fun x => x.fut == some handle) = 1 := by
  rw [← List.count_filterMap]
  apply List.count_eq_one_of_mem hnodup
  obtain ⟨x, hx, hfut⟩ := List.mem_map.mp hmem
  exact List.mem_filterMap.mpr ⟨x, hx, hfut⟩

/-- **The handles the worker blocks on are good.**  In every state of every run, from the
snapshot until the runtime call returns: `pending` is the handles of the snapshot, each of them
once; and each of them is the handle of a future owned by exactly one element of `inflight`, and
that has not been destroyed. -/
theorem pending_owned {t : Traced} (h : Reaches tracedQueue nonNullHandles t)
    {pending : List (Option ℕ)} (hworker : t.state.worker = .driving pending) :
    pending = t.snapshot.map InFlight.fut ∧
      (∀ x ∈ t.snapshot, pending.count x.fut = 1) ∧
      ∀ p ∈ pending, ∃ handle, p = some handle ∧
        t.state.inflight.countP (fun x => x.fut == some handle) = 1 ∧
        ∀ x ∈ t.destroyed, x.fut ≠ some handle := by
  have ht := owned_of_reaches h
  obtain ⟨hpending, hfront⟩ := ht.driving pending hworker
  obtain ⟨hnodup, hapart⟩ := ht.inflight_nodup
  refine ⟨hpending, ?_, ?_⟩
  · intro x hx
    obtain ⟨handle, hhandle⟩ := Option.ne_none_iff_exists'.mp (ht.fut_ne_none (hfront.subset hx))
    have hone : t.snapshot.countP (fun y => y.fut == some handle) = 1 := by
      apply countP_fut_eq_one (hnodup.sublist (hfront.sublist.filterMap InFlight.fut))
      rw [← hhandle]
      exact List.mem_map_of_mem hx
    rw [hpending, hhandle, List.count, List.countP_map]
    exact hone
  · intro p hp
    rw [hpending] at hp
    obtain ⟨x, hx, rfl⟩ := List.mem_map.mp hp
    have hx := hfront.subset hx
    obtain ⟨handle, hhandle⟩ := Option.ne_none_iff_exists'.mp (ht.fut_ne_none hx)
    refine ⟨handle, hhandle, countP_fut_eq_one hnodup ?_, ?_⟩
    · rw [← hhandle]
      exact List.mem_map_of_mem hx
    · intro y hy hsame
      rcases ht.destroyed y hy with hnull | hhandled
      · rw [hnull] at hsame
        cases hsame
      · exact hapart x hx y hhandled (hsame.trans hhandle.symm)

instance (t : Traced) : (a : Action × (ℕ → Bool)) → Decidable (nonNullHandles t a)
  | (.start null, _) => inferInstanceAs (Decidable (null = false))
  | (.push, _) | (.stop, _) | (.join, _) | (.snapshot, _) | (.driven, _) | (.move _, _)
  | (.handle _ _, _) | (.again, _) | (.complete _, _) => isTrue trivial

/-- The worker blocks on the first task while the main thread pushes the second, and the push
moves the first to new storage. -/
def pushWhileBlocked : List (Action × (ℕ → Bool)) :=
  [(.start false, fun _ => true), (.push, fun _ => true), (.snapshot, fun _ => true),
    (.start false, fun _ => true), (.push, fun _ => true)]

/-- The state the worker is then blocked in. -/
def blocked : Traced where
  state :=
    { atStart shortStream with
      stream := [⟨.shutdown, 0, none⟩]
      worker := .driving [some 0]
      inflight := [⟨⟨.insert, 50, some 0⟩, some 0⟩, ⟨⟨.count, 0, some 1⟩, some 1⟩]
      nextHandle := 2
      accepted := [⟨⟨.insert, 50, some 0⟩, some 0⟩, ⟨⟨.count, 0, some 1⟩, some 1⟩] }
  snapshot := [⟨⟨.insert, 50, some 0⟩, some 0⟩]
  batch := []
  destroyed :=
    [⟨⟨.insert, 50, none⟩, none⟩, ⟨⟨.insert, 50, none⟩, none⟩, ⟨⟨.count, 0, none⟩, none⟩]

lemma run_pushWhileBlocked :
    run tracedQueue nonNullHandles ⟨atStart shortStream, [], [], []⟩ pushWhileBlocked =
      some blocked := rfl

theorem blocked_owned :
    Reaches tracedQueue nonNullHandles blocked ∧ blocked.state.worker = .driving [some 0] ∧
      blocked.state.inflight.countP (fun x => x.fut == some 0) = 1 ∧
      ∀ x ∈ blocked.destroyed, x.fut ≠ some 0 := by
  have hstart : Reaches tracedQueue nonNullHandles ⟨atStart shortStream, [], [], []⟩ :=
    .init ⟨rfl, rfl, rfl, rfl⟩
  have hend := hstart.of_run pushWhileBlocked run_pushWhileBlocked
  obtain ⟨-, -, howned⟩ := @pending_owned blocked hend [some 0] rfl
  obtain ⟨handle, hhandle, hcount, hdestroyed⟩ := howned (some 0) (List.mem_singleton_self _)
  cases hhandle
  exact ⟨hend, rfl, hcount, hdestroyed⟩

end CBootstrap.DbQueue
