import CBootstrap.Lib.Transition
import Mathlib.Data.List.Perm.Basic
import Mathlib.Tactic.Common

/-!
# Warming up a client pool

`client_pool_warmup` of `minpoolsize/main.c` pops a client to discover the servers, pushes it
back, and then pops `num_clients` clients and pings every server on each of them.  It gives up at
the first ping that fails.  All exits share one clean-up loop, which pushes back what it finds in
`clients` up to the first slot that is still null.

The driver is outside the repository, so `Env` says what it answers: which client each pop
returns, how each ping ends, and which servers are discovered.  `mongoc_client_pool_pop` blocks
while as many clients as the pool may have are checked out; nobody else pushes here, so it would
block for ever, and the warm-up would not return.  In the model it has no result then.

`poolLedger` is what a pool expects of its user: a client is used and pushed back only while it
is held, and fewer than the maximum are held at each pop.  `clientPoolWarmup_spec` says that
every warm-up returns, and that the ledger accepts all of it and is empty at the end.
-/

namespace CBootstrap.Minpoolsize

open Transition

/-! ## The pool, from outside -/

/-- What the driver answers; a client is a pointer. -/
structure Env where
  /-- The pool's maximum size.  The driver raises a smaller one to one. -/
  maxSize : ℕ
  maxSize_pos : 0 < maxSize
  /-- What the `n`-th pop returns. -/
  pop : ℕ → Option ℕ
  /-- Whether the `n`-th ping succeeds. -/
  ping : ℕ → Bool
  /-- The ids of the discovered servers. -/
  serverIds : List ℕ

/-- A call made to the driver. -/
inductive Event
  | pop (client : Option ℕ)
  | push (client : Option ℕ)
  /-- `mongoc_client_command_simple`. -/
  | ping (client : Option ℕ) (ok : Bool)
  /-- `mongoc_client_command_simple_with_server_id`. -/
  | pingServer (client : Option ℕ) (serverId : ℕ) (ok : Bool)
  deriving DecidableEq, Repr

/-- How many clients are checked out, how many calls of each kind there were, and all calls. -/
structure World where
  out : ℕ
  pops : ℕ
  pings : ℕ
  trace : List Event

/-- `mongoc_client_pool_pop`, `none` where it blocks for ever. -/
def World.pop (w : World) (env : Env) : Option (Option ℕ × World) :=
  if w.out < env.maxSize then
    let client := env.pop w.pops
    some (client, ⟨w.out + 1, w.pops + 1, w.pings, w.trace ++ [.pop client]⟩)
  else none

/-- `mongoc_client_pool_push`. -/
def World.push (w : World) (client : Option ℕ) : World :=
  { w with out := w.out - 1, trace := w.trace ++ [.push client] }

/-- `mongoc_client_command_simple`. -/
def World.ping (w : World) (env : Env) (client : Option ℕ) : Bool × World :=
  (env.ping w.pings,
    { w with pings := w.pings + 1, trace := w.trace ++ [.ping client (env.ping w.pings)] })

/-- `mongoc_client_command_simple_with_server_id`. -/
def World.pingServer (w : World) (env : Env) (client : Option ℕ) (serverId : ℕ) : Bool × World :=
  (env.ping w.pings,
    { w with
      pings := w.pings + 1
      trace := w.trace ++ [.pingServer client serverId (env.ping w.pings)] })

/-! ## The warm-up -/

/-- The inner `for` loop: ping each known server; `false` where it goes to `done`. -/
def pingServers (env : Env) (client : Option ℕ) : List ℕ → World → Bool × World
  | [], w => (true, w)
  | serverId :: serverIds, w =>
      let (ok, w) := w.pingServer env client serverId
      if !ok then (false, w) else pingServers env client serverIds w

/-- The outer `for` loop from the index `i` on, with `n` turns to go: `ok`, and `clients`. -/
def warmClients (env : Env) :
    ℕ → ℕ → List (Option ℕ) → World → Option (Bool × List (Option ℕ) × World)
  | 0, _, clients, w => some (true, clients, w)
  | n + 1, i, clients, w =>
      match w.pop env with
      | none => none
      | some (client, w) =>
          let clients := clients.set i client
          let (ok, w) := pingServers env client env.serverIds w
          if !ok then some (false, clients, w) else warmClients env n (i + 1) clients w

/-- The loop behind `done`: push back the clients up to the first null slot. -/
def pushClients : List (Option ℕ) → World → World
  | [], w => w
  | none :: _, w => w
  | some client :: clients, w => pushClients clients (w.push (some client))

/-- `client_pool_warmup` on a pool that nobody else uses: what it returns, and the calls it made;
`none` if it does not return. -/
def clientPoolWarmup (env : Env) (numClients : ℕ) : Option (Bool × World) :=
  let clients : List (Option ℕ) := List.replicate numClients none
  match World.pop ⟨0, 0, 0, []⟩ env with
  | none => none
  | some (client, w) =>
      let (ok, w) := w.ping env client
      let w := w.push client
      if !ok then some (false, pushClients clients w)
      else
        match warmClients env numClients 0 clients w with
        | none => none
        | some (ok, clients, w) => some (ok, pushClients clients w)

/-! ## What a pool expects -/

/-- The ledger of a pool: the clients held, in the order in which they were popped. -/
def poolLedger (maxSize : ℕ) : System (List (Option ℕ)) Event where
  init held := held = []
  step held
    | .pop client =>
        if client ∉ held ∧ held.length < maxSize then some (held ++ [client]) else none
    | .push client => if client ∈ held then some (held.erase client) else none
    | .ping client _ => if client ∈ held then some held else none
    | .pingServer client _ _ => if client ∈ held then some held else none

/-- The clients popped. -/
def popped (trace : List Event) : List (Option ℕ) :=
  trace.filterMap fun
    | .pop client => some client
    | _ => none

/-- The clients pushed back. -/
def pushed (trace : List Event) : List (Option ℕ) :=
  trace.filterMap fun
    | .push client => some client
    | _ => none

/-- How the pings ended. -/
def outcomes (trace : List Event) : List Bool :=
  trace.filterMap fun
    | .ping _ ok => some ok
    | .pingServer _ _ ok => some ok
    | _ => none

/-- Which client pinged which server. -/
def serverPings (trace : List Event) : List (Option ℕ × ℕ) :=
  trace.filterMap fun
    | .pingServer client serverId _ => some (client, serverId)
    | _ => none

/-- The pings of a client. -/
def pingsOf (env : Env) (client : Option ℕ) : List (Option ℕ × ℕ) :=
  env.serverIds.map fun serverId => (client, serverId)

/-- The clients the `n` pops from the `i`-th on return. -/
def clientsFrom (env : Env) (i n : ℕ) : List (Option ℕ) := (List.range' i n).map env.pop

/-- What one call does to the ledger. -/
lemma popped_step {maxSize : ℕ} {e : Event} {held held' : List (Option ℕ)}
    (h : (poolLedger maxSize).step held e = some held') :
    (held ++ popped [e]).Perm (held' ++ pushed [e]) := by
  cases e with
  | pop client =>
      simp only [poolLedger] at h
      split_ifs at h
      cases h
      simp [popped, pushed]
  | push client =>
      simp only [poolLedger] at h
      split_ifs at h with hheld
      cases h
      show (held ++ []).Perm (held.erase client ++ [client])
      rw [List.append_nil]
      exact (List.perm_cons_erase hheld).trans (List.perm_append_singleton _ _).symm
  | ping client ok | pingServer client serverId ok =>
      simp only [poolLedger] at h
      split_ifs at h
      cases h
      simp [popped, pushed]

/-- A ledger that accepts a trace has in hand what was popped and not pushed back. -/
lemma popped_perm {maxSize : ℕ} {trace : List Event} {held held' : List (Option ℕ)}
    (h : run (poolLedger maxSize) always held trace = some held') :
    (held ++ popped trace).Perm (held' ++ pushed trace) := by
  induction trace generalizing held with
  | nil =>
      cases h
      exact List.Perm.refl _
  | cons e trace ih =>
      obtain ⟨-, middle, hstep, hrest⟩ := run_cons_eq_some.mp h
      have hhead := (popped_step hstep).append_right (popped trace)
      have htail := (ih hrest).append_left (pushed [e])
      have hpopped : popped (e :: trace) = popped [e] ++ popped trace :=
        List.filterMap_append (l := [e])
      have hpushed : pushed (e :: trace) = pushed [e] ++ pushed trace :=
        List.filterMap_append (l := [e])
      rw [hpopped, hpushed, ← List.append_assoc]
      rw [List.append_assoc middle] at hhead
      calc (held ++ popped [e] ++ popped trace).Perm
            (middle ++ (pushed [e] ++ popped trace)) := hhead
        List.Perm _ (pushed [e] ++ (middle ++ popped trace)) := List.perm_append_comm_assoc _ _ _
        List.Perm _ (pushed [e] ++ (held' ++ pushed trace)) := htail
        List.Perm _ (held' ++ (pushed [e] ++ pushed trace)) := List.perm_append_comm_assoc _ _ _

/-! ## Along the warm-up -/

/-- **The invariant**: the pool's ledger has accepted every call and holds `held`, and the pings
so far are the discovery and `pinged`, with the outcomes the driver gave in that order. -/
structure InStep (env : Env) (held : List (Option ℕ)) (pinged : List (Option ℕ × ℕ)) (w : World) :
    Prop where
  out : w.out = held.length
  ledger : run (poolLedger env.maxSize) always [] w.trace = some held
  pings : w.pings = pinged.length + 1
  outcomes : outcomes w.trace = (List.range w.pings).map env.ping
  serverPings : serverPings w.trace = pinged

/-- All pings so far succeeded. -/
def Clean (env : Env) (w : World) : Prop := ∀ j < w.pings, env.ping j = true

/-- The last ping failed, and it was the first to fail. -/
def Stopped (env : Env) (w : World) : Prop :=
  ∃ k, w.pings = k + 1 ∧ env.ping k = false ∧ ∀ j < k, env.ping j = true

section Steps

variable {env : Env} {held : List (Option ℕ)} {pinged : List (Option ℕ × ℕ)} {w : World}

/-- A pop that does not block. -/
lemma InStep.pop (hw : InStep env held pinged w) (hroom : held.length < env.maxSize)
    (hnew : env.pop w.pops ∉ held) :
    ∃ w', w.pop env = some (env.pop w.pops, w') ∧ w'.pops = w.pops + 1 ∧ w'.pings = w.pings ∧
      InStep env (held ++ [env.pop w.pops]) pinged w' := by
  refine ⟨_, if_pos (by rw [hw.out]; exact hroom), rfl, rfl, ?_, ?_, hw.pings, ?_, ?_⟩
  · rw [List.length_append, List.length_singleton, ← hw.out]
  · show run (poolLedger env.maxSize) always [] (w.trace ++ [.pop (env.pop w.pops)]) = _
    rw [run_append hw.ledger]
    apply run_cons_eq_some.mpr
    exact ⟨trivial, _, if_pos ⟨hnew, hroom⟩, rfl⟩
  · simpa [Minpoolsize.outcomes] using hw.outcomes
  · simpa [Minpoolsize.serverPings] using hw.serverPings

/-- A ping of a held client. -/
lemma InStep.pingServer (hw : InStep env held pinged w) {client : Option ℕ} (hc : client ∈ held)
    (serverId : ℕ) :
    InStep env held (pinged ++ [(client, serverId)]) (w.pingServer env client serverId).2 := by
  refine ⟨hw.out, ?_, ?_, ?_, ?_⟩
  · show run (poolLedger env.maxSize) always []
      (w.trace ++ [.pingServer client serverId (env.ping w.pings)]) = _
    rw [run_append hw.ledger]
    apply run_cons_eq_some.mpr
    exact ⟨trivial, _, if_pos hc, rfl⟩
  · show w.pings + 1 = _
    rw [hw.pings, List.length_append, List.length_singleton]
  · show Minpoolsize.outcomes (w.trace ++ [.pingServer client serverId (env.ping w.pings)]) =
      (List.range (w.pings + 1)).map env.ping
    rw [Minpoolsize.outcomes, List.filterMap_append, List.range_succ, List.map_append,
      ← hw.outcomes]
    rfl
  · show Minpoolsize.serverPings (w.trace ++ [.pingServer client serverId (env.ping w.pings)]) = _
    rw [Minpoolsize.serverPings, List.filterMap_append, ← hw.serverPings]
    rfl

/-- Pushing back the first of the held clients. -/
lemma InStep.push {client : Option ℕ} (hw : InStep env (client :: held) pinged w) :
    InStep env held pinged (w.push client) := by
  refine ⟨?_, ?_, hw.pings, ?_, ?_⟩
  · show w.out - 1 = held.length
    rw [hw.out, List.length_cons, Nat.add_sub_cancel]
  · show run (poolLedger env.maxSize) always [] (w.trace ++ [.push client]) = _
    rw [run_append hw.ledger]
    apply run_cons_eq_some.mpr
    refine ⟨trivial, held, ?_, rfl⟩
    show (if client ∈ client :: held then some ((client :: held).erase client) else none) = _
    rw [if_pos List.mem_cons_self, List.erase_cons_head]
  · simpa [World.push, Minpoolsize.outcomes] using hw.outcomes
  · simpa [World.push, Minpoolsize.serverPings] using hw.serverPings

end Steps

/-! ## The loops -/

/-- What a loop that was to make the pings `planned` has come to: all of them, or those up to the
first that failed. -/
def Came (env : Env) (planned more : List (Option ℕ × ℕ)) (ok : Bool) (w : World) : Prop :=
  (ok = true ∧ more = planned ∧ Clean env w) ∨ (ok = false ∧ more <+: planned ∧ Stopped env w)

/-- **The inner loop.** -/
lemma pingServers_inStep {env : Env} {held : List (Option ℕ)} {client : Option ℕ}
    (hc : client ∈ held) (serverIds : List ℕ) {pinged : List (Option ℕ × ℕ)} {w : World}
    (hw : InStep env held pinged w) (hclean : Clean env w) :
    ∃ ok w' more, pingServers env client serverIds w = (ok, w') ∧ w'.pops = w.pops ∧
      InStep env held (pinged ++ more) w' ∧
      Came env (serverIds.map fun serverId => (client, serverId)) more ok w' := by
  induction serverIds generalizing pinged w with
  | nil =>
      refine ⟨true, w, [], rfl, rfl, ?_, Or.inl ⟨rfl, rfl, hclean⟩⟩
      rw [List.append_nil]
      exact hw
  | cons serverId serverIds ih =>
      have hnext := hw.pingServer hc serverId
      rw [pingServers]
      cases hping : env.ping w.pings with
      | false =>
          refine ⟨false, (w.pingServer env client serverId).2, [(client, serverId)], ?_, rfl,
            hnext, Or.inr ⟨rfl, List.prefix_append [_] _, w.pings, rfl, hping, hclean⟩⟩
          simp [World.pingServer, hping]
      | true =>
          have hclean' : Clean env (w.pingServer env client serverId).2 := by
            intro j hj
            rcases Nat.lt_succ_iff_lt_or_eq.mp hj with hj | rfl
            · exact hclean j hj
            · exact hping
          obtain ⟨ok, w', more, hloop, hpops, hin, hcame⟩ := ih hnext hclean'
          refine ⟨ok, w', (client, serverId) :: more, ?_, hpops, ?_, ?_⟩
          · simpa [World.pingServer, hping] using hloop
          · rw [List.append_assoc] at hin
            exact hin
          · rcases hcame with ⟨hok, rfl, hend⟩ | ⟨hok, hmore, hend⟩
            · exact Or.inl ⟨hok, rfl, hend⟩
            · exact Or.inr ⟨hok, (List.prefix_cons_inj _).mpr hmore, hend⟩

/-- The pops of the warm-up return clients, and no client that is held. -/
structure DistinctClients (env : Env) (numClients : ℕ) : Prop where
  nonNull : ∀ n ≤ numClients, env.pop n ≠ none
  distinct : ∀ i < numClients, ∀ j < numClients, env.pop (i + 1) = env.pop (j + 1) → i = j

/-- The client popped next is not among those popped before. -/
lemma DistinctClients.pop_notMem {env : Env} {numClients i : ℕ}
    (h : DistinctClients env numClients) (hi : i < numClients) :
    env.pop (i + 1) ∉ clientsFrom env 1 i := by
  intro hmem
  obtain ⟨j, hj, hsame⟩ := List.mem_map.mp hmem
  obtain ⟨k, hk, rfl⟩ := List.mem_range'.mp hj
  have heq : 1 + 1 * k = k + 1 := by omega
  rw [heq] at hsame
  have := h.distinct k (by omega) i hi hsame
  omega

lemma clientsFrom_succ (env : Env) (i n : ℕ) :
    clientsFrom env i (n + 1) = env.pop i :: clientsFrom env (i + 1) n := rfl

lemma clientsFrom_concat (env : Env) (i : ℕ) :
    clientsFrom env 1 i ++ [env.pop (i + 1)] = clientsFrom env 1 (i + 1) := by
  rw [clientsFrom, clientsFrom, List.range'_concat, List.map_append, List.map_singleton,
    Nat.one_mul, Nat.add_comm 1 i]

/-- **The outer loop**, with `i` clients warmed up and `n` to go: the slots from the first null
one on have not been reached. -/
lemma warmClients_inStep {env : Env} {numClients : ℕ} (hclients : DistinctClients env numClients)
    (hmax : numClients ≤ env.maxSize) (n : ℕ) {i : ℕ} (hn : i + n = numClients)
    {pinged : List (Option ℕ × ℕ)} {w : World} (hw : InStep env (clientsFrom env 1 i) pinged w)
    (hpops : w.pops = i + 1) (hclean : Clean env w) :
    ∃ ok k m w' more,
      warmClients env n i (clientsFrom env 1 i ++ List.replicate n none) w =
        some (ok, clientsFrom env 1 k ++ List.replicate m none, w') ∧
      k ≤ numClients ∧ InStep env (clientsFrom env 1 k) (pinged ++ more) w' ∧
      Came env ((clientsFrom env (i + 1) n).flatMap (pingsOf env)) more ok w' := by
  induction n generalizing i pinged w with
  | zero =>
      refine ⟨true, i, 0, w, [], rfl, by omega, ?_, Or.inl ⟨rfl, rfl, hclean⟩⟩
      rw [List.append_nil]
      exact hw
  | succ n ih =>
      have hlen : (clientsFrom env 1 i).length = i := by simp [clientsFrom]
      have hnew : env.pop w.pops ∉ clientsFrom env 1 i := by
        rw [hpops]
        exact hclients.pop_notMem (by omega)
      obtain ⟨w₁, hpop, hpops₁, hpings₁, hw₁⟩ := hw.pop (by rw [hlen]; omega) hnew
      rw [hpops] at hpop hpops₁ hw₁
      -- the popped client goes into the first null slot
      have hset : (clientsFrom env 1 i ++ List.replicate (n + 1) none).set i (env.pop (i + 1)) =
          clientsFrom env 1 (i + 1) ++ List.replicate n none := by
        rw [List.set_append_right i _ (by omega), hlen, Nat.sub_self, List.replicate_succ,
          List.set_cons_zero, ← clientsFrom_concat, List.append_assoc, List.singleton_append]
      rw [clientsFrom_concat] at hw₁
      have hmem : env.pop (i + 1) ∈ clientsFrom env 1 (i + 1) := by
        rw [← clientsFrom_concat]
        simp
      have hclean₁ : Clean env w₁ := by
        intro j hj
        exact hclean j (by omega)
      obtain ⟨ok, w₂, more, hloop, hpops₂, hw₂, hcame⟩ :=
        pingServers_inStep hmem env.serverIds hw₁ hclean₁
      rw [warmClients, hpop]
      simp only [hset, hloop]
      rw [clientsFrom_succ env (i + 1) n, List.flatMap_cons]
      rcases hcame with ⟨rfl, rfl, hclean₂⟩ | ⟨rfl, hmore, hstopped⟩
      · obtain ⟨ok, k, m, w', rest, hrest, hk, hw', hcame'⟩ :=
          ih (by omega) hw₂ (by rw [hpops₂, hpops₁]) hclean₂
        refine ⟨ok, k, m, w', pingsOf env (env.pop (i + 1)) ++ rest, hrest, hk, ?_, ?_⟩
        · rw [← List.append_assoc]
          exact hw'
        · rcases hcame' with ⟨hok, rfl, hend⟩ | ⟨hok, hrest', hend⟩
          · exact Or.inl ⟨hok, rfl, hend⟩
          · exact Or.inr ⟨hok, (List.prefix_append_right_inj _).mpr hrest', hend⟩
      · exact ⟨false, i + 1, n, w₂, more, rfl, by omega, hw₂,
          Or.inr ⟨rfl, hmore.trans (List.prefix_append _ _), hstopped⟩⟩

/-- **The clean-up loop** pushes back all that is held, and nothing else. -/
lemma pushClients_inStep {env : Env} {held : List (Option ℕ)} (hheld : none ∉ held) (m : ℕ)
    {pinged : List (Option ℕ × ℕ)} {w : World} (hw : InStep env held pinged w) :
    InStep env [] pinged (pushClients (held ++ List.replicate m none) w) ∧
      (pushClients (held ++ List.replicate m none) w).pings = w.pings := by
  induction held generalizing w with
  | nil =>
      cases m with
      | zero => exact ⟨hw, rfl⟩
      | succ m => exact ⟨hw, rfl⟩
  | cons client held ih =>
      cases client with
      | none => exact absurd List.mem_cons_self hheld
      | some client =>
          have hrest := ih (fun h => hheld (List.mem_cons_of_mem _ h)) hw.push
          exact hrest

/-! ## The whole warm-up -/

/-- Every client on every server. -/
def schedule (env : Env) (numClients : ℕ) : List (Option ℕ × ℕ) :=
  (clientsFrom env 1 numClients).flatMap (pingsOf env)

lemma length_schedule (env : Env) (numClients : ℕ) :
    (schedule env numClients).length = numClients * env.serverIds.length := by
  have hflat : ∀ clients : List (Option ℕ),
      (clients.flatMap (pingsOf env)).length = clients.length * env.serverIds.length := by
    intro clients
    induction clients with
    | nil => simp
    | cons client clients ih =>
        rw [List.flatMap_cons, List.length_append, ih, List.length_cons, Nat.succ_mul, pingsOf,
          List.length_map, Nat.add_comm]
  rw [schedule, hflat, clientsFrom, List.length_map, List.length_range']

/-- What the warm-up promises about the calls it made and the value it returned. -/
structure WarmedUp (env : Env) (numClients : ℕ) (ok : Bool) (w : World) : Prop where
  /-- The pool accepts every call, and nothing is held at the end. -/
  ledger : run (poolLedger env.maxSize) always [] w.trace = some []
  /-- Every client popped was pushed back once, and no other. -/
  returned : (pushed w.trace).Perm (popped w.trace)
  /-- It succeeds exactly if the discovery and every planned ping succeed. -/
  ok_iff : ok = true ↔ env.ping 0 = true ∧
    ∀ k < numClients * env.serverIds.length, env.ping (k + 1) = true
  /-- Then each client has pinged each server, once. -/
  pinged : ok = true → serverPings w.trace = schedule env numClients
  /-- If it fails it has stopped at the first ping that failed. -/
  stopped : ok = false → serverPings w.trace <+: schedule env numClients ∧
    ∃ k, env.ping k = false ∧ (∀ j < k, env.ping j = true) ∧
      outcomes w.trace = (List.range (k + 1)).map env.ping

/-- The promise, from the invariant at the end. -/
lemma warmedUp_of_inStep {env : Env} {numClients : ℕ} {ok : Bool} {w : World}
    {more : List (Option ℕ × ℕ)} (hw : InStep env [] more w)
    (hcame : Came env (schedule env numClients) more ok w) : WarmedUp env numClients ok w := by
  have hreturned : (pushed w.trace).Perm (popped w.trace) := by
    simpa using (popped_perm hw.ledger).symm
  have hlength := length_schedule env numClients
  rcases hcame with ⟨rfl, rfl, hclean⟩ | ⟨rfl, hmore, k, hk, hfailed, hbefore⟩
  · refine ⟨hw.ledger, hreturned, ?_, fun _ => hw.serverPings, fun h => absurd h (by simp)⟩
    refine iff_of_true rfl ⟨hclean 0 ?_, fun k hk => hclean (k + 1) ?_⟩
    · rw [hw.pings]
      omega
    · rw [hw.pings, hlength]
      omega
  · refine ⟨hw.ledger, hreturned, ?_, fun h => absurd h (by simp),
      fun _ => ⟨?_, k, hfailed, hbefore, ?_⟩⟩
    · refine iff_of_false (by simp) ?_
      rintro ⟨hdiscovery, hall⟩
      have hle := hmore.length_le
      have hpings := hw.pings
      rcases k with _ | k
      · rw [hdiscovery] at hfailed
        cases hfailed
      · rw [hall k (by omega)] at hfailed
        cases hfailed
    · rw [hw.serverPings]
      exact hmore
    · rw [hw.outcomes, hk]

/-- The calls of the discovery; nothing is held after it. -/
def discovered (env : Env) : World :=
  ⟨0, 1, 1, [.pop (env.pop 0), .ping (env.pop 0) (env.ping 0), .push (env.pop 0)]⟩

lemma discovered_inStep (env : Env) : InStep env [] [] (discovered env) := by
  have hpos := env.maxSize_pos
  refine ⟨rfl, ?_, rfl, rfl, rfl⟩
  simp [discovered, poolLedger, always, run, hpos]

lemma clientPoolWarmup_eq (env : Env) (numClients : ℕ) :
    clientPoolWarmup env numClients =
      if env.ping 0 then
        match warmClients env numClients 0 (List.replicate numClients none) (discovered env) with
        | none => none
        | some (ok, clients, w) => some (ok, pushClients clients w)
      else some (false, pushClients (List.replicate numClients none) (discovered env)) := by
  have hpos := env.maxSize_pos
  rw [clientPoolWarmup, World.pop, if_pos hpos]
  cases hping : env.ping 0 with
  | false => simp [World.ping, World.push, discovered, hping]
  | true => simp [World.ping, World.push, discovered, hping]

/-- **Every warm-up returns, and cleans up.**  For every number of clients up to the pool's
maximum, every number of servers and every sequence of ping outcomes: every client popped is
pushed back exactly once and no other is; the result is `true` exactly if the discovery ping and
all pings of the schedule succeed, which are then all made, once each; and on failure the warm-up
stops at the first failed ping. -/
theorem clientPoolWarmup_spec {env : Env} {numClients : ℕ} (hmax : numClients ≤ env.maxSize)
    (hclients : DistinctClients env numClients) :
    ∃ ok w, clientPoolWarmup env numClients = some (ok, w) ∧ WarmedUp env numClients ok w := by
  have hstart := discovered_inStep env
  rw [clientPoolWarmup_eq]
  cases hping : env.ping 0 with
  | false =>
      obtain ⟨hw, hpings⟩ := pushClients_inStep (by simp) numClients hstart
      refine ⟨false, _, rfl, warmedUp_of_inStep hw ?_⟩
      exact Or.inr ⟨rfl, List.nil_prefix, 0, hpings, hping, by simp⟩
  | true =>
      have hclean : Clean env (discovered env) := by
        intro j hj
        rw [Nat.lt_one_iff.mp hj]
        exact hping
      obtain ⟨ok, k, m, w, more, hloop, hk, hw, hcame⟩ :=
        warmClients_inStep hclients hmax numClients (Nat.zero_add _) hstart rfl hclean
      have hnull : none ∉ clientsFrom env 1 k := by
        intro hmem
        obtain ⟨j, hj, hpop⟩ := List.mem_map.mp hmem
        obtain ⟨i, hi, rfl⟩ := List.mem_range'.mp hj
        exact hclients.nonNull (1 + 1 * i) (by omega) hpop
      obtain ⟨hend, hpings⟩ := pushClients_inStep hnull m hw
      refine ⟨ok, _, ?_, warmedUp_of_inStep hend ?_⟩
      · have hloop' : warmClients env numClients 0 (List.replicate numClients none)
            (discovered env) = _ := hloop
        rw [if_pos rfl, hloop']
      · rcases hcame with ⟨hok, hmore, hall⟩ | ⟨hok, hmore, n, hn, hfailed⟩
        · refine Or.inl ⟨hok, hmore, ?_⟩
          intro j hj
          exact hall j (hpings ▸ hj)
        · exact Or.inr ⟨hok, hmore, n, hpings.trans hn, hfailed⟩

/-- A pool of two clients, the first of which is also the one used for the discovery; the second
client's ping of the second server fails. -/
def failingPool : Env where
  maxSize := 2
  maxSize_pos := by decide
  pop n := some (n - 1)
  ping n := n ≠ 4
  serverIds := [7, 8]

theorem failingPool_warmedUp :
    2 ≤ failingPool.maxSize ∧ DistinctClients failingPool 2 ∧
      ∃ ok w, clientPoolWarmup failingPool 2 = some (ok, w) ∧ WarmedUp failingPool 2 ok w := by
  have hmax : 2 ≤ failingPool.maxSize := Nat.le_refl 2
  have hclients : DistinctClients failingPool 2 := by
    refine ⟨fun n _ => by simp [failingPool], ?_⟩
    intro i _ j _ hsame
    simpa [failingPool] using hsame
  exact ⟨hmax, hclients, clientPoolWarmup_spec hmax hclients⟩

end CBootstrap.Minpoolsize
