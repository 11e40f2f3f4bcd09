import CppDemo.Foundation.Calls
import CppDemo.Foundation.Transition

/-!
# Starting and stopping the server

`Start` tests `running_`, stores `true`, and then creates the two completion queues and the server.
`Stop` is called by the signal handler, on any thread and at any time. It tests `running_`, stores
`false`, cancels the sessions under `mutex_sessions_`, and shuts down the server and the queues. So
`running_` says two things, that the server is there and that nobody has stopped it, and neither is
true at the test of `Stop`: `Start` has stored `true` before there is anything to shut down, and two
calls of `Stop` can both see `true` before one of them stores.

One call of `Start` runs beside any number of calls of `Stop`. A call that is nested in another one,
or in `Start`, is one that makes its steps while the other makes none. The other threads of the
server only delay a call of `Stop` while they hold `mutex_sessions_`, and are left out.

Source: `grpcdemo/server_async.cc`, lines 173–189, 288–316 and 341–354.

## Main definitions

* `State`, `Action`, `step` : the calls of `Start` and `Stop`, and what they share.
* `State.ShutDownOnce` : every member is shut down at most once, after it has been assigned.
* `stopsInTurn` : the condition for it.

## Main results

* `shutDownOnce_of_run` : the property holds along the runs that meet the condition.
* `exists_not_shutDownOnce` : a step that does not meet the condition can be followed by a second
  shutdown, or by one of a server that has not been assigned.
-/

namespace CppDemo.Grpc.ServerAsync.Lifecycle

open Transition Calls

/-- The members that `Start` assigns and `Stop` shuts down. -/
inductive Member
  | server
  | cqConn
  | cqReadwrite
  deriving DecidableEq, Repr

/-- A call of `Shutdown` on a member, and whether the member had been assigned. -/
structure Shutdown where
  member : Member
  assigned : Bool
  deriving DecidableEq, Repr

/-- The place of the call of `Start`. -/
inductive StartPc
  /-- At `if (running_) return`. -/
  | test
  /-- Before `running_ = true`. -/
  | store
  /-- Before `cq_conn_` is assigned. -/
  | cqConn
  | cqReadwrite
  | server
  /-- Before the threads are started. -/
  | threads
  | returned
  deriving DecidableEq, Repr

/-- The place of a call of `Stop`. -/
inductive StopPc
  /-- At `if (!running_) return`. -/
  | test
  /-- Before `running_ = false`. -/
  | store
  /-- Before `mutex_sessions_` is locked. -/
  | lock
  /-- Cancelling the sessions, with `mutex_sessions_` held. -/
  | cancelling
  /-- Before `server_->Shutdown`. -/
  | server
  | cqConn
  | cqReadwrite
  | returned
  deriving DecidableEq, Repr

/-- What the calls share, and where they are. -/
structure State where
  running : Bool
  /-- The members that `Start` has assigned. -/
  assigned : List Member
  start : StartPc
  stops : List StopPc
  /-- The calls of `Shutdown` so far. -/
  shutdowns : List Shutdown

namespace State

def init : State where
  running := false
  assigned := []
  start := .test
  stops := []
  shutdowns := []

/-- Call `Shutdown` on a member. -/
def shutdown (s : State) (member : Member) : State :=
  { s with shutdowns := s.shutdowns ++ [⟨member, decide (member ∈ s.assigned)⟩] }

/-- One step of `Start`. -/
def startStep (s : State) : Option State :=
  match s.start with
  | .test => some { s with start := if s.running then .returned else .store }
  | .store => some { s with running := true, start := .cqConn }
  | .cqConn => some { s with assigned := s.assigned ++ [.cqConn], start := .cqReadwrite }
  | .cqReadwrite => some { s with assigned := s.assigned ++ [.cqReadwrite], start := .server }
  | .server => some { s with assigned := s.assigned ++ [.server], start := .threads }
  | .threads => some { s with start := .returned }
  | .returned => none

/-- One step of a call of `Stop`: where the call goes, and the state it leaves behind. -/
def stop (s : State) : StopPc → Option (StopPc × State)
  | .test => some (if s.running then .store else .returned, s)
  | .store => some (.lock, { s with running := false })
  | .lock => if .cancelling ∈ s.stops then none else some (.cancelling, s)
  | .cancelling => some (.server, s)
  | .server => some (.cqConn, s.shutdown .server)
  | .cqConn => some (.cqReadwrite, s.shutdown .cqConn)
  | .cqReadwrite => some (.returned, s.shutdown .cqReadwrite)
  | .returned => none

end State

/-- The steps of `Start`, the signals, and the steps of the calls of `Stop` that they start. -/
inductive Action
  | start
  | signal
  | stop (i : Nat)
  deriving DecidableEq, Repr

/-- One step, `none` when the action is not enabled. -/
def step (s : State) : Action → Option State
  | .start => s.startStep
  | .signal => some { s with stops := s.stops ++ [.test] }
  | .stop i =>
    s.stops[i]?.bind fun pc ↦ (s.stop pc).map fun r ↦ { r.2 with stops := r.2.stops.set i r.1 }

/-- Every member is shut down at most once, and only after it has been assigned. -/
structure State.ShutDownOnce (s : State) : Prop where
  once : (s.shutdowns.map Shutdown.member).Nodup
  assigned : ∀ d ∈ s.shutdowns, d.assigned = true

/-- A call of `Stop` passes its test only if no other is between its test and its store, and
`server_` has been assigned. -/
def stopsInTurn (s : State) : Action → Bool
  | .stop i =>
    !(s.stops[i]? = some .test && s.running) ||
      (decide (.store ∉ s.stops) && decide (.server ∈ s.assigned))
  | _ => true

/-! ### What a call of `Stop` does -/

/-- What a step of a call of `Stop` does. -/
inductive StopEffect (s : State) : StopPc → StopPc → State → Prop
  | refused (hrunning : s.running = false) : StopEffect s .test .returned s
  | passed (hrunning : s.running = true) : StopEffect s .test .store s
  | store : StopEffect s .store .lock { s with running := false }
  | lock (hfree : .cancelling ∉ s.stops) : StopEffect s .lock .cancelling s
  | unlock : StopEffect s .cancelling .server s
  | server : StopEffect s .server .cqConn (s.shutdown .server)
  | cqConn : StopEffect s .cqConn .cqReadwrite (s.shutdown .cqConn)
  | cqReadwrite : StopEffect s .cqReadwrite .returned (s.shutdown .cqReadwrite)

section Effect

variable {s t u : State} {a : Action} {pc pc' : StopPc} {i : Nat}

theorem effect_of_stop (h : s.stop pc = some (pc', u)) : StopEffect s pc pc' u := by
  cases pc with
  | test =>
    cases hrunning : s.running <;> simp only [State.stop, hrunning] at h <;> cases h
    · exact .refused hrunning
    · exact .passed hrunning
  | lock =>
    simp only [State.stop] at h
    split_ifs at h with hfree
    cases h
    exact .lock hfree
  | store => cases h; exact .store
  | cancelling => cases h; exact .unlock
  | server => cases h; exact .server
  | cqConn => cases h; exact .cqConn
  | cqReadwrite => cases h; exact .cqReadwrite
  | returned => simp [State.stop] at h

/-- A step of a call of `Stop` leaves `Start` and the other calls alone. -/
theorem StopEffect.frame (h : StopEffect s pc pc' u) :
    u.start = s.start ∧ u.assigned = s.assigned ∧ u.stops = s.stops := by
  cases h <;> exact ⟨rfl, rfl, rfl⟩

theorem step_stop (h : step s (.stop i) = some t) : ∃ pc pc' u, s.stops[i]? = some pc ∧
    StopEffect s pc pc' u ∧ t = { u with stops := s.stops.set i pc' } := by
  obtain ⟨pc, hpc, h⟩ := Option.bind_eq_some_iff.mp h
  obtain ⟨⟨pc', u⟩, hstop, rfl⟩ := Option.map_eq_some_iff.mp h
  have heffect := effect_of_stop hstop
  exact ⟨pc, pc', u, hpc, heffect, by rw [heffect.frame.2.2]⟩

end Effect

/-! ### The stages of the server -/

/-- The call has passed its test and not returned. -/
def StopPc.busy : StopPc → Bool
  | .test => false
  | .returned => false
  | _ => true

/-- What `Start` has done. -/
inductive Phase
  /-- It has not stored `running_`. -/
  | fresh
  /-- It has stored `running_` and not yet assigned `server_`. -/
  | building
  | built

def StartPc.phase : StartPc → Phase
  | .test | .store => .fresh
  | .cqConn | .cqReadwrite | .server => .building
  | .threads | .returned => .built

/-- The members that `Start` has assigned when it comes to a place. -/
def StartPc.assigned : StartPc → List Member
  | .test | .store | .cqConn => []
  | .cqReadwrite => [.cqConn]
  | .server => [.cqConn, .cqReadwrite]
  | .threads | .returned => [.cqConn, .cqReadwrite, .server]

/-- The shutdown sequence. -/
def shutdownSequence : List Shutdown :=
  [⟨.server, true⟩, ⟨.cqConn, true⟩, ⟨.cqReadwrite, true⟩]

/-- The stages of the server: before `Start` has stored `running_`, while it creates the server,
until somebody stops it, the steps of the one call that does, and after it. -/
inductive Stage : (running : Bool) → Phase → Option StopPc → List Shutdown → Prop
  | fresh : Stage false .fresh none []
  | building : Stage true .building none []
  | serving : Stage true .built none []
  | passed : Stage true .built (some .store) []
  | stored : Stage false .built (some .lock) []
  | cancelling : Stage false .built (some .cancelling) []
  | server : Stage false .built (some .server) []
  | cqConn : Stage false .built (some .cqConn) (shutdownSequence.take 1)
  | cqReadwrite : Stage false .built (some .cqReadwrite) (shutdownSequence.take 2)
  | done : Stage false .built none shutdownSequence

namespace Stage

variable {running : Bool} {phase : Phase} {sole : Option StopPc} {shutdowns : List Shutdown}

theorem isPrefix (h : Stage running phase sole shutdowns) : shutdowns <+: shutdownSequence := by
  cases h with
  | fresh | building | serving | passed | stored | cancelling | server => exact List.nil_prefix
  | cqConn | cqReadwrite => exact List.take_prefix _ _
  | done => exact List.prefix_refl _

/-- `Start` passes its test. -/
theorem running_of_fresh (h : Stage running .fresh sole shutdowns) : running = false := by
  cases h; rfl

theorem start (h : Stage running .fresh sole shutdowns) : Stage true .building sole shutdowns := by
  cases h; exact .building

theorem build (h : Stage running .building sole shutdowns) :
    Stage running .built sole shutdowns := by
  cases h; exact .serving

theorem pass (h : Stage true .built sole shutdowns) (hsole : sole ≠ some .store) :
    sole = none ∧ Stage true .built (some .store) shutdowns := by
  cases h with
  | serving => exact ⟨rfl, .passed⟩
  | passed => exact absurd rfl hsole

/-- Nobody cancels the sessions before `running_` is false. -/
theorem ne_cancelling (h : Stage true phase sole shutdowns) : sole ≠ some .cancelling := by
  cases h <;> simp

theorem built_of_busy {pc : StopPc} (h : Stage running phase (some pc) shutdowns) :
    phase = .built := by
  cases h <;> rfl

/-- The sole call goes on. -/
theorem advance {s u : State} {pc pc' : StopPc} (h : Stage s.running phase (some pc) s.shutdowns)
    (heffect : StopEffect s pc pc' u)
    (hshutdown : ∀ m, (s.shutdown m).shutdowns = s.shutdowns ++ [⟨m, true⟩]) :
    Stage u.running phase (if pc'.busy then some pc' else none) u.shutdowns := by
  obtain ⟨running, assigned, start, stops, shutdowns⟩ := s
  cases heffect with
  | refused | passed => cases h
  | store => cases h; exact .stored
  | lock => cases h; exact .cancelling
  | unlock => cases h; exact .server
  | server => rw [hshutdown]; cases h; exact .cqConn
  | cqConn => rw [hshutdown]; cases h; exact .cqReadwrite
  | cqReadwrite => rw [hshutdown]; cases h; exact .done

end Stage

/-- The server is in one of its stages, at most one call of `Stop` is busy, and the members have
been assigned in their order. -/
def State.Orderly (s : State) : Prop :=
  s.assigned = s.start.assigned ∧
    ∃ sole : Option StopPc, Sole StopPc.busy s.stops sole ∧
      Stage s.running s.start.phase sole s.shutdowns

section Orderly

variable {s t : State} {a : Action} {i : Nat}

theorem orderly_init : State.init.Orderly := ⟨rfl, none, rfl, .fresh⟩

theorem State.Orderly.shutDownOnce (hs : s.Orderly) : s.ShutDownOnce := by
  obtain ⟨-, sole, -, hstage⟩ := hs
  have hpre := hstage.isPrefix
  have hnodup : (shutdownSequence.map Shutdown.member).Nodup := by decide
  have hassigned : ∀ d ∈ shutdownSequence, d.assigned = true := by decide
  exact ⟨hnodup.sublist (hpre.sublist.map _), fun d hd ↦ hassigned d (hpre.subset hd)⟩

/-- `Start` makes a step. -/
theorem State.Orderly.startStep (hs : s.Orderly) (h : s.startStep = some t) : t.Orderly := by
  obtain ⟨running, assigned, start, stops, shutdowns⟩ := s
  obtain ⟨hassigned, sole, hsole, hstage⟩ := hs
  dsimp only at hassigned hsole hstage
  cases start with
  | test =>
    obtain rfl := hstage.running_of_fresh
    cases h
    exact ⟨hassigned, sole, hsole, hstage⟩
  | store =>
    cases h
    exact ⟨hassigned, sole, hsole, hstage.start⟩
  | cqConn | cqReadwrite =>
    cases h
    exact ⟨by rw [hassigned]; rfl, sole, hsole, hstage⟩
  | server =>
    cases h
    exact ⟨by rw [hassigned]; rfl, sole, hsole, hstage.build⟩
  | threads =>
    cases h
    exact ⟨hassigned, sole, hsole, hstage⟩
  | returned => simp [State.startStep] at h

/-- What `Start` has assigned when a call of `Stop` shuts a member down. -/
theorem shutdown_of_built {member : Member} (hassigned : s.assigned = s.start.assigned)
    (hbuilt : s.start.phase = .built) :
    (s.shutdown member).shutdowns = s.shutdowns ++ [⟨member, true⟩] := by
  have hmem : member ∈ s.assigned := by
    rw [hassigned]
    cases hpc : s.start with
    | test | store | cqConn | cqReadwrite | server => simp [hpc, StartPc.phase] at hbuilt
    | threads | returned => cases member <;> decide
  simp only [State.shutdown, hmem, decide_true]

/-- `Start` assigns `server_` last. -/
theorem built_of_mem (hrunning : s.running = true) {sole : Option StopPc}
    (hassigned : s.assigned = s.start.assigned)
    (hstage : Stage s.running s.start.phase sole s.shutdowns) :
    .server ∈ s.assigned ↔ s.start.phase = .built := by
  rw [hassigned]
  cases hpc : s.start with
  | test | store =>
    rw [hpc, hrunning] at hstage
    exact absurd hstage.running_of_fresh (by simp)
  | cqConn | cqReadwrite | server | threads | returned => simp [StartPc.assigned, StartPc.phase]

/-- A busy call of `Stop` goes on. -/
theorem State.Orderly.of_busy (hs : s.Orderly) {pc pc' : StopPc} {rest : Multiset StopPc}
    (hstops : (s.stops : Multiset StopPc) = pc ::ₘ rest) (hpc : pc.busy = true)
    (heffect : StopEffect s pc pc' t) : ∃ sole, Sole StopPc.busy (pc' ::ₘ rest) sole ∧
      Stage t.running s.start.phase sole t.shutdowns := by
  obtain ⟨hassigned, sole, hsole, hstage⟩ := hs
  obtain ⟨rfl, hrest⟩ := (hstops ▸ hsole).of_cons hpc
  exact ⟨_, hrest.move, hstage.advance heffect fun _ ↦
    shutdown_of_built hassigned hstage.built_of_busy⟩

/-- A call of `Stop` makes a step that meets the condition. -/
theorem State.Orderly.stopStep (hs : s.Orderly) (hC : stopsInTurn s (.stop i) = true)
    (h : step s (.stop i) = some t) : t.Orderly := by
  obtain ⟨pc, pc', u, hpc, heffect, rfl⟩ := step_stop h
  obtain ⟨rest, hstops, hstops'⟩ := exists_cons_of_getElem? hpc pc'
  obtain ⟨hstart, hassigned, -⟩ := heffect.frame
  refine ⟨by rw [hassigned, hstart]; exact hs.1, ?_⟩
  simp only [hstops', hstart]
  cases heffect with
  | refused hrunning =>
    obtain ⟨-, sole, hsole, hstage⟩ := hs
    rw [hstops, sole_cons_of_idle rfl] at hsole
    exact ⟨sole, (sole_cons_of_idle rfl).mpr hsole, hstage⟩
  | passed hrunning =>
    obtain ⟨hassigned, sole, hsole, hstage⟩ := hs
    obtain ⟨hstore, hserver⟩ : .store ∉ s.stops ∧ .server ∈ s.assigned := by
      simpa [stopsInTurn, hpc, hrunning] using hC
    have hbuilt := (built_of_mem hrunning hassigned hstage).mp hserver
    rw [hbuilt, hrunning] at hstage
    obtain ⟨rfl, hpass⟩ := hstage.pass fun h ↦ hstore (by simpa using (h ▸ hsole).mem)
    rw [hstops, sole_cons_of_idle rfl] at hsole
    refine ⟨some .store, hsole.cons rfl, ?_⟩
    rw [hbuilt, hrunning]
    exact hpass
  | store => exact hs.of_busy hstops rfl .store
  | lock hfree => exact hs.of_busy hstops rfl (.lock hfree)
  | unlock => exact hs.of_busy hstops rfl .unlock
  | server => exact hs.of_busy hstops rfl .server
  | cqConn => exact hs.of_busy hstops rfl .cqConn
  | cqReadwrite => exact hs.of_busy hstops rfl .cqReadwrite

/-- Every step that meets the condition leads from one stage to one of them. -/
theorem State.Orderly.step (hs : s.Orderly) (hC : stopsInTurn s a = true)
    (h : Lifecycle.step s a = some t) : t.Orderly := by
  cases a with
  | start => exact hs.startStep h
  | signal =>
    cases h
    obtain ⟨hassigned, sole, hsole, hstage⟩ := hs
    refine ⟨hassigned, sole, ?_, hstage⟩
    rw [coe_concat]
    exact (sole_cons_of_idle rfl).mpr hsole
  | stop i => exact hs.stopStep hC h

theorem orderly_of_run {as : List Action} (h : run Lifecycle.step .init as = some s)
    (hC : Along Lifecycle.step (stopsInTurn · · = true) .init as) : s.Orderly :=
  run_invariant_along (fun _ _ _ hs ha h ↦ hs.step ha h) hC h orderly_init

end Orderly

/-- The members are shut down at most once, and after they have been assigned, if no call of `Stop`
passes its test before the server is there or while another call is about to store. What such a call
can lead to is `exists_not_shutDownOnce`. -/
theorem shutDownOnce_of_run {s : State} {as : List Action} (h : run step .init as = some s)
    (hC : Along step (stopsInTurn · · = true) .init as) : s.ShutDownOnce :=
  (orderly_of_run h hC).shutDownOnce

/-- The server starts, and a signal stops it while another one comes too late. -/
def orderlyRun : List Action :=
  List.replicate 6 .start ++ [.signal, .signal] ++ List.replicate 7 (.stop 1) ++ [.stop 0]

theorem shutDownOnce_of_run_orderly :
    ∃ s, run step .init orderlyRun = some s ∧ s.shutdowns = shutdownSequence ∧ s.ShutDownOnce :=
  ⟨_, rfl, rfl, shutDownOnce_of_run (show run step .init orderlyRun = some _ from rfl) (by decide)⟩

/-- A signal is handled as soon as `Start` has stored `running_`. -/
def earlyRun : List Action := [.start, .start, .signal] ++ List.replicate 5 (.stop 0)

/-- `Stop` uses `server_` before it has been assigned. -/
theorem not_shutDownOnce_of_run : ¬∀ (s : State) (as : List Action),
    run step .init as = some s → s.ShutDownOnce := by
  intro honce
  obtain ⟨s, hrun, hshutdowns⟩ : ∃ s, run step .init earlyRun = some s ∧
      s.shutdowns = [⟨.server, false⟩] := ⟨_, rfl, rfl⟩
  have hassigned := (honce s earlyRun hrun).assigned ⟨.server, false⟩ (by simp [hshutdowns])
  exact absurd hassigned (by simp)

/-! ### Calls that do not meet the condition -/

section Exact

variable {s t : State} {a : Action} {i : Nat}

/-- A call of `Stop` that has passed its test gets to `server_->Shutdown`, if nobody holds
`mutex_sessions_`. -/
theorem run_stop_server (hpc : s.stops[i]? = some .store) (hfree : .cancelling ∉ s.stops) :
    run step s (List.replicate 4 (.stop i)) =
      some { s.shutdown .server with running := false, stops := s.stops.set i .cqConn } := by
  obtain ⟨hi, hpc⟩ := List.getElem?_eq_some_iff.mp hpc
  have hlock : .cancelling ∉ s.stops.set i .lock := fun h ↦
    (List.mem_or_eq_of_mem_set h).elim hfree (by simp)
  simp [run, step, State.stop, State.shutdown, hpc, hi, hlock, List.replicate]

/-- A call passes its test before `server_` has been assigned. -/
theorem exists_early (hpc : t.stops[i]? = some .store) (hfree : .cancelling ∉ t.stops)
    (hserver : .server ∉ t.assigned) : ∃ as u, run step t as = some u ∧ ¬u.ShutDownOnce := by
  refine ⟨_, _, run_stop_server hpc hfree, fun honce ↦ ?_⟩
  have hassigned := honce.assigned ⟨.server, decide (.server ∈ t.assigned)⟩
    (by simp [State.shutdown])
  simp [hserver] at hassigned

/-- Two calls have passed their tests. -/
theorem exists_twice {j : Nat} (hij : i ≠ j) (hi : t.stops[i]? = some .store)
    (hj : t.stops[j]? = some .store) (hfree : .cancelling ∉ t.stops) :
    ∃ as u, run step t as = some u ∧ ¬u.ShutDownOnce := by
  have hfirst := run_stop_server hi hfree
  set u : State := { t.shutdown .server with running := false, stops := t.stops.set i .cqConn }
  have hj' : u.stops[j]? = some .store := (List.getElem?_set_ne hij).trans hj
  have hfree' : .cancelling ∉ u.stops := fun h ↦
    (List.mem_or_eq_of_mem_set h).elim hfree (by simp)
  refine ⟨_, _, (run_append step).mpr ⟨u, hfirst, run_stop_server hj' hfree'⟩, fun honce ↦ ?_⟩
  have hnodup := honce.once
  simp [u, State.shutdown, List.nodup_append] at hnodup

/-- If a call of `Stop` passes its test while another one is about to store, or before `server_` has
been assigned, the server can be shut down twice, or before it is there. -/
theorem exists_not_shutDownOnce (hs : s.Orderly) (h : step s a = some t)
    (hC : stopsInTurn s a = false) : ∃ as u, run step t as = some u ∧ ¬u.ShutDownOnce := by
  cases a with
  | start | signal => simp [stopsInTurn] at hC
  | stop i =>
    obtain ⟨hpc, hrunning, hC⟩ : s.stops[i]? = some .test ∧ s.running = true ∧
        (.store ∉ s.stops → .server ∉ s.assigned) := by
      simpa [stopsInTurn, and_assoc] using hC
    have hfree : .cancelling ∉ s.stops := by
      obtain ⟨-, sole, hsole, hstage⟩ := hs
      intro hmem
      exact (hrunning ▸ hstage).ne_cancelling (hsole.of_mem (Multiset.mem_coe.mpr hmem) rfl)
    obtain ⟨hi, -⟩ := List.getElem?_eq_some_iff.mp hpc
    obtain rfl : t = { s with stops := s.stops.set i .store } := by
      obtain ⟨pc, pc', u, hpc', heffect, rfl⟩ := step_stop h
      obtain rfl := Option.some.inj (hpc.symm.trans hpc')
      cases heffect with
      | refused hstopped => simp [hrunning] at hstopped
      | passed => rfl
    have hpc' : (s.stops.set i .store)[i]? = some .store := List.getElem?_set_self hi
    have hfree' : .cancelling ∉ s.stops.set i .store := fun h ↦
      (List.mem_or_eq_of_mem_set h).elim hfree (by simp)
    by_cases hstore : .store ∈ s.stops
    · obtain ⟨j, hj⟩ := List.mem_iff_getElem?.mp hstore
      have hij : i ≠ j := by
        rintro rfl
        simp [hpc] at hj
      exact exists_twice hij hpc' ((List.getElem?_set_ne hij).trans hj) hfree'
    · exact exists_early hpc' hfree' (hC hstore)

end Exact

end CppDemo.Grpc.ServerAsync.Lifecycle
