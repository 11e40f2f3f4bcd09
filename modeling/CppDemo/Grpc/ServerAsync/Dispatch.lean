import CppDemo.Grpc.ServerAsync.Invariant

/-!
# Dispatch of completions

The threads know the session of a completion only through its tag, and look it up in a table from
which it may have been removed meanwhile. In every run that creates fewer than `2 ^ 62` sessions the
tag leads back to the session that started the operation or to none, the event is the one that was
started, and the assertions on it hold.

Source: `grpcdemo/server_async.cc`, lines 30–39, 93–98, 191–266 and 318–339.

## Main definitions

* `State.Dispatches` : every completion is treated as the code expects.

## Main results

* `dispatches_of_run` : this holds in every state of a run.
-/

namespace CppDemo.Grpc.ServerAsync

namespace State

/-- A step from `s` to `t` has session `i` process the event `event`, and no other session anything.
-/
def Processes (s t : State) (i : Nat) (event : SessionEvent) : Prop :=
  ∃ o o' calls, s.objects[i]? = some o ∧ o.processEvent event.toWord = some (o', calls) ∧
    t.objects = s.objects.set i o'

/-- Every completion that a thread has taken is treated as the code expects. -/
structure Dispatches (s : State) : Prop where
  /-- Each queue hands out only the events that its thread asserts. -/
  accepter_event : ∀ c, s.accepter = .lookup c → c.op.event = .connected
  worker_event : ∀ c, s.worker = .lookup c → c.op.event = .readDone ∨ c.op.event = .writeDone
  /-- A session that is found under the tag is the one that started the operation. -/
  found : ∀ c i, s.accepter = .lookup c ∨ s.worker = .lookup c →
    s.getSession (detagify c.op.tag).1 = some i → i = c.op.session
  /-- A registration that succeeded finds its session. -/
  connected : ∀ c, s.accepter = .lookup c → c.ok = true →
    s.getSession (detagify c.op.tag).1 = some c.op.session
  /-- The event goes to the session that started the operation, or that session is removed. -/
  accepter_process : ∀ t, s.accepterProcess = some t →
    ∃ c, s.accepter = .handle c c.op.session ∧ s.Processes t c.op.session c.op.event
  worker_process : ∀ t, s.workerProcess = some t →
    ∃ c, s.worker = .handle c c.op.session ∧ s.Processes t c.op.session c.op.event
  accepter_remove : ∀ t, s.accepterRemove = some t →
    ∃ c, s.accepter = .handle c c.op.session ∧
      t.sessions = s.sessions.erase (UInt64.ofNat c.op.session)
  worker_remove : ∀ t, s.workerRemove = some t →
    ∃ c, s.worker = .handle c c.op.session ∧
      t.sessions = s.sessions.erase (UInt64.ofNat c.op.session)
  /-- No assertion fails and the default branch of `ProcessEvent` is not reached. -/
  accepter_asserts : s.accepter ≠ .aborted
  worker_asserts : s.worker ≠ .aborted

variable {s : State}

/-- A session whose registration is outstanding is in the table, once it has been inserted. -/
theorem Inv.registered_of_connPending (hs : s.Inv) {p : Pending} (hp : p ∈ s.connPending)
    (hconstructing : s.accepter.constructing = none) :
    s.sessions.lookup (UInt64.ofNat p.1.session) = some p.1.session := by
  have hmem : p ∈ s.table.pending := Multiset.mem_add.mpr (Or.inl hp)
  have hlt : p.1.session < s.objects.length := (hs.table.ops p hmem).1
  have htoken : (SessionEvent.connected, p.2) ∈ tokensOf p.1.session s.table.pending :=
    mem_tokensOf.mpr ⟨p.1, hmem, rfl, hs.conn p hp⟩
  have hlife : s.table.life p.1.session ≠ .removed := by
    cases hs.table.view _ _ (List.getElem?_eq_getElem hlt) with
    | waiting w h => exact h.life
    | ready r h => exact ne_of_eq_of_ne h.life (by simp)
    | writing r w h => exact ne_of_eq_of_ne h.life (by simp)
    | removed h => rcases h.events _ htoken with h | h <;> simp at h
  refine Table.lookup_of_life (T := s.table) ?_ hlife
  rw [show s.table.constructing = none from hconstructing]
  simp

end State

open State

/-- In every state of a run that creates fewer than `2 ^ 62` sessions, every completion goes to the
session that started the operation, with the event that it started, or to none. -/
theorem dispatches_of_run {s : State} {as : List Action}
    (h : Transition.run step .init as = some s) (hb : s.objects.length < 2 ^ 62) :
    s.Dispatches := by
  have hb' : s.objects.length ≤ maxSessions := by unfold maxSessions; omega
  have hs := inv_of_run h hb'
  refine ⟨?_, ?_, ?_, ?_, ?_, ?_, ?_, ?_, ?_, ?_⟩
  · intro c hpc
    exact hs.conn _ (mem_pending_of_hand .accepter (congrArg AccepterPc.hand hpc)).1
  · intro c hpc
    exact hs.readwrite _ (mem_pending_of_hand .worker (congrArg WorkerPc.hand hpc)).1
  · intro c i hpc hi
    have hmem : (c.op, some c.ok) ∈ s.table.pending := by
      rcases hpc with hpc | hpc
      · exact (mem_pending_of_hand .accepter (congrArg AccepterPc.hand hpc)).2
      · exact (mem_pending_of_hand .worker (congrArg WorkerPc.hand hpc)).2
    exact (hs.table.eq_of_lookup hb' hmem hi).1
  · intro c hpc _
    obtain ⟨hconn, hmem⟩ := mem_pending_of_hand .accepter (congrArg AccepterPc.hand hpc)
    rw [hs.table.detagify hb' hmem]
    exact hs.registered_of_connPending hconn (by rw [hpc]; rfl)
  · intro t ht
    obtain ⟨c, o, o', calls, hh, -, -, -, ho, hp, rfl⟩ := hs.process_cases .accepter hb' ht
    exact ⟨c, AccepterPc.handled_eq_some.mp hh, o, o', calls, ho, hp, rfl⟩
  · intro t ht
    obtain ⟨c, o, o', calls, hh, -, -, -, ho, hp, rfl⟩ := hs.process_cases .worker hb' ht
    exact ⟨c, WorkerPc.handled_eq_some.mp hh, o, o', calls, ho, hp, rfl⟩
  · intro t ht
    obtain ⟨c, hh, -, -, rfl⟩ := hs.remove_cases .accepter hb' ht
    exact ⟨c, AccepterPc.handled_eq_some.mp hh, rfl⟩
  · intro t ht
    obtain ⟨c, hh, -, -, rfl⟩ := hs.remove_cases .worker hb' ht
    exact ⟨c, WorkerPc.handled_eq_some.mp hh, rfl⟩
  · intro hpc
    simpa only [AccepterInv, hpc] using hs.accepter
  · intro hpc
    simpa only [WorkerInv, hpc] using hs.worker

/-- The run in which the accepter takes its first registration and a client connects. -/
theorem dispatches_of_run_connected :
    ∃ s, Transition.run step .init [.accepterTest, .accepterAdd, .accepterInsert,
      .completeConn ⟨0, .connected, 0⟩ true, .accepterNext ⟨⟨0, .connected, 0⟩, true⟩] = some s ∧
      s.Dispatches :=
  ⟨_, rfl, dispatches_of_run (show Transition.run step .init [.accepterTest, .accepterAdd,
    .accepterInsert, .completeConn ⟨0, .connected, 0⟩ true,
    .accepterNext ⟨⟨0, .connected, 0⟩, true⟩] = some _ from rfl) (by decide)⟩

end CppDemo.Grpc.ServerAsync
