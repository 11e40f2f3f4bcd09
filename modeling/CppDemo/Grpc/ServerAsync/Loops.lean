import CppDemo.Grpc.ServerAsync.Effect
import CppDemo.Grpc.ServerAsync.Table
import Mathlib.Algebra.Order.Group.Multiset
import Mathlib.Tactic.Abel

/-!
# The loops of the asynchronous server

The accepter and the worker are two loops of the same kind, each with a queue and a set of events of
its own: a loop takes a completion out of its queue, looks the session up that the tag names, and
drops the completion, removes the session or has it process the event. What is done with a
completion is a step of the session table, and is proved once, for either loop.

A loop that has found a session holds the one that started the operation, and the table still has
it. This is a part of the invariant of the server, which the steps here keep.

## Main definitions

* `State.table` : the table of a state.
* `Loop` : the two loops, with what each of them has started, taken and found.
* `State.Inv` : the invariant of the server.

## Main results

* `State.Inv.of_complete` : an operation of a loop completes.
* `State.Inv.of_drop`, `State.Inv.of_remove`, `State.Inv.of_process` : what a loop does with a
  completion.
-/

namespace CppDemo.Grpc.ServerAsync

open State

/-- The completion that the accepter has taken and not yet dealt with. -/
def AccepterPc.hand : AccepterPc → Multiset Pending
  | .lookup c | .handle c _ => {(c.op, some c.ok)}
  | _ => 0

/-- The session that the accepter has constructed and not yet inserted. -/
def AccepterPc.constructing : AccepterPc → Option Nat
  | .insert _ session _ => some session
  | _ => none

/-- The completion that the worker has taken and not yet dealt with. -/
def WorkerPc.hand : WorkerPc → Multiset Pending
  | .lookup c | .handle c _ => {(c.op, some c.ok)}
  | _ => 0

/-- The completion that the accepter deals with, and the session that it has found. -/
def AccepterPc.handled : AccepterPc → Option (Completion Op × Nat)
  | .handle c session => some (c, session)
  | _ => none

/-- The completion that the worker deals with, and the session that it has found. -/
def WorkerPc.handled : WorkerPc → Option (Completion Op × Nat)
  | .handle c session => some (c, session)
  | _ => none

theorem AccepterPc.handled_eq_some {pc : AccepterPc} {c : Completion Op} {session : Nat} :
    pc.handled = some (c, session) ↔ pc = .handle c session := by
  cases pc <;> simp [handled]

theorem WorkerPc.handled_eq_some {pc : WorkerPc} {c : Completion Op} {session : Nat} :
    pc.handled = some (c, session) ↔ pc = .handle c session := by
  cases pc <;> simp [handled]

/-- The threads that take completions out of a queue. -/
inductive Loop
  | accepter
  | worker
  deriving DecidableEq, Repr

def Loop.other : Loop → Loop
  | accepter => worker
  | worker => accepter

/-- The events that a loop deals with. -/
def Loop.Deals : Loop → SessionEvent → Prop
  | accepter, event => event = .connected
  | worker, event => event = .readDone ∨ event = .writeDone

namespace State

/-- The registrations that were started and not yet dealt with. -/
def connPending (s : State) : Multiset Pending := s.accepter.hand + s.cqConn.pending

/-- The reads and writes that were started and not yet dealt with. -/
def readwritePending (s : State) : Multiset Pending := s.worker.hand + s.cqReadwrite.pending

/-- The table of a state. -/
def table (s : State) : Table where
  objects := s.objects
  sessions := s.sessions
  allocator := s.sessionIdAllocator
  constructing := s.accepter.constructing
  pending := s.connPending + s.readwritePending

/-! ### The loops -/

/-- What was started for a loop and not yet dealt with. -/
def loopPending (s : State) : Loop → Multiset Pending
  | .accepter => s.connPending
  | .worker => s.readwritePending

def hand (s : State) : Loop → Multiset Pending
  | .accepter => s.accepter.hand
  | .worker => s.worker.hand

def queue (s : State) : Loop → CompletionQueue Op
  | .accepter => s.cqConn
  | .worker => s.cqReadwrite

def handled (s : State) : Loop → Option (Completion Op × Nat)
  | .accepter => s.accepter.handled
  | .worker => s.worker.handled

/-- A loop has dealt with its completion and goes on to the next one. -/
def toNext (s : State) : Loop → State
  | .accepter => { s with accepter := .next }
  | .worker => { s with worker := .next }

/-- A loop goes on behind the event of `session`: the accepter adds the next session. -/
def toNextAfter (s : State) (session : Nat) : Loop → State
  | .accepter => { s with accepter := .addNext session }
  | .worker => { s with worker := .next }

/-- The loop removes the session that it has found. -/
def loopRemove (s : State) : Loop → Option State
  | .accepter => s.accepterRemove
  | .worker => s.workerRemove

/-- The loop has the session that it has found process the event. -/
def loopProcess (s : State) : Loop → Option State
  | .accepter => s.accepterProcess
  | .worker => s.workerProcess

def setQueue (s : State) (q : CompletionQueue Op) : Loop → State
  | .accepter => { s with cqConn := q }
  | .worker => { s with cqReadwrite := q }

/-- What the place of the accepter tells about the table. -/
def AccepterInv (s : State) : Prop :=
  match s.accepter with
  | .insert sessionId session _ => sessionId = UInt64.ofNat session
  | .handle c session => session = c.op.session ∧
      s.sessions.lookup (UInt64.ofNat session) = some session
  | .aborted => False
  | _ => True

/-- What the place of the worker tells about the table. -/
def WorkerInv (s : State) : Prop :=
  match s.worker with
  | .handle c session => session = c.op.session ∧
      s.sessions.lookup (UInt64.ofNat session) = some session
  | .aborted => False
  | _ => True

def LoopInv (s : State) : Loop → Prop
  | .accepter => s.AccepterInv
  | .worker => s.WorkerInv

/-- The invariant of the server. -/
structure Inv (s : State) : Prop where
  table : s.table.Inv
  deals : ∀ loop, ∀ t ∈ s.loopPending loop, loop.Deals t.1.event
  place : ∀ loop, s.LoopInv loop

variable {s t : State} {loop : Loop}

theorem Inv.conn (hs : s.Inv) : ∀ t ∈ s.connPending, t.1.event = .connected := hs.deals .accepter

theorem Inv.readwrite (hs : s.Inv) :
    ∀ t ∈ s.readwritePending, t.1.event = .readDone ∨ t.1.event = .writeDone := hs.deals .worker

theorem Inv.accepter (hs : s.Inv) : s.AccepterInv := hs.place .accepter

theorem Inv.worker (hs : s.Inv) : s.WorkerInv := hs.place .worker

theorem loopPending_eq (s : State) (loop : Loop) :
    s.loopPending loop = s.hand loop + (s.queue loop).pending := by
  cases loop <;> rfl

/-- Everything outstanding belongs to a loop or to the other one. -/
theorem table_pending (s : State) (loop : Loop) :
    s.table.pending = s.loopPending loop + s.loopPending loop.other := by
  cases loop with
  | accepter => rfl
  | worker => exact add_comm _ _

theorem hand_of_handled {c : Completion Op} {i : Nat} (h : s.handled loop = some (c, i)) :
    s.hand loop = {(c.op, some c.ok)} := by
  cases loop with
  | accepter =>
    cases hpc : s.accepter <;> simp [handled, hpc, AccepterPc.handled] at h
    simp [hand, hpc, AccepterPc.hand, h.1]
  | worker =>
    cases hpc : s.worker <;> simp [handled, hpc, WorkerPc.handled] at h
    simp [hand, hpc, WorkerPc.hand, h.1]

/-- A completion that a loop has taken is outstanding. -/
theorem mem_pending_of_hand (loop : Loop) {c : Completion Op}
    (hhand : s.hand loop = {(c.op, some c.ok)}) :
    (c.op, some c.ok) ∈ s.loopPending loop ∧ (c.op, some c.ok) ∈ s.table.pending := by
  have hmem : (c.op, some c.ok) ∈ s.loopPending loop := by
    rw [loopPending_eq, hhand]
    exact Multiset.mem_add.mpr (Or.inl (Multiset.mem_singleton_self _))
  rw [table_pending s loop]
  exact ⟨hmem, Multiset.mem_add.mpr (Or.inl hmem)⟩

/-- The table without a completion that a loop has taken. -/
theorem table_of_hand {c : Completion Op} (hhand : s.hand loop = {(c.op, some c.ok)}) :
    s.table.pending =
      (c.op, some c.ok) ::ₘ ((s.queue loop).pending + s.loopPending loop.other) := by
  rw [table_pending s loop, loopPending_eq, hhand, Multiset.singleton_add, Multiset.cons_add]

/-- A thread constructs a session only under the lock. -/
theorem constructing_of_not_exclusive (h : s.sessionsExclusive = false) :
    s.accepter.constructing = none := by
  cases hpc : s.accepter <;> first | rfl | simp [sessionsExclusive, hpc] at h

/-- The table after a loop has dealt with its completion. -/
theorem table_toNext {c : Completion Op} (hhand : s.hand loop = {(c.op, some c.ok)}) :
    (s.toNext loop).table =
      { s.table with pending := (s.queue loop).pending + s.loopPending loop.other } := by
  cases loop with
  | accepter =>
    have hconstructing : s.accepter.constructing = none := by
      cases hpc : s.accepter <;> first | rfl | simp [hand, hpc, AccepterPc.hand] at hhand
    have hpending : 0 + s.cqConn.pending + s.readwritePending =
        s.cqConn.pending + s.readwritePending := by rw [Multiset.zero_add]
    exact congrArg₂ (Table.mk s.objects s.sessions s.sessionIdAllocator) hconstructing.symm hpending
  | worker =>
    have hpending : s.connPending + (0 + s.cqReadwrite.pending) =
        s.cqReadwrite.pending + s.connPending := by rw [Multiset.zero_add, add_comm]
    exact congrArg (Table.mk s.objects s.sessions s.sessionIdAllocator s.accepter.constructing)
      hpending

/-- A loop that goes on deals with what is in its queue, and the other one with the same as
before. -/
theorem mem_loopPending_toNext {l : Loop} {p : Pending}
    (hp : p ∈ (s.toNext loop).loopPending l) : p ∈ s.loopPending l := by
  cases loop <;> cases l <;>
    simp only [loopPending, toNext, connPending, readwritePending, AccepterPc.hand, WorkerPc.hand,
      Multiset.zero_add] at hp ⊢
  · exact Multiset.mem_add.mpr (Or.inr hp)
  · exact hp
  · exact hp
  · exact Multiset.mem_add.mpr (Or.inr hp)

/-! ### General steps -/

/-- A step of the table keeps the invariant, if it does with the rest of it. -/
theorem Inv.of_tableStep (hs : s.Inv) (hb : t.objects.length ≤ maxSessions)
    (h : TableStep s.table t.table)
    (hdeals : ∀ loop, ∀ p ∈ t.loopPending loop, loop.Deals p.1.event)
    (hplace : ∀ loop, t.LoopInv loop) : t.Inv :=
  ⟨h.inv hb hs.table, hdeals, hplace⟩

/-- Threads move, and what they have started stays the same. -/
theorem Inv.of_same (hs : s.Inv)
    (hsame : t.objects = s.objects ∧ t.sessions = s.sessions ∧
      t.sessionIdAllocator = s.sessionIdAllocator ∧
      t.accepter.constructing = s.accepter.constructing)
    (hpending : ∀ loop, t.loopPending loop = s.loopPending loop)
    (hplace : ∀ loop, t.LoopInv loop) : t.Inv := by
  obtain ⟨hobjects, hsessions, hallocator, hconstructing⟩ := hsame
  have htable : t.table = s.table := by
    simp only [State.table, hobjects, hsessions, hallocator, hconstructing]
    exact congrArg _ (congrArg₂ _ (hpending .accepter) (hpending .worker))
  refine ⟨htable ▸ hs.table, fun loop ↦ ?_, hplace⟩
  rw [hpending loop]
  exact hs.deals loop

/-- The accepter moves. -/
theorem Inv.of_accepter (hs : s.Inv) {pc : AccepterPc} {cqConn : CompletionQueue Op}
    (hpending : pc.hand + cqConn.pending = s.accepter.hand + s.cqConn.pending)
    (hconstructing : pc.constructing = s.accepter.constructing)
    (haccepter : State.AccepterInv { s with cqConn, accepter := pc }) :
    State.Inv { s with cqConn, accepter := pc } := by
  refine hs.of_same ⟨rfl, rfl, rfl, hconstructing⟩ (fun loop ↦ ?_) fun loop ↦ ?_
  · cases loop with
    | accepter => exact hpending
    | worker => rfl
  · cases loop with
    | accepter => exact haccepter
    | worker => exact hs.worker

/-- The worker moves. -/
theorem Inv.of_worker (hs : s.Inv) {pc : WorkerPc} {cqReadwrite : CompletionQueue Op}
    (hpending : pc.hand + cqReadwrite.pending = s.worker.hand + s.cqReadwrite.pending)
    (hworker : State.WorkerInv { s with cqReadwrite, worker := pc }) :
    State.Inv { s with cqReadwrite, worker := pc } := by
  refine hs.of_same ⟨rfl, rfl, rfl, rfl⟩ (fun loop ↦ ?_) fun loop ↦ ?_
  · cases loop with
    | accepter => rfl
    | worker => exact hpending
  · cases loop with
    | accepter => exact hs.accepter
    | worker => exact hworker

/-- A completion goes from the queue of a loop into its hand. -/
theorem pending_next {q q' : CompletionQueue Op} {c : Completion Op} (hq : q.next c = some q') :
    {(c.op, some c.ok)} + q'.pending = 0 + q.pending := by
  rw [CompletionQueue.pending_next hq, Multiset.zero_add, Multiset.singleton_add]

/-- A session has no registration outstanding together with a read or a write. -/
theorem Inv.session_ne (hs : s.Inv) {p q : Pending} (hp : p ∈ s.loopPending loop)
    (hq : q ∈ s.loopPending loop.other) : p.1.session ≠ q.1.session := by
  have hne : ∀ p ∈ s.connPending, ∀ q ∈ s.readwritePending, p.1.session ≠ q.1.session := by
    intro p hp q hq heq
    have hp' : p ∈ s.table.pending := Multiset.mem_add.mpr (Or.inl hp)
    have hq' : q ∈ s.table.pending := Multiset.mem_add.mpr (Or.inr hq)
    have hlt : p.1.session < s.objects.length := (hs.table.ops p hp').1
    have hview := hs.table.view _ _ (List.getElem?_eq_getElem hlt)
    have hconnected : (SessionEvent.connected, p.2) ∈ tokensOf p.1.session s.table.pending :=
      mem_tokensOf.mpr ⟨p.1, hp', rfl, hs.conn p hp⟩
    have hother : (q.1.event, q.2) ∈ tokensOf p.1.session s.table.pending :=
      mem_tokensOf.mpr ⟨q.1, hq', heq.symm, rfl⟩
    have hevent := hview.connected_alone hconnected hother
    rcases hs.readwrite q hq with h | h <;> simp [h] at hevent
  cases loop with
  | accepter => exact hne p hp q hq
  | worker => exact (hne q hq p hp).symm

/-- The session that a loop has found started the operation and is in the table. -/
theorem Inv.eq_of_handled (hs : s.Inv) (loop : Loop) {c : Completion Op} {i : Nat}
    (h : s.handled loop = some (c, i)) :
    i = c.op.session ∧ s.sessions.lookup (UInt64.ofNat i) = some i := by
  have hplace := hs.place loop
  cases loop with
  | accepter =>
    cases hpc : s.accepter <;> simp [handled, hpc, AccepterPc.handled] at h
    obtain ⟨rfl, rfl⟩ := h
    simpa only [LoopInv, AccepterInv, hpc] using hplace
  | worker =>
    cases hpc : s.worker <;> simp [handled, hpc, WorkerPc.handled] at h
    obtain ⟨rfl, rfl⟩ := h
    simpa only [LoopInv, WorkerInv, hpc] using hplace

/-- The table may change as long as it keeps the session that a loop has found. -/
theorem LoopInv.of_lookup (h : s.LoopInv loop) {sessions : AList fun _ : UInt64 ↦ Nat}
    (hkeep : ∀ c i, s.handled loop = some (c, i) →
      s.sessions.lookup (UInt64.ofNat i) = some i → sessions.lookup (UInt64.ofNat i) = some i) :
    State.LoopInv { s with sessions } loop := by
  cases loop with
  | accepter =>
    simp only [LoopInv, AccepterInv] at h ⊢
    cases hpc : s.accepter <;> simp only [hpc] at h ⊢
    · exact h
    · exact ⟨h.1, hkeep _ _ (congrArg AccepterPc.handled hpc) h.2⟩
  | worker =>
    simp only [LoopInv, WorkerInv] at h ⊢
    cases hpc : s.worker <;> simp only [hpc] at h ⊢
    exact ⟨h.1, hkeep _ _ (congrArg WorkerPc.handled hpc) h.2⟩

/-- A loop that goes on has found nothing, and the other one what it had found. -/
theorem loopInv_toNext (h : s.LoopInv loop.other) (l : Loop) : (s.toNext loop).LoopInv l := by
  cases loop <;> cases l
  · trivial
  · exact h
  · exact h
  · trivial

/-! ### Clients and gRPC -/

/-- A step that changes nothing but the gRPC side of one session. -/
theorem Inv.of_client (hs : s.Inv) {i : Nat} {o o' : SessionObject}
    (ho : s.objects[i]? = some o) (hsession : o'.session = o.session)
    (hhistory : o'.history = o.history)
    (hstream : ∃ more halfClosed cancelled, o'.stream =
      { o.stream with sent := o.stream.sent ++ more, halfClosed, cancelled })
    (hb : s.objects.length ≤ maxSessions) :
    State.Inv { s with objects := s.objects.set i o' } :=
  hs.of_tableStep (by simpa using hb)
    (TableStep.client (T := s.table) ho hsession hhistory hstream)
    (fun loop ↦ by cases loop; exacts [hs.conn, hs.readwrite])
    (fun loop ↦ by cases loop; exacts [hs.accepter, hs.worker])

/-- An operation of a loop completes. -/
theorem Inv.of_complete (hs : s.Inv) (loop : Loop) {op : Op} {ok : Bool}
    {o o' : SessionObject} {q : CompletionQueue Op} (ho : s.objects[op.session]? = some o)
    (hd : o.deliver op.event ok = some o') (hq : (s.queue loop).complete op ok = some q)
    (hb : s.objects.length ≤ maxSessions) :
    (setQueue { s with objects := s.objects.set op.session o' } q loop).Inv := by
  obtain ⟨rest, hold, hnew⟩ := CompletionQueue.pending_complete hq
  have hpending : s.table.pending =
      (op, none) ::ₘ (s.hand loop + rest + s.loopPending loop.other) := by
    rw [table_pending s loop, loopPending_eq, hold, Multiset.add_cons, Multiset.cons_add]
  have htable : (setQueue { s with objects := s.objects.set op.session o' } q loop).table =
      { s.table with
        objects := s.objects.set op.session o'
        pending := (op, some ok) ::ₘ (s.hand loop + rest + s.loopPending loop.other) } := by
    cases loop <;>
      simp only [State.table, setQueue, connPending, readwritePending, hnew, hand, loopPending,
        Loop.other, ← Multiset.singleton_add, Table.mk.injEq, true_and] <;>
      abel
  have hdeals : ∀ p ∈ s.hand loop + q.pending, loop.Deals p.1.event := by
    have hold' : ∀ p ∈ s.hand loop + ((op, none) ::ₘ rest), loop.Deals p.1.event := by
      rw [← hold, ← loopPending_eq]
      exact hs.deals loop
    intro p hp
    rw [hnew, Multiset.mem_add, Multiset.mem_cons] at hp
    rcases hp with hp | rfl | hp
    · exact hold' p (Multiset.mem_add.mpr (Or.inl hp))
    · exact hold' (op, none) (Multiset.mem_add.mpr (Or.inr (Multiset.mem_cons_self _ _)))
    · exact hold' p (Multiset.mem_add.mpr (Or.inr (Multiset.mem_cons_of_mem hp)))
  refine hs.of_tableStep (by cases loop <;> simpa [setQueue] using hb)
    (htable ▸ TableStep.complete (T := s.table) ho hd hpending) (fun l ↦ ?_) fun l ↦ ?_
  · cases loop <;> cases l
    exacts [hdeals, hs.readwrite, hs.conn, hdeals]
  · cases loop <;> cases l
    exacts [hs.accepter, hs.worker, hs.accepter, hs.worker]

/-! ### Sessions that start calls -/

/-- The calls that a session starts are reads and writes. -/
theorem table_startAll (s : State) (i : Nat) (sessionId : UInt64) (calls : List StreamCall)
    (objects : List SessionObject) :
    State.table { s with
      objects, cqReadwrite := s.cqReadwrite.startAll (calls.map (callOp i sessionId)) } =
      { s.table with
        objects, pending := callPending i sessionId calls + s.table.pending } := by
  have hcalls := CompletionQueue.pending_startAll s.cqReadwrite (calls.map (callOp i sessionId))
  simp only [table, connPending, readwritePending, hcalls, callPending, Table.mk.injEq, true_and]
  abel

theorem deals_startAll (h : ∀ loop, ∀ p ∈ s.loopPending loop, loop.Deals p.1.event) (i : Nat)
    (sessionId : UInt64) (calls : List StreamCall) (objects : List SessionObject) (loop : Loop) :
    ∀ p ∈ State.loopPending { s with
      objects, cqReadwrite := s.cqReadwrite.startAll (calls.map (callOp i sessionId)) } loop,
      loop.Deals p.1.event := by
  cases loop with
  | accepter => exact h .accepter
  | worker =>
    intro p hp
    simp only [loopPending, readwritePending, CompletionQueue.pending_startAll,
      Multiset.mem_add] at hp
    rcases hp with hp | hp | hp
    · exact h .worker p (Multiset.mem_add.mpr (Or.inl hp))
    · exact (mem_callPending hp).2.2
    · exact h .worker p (Multiset.mem_add.mpr (Or.inr hp))

/-- A session of the table processes the event of an operation that it has started. -/
theorem Inv.exists_processEvent (hs : s.Inv) {i : Nat}
    (h : s.sessions.lookup (UInt64.ofNat i) = some i) (event : SessionEvent) :
    ∃ t, s.processEvent i event.toWord = some t := by
  have hlt : i < s.objects.length := (hs.table.keys _ i h).1
  obtain ⟨o', calls, hp⟩ := s.objects[i].exists_processEvent event
  exact ⟨_, processEvent_eq_some.mpr ⟨_, o', calls, List.getElem?_eq_getElem hlt, hp, rfl⟩⟩

/-! ### Completions in hand -/

/-- What a loop knows when it has found a session. -/
theorem Inv.taken (hs : s.Inv) (loop : Loop) (hb : s.objects.length ≤ maxSessions)
    {c : Completion Op} {i : Nat} (h : s.handled loop = some (c, i)) :
    i = c.op.session ∧ s.sessions.lookup (UInt64.ofNat c.op.session) = some c.op.session ∧
      detagify c.op.tag = (UInt64.ofNat c.op.session, c.op.event.toWord) ∧
      loop.Deals c.op.event := by
  obtain ⟨hloop, hmem⟩ := mem_pending_of_hand loop (hand_of_handled h)
  obtain ⟨rfl, hlookup⟩ := hs.eq_of_handled loop h
  exact ⟨rfl, hlookup, hs.table.detagify hb hmem, hs.deals loop _ hloop⟩

/-- The session that a loop has found processes the event. -/
theorem Inv.processEvent_ne_none (hs : s.Inv) (hb : s.objects.length ≤ maxSessions)
    {c : Completion Op} {i : Nat} (h : s.handled loop = some (c, i)) :
    s.processEvent i (detagify c.op.tag).2 ≠ none := by
  obtain ⟨rfl, hlookup, htag, -⟩ := hs.taken loop hb h
  obtain ⟨u, hu⟩ := hs.exists_processEvent hlookup c.op.event
  rw [htag, hu]
  exact Option.some_ne_none u

/-- A loop drops a completion without a session. -/
theorem Inv.of_drop (hs : s.Inv) (loop : Loop) (hb : s.objects.length ≤ maxSessions)
    {c : Completion Op} (hhand : s.hand loop = {(c.op, some c.ok)})
    (hconstructing : s.accepter.constructing = none)
    (hnone : s.getSession (detagify c.op.tag).1 = none) : (s.toNext loop).Inv := by
  have hmem := (mem_pending_of_hand loop hhand).2
  have hlife : s.table.life c.op.session = .removed := by
    rw [getSession, hs.table.detagify hb hmem] at hnone
    dsimp only at hnone
    simp [Table.life, State.table, hconstructing, hnone]
  have hstep := TableStep.drop (table_of_hand hhand) hlife
  rw [← table_toNext hhand] at hstep
  refine hs.of_tableStep (by cases loop <;> exact hb) hstep
    (fun l p hp ↦ hs.deals l p (mem_loopPending_toNext hp)) (loopInv_toNext (hs.place _))

/-- A loop removes the session of an operation that has failed. -/
theorem Inv.of_remove (hs : s.Inv) (loop : Loop) (hb : s.objects.length ≤ maxSessions)
    {c : Completion Op} (h : s.handled loop = some (c, c.op.session)) (hok : c.ok = false) :
    (toNext { s with sessions := s.sessions.erase (UInt64.ofNat c.op.session) } loop).Inv := by
  have hhand := hand_of_handled h
  obtain ⟨hloop, hmem⟩ := mem_pending_of_hand loop hhand
  obtain ⟨-, hlookup⟩ := hs.eq_of_handled loop h
  have hpending := table_of_hand hhand
  rw [hok] at hpending
  have hstep := TableStep.remove hpending (hs.table.life_eq_registered hlookup)
  have htable : (toNext { s with
      sessions := s.sessions.erase (UInt64.ofNat c.op.session) } loop).table =
      { s.table with
        sessions := s.sessions.erase (UInt64.ofNat c.op.session)
        pending := (s.queue loop).pending + s.loopPending loop.other } := by
    have hhand' : State.hand
        { s with sessions := s.sessions.erase (UInt64.ofNat c.op.session) } loop =
        {(c.op, some c.ok)} := by cases loop <;> exact hhand
    refine (table_toNext hhand').trans ?_
    cases loop <;> rfl
  have hother : State.LoopInv
      { s with sessions := s.sessions.erase (UInt64.ofNat c.op.session) } loop.other := by
    refine (hs.place loop.other).of_lookup fun c' i h' hi ↦ ?_
    have hne : c.op.session ≠ c'.op.session :=
      hs.session_ne hloop (mem_pending_of_hand _ (hand_of_handled h')).1
    obtain ⟨rfl, -⟩ := hs.eq_of_handled _ h'
    have hlt : c'.op.session < s.objects.length := (hs.table.keys _ _ hi).1
    have hlt' : c.op.session < s.objects.length := (hs.table.ops _ hmem).1
    rw [AList.lookup_erase_ne fun hkey ↦ hne ((ofNat_inj (by omega) (by omega)).mp hkey).symm]
    exact hi
  refine hs.of_tableStep (by cases loop <;> exact hb) (htable ▸ hstep)
    (fun l p hp ↦ hs.deals l p ?_) (loopInv_toNext hother)
  have hmem' := mem_loopPending_toNext hp
  cases l <;> exact hmem'

/-- A session that a loop has found processes the event. -/
theorem Inv.of_process (hs : s.Inv) (loop : Loop) (hb : s.objects.length ≤ maxSessions)
    {c : Completion Op} {o o' : SessionObject} {calls : List StreamCall}
    (h : s.handled loop = some (c, c.op.session)) (hok : c.ok = true)
    (ho : s.objects[c.op.session]? = some o)
    (hp : o.processEvent c.op.event.toWord = some (o', calls)) :
    State.Inv { s.toNext loop with
      objects := s.objects.set c.op.session o'
      cqReadwrite :=
        s.cqReadwrite.startAll (calls.map (callOp c.op.session o.session.sessionId)) } := by
  have hhand := hand_of_handled h
  obtain ⟨-, hlookup⟩ := hs.eq_of_handled loop h
  have hpending := table_of_hand hhand
  rw [hok] at hpending
  have hstep := TableStep.process hpending (hs.table.life_eq_registered hlookup) ho hp
  have hqueue : (s.toNext loop).cqReadwrite = s.cqReadwrite := by cases loop <;> rfl
  have htable := table_startAll (s.toNext loop) c.op.session o.session.sessionId calls
    (s.objects.set c.op.session o')
  rw [table_toNext hhand, hqueue] at htable
  have hdeals := deals_startAll (s := s.toNext loop)
    (fun l p hp ↦ hs.deals l p (mem_loopPending_toNext hp)) c.op.session o.session.sessionId calls
    (s.objects.set c.op.session o')
  rw [hqueue] at hdeals
  have hplace : ∀ l, (s.toNext loop).LoopInv l := loopInv_toNext (hs.place _)
  refine hs.of_tableStep (by simpa using hb) (htable ▸ hstep) hdeals fun l ↦ ?_
  have hl := hplace l
  cases l <;> exact hl

end State

end CppDemo.Grpc.ServerAsync
