import CppDemo.Foundation.Locks
import CppDemo.Foundation.Transition
import Mathlib.Data.List.AList
import Mathlib.Data.Multiset.Bind

/-!
# The mutexes of the server

`mutex_sessions_` guards the table of the sessions, and each session has a mutex of its own. Where a
thread takes both it takes `mutex_sessions_` first: the broadcast thread, which keeps it while it
sleeps, and `Stop`. The accepter and the worker take one mutex at a time. But `Stop` is also what
the signal handler calls, and a handler runs on top of whatever its thread was doing. If that thread
holds `mutex_sessions_`, or the mutex of a session in the table, `Stop` waits for its own thread.

Each thread is a stack of places in the code, with the handlers on top of the function of the
thread. A mutex is locked and unlocked between two places, so the places say what is held. A thread
can be interrupted at every place, and so can a handler. The rest of the process, the main thread
and those of gRPC, locks neither mutex in its own code. A completion carries any session id.

Source: `grpcdemo/server_async.cc`, lines 101–140, 191–345.

## Main definitions

* `State`, `Action`, `step` : the threads, with every lock and unlock a step.
* `State.DeadlockFree` : no thread requests a mutex that it holds, and none wait in a circle.
* `interruptsFree` : the condition for it.
-/

namespace CppDemo.Grpc.ServerAsync.Locking

open Locks

/-- `mutex_sessions_`, and the mutex of each session object. -/
inductive Mutex
  | sessions
  | session (i : Nat)
  deriving DecidableEq, Repr

/-- What the threads share, apart from the mutexes. -/
structure Memory where
  running : Bool
  sessionIdAllocator : UInt64
  /-- The number of session objects constructed so far. -/
  created : Nat
  /-- `sessions_`, from the session id to the session object. -/
  sessions : AList fun _ : UInt64 ↦ Nat

namespace Memory

/-- The session objects in the table. -/
def objects (m : Memory) : List Nat := m.sessions.entries.map Sigma.snd

/-- Construct a session and insert it. -/
def addNewSession (m : Memory) : Memory where
  running := m.running
  sessionIdAllocator := m.sessionIdAllocator + 1
  created := m.created + 1
  sessions := m.sessions.insert m.sessionIdAllocator m.created

def getSession (m : Memory) (sessionId : UInt64) : Option Nat := m.sessions.lookup sessionId

def removeSession (m : Memory) (sessionId : UInt64) : Memory :=
  { m with sessions := m.sessions.erase sessionId }

end Memory

/-! ### The places in the code -/

/-- The place of the accepter or the worker. -/
inductive LoopPc
  /-- At `while (running_)`. -/
  | test
  /-- Before `AddNewSession` locks. -/
  | add
  | adding
  /-- In `Next`. -/
  | next
  /-- Before `GetSession` locks. -/
  | get (sessionId : UInt64) (ok : Bool)
  | getting (sessionId : UInt64) (ok : Bool)
  /-- Before `RemoveSession` locks. -/
  | remove (sessionId : UInt64)
  | removing (sessionId : UInt64)
  /-- Before `ProcessEvent` locks. -/
  | process (session : Nat)
  | processing (session : Nat)
  deriving DecidableEq, Repr

/-- The place in a loop over `sessions_` whose body locks the mutex of the session. -/
inductive SweepPc
  | next (remaining : List Nat)
  | lock (session : Nat) (remaining : List Nat)
  | locked (session : Nat) (remaining : List Nat)
  deriving DecidableEq, Repr

/-- The place of the broadcast thread. -/
inductive BroadcastPc
  | test
  | lock
  | retest
  /-- In the loop over `sessions_`; when no sessions remain it sleeps. -/
  | sweep (pc : SweepPc)
  deriving DecidableEq, Repr

/-- The place of a call of `Stop` by the signal handler. -/
inductive StopPc
  | test
  | store
  | lock
  | sweep (pc : SweepPc)
  /-- Before the server and the queues are shut down. -/
  | shutdown
  deriving DecidableEq, Repr

/-- A place in a function that runs on a thread. -/
inductive Frame
  /-- In code that locks nothing. -/
  | outside
  | accepter (pc : LoopPc)
  | worker (pc : LoopPc)
  | broadcast (pc : BroadcastPc)
  | stop (pc : StopPc)
  deriving DecidableEq, Repr

/-- What an action determines about the step of a thread. -/
inductive Choice
  /-- Go on. -/
  | go
  /-- `Next` hands out a completion. -/
  | completion (sessionId : UInt64) (ok : Bool)
  /-- `Next` returns false. -/
  | drained
  /-- The loop over `sessions_` comes to a session. -/
  | session (i : Nat)
  deriving DecidableEq, Repr

/-! ### What is held and requested -/

def LoopPc.holds : LoopPc → Multiset (Mutex × Mode)
  | .adding | .removing _ => {(.sessions, .exclusive)}
  | .getting .. => {(.sessions, .shared)}
  | .processing session => {(.session session, .exclusive)}
  | _ => 0

def LoopPc.requests : LoopPc → Option (Mutex × Mode)
  | .add | .remove _ => some (.sessions, .exclusive)
  | .get .. => some (.sessions, .shared)
  | .process session => some (.session session, .exclusive)
  | _ => none

def SweepPc.holds : SweepPc → Multiset (Mutex × Mode)
  | .locked session _ => {(.session session, .exclusive)}
  | _ => 0

def SweepPc.requests : SweepPc → Option (Mutex × Mode)
  | .lock session _ => some (.session session, .exclusive)
  | _ => none

def BroadcastPc.holds : BroadcastPc → Multiset (Mutex × Mode)
  | .retest => {(.sessions, .shared)}
  | .sweep pc => (.sessions, .shared) ::ₘ pc.holds
  | _ => 0

def BroadcastPc.requests : BroadcastPc → Option (Mutex × Mode)
  | .lock => some (.sessions, .shared)
  | .sweep pc => pc.requests
  | _ => none

def StopPc.holds : StopPc → Multiset (Mutex × Mode)
  | .sweep pc => (.sessions, .exclusive) ::ₘ pc.holds
  | _ => 0

def StopPc.requests : StopPc → Option (Mutex × Mode)
  | .lock => some (.sessions, .exclusive)
  | .sweep pc => pc.requests
  | _ => none

namespace Frame

/-- The mutexes that are held at a place. -/
def holds : Frame → Multiset (Mutex × Mode)
  | .outside => 0
  | .accepter pc | .worker pc => pc.holds
  | .broadcast pc => pc.holds
  | .stop pc => pc.holds

/-- The mutex that is locked next. -/
def requests : Frame → Option (Mutex × Mode)
  | .outside => none
  | .accepter pc | .worker pc => pc.requests
  | .broadcast pc => pc.requests
  | .stop pc => pc.requests

end Frame

/-- The mutexes that a stack of places holds. -/
def heldBy : List Frame → Multiset (Mutex × Mode)
  | [] => 0
  | f :: fs => f.holds + heldBy fs

/-! ### The code -/

/-- The loop that handles the completions of a queue; `entry` is what comes before `Next`. The place
is `none` when the loop is left. -/
def completionLoop (entry : LoopPc) (m : Memory) : LoopPc → Choice → Option (Option LoopPc × Memory)
  | .test, .go => some (if m.running then some entry else none, m)
  | .add, .go => some (some .adding, m)
  | .adding, .go => some (some .next, m.addNewSession)
  | .next, .completion sessionId ok => some (some (.get sessionId ok), m)
  | .next, .drained => some (some .test, m)
  | .get sessionId ok, .go => some (some (.getting sessionId ok), m)
  | .getting sessionId ok, .go =>
    some (match m.getSession sessionId with
      | none => some .next
      | some session => some (if ok then .process session else .remove sessionId), m)
  | .remove sessionId, .go => some (some (.removing sessionId), m)
  | .removing sessionId, .go => some (some .next, m.removeSession sessionId)
  | .process session, .go => some (some (.processing session), m)
  | .processing _, .go => some (some entry, m)
  | _, _ => none

/-- The accepter adds a session before it waits for a completion, except after a failure. -/
def accepterStep (m : Memory) : LoopPc → Choice → Option (Option LoopPc × Memory) :=
  completionLoop .add m

def workerStep (m : Memory) : LoopPc → Choice → Option (Option LoopPc × Memory) :=
  completionLoop .next m

/-- The loop over `sessions_`. -/
def sweepStep : SweepPc → Choice → Option SweepPc
  | .next remaining, .session i =>
    if i ∈ remaining then some (.lock i (remaining.erase i)) else none
  | .lock session remaining, .go => some (.locked session remaining)
  | .locked _ remaining, .go => some (.next remaining)
  | _, _ => none

def broadcastStep (m : Memory) : BroadcastPc → Choice → Option (Option BroadcastPc)
  | .test, .go => some (if m.running then some .lock else none)
  | .lock, .go => some (some .retest)
  | .retest, .go => some (if m.running then some (.sweep (.next m.objects)) else none)
  | .sweep (.next []), .go => some (some .test)
  | .sweep pc, c => (sweepStep pc c).map fun pc ↦ some (.sweep pc)
  | _, _ => none

def stopStep (m : Memory) : StopPc → Choice → Option (Option StopPc × Memory)
  | .test, .go => some (if m.running then some .store else none, m)
  | .store, .go => some (some .lock, { m with running := false })
  | .lock, .go => some (some (.sweep (.next m.objects)), m)
  | .sweep (.next []), .go => some (some .shutdown, m)
  | .sweep pc, c => (sweepStep pc c).map fun pc ↦ (some (.sweep pc), m)
  | .shutdown, .go => some (none, m)
  | _, _ => none

/-- One step of the code of a frame, `none` in place of the frame when the function returns. -/
def Frame.step (m : Memory) : Frame → Choice → Option (Option Frame × Memory)
  | .outside, _ => none
  | .accepter pc, c => (accepterStep m pc c).map fun r ↦ (r.1.map .accepter, r.2)
  | .worker pc, c => (workerStep m pc c).map fun r ↦ (r.1.map .worker, r.2)
  | .broadcast pc, c => (broadcastStep m pc c).map fun pc ↦ (pc.map .broadcast, m)
  | .stop pc, c => (stopStep m pc c).map fun r ↦ (r.1.map .stop, r.2)

structure State where
  memory : Memory
  /-- The threads, each with the innermost handler first; none are left when it has ended. -/
  threads : List (List Frame)

namespace State

/-- The state when `Start` has created the threads, with a number of threads of the main program and
of gRPC. -/
def init (others : Nat) : State where
  memory := ⟨true, 0, 0, ∅⟩
  threads := [[.accepter .test], [.worker .test], [.broadcast .test]] ++
    List.replicate others [.outside]

/-- What all threads hold. -/
def held (s : State) : Multiset (Mutex × Mode) :=
  (s.threads : Multiset (List Frame)).bind heldBy

/-- A mutex can be locked. -/
def grants (s : State) : Option (Mutex × Mode) → Bool
  | none => true
  | some l => Grants s.held l

/-- A thread goes on with its innermost function. -/
def advance (s : State) (thread : Nat) (c : Choice) : Option State :=
  match s.threads[thread]? with
  | some (f :: fs) =>
    if s.grants f.requests then
      (f.step s.memory c).map fun r ↦
        { memory := r.2, threads := s.threads.set thread (r.1.toList ++ fs) }
    else none
  | _ => none

/-- A signal interrupts a thread. -/
def signal (s : State) (thread : Nat) : Option State :=
  match s.threads[thread]? with
  | some (f :: fs) => some { s with threads := s.threads.set thread (.stop .test :: f :: fs) }
  | _ => none

/-- A thread holds a mutex. -/
def holds (s : State) (thread : Nat) (l : Mutex) : Prop :=
  ∃ t mode, s.threads[thread]? = some t ∧ (l, mode) ∈ heldBy t

/-- A thread is about to lock a mutex. -/
def requests (s : State) (thread : Nat) (l : Mutex) : Prop :=
  ∃ f fs mode, s.threads[thread]? = some (f :: fs) ∧ f.requests = some (l, mode)

/-- No thread requests a mutex that it holds, and no threads wait for each other in a circle. -/
structure DeadlockFree (s : State) : Prop where
  self : ∀ thread l, s.requests thread l → ¬s.holds thread l
  acyclic : ∀ thread, ¬Relation.TransGen (WaitsFor s.holds s.requests) thread thread

end State

/-- The steps of the threads, and the signals. -/
inductive Action
  | signal (thread : Nat)
  | advance (thread : Nat) (c : Choice)
  deriving DecidableEq, Repr

/-- One step, `none` when the action is not enabled. -/
def step (s : State) : Action → Option State
  | .signal thread => s.signal thread
  | .advance thread c => s.advance thread c

/-- A mutex that nobody who walks over the table comes to: that of a session which has left it. -/
def Memory.dead (m : Memory) : Mutex → Bool
  | .sessions => false
  | .session i => decide (i ∉ m.objects)

/-- `Stop` passes its test only on a thread that holds neither `mutex_sessions_` nor the mutex of a
session in the table. -/
def interruptsFree (s : State) : Action → Bool
  | .advance thread _ =>
    match s.threads[thread]? with
    | some (.stop .test :: fs) => !s.memory.running || decide (∀ l ∈ heldBy fs, s.memory.dead l.1)
    | _ => true
  | _ => true

end CppDemo.Grpc.ServerAsync.Locking
