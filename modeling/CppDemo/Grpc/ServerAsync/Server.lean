import CppDemo.Foundation.CompletionQueue
import CppDemo.Foundation.Transition
import CppDemo.Grpc.ServerAsync.Session
import Mathlib.Data.List.AList

/-!
# The threads of the asynchronous server

The server runs an accepter, a worker and a broadcast thread, and one call of `Stop`. Each thread
is given by its place in the code, and each of its steps is one critical section, one load or store
of `running_`, or one call into gRPC. A step that needs `mutex_sessions_` is enabled only while no
other thread holds it in a conflicting mode; a session mutex is held within single steps only.

The remaining steps belong to gRPC and to the clients: a client sends a request or half-closes its
side, and an operation in flight completes, with any outcome, at any time. Session objects are
identified by the order in which they were constructed, so that the object that started an operation
is known independently of its tag.

Runs start when `Start` has created the server and both completion queues.

Source: `grpcdemo/server_async.cc`, lines 191–339.

## Main definitions

* `State` : the state of the server, its queues and its threads.
* `Action`, `step` : the steps of all parties.
-/

namespace CppDemo.Grpc.ServerAsync

/-- An operation started by the server: the session object that started it, the event its
completion stands for, and the tag passed to gRPC. -/
structure Op where
  session : Nat
  event : SessionEvent
  tag : UInt64
  deriving DecidableEq, Repr

/-- The place of the accepter thread. -/
inductive AccepterPc
  /-- At the test `while (running_)`. -/
  | loopTest
  /-- Before the first `AddNewSession`. -/
  | addFirst
  /-- In `AddNewSession`, which holds `mutex_sessions_`, with the session constructed. -/
  | insert (sessionId : UInt64) (session : Nat) (held : Option Nat)
  /-- In `cq_conn_->Next`. -/
  | next
  /-- Before `GetSession`. -/
  | lookup (c : Completion Op)
  /-- With the session found. -/
  | handle (c : Completion Op) (session : Nat)
  /-- Before the `AddNewSession` that follows a connection; `session` is still held. -/
  | addNext (session : Nat)
  | finished
  /-- An assertion has failed. -/
  | aborted
  deriving DecidableEq

/-- The place of the worker thread. -/
inductive WorkerPc
  | loopTest
  | next
  | lookup (c : Completion Op)
  | handle (c : Completion Op) (session : Nat)
  | finished
  | aborted
  deriving DecidableEq

/-- The place of the broadcast thread; it holds `mutex_sessions_` shared from `retest` on. -/
inductive BroadcastPc
  | loopTest
  | lock
  | retest
  /-- The keys of `sessions_` not yet visited in this round; none are left while it sleeps. -/
  | round (remaining : List UInt64)
  | finished
  deriving DecidableEq

/-- The place of the call of `Stop`. -/
inductive StopPc
  | notCalled
  | store
  | lock
  /-- Cancelling the sessions, with `mutex_sessions_` held. -/
  | cancelling (remaining : List UInt64)
  | shutdownServer
  /-- In `server_->Shutdown`, which blocks. -/
  | waitServer
  | shutdownConn
  | shutdownReadwrite
  | finished
  deriving DecidableEq

/-- The state of the server. -/
structure State where
  running : Bool
  sessionIdAllocator : UInt64
  /-- The session objects constructed so far, whether or not they still exist. -/
  objects : List SessionObject
  /-- `sessions_`, from the session id to the session object. -/
  sessions : AList fun _ : UInt64 ↦ Nat
  cqConn : CompletionQueue Op
  cqReadwrite : CompletionQueue Op
  accepter : AccepterPc
  worker : WorkerPc
  broadcast : BroadcastPc
  stop : StopPc

namespace State

/-- The server when `Start` has built it. -/
def init : State where
  running := true
  sessionIdAllocator := 0
  objects := []
  sessions := ∅
  cqConn := .empty
  cqReadwrite := .empty
  accepter := .loopTest
  worker := .loopTest
  broadcast := .loopTest
  stop := .notCalled

/-- A thread holds `mutex_sessions_` exclusively. -/
def sessionsExclusive (s : State) : Bool :=
  (match s.accepter with | .insert .. => true | _ => false) ||
    match s.stop with | .cancelling _ => true | _ => false

/-- A thread holds `mutex_sessions_` shared. -/
def sessionsShared (s : State) : Bool :=
  match s.broadcast with | .retest | .round _ => true | _ => false

/-- The session object with a given id in `sessions_`. -/
def getSession (s : State) (sessionId : UInt64) : Option Nat := s.sessions.lookup sessionId

/-- Erase an id from `sessions_`. -/
def removeSession (s : State) (sessionId : UInt64) : State :=
  { s with sessions := s.sessions.erase sessionId }

/-- The operation that a stream call of a session starts. -/
def callOp (session : Nat) (sessionId : UInt64) (call : StreamCall) : Op :=
  { session, event := call.event, tag := tagify sessionId call.event }

/-- The first half of `AddNewSession`, up to the end of the constructor of the session: the
registration is started before the session is in the table. -/
def addNewSession (s : State) (held : Option Nat) : Option State :=
  if s.sessionsExclusive || s.sessionsShared then none
  else
    let sessionId := s.sessionIdAllocator
    let session := s.objects.length
    let op : Op := { session, event := .connected, tag := tagify sessionId .connected }
    some { s with
      sessionIdAllocator := sessionId + 1
      objects := s.objects ++ [.create sessionId]
      cqConn := s.cqConn.start op
      cqReadwrite := s.cqReadwrite.attach op
      accepter := .insert sessionId session held }

/-- `ProcessEvent` of a session, with the operations that its stream calls start. -/
def processEvent (s : State) (session : Nat) (event : UInt64) : Option State :=
  s.objects[session]?.bind fun o ↦ (o.processEvent event).map fun r ↦
    { s with
      objects := s.objects.set session r.1
      cqReadwrite := s.cqReadwrite.startAll (r.2.map (callOp session o.session.sessionId)) }

/-! ### Clients and gRPC -/

/-- A client sends a request on the stream of a session. -/
def clientSend (s : State) (session : Nat) (request : HelloRequest) : Option State :=
  s.objects[session]?.bind fun o ↦
    if o.stream.halfClosed then none
    else
      let o' := { o with stream := { o.stream with sent := o.stream.sent ++ [request] } }
      some { s with objects := s.objects.set session o' }

/-- A client half-closes its side of the stream of a session. -/
def clientHalfClose (s : State) (session : Nat) : Option State :=
  s.objects[session]?.map fun o ↦
    let o' := { o with stream := { o.stream with halfClosed := true } }
    { s with objects := s.objects.set session o' }

/-- A registration completes. -/
def completeConn (s : State) (op : Op) (ok : Bool) : Option State :=
  s.objects[op.session]?.bind fun o ↦ (o.deliver op.event ok).bind fun o' ↦
    (s.cqConn.complete op ok).map fun cqConn ↦
      { s with objects := s.objects.set op.session o', cqConn }

/-- A read or a write completes. -/
def completeReadwrite (s : State) (op : Op) (ok : Bool) : Option State :=
  s.objects[op.session]?.bind fun o ↦ (o.deliver op.event ok).bind fun o' ↦
    (s.cqReadwrite.complete op ok).map fun cqReadwrite ↦
      { s with objects := s.objects.set op.session o', cqReadwrite }

/-! ### The accepter thread -/

/-- `while (running_)`. -/
def accepterTest (s : State) : Option State :=
  match s.accepter with
  | .loopTest => some { s with accepter := if s.running then .addFirst else .finished }
  | _ => none

/-- `AddNewSession` locks the table and constructs the session. -/
def accepterAdd (s : State) : Option State :=
  match s.accepter with
  | .addFirst => s.addNewSession none
  | .addNext session => s.addNewSession (some session)
  | _ => none

/-- `AddNewSession` inserts the session and unlocks the table. -/
def accepterInsert (s : State) : Option State :=
  match s.accepter with
  | .insert sessionId session _ =>
    some { s with sessions := s.sessions.insert sessionId session, accepter := .next }
  | _ => none

/-- `cq_conn_->Next` hands out a completion. -/
def accepterNext (s : State) (c : Completion Op) : Option State :=
  match s.accepter with
  | .next => (s.cqConn.next c).map fun cqConn ↦ { s with cqConn, accepter := .lookup c }
  | _ => none

/-- `cq_conn_->Next` returns false. -/
def accepterDrained (s : State) : Option State :=
  match s.accepter with
  | .next => if s.cqConn.Drained then some { s with accepter := .loopTest } else none
  | _ => none

/-- `GetSession`; a completion without a session is dropped. -/
def accepterGet (s : State) : Option State :=
  match s.accepter with
  | .lookup c =>
    if s.sessionsExclusive then none
    else match s.getSession (detagify c.op.tag).1 with
      | none => some { s with accepter := .next }
      | some session => some { s with accepter := .handle c session }
  | _ => none

/-- `RemoveSession` on a registration that failed. -/
def accepterRemove (s : State) : Option State :=
  match s.accepter with
  | .handle c _ =>
    if c.ok || s.sessionsExclusive || s.sessionsShared then none
    else some { s.removeSession (detagify c.op.tag).1 with accepter := .next }
  | _ => none

/-- A new connection: the assertion on the event and `ProcessEvent`. -/
def accepterProcess (s : State) : Option State :=
  match s.accepter with
  | .handle c session =>
    if !c.ok then none
    else if (detagify c.op.tag).2 ≠ SessionEvent.connected.toWord then
      some { s with accepter := .aborted }
    else match s.processEvent session (detagify c.op.tag).2 with
      | some t => some { t with accepter := .addNext session }
      | none => some { s with accepter := .aborted }
  | _ => none

/-! ### The worker thread -/

/-- `while (running_)`. -/
def workerTest (s : State) : Option State :=
  match s.worker with
  | .loopTest => some { s with worker := if s.running then .next else .finished }
  | _ => none

/-- `cq_readwrite_->Next` hands out a completion. -/
def workerNext (s : State) (c : Completion Op) : Option State :=
  match s.worker with
  | .next => (s.cqReadwrite.next c).map fun cqReadwrite ↦
      { s with cqReadwrite, worker := .lookup c }
  | _ => none

/-- `cq_readwrite_->Next` returns false. -/
def workerDrained (s : State) : Option State :=
  match s.worker with
  | .next => if s.cqReadwrite.Drained then some { s with worker := .loopTest } else none
  | _ => none

/-- `GetSession`; a completion without a session is dropped. -/
def workerGet (s : State) : Option State :=
  match s.worker with
  | .lookup c =>
    if s.sessionsExclusive then none
    else match s.getSession (detagify c.op.tag).1 with
      | none => some { s with worker := .next }
      | some session => some { s with worker := .handle c session }
  | _ => none

/-- `RemoveSession` on a read or write that failed. -/
def workerRemove (s : State) : Option State :=
  match s.worker with
  | .handle c _ =>
    if c.ok || s.sessionsExclusive || s.sessionsShared then none
    else some { s.removeSession (detagify c.op.tag).1 with worker := .next }
  | _ => none

/-- A read or write is done: the assertion on the event and `ProcessEvent`. -/
def workerProcess (s : State) : Option State :=
  match s.worker with
  | .handle c session =>
    if !c.ok then none
    else if (detagify c.op.tag).2 ≠ SessionEvent.readDone.toWord ∧
        (detagify c.op.tag).2 ≠ SessionEvent.writeDone.toWord then
      some { s with worker := .aborted }
    else match s.processEvent session (detagify c.op.tag).2 with
      | some t => some { t with worker := .next }
      | none => some { s with worker := .aborted }
  | _ => none

/-! ### The broadcast thread -/

/-- The message of the broadcast thread. -/
def broadcastMessage : HelloResponse := { message := "this is a broadcast message" }

/-- `while (running_)`. -/
def broadcastTest (s : State) : Option State :=
  match s.broadcast with
  | .loopTest => some { s with broadcast := if s.running then .lock else .finished }
  | _ => none

/-- Lock `mutex_sessions_` shared. -/
def broadcastLock (s : State) : Option State :=
  match s.broadcast with
  | .lock => if s.sessionsExclusive then none else some { s with broadcast := .retest }
  | _ => none

/-- `if (!running_) break`, which unlocks; otherwise the round over the table begins. -/
def broadcastRetest (s : State) : Option State :=
  match s.broadcast with
  | .retest =>
    some { s with broadcast := if s.running then .round s.sessions.keys else .finished }
  | _ => none

/-- `SendResponse` on the session with the id `sessionId`, under its mutex. -/
def broadcastSend (s : State) (sessionId : UInt64) : Option State :=
  match s.broadcast with
  | .round remaining =>
    if sessionId ∈ remaining then
      (s.getSession sessionId).bind fun session ↦ s.objects[session]?.map fun o ↦
        let r := o.sendBroadcast broadcastMessage
        { s with
          objects := s.objects.set session r.1
          cqReadwrite :=
            s.cqReadwrite.startAll (r.2.map (callOp session o.session.sessionId))
          broadcast := .round (remaining.erase sessionId) }
    else none
  | _ => none

/-- The end of the sleep, which unlocks. -/
def broadcastUnlock (s : State) : Option State :=
  match s.broadcast with
  | .round [] => some { s with broadcast := .loopTest }
  | _ => none

/-! ### Stop -/

/-- `if (!running_) return`. -/
def stopTest (s : State) : Option State :=
  match s.stop with
  | .notCalled => some { s with stop := if s.running then .store else .finished }
  | _ => none

/-- `running_ = false`. -/
def stopStore (s : State) : Option State :=
  match s.stop with
  | .store => some { s with running := false, stop := .lock }
  | _ => none

/-- Lock `mutex_sessions_`. -/
def stopLock (s : State) : Option State :=
  match s.stop with
  | .lock =>
    if s.sessionsExclusive || s.sessionsShared then none
    else some { s with stop := .cancelling s.sessions.keys }
  | _ => none

/-- `TryCancel` on a session whose client has connected. -/
def stopCancel (s : State) (sessionId : UInt64) : Option State :=
  match s.stop with
  | .cancelling remaining =>
    if sessionId ∈ remaining then
      (s.getSession sessionId).bind fun session ↦ s.objects[session]?.map fun o ↦
        let cancelled := o.stream.cancelled || o.session.status ≠ .waitToConnect
        { s with
          objects := s.objects.set session { o with stream := { o.stream with cancelled } }
          stop := .cancelling (remaining.erase sessionId) }
    else none
  | _ => none

/-- Unlock `mutex_sessions_`. -/
def stopUnlock (s : State) : Option State :=
  match s.stop with
  | .cancelling [] => some { s with stop := .shutdownServer }
  | _ => none

/-- Enter `server_->Shutdown`. -/
def stopShutdownServer (s : State) : Option State :=
  match s.stop with
  | .shutdownServer => some { s with stop := .waitServer }
  | _ => none

/-- `server_->Shutdown` returns. -/
def stopServerDone (s : State) : Option State :=
  match s.stop with
  | .waitServer => some { s with stop := .shutdownConn }
  | _ => none

/-- `cq_conn_->Shutdown`. -/
def stopShutdownConn (s : State) : Option State :=
  match s.stop with
  | .shutdownConn => some { s with cqConn := s.cqConn.shutdown, stop := .shutdownReadwrite }
  | _ => none

/-- `cq_readwrite_->Shutdown`. -/
def stopShutdownReadwrite (s : State) : Option State :=
  match s.stop with
  | .shutdownReadwrite =>
    some { s with cqReadwrite := s.cqReadwrite.shutdown, stop := .finished }
  | _ => none

end State

/-- The steps of the threads, of gRPC and of the clients. -/
inductive Action
  | clientSend (session : Nat) (request : HelloRequest)
  | clientHalfClose (session : Nat)
  | completeConn (op : Op) (ok : Bool)
  | completeReadwrite (op : Op) (ok : Bool)
  | accepterTest
  | accepterAdd
  | accepterInsert
  | accepterNext (c : Completion Op)
  | accepterDrained
  | accepterGet
  | accepterRemove
  | accepterProcess
  | workerTest
  | workerNext (c : Completion Op)
  | workerDrained
  | workerGet
  | workerRemove
  | workerProcess
  | broadcastTest
  | broadcastLock
  | broadcastRetest
  | broadcastSend (sessionId : UInt64)
  | broadcastUnlock
  | stopTest
  | stopStore
  | stopLock
  | stopCancel (sessionId : UInt64)
  | stopUnlock
  | stopShutdownServer
  | stopServerDone
  | stopShutdownConn
  | stopShutdownReadwrite
  deriving DecidableEq

/-- One step of the server, `none` when the action is not enabled. -/
def step (s : State) : Action → Option State
  | .clientSend session request => s.clientSend session request
  | .clientHalfClose session => s.clientHalfClose session
  | .completeConn op ok => s.completeConn op ok
  | .completeReadwrite op ok => s.completeReadwrite op ok
  | .accepterTest => s.accepterTest
  | .accepterAdd => s.accepterAdd
  | .accepterInsert => s.accepterInsert
  | .accepterNext c => s.accepterNext c
  | .accepterDrained => s.accepterDrained
  | .accepterGet => s.accepterGet
  | .accepterRemove => s.accepterRemove
  | .accepterProcess => s.accepterProcess
  | .workerTest => s.workerTest
  | .workerNext c => s.workerNext c
  | .workerDrained => s.workerDrained
  | .workerGet => s.workerGet
  | .workerRemove => s.workerRemove
  | .workerProcess => s.workerProcess
  | .broadcastTest => s.broadcastTest
  | .broadcastLock => s.broadcastLock
  | .broadcastRetest => s.broadcastRetest
  | .broadcastSend sessionId => s.broadcastSend sessionId
  | .broadcastUnlock => s.broadcastUnlock
  | .stopTest => s.stopTest
  | .stopStore => s.stopStore
  | .stopLock => s.stopLock
  | .stopCancel sessionId => s.stopCancel sessionId
  | .stopUnlock => s.stopUnlock
  | .stopShutdownServer => s.stopShutdownServer
  | .stopServerDone => s.stopServerDone
  | .stopShutdownConn => s.stopShutdownConn
  | .stopShutdownReadwrite => s.stopShutdownReadwrite

end CppDemo.Grpc.ServerAsync
