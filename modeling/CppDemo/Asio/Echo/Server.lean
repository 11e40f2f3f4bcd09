import CppDemo.Asio.Echo.BufferBound
import CppDemo.Asio.HandlerMemory
import CppDemo.Foundation.SharedObjects

/-!
# The echo server and the life of its connections

A server has any number of connections. No variable of the program keeps a connection: each handler
of an operation owns the connection it belongs to as `self`, and its memory comes from `memory_` of
the same connection. The library gives the memory of an operation back before it invokes the
handler, and destroys the handler behind the call. Both `shared_ptr` and the handlers are followed
step by step; a use of a connection that has been destroyed, and the end of one whose storage is
still in use, are recorded as faults.

If `::operator new` throws, then the exception leaves `ctx.run()`, and the operations that are left
are destroyed with the context, in any order. `std::make_shared` does not throw. A response that is
longer than `data_` overruns it and nothing else here; what it overwrites behind `data_` in the
program is not followed.

Source: `asio/allocation/allocation.cpp`, lines 75–170, and
`asio/buffer/reference_counted_buffer.cpp`, lines 76–186.

## Main definitions

* `Server` : the connections and the operations that have been started.
* `Server.doWriteOf`, `Server.doRead` : the functions of a connection.
* `Server.step` : an operation completes, partly or with an error, or a client is accepted.
-/

namespace CppDemo.Asio.Echo

open Transition

/-- The memory that is requested for an operation. -/
structure OpMemory where
  size : UInt64
  /-- What `::operator new` answers if it is called, `none` if it throws. -/
  answer : Option Block

inductive OpKind
  | write
  | read
  deriving DecidableEq, Repr

def OpKind.waiting : OpKind → Waiting
  | write => .write
  | read => .read

/-- An operation that has been started. -/
structure PendingOp where
  /-- The connection that the handler owns. -/
  self : Nat
  kind : OpKind
  /-- The memory of the operation. -/
  block : HandlerMemory.Live

structure ConnectionObject where
  /-- `memory_`. -/
  memory : HandlerMemory.State
  /-- `data_` and what becomes of it. -/
  session : Session

structure Server where
  connections : List (Shared ConnectionObject)
  pending : List PendingOp
  /-- How many `async_accept` are outstanding. -/
  accepting : Nat
  /-- No exception has left `ctx.run()`. -/
  running : Bool
  /-- A destroyed connection has been used, or one has been destroyed with its storage in use. -/
  fault : Bool

/-- Whether `::operator new` may answer so. -/
def OpMemory.allowed (mem : OpMemory) (m : HandlerMemory.State) : Bool :=
  mem.answer.all fun block ↦ m.MayAnswer mem.size block

/-- Memory for an operation, `none` if `::operator new` throws. -/
def OpMemory.allocate (mem : OpMemory) (m : HandlerMemory.State) :
    Option (HandlerMemory.State × HandlerMemory.Live) :=
  (m.memory.allocate mem.size fun _ ↦ mem.answer).map fun (memory, block, origin) ↦
    ({ m with memory, live := ⟨block, mem.size, origin⟩ :: m.live }, ⟨block, mem.size, origin⟩)

/-- A new connection, with its storage at an address. -/
def ConnectionObject.create (data : Vector UInt8 dataSize) (storage : Nat) : ConnectionObject where
  memory := HandlerMemory.init storage
  session := { connection := .ofData data, waiting := .write, sent := [] }

namespace Server

/-- The server before the first client, with the `doAccept` of its constructor. -/
def init : Server where
  connections := []
  pending := []
  accepting := 1
  running := true
  fault := false

def useCount (s : Server) (i : Nat) : Nat := Shared.useCount s.connections i

/-- The connection `i`, whether or not it is alive. -/
def connection? (s : Server) (i : Nat) : Option ConnectionObject := Shared.value? s.connections i

def inUse (s : Server) (i : Nat) : Bool := (s.connection? i).any fun o ↦ o.memory.memory.inUse

/-- The connection `i` is changed, for which it must be alive. -/
def update (s : Server) (i : Nat) (f : ConnectionObject → ConnectionObject) : Server :=
  { s with
    connections := Shared.update s.connections i f
    fault := s.fault || s.useCount i == 0 }

/-- `data_` of the connection `i` is changed. -/
def updateSession (s : Server) (i : Nat) (f : Session → Session) : Server :=
  s.update i fun o ↦ { o with session := f o.session }

/-- `shared_from_this`, or a copy of a pointer. -/
def retain (s : Server) (i : Nat) : Server :=
  { s with
    connections := Shared.retain s.connections i
    fault := s.fault || s.useCount i == 0 }

/-- A pointer is dropped, with the last of which the connection is destroyed. -/
def release (s : Server) (i : Nat) : Server :=
  { s with
    connections := Shared.release s.connections i
    fault := s.fault || s.useCount i == 0 || (s.useCount i == 1 && s.inUse i) }

/-- An operation is started, with a handler that owns the connection. -/
def startOp (s : Server) (i : Nat) (kind : OpKind) (mem : OpMemory) : Server :=
  match (s.connection? i).bind fun o ↦ mem.allocate o.memory with
  | some (memory, block) =>
    { (s.update i fun o ↦ { o with memory }) with
      pending := s.pending ++ [⟨i, kind, block⟩] }
  -- The handler is destroyed, and the exception goes on.
  | none => { s.release i with running := false }

/-- The variable `self`, its copy in the handler, and the operation. -/
def asyncOp (s : Server) (i : Nat) (kind : OpKind) (mem : OpMemory) : Server :=
  (((s.retain i).retain i).startOp i kind mem).release i

def doRead (s : Server) (i : Nat) (mem : OpMemory) : Server :=
  (s.updateSession i fun session ↦ { session with waiting := .read }).asyncOp i .read mem

/-- The memory of an operation is given back before its handler is invoked. -/
def take (s : Server) (k : Nat) (op : PendingOp) : Server :=
  { (s.update op.self fun o ↦ { o with memory := o.memory.release op.block }) with
    pending := s.pending.eraseIdx k }

/-- `make_shared`, whose pointer is a temporary of the handler of `async_accept`. -/
def connect (s : Server) (data : Vector UInt8 dataSize) (storage : Nat) : Server :=
  { s with
    connections := Shared.make s.connections (.create data storage)
    accepting := s.accepting - 1 }

/-- How an operation ends. -/
inductive Result
  /-- A part has been written, and `async_write` starts the next write itself. -/
  | wroteSome
  | writeDone
  | writeFailed
  | readDone (bytes : Bytes) (daytime : Daytime)
  | readFailed
  /-- The operation is destroyed with the context. -/
  | destroyed

/-- Whether an operation can end so. -/
def Result.fits (running : Bool) (kind : OpKind) : Result → Bool
  | wroteSome | writeDone | writeFailed => running && kind == .write
  | readDone bytes _ => running && kind == .read && bytes.length ≤ dataSize
  | readFailed => running && kind == .read
  | destroyed => !running

/-- What can happen. -/
inductive Action
  /-- A client is accepted. The connection is made with its storage at an address. -/
  | accepted (data : Vector UInt8 dataSize) (daytime : Daytime) (storage : Nat) (mem : OpMemory)
  | acceptFailed
  | complete (k : Nat) (result : Result) (mem : OpMemory)

/-- Whether the memory of the next operation of `i` may be answered so. -/
def allows (s : Server) (i : Nat) (mem : OpMemory) : Bool :=
  (s.connection? i).all fun o ↦ mem.allowed o.memory

section Step

variable (doWrite : Connection → Nat → Bytes → Connection × Bytes)

/-- `doWrite` of a connection, for either way of building the response. -/
def doWriteOf (s : Server) (i length : Nat) (daytime : Daytime) (mem : OpMemory) : Server :=
  (s.updateSession i fun session ↦
    Session.respond doWrite session length daytime).asyncOp i .write mem

/-- The call of a handler that owns the connection `i`, and its end. -/
def handle (s : Server) (i : Nat) (mem : OpMemory) : Result → Server
  | .wroteSome => s.startOp i .write mem
  | .writeDone => (s.doRead i mem).release i
  | .readDone bytes daytime =>
    let s := s.updateSession i fun session ↦
      { session with connection := session.connection.doRead bytes }
    (s.doWriteOf doWrite i bytes.length daytime mem).release i
  | .writeFailed | .readFailed =>
    (s.updateSession i fun session ↦ { session with waiting := .nothing }).release i
  | .destroyed => s.release i

/-- The handler of `async_accept` without an error. -/
def handleAccept (s : Server) (data : Vector UInt8 dataSize) (daytime : Daytime) (storage : Nat)
    (mem : OpMemory) : Server :=
  let i := s.connections.length
  let s := ((s.connect data storage).doWriteOf doWrite i 0 daytime mem).release i
  if s.running then { s with accepting := s.accepting + 1 } else s

/-- One step of the server. -/
def step (s : Server) : Action → Option Server
  | .accepted data daytime storage mem =>
    if s.running = true ∧ 0 < s.accepting ∧ mem.allowed (HandlerMemory.init storage) = true then
      some (s.handleAccept doWrite data daytime storage mem)
    else none
  | .acceptFailed =>
    if s.running = true ∧ 0 < s.accepting then
      some { s with accepting := s.accepting - 1 + 1 }
    else none
  | .complete k result mem =>
    match s.pending[k]? with
    | none => none
    | some op =>
      if result.fits s.running op.kind = true ∧ (s.take k op).allows op.self mem = true then
        some ((s.take k op).handle doWrite op.self mem result)
      else none

end Step

/-! ### Reading the connections -/

theorem connection?_retain (s : Server) (i j : Nat) :
    (s.retain i).connection? j = s.connection? j := Shared.value?_retain _ _ _

theorem connection?_release (s : Server) (i j : Nat) :
    (s.release i).connection? j = s.connection? j := Shared.value?_release _ _ _

theorem connection?_update (s : Server) (i : Nat) (f : ConnectionObject → ConnectionObject)
    (j : Nat) :
    (s.update i f).connection? j = (s.connection? j).map fun o ↦ if i = j then f o else o :=
  Shared.value?_update _ _ _ _

end Server

end CppDemo.Asio.Echo
