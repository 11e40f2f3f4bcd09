import CppDemo.Foundation.ByteStream
import CppDemo.Foundation.SharedObjects
import CppDemo.Foundation.Transition

/-!
# The daytime servers and their clients

A client connects and prints what it reads until the other end is closed. One server serves its
clients one after the other. The other one accepts the next client while it still writes to earlier
ones; its connections are owned by the handlers, which are given a `shared_ptr` each. Sockets are
numbered in the order in which they are made, and a client has the number of the socket that accepts
it. A write puts any part of what is left into the stream, and a read takes any part of what is
there.

Source: `asio/daytime/server_async.cpp`, `asio/daytime/server_sync.cpp` and
`asio/daytime/client_sync.cpp`.

## Main definitions

* `Client` : a client and the bytes that it has not read.
* `SyncServer.step`, `AsyncServer.step` : a step of a server or of one of its clients.
-/

namespace CppDemo.Asio.Daytime

/-! ### Clients -/

inductive Place
  /-- The socket has not accepted a client. -/
  | connecting
  | reading
  /-- The loop has ended with `eof`. -/
  | finished
  /-- Another error has been thrown. -/
  | failed
  deriving DecidableEq, Repr

structure Client where
  place : Place
  /-- What has been written to the client and not been read. -/
  wire : Bytes
  /-- What the client has printed. -/
  printed : Bytes
  deriving DecidableEq, Repr

/-- The size of `buf`. -/
def bufSize : Nat := 128

namespace Client

/-- A client that has not been accepted. -/
def new : Client := { place := .connecting, wire := [], printed := [] }

/-- The client has been accepted. -/
def connect (c : Client) : Client := { c with place := .reading }

/-- Bytes are written to the client. -/
def receive (c : Client) (bytes : Bytes) : Client := { c with wire := c.wire ++ bytes }

/-- A read of `n` bytes, which are printed. -/
def read (c : Client) (n : Nat) : Option Client :=
  if c.place = .reading ∧ 0 < n ∧ n ≤ bufSize ∧ n ≤ c.wire.length then
    some { c with wire := c.wire.drop n, printed := c.printed ++ c.wire.take n }
  else none

/-- A read after the other end has been closed, and everything has been read. -/
def eof (c : Client) (closed : Bool) : Option Client :=
  if c.place = .reading ∧ closed = true ∧ c.wire = [] then some { c with place := .finished }
  else none

/-- A read that fails. -/
def fail (c : Client) : Option Client :=
  if c.place = .reading then some { c with place := .failed } else none

end Client

/-- What can happen to the client with a number, and to its socket. -/
inductive Action
  /-- The client is accepted at a time. -/
  | accepted (i : Nat) (daytime : Bytes)
  | acceptFailed (i : Nat)
  /-- The next `n` bytes are written, and more are left. -/
  | wrote (i n : Nat)
  /-- The bytes that are left are written. -/
  | writeDone (i : Nat)
  | writeFailed (i : Nat)
  | read (i n : Nat)
  | eof (i : Nat)
  | readFailed (i : Nat)
  deriving DecidableEq, Repr

/-- The number of the client. -/
def Action.client : Action → Nat
  | accepted i _ | acceptFailed i | wrote i _ | writeDone i | writeFailed i
  | read i _ | eof i | readFailed i => i

/-- A step of the client `i`. -/
def clientStep (clients : List Client) (i : Nat) (f : Client → Option Client) :
    Option (List Client) :=
  (clients[i]?.bind f).map fun c ↦ clients.set i c

/-! ### One client after the other -/

/-- Where the loop of the server is. -/
inductive Serving
  | accept
  | write (msg : Bytes) (written : Nat)
  /-- An exception has left the loop. -/
  | ended
  deriving DecidableEq, Repr

structure SyncServer where
  serving : Serving
  clients : List Client
  deriving DecidableEq, Repr

namespace SyncServer

/-- The first round of the loop has made its socket. -/
def init : SyncServer := { serving := .accept, clients := [.new] }

/-- The socket of the round has the number `i`. -/
def Current (s : SyncServer) (i : Nat) : Prop := i + 1 = s.clients.length

instance (s : SyncServer) (i : Nat) : Decidable (s.Current i) :=
  inferInstanceAs (Decidable (_ = _))

/-- The socket is destroyed at the end of a round, and the next round makes the next one. -/
def nextRound (s : SyncServer) : SyncServer where
  serving := .accept
  clients := s.clients ++ [.new]

def step (s : SyncServer) : Action → Option SyncServer
  | .accepted i daytime =>
    if s.serving = .accept ∧ s.Current i then
      some { serving := .write daytime 0, clients := s.clients.modify i Client.connect }
    else none
  | .acceptFailed i =>
    if s.serving = .accept ∧ s.Current i then some { s with serving := .ended } else none
  | .wrote i n =>
    match s.serving with
    | .write msg written =>
      if s.Current i ∧ 0 < n ∧ written + n < msg.length then
        some { serving := .write msg (written + n),
               clients := s.clients.modify i (·.receive ((msg.drop written).take n)) }
      else none
    | _ => none
  | .writeDone i =>
    match s.serving with
    | .write msg written =>
      if s.Current i then
        some { s with clients := s.clients.modify i (·.receive (msg.drop written)) }.nextRound
      else none
    | _ => none
  | .writeFailed i =>
    match s.serving with
    | .write _ _ => if s.Current i then some s.nextRound else none
    | _ => none
  | .read i n => (clientStep s.clients i (·.read n)).map fun clients ↦ { s with clients }
  | .eof i =>
    (clientStep s.clients i (·.eof !(s.Current i))).map fun clients ↦ { s with clients }
  | .readFailed i => (clientStep s.clients i (·.fail)).map fun clients ↦ { s with clients }

end SyncServer

/-! ### Several clients at once -/

/-- What an operation does. -/
inductive Work
  | accept
  /-- `async_write`, with the number of bytes that have been written. -/
  | write (written : Nat)
  deriving DecidableEq, Repr

structure PendingOp where
  /-- The connection that the handler owns. -/
  conn : Nat
  work : Work
  deriving DecidableEq, Repr

structure AsyncServer where
  /-- The connections, each with its `message_`. -/
  connections : List (Shared Bytes)
  pending : List PendingOp
  clients : List Client
  /-- How often `finish one job` has been printed. -/
  jobs : Nat
  /-- A connection has been used after its end. -/
  fault : Bool
  deriving Repr

namespace AsyncServer

def useCount (s : AsyncServer) (i : Nat) : Nat := Shared.useCount s.connections i

/-- `message_` of the connection `i`. -/
def message (s : AsyncServer) (i : Nat) : Bytes := (Shared.value? s.connections i).getD []

def workOf (s : AsyncServer) (i : Nat) : Option Work :=
  (s.pending.find? fun op ↦ op.conn = i).map PendingOp.work

/-- The connection `i` is used, for which it must be alive. -/
def access (s : AsyncServer) (i : Nat) : AsyncServer :=
  { s with fault := s.fault || s.useCount i == 0 }

def retain (s : AsyncServer) (i : Nat) : AsyncServer :=
  { s.access i with connections := Shared.retain s.connections i }

def release (s : AsyncServer) (i : Nat) : AsyncServer :=
  { s.access i with connections := Shared.release s.connections i }

/-- A pointer is moved into the handler of an operation. -/
def start (s : AsyncServer) (i : Nat) (work : Work) : AsyncServer :=
  { s with pending := s.pending ++ [⟨i, work⟩] }

/-- An operation is over. -/
def take (s : AsyncServer) (i : Nat) (work : Work) : AsyncServer :=
  { s with pending := s.pending.erase ⟨i, work⟩ }

/-- The variable `conn` is copied into the handler, and dropped at the end. -/
def doAccept (s : AsyncServer) : AsyncServer :=
  let i := s.connections.length
  let s := { s with
    connections := Shared.make s.connections []
    clients := s.clients ++ [Client.new] }
  ((s.retain i).start i .accept).release i

/-- `message_` is set, and its bytes are written from there. -/
def handle (s : AsyncServer) (i : Nat) (daytime : Bytes) : AsyncServer :=
  let s := { s.access i with connections := Shared.update s.connections i fun _ ↦ daytime }
  (s.retain i).start i (.write 0)

/-- The handler of `async_accept`, with the daytime unless there was an error. -/
def handleAccept (s : AsyncServer) (i : Nat) (daytime : Option Bytes) : AsyncServer :=
  -- `conn` is passed by value.
  let s := s.retain i
  let s := match daytime with
    | some daytime => s.handle i daytime
    | none => s
  s.doAccept.release i

def onWrite (s : AsyncServer) : AsyncServer := { s with jobs := s.jobs + 1 }

/-- Bytes of `message_` are written. -/
def transfer (s : AsyncServer) (i : Nat) (bytes : Bytes → Bytes) : AsyncServer :=
  { s.access i with clients := s.clients.modify i (·.receive (bytes (s.message i))) }

/-- The constructor. -/
def init : AsyncServer :=
  doAccept { connections := [], pending := [], clients := [], jobs := 0, fault := false }

/-- One step. The handler of an operation that is over is destroyed behind its call. -/
def step (s : AsyncServer) : Action → Option AsyncServer
  | .accepted i daytime =>
    match s.workOf i with
    | some .accept =>
      let s := { s with clients := s.clients.modify i Client.connect }
      some (((s.take i .accept).handleAccept i (some daytime)).release i)
    | _ => none
  | .acceptFailed i =>
    match s.workOf i with
    | some .accept => some (((s.take i .accept).handleAccept i none).release i)
    | _ => none
  | .wrote i n =>
    match s.workOf i with
    | some (.write written) =>
      if 0 < n ∧ written + n < (s.message i).length then
        let s := s.transfer i fun message ↦ (message.drop written).take n
        some ((s.take i (.write written)).start i (.write (written + n)))
      else none
    | _ => none
  | .writeDone i =>
    match s.workOf i with
    | some (.write written) =>
      let s := s.transfer i fun message ↦ message.drop written
      some ((s.take i (.write written)).onWrite.release i)
    | _ => none
  | .writeFailed i =>
    match s.workOf i with
    | some (.write written) => some ((s.take i (.write written)).onWrite.release i)
    | _ => none
  | .read i n => (clientStep s.clients i (·.read n)).map fun clients ↦ { s with clients }
  | .eof i =>
    (clientStep s.clients i (·.eof (s.useCount i == 0))).map fun clients ↦ { s with clients }
  | .readFailed i => (clientStep s.clients i (·.fail)).map fun clients ↦ { s with clients }

end AsyncServer

end CppDemo.Asio.Daytime
