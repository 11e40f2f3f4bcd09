import CppDemo.Foundation.Progress

/-!
# Calls with a stream in each direction

The client of a call writes requests and then half-closes its side. The server reads them one after
the other, may write messages after each and at the end of the requests, and returns. The client
reads messages until there are no more, waits for its own writes to be over and asks for the status
of the call. It writes from a thread of its own, or before it reads.

Each direction has room for a number of messages, and a write waits while there is none. The call
may break. From then on writes fail, and a read ends or still gets what is on its way.

These are the rules that gRPC documents for its synchronous streams, and what is assumed of it:
messages arrive in the order in which they have been written, each once, as long as the call does
not break; `Write` waits for flow control and returns `false` on a call that has broken; `Read`
returns `false` when the other side has closed its direction and everything in it has been read, or
when the call has broken; `Finish` waits for the status of the server. Nothing is assumed about how
long a message is on its way, and a call may break at any time before it has finished.

## Main definitions

* `StreamService` : a server, as what it writes for each request and at the end of the requests.
* `StreamService.answers` : what it writes for a list of requests.
* `StreamCall.step` : a call, one operation of one party at a time.

## Main results

* `StreamCall.move_of_step` : what a step does.
-/

/-- A server for requests `ρ` that writes messages `μ`, with a state `η` while it reads. -/
structure StreamService (η ρ μ : Type*) where
  start : η
  /-- The state after a request, and what is written for it. -/
  onRequest : η → ρ → η × List μ
  /-- What is written when there are no more requests. -/
  onEnd : η → List μ
  /-- The server returns when a write fails. -/
  stopsOnFailure : Bool

namespace StreamService

variable {η ρ μ : Type*} (S : StreamService η ρ μ)

/-- What is written for requests, from a state on. -/
def answersFrom : η → List ρ → List μ
  | h, [] => S.onEnd h
  | h, r :: rs => (S.onRequest h r).2 ++ answersFrom (S.onRequest h r).1 rs

/-- What is written for requests. -/
def answers (requests : List ρ) : List μ := S.answersFrom S.start requests

/-- Nothing is written while requests may follow. -/
def Quiet : Prop := ∀ h r, (S.onRequest h r).2 = []

/-- At most `width` messages are written at a time. -/
structure Bounded (width : Nat) : Prop where
  onRequest : ∀ h r, (S.onRequest h r).2.length ≤ width
  onEnd : ∀ h, (S.onEnd h).length ≤ width

end StreamService

namespace StreamCall

open Transition

/-- The writes of the client. -/
inductive Writer (ρ : Type*)
  /-- These requests are still to be written, and then the client half-closes its side. -/
  | writing (unsent : List ρ)
  | done
  deriving DecidableEq, Repr

inductive Server (η μ : Type*)
  /-- These messages are to be written before the next read. -/
  | serving (h : η) (unsent : List μ)
  /-- There are no more requests; these messages are to be written before the server returns. -/
  | ending (unsent : List μ)
  | returned
  deriving DecidableEq, Repr

/-- The rest of the client. -/
inductive Reader
  | reading
  /-- Waits for the writes to be over. -/
  | joining
  /-- Asks for the status. -/
  | finishing
  | finished (ok : Bool)
  deriving DecidableEq, Repr

/-- How a call is set up. -/
structure Setup where
  requestRoom : Nat
  messageRoom : Nat
  /-- The client writes from a thread of its own. -/
  concurrent : Bool
  deriving DecidableEq, Repr

structure State (η ρ μ : Type*) where
  writer : Writer ρ
  /-- The requests on their way. -/
  requests : List ρ := []
  server : Server η μ
  /-- The messages on their way. -/
  messages : List μ := []
  reader : Reader := .reading
  /-- What the client has read. -/
  read : List μ := []
  broken : Bool := false
  deriving DecidableEq, Repr

inductive Action
  | write
  | halfClose
  | serverRead
  | serverReadEnds
  | serverWrite
  | serverReturn
  | read
  | readEnds
  | join
  | finish
  | breaks
  deriving DecidableEq, Repr

/-- The operations of the server. -/
def Action.isServer : Action → Bool
  | serverRead | serverReadEnds | serverWrite | serverReturn => true
  | _ => false

section Step

variable {η ρ μ : Type*} (S : StreamService η ρ μ) (setup : Setup)

/-- All requests have been written, or the client has given up. -/
def Writer.isDone : Writer ρ → Bool
  | writing _ => false
  | done => true

def Server.hasReturned : Server η μ → Bool
  | returned => true
  | _ => false

def init (requests : List ρ) : State η ρ μ where
  writer := .writing requests
  server := .serving S.start []

namespace State

variable (s : State η ρ μ)

/-- The client writes its next request, or gives up. -/
def write : Option (State η ρ μ) :=
  match s.writer with
  | .writing (r :: unsent) =>
    if s.broken then some { s with writer := .writing [] }
    else if s.requests.length < setup.requestRoom then
      some { s with writer := .writing unsent, requests := s.requests ++ [r] }
    else none
  | _ => none

def halfClose : Option (State η ρ μ) :=
  match s.writer with
  | .writing [] => some { s with writer := .done }
  | _ => none

/-- The server reads a request. -/
def serverRead : Option (State η ρ μ) :=
  match s.server, s.requests with
  | .serving h [], r :: requests =>
    let (h, unsent) := S.onRequest h r
    some { s with server := .serving h unsent, requests }
  | _, _ => none

/-- The server is told that there are no more requests. -/
def serverReadEnds : Option (State η ρ μ) :=
  match s.server with
  | .serving h [] =>
    if (s.requests.isEmpty && s.writer.isDone) || s.broken then
      some { s with server := .ending (S.onEnd h) }
    else none
  | _ => none

/-- The server writes a message, if there is room for it, and goes on. -/
def send (m : μ) (server : Server η μ) : Option (State η ρ μ) :=
  if s.messages.length < setup.messageRoom then
    some { s with messages := s.messages ++ [m], server }
  else none

/-- The server writes its next message. -/
def serverWrite : Option (State η ρ μ) :=
  match s.server with
  | .serving h (m :: unsent) =>
    if s.broken then
      some { s with server := if S.stopsOnFailure then .ending [] else .serving h unsent }
    else s.send setup m (.serving h unsent)
  | .ending (m :: unsent) =>
    if s.broken then some { s with server := .ending unsent }
    else s.send setup m (.ending unsent)
  | _ => none

def serverReturn : Option (State η ρ μ) :=
  match s.server with
  | .ending [] => some { s with server := .returned }
  | _ => none

/-- The client has come to its reads. -/
def mayRead : Bool :=
  match s.reader with
  | .reading => setup.concurrent || s.writer.isDone
  | _ => false

/-- The client reads a message. -/
def receive : Option (State η ρ μ) :=
  match s.messages with
  | m :: messages =>
    if s.mayRead setup then some { s with messages, read := s.read ++ [m] } else none
  | [] => none

/-- The client is told that there are no more messages. -/
def readEnds : Option (State η ρ μ) :=
  if s.mayRead setup && ((s.messages.isEmpty && s.server.hasReturned) || s.broken) then
    some { s with reader := .joining }
  else none

def join : Option (State η ρ μ) :=
  match s.reader with
  | .joining => if s.writer.isDone then some { s with reader := .finishing } else none
  | _ => none

/-- The client gets the status. -/
def finish : Option (State η ρ μ) :=
  match s.reader with
  | .finishing =>
    if s.server.hasReturned || s.broken then some { s with reader := .finished !s.broken } else none
  | _ => none

/-- The call breaks. -/
def breaks : Option (State η ρ μ) :=
  match s.reader with
  | .finished _ => none
  | _ => if s.broken then none else some { s with broken := true }

end State

/-- One operation of a party, `none` if it has to wait. -/
def step (s : State η ρ μ) : Action → Option (State η ρ μ)
  | .write => s.write setup
  | .halfClose => s.halfClose
  | .serverRead => s.serverRead S
  | .serverReadEnds => s.serverReadEnds S
  | .serverWrite => s.serverWrite S setup
  | .serverReturn => s.serverReturn
  | .read => s.receive setup
  | .readEnds => s.readEnds setup
  | .join => s.join
  | .finish => s.finish
  | .breaks => s.breaks

/-- What a step does. -/
inductive Move (s : State η ρ μ) : State η ρ μ → Prop
  | write {r unsent} (hwriter : s.writer = .writing (r :: unsent)) (hbroken : s.broken = false)
      (hroom : s.requests.length < setup.requestRoom) :
      Move s { s with writer := .writing unsent, requests := s.requests ++ [r] }
  | giveUp {r unsent} (hwriter : s.writer = .writing (r :: unsent)) (hbroken : s.broken = true) :
      Move s { s with writer := .writing [] }
  | halfClose (hwriter : s.writer = .writing []) : Move s { s with writer := .done }
  | serverRead {h r requests} (hserver : s.server = .serving h [])
      (hrequests : s.requests = r :: requests) :
      Move s { s with
        server := .serving (S.onRequest h r).1 (S.onRequest h r).2
        requests := requests }
  | serverReadEnds {h} (hserver : s.server = .serving h [])
      (hend : s.broken = true ∨ s.requests = [] ∧ s.writer = .done) :
      Move s { s with server := .ending (S.onEnd h) }
  | serverWrite {h m unsent} (hserver : s.server = .serving h (m :: unsent))
      (hbroken : s.broken = false) (hroom : s.messages.length < setup.messageRoom) :
      Move s { s with messages := s.messages ++ [m], server := .serving h unsent }
  | serverDrop {h m unsent server} (hserver : s.server = .serving h (m :: unsent))
      (hbroken : s.broken = true) (hnext : server = .ending [] ∨ server = .serving h unsent) :
      Move s { s with server }
  | lastWrite {m unsent} (hserver : s.server = .ending (m :: unsent)) (hbroken : s.broken = false)
      (hroom : s.messages.length < setup.messageRoom) :
      Move s { s with messages := s.messages ++ [m], server := .ending unsent }
  | lastDrop {m unsent} (hserver : s.server = .ending (m :: unsent)) (hbroken : s.broken = true) :
      Move s { s with server := .ending unsent }
  | serverReturn (hserver : s.server = .ending []) : Move s { s with server := .returned }
  | read {m messages} (hreader : s.reader = .reading) (hmessages : s.messages = m :: messages) :
      Move s { s with messages := messages, read := s.read ++ [m] }
  | readEnds (hreader : s.reader = .reading)
      (hend : s.broken = true ∨ s.messages = [] ∧ s.server = .returned) :
      Move s { s with reader := .joining }
  | join (hreader : s.reader = .joining) (hwriter : s.writer = .done) :
      Move s { s with reader := .finishing }
  | finish (hreader : s.reader = .finishing) (hend : s.broken = true ∨ s.server = .returned) :
      Move s { s with reader := .finished !s.broken }
  | breaks (hreader : ∀ ok, s.reader ≠ .finished ok) (hbroken : s.broken = false) :
      Move s { s with broken := true }

variable {S setup} {s t : State η ρ μ} {a : Action}

theorem Writer.isDone_iff {writer : Writer ρ} : writer.isDone = true ↔ writer = .done := by
  cases writer <;> simp [isDone]

theorem Server.hasReturned_iff {server : Server η μ} :
    server.hasReturned = true ↔ server = .returned := by
  cases server <;> simp [hasReturned]

theorem State.mayRead_iff : s.mayRead setup = true ↔
    s.reader = .reading ∧ (setup.concurrent = true ∨ s.writer = .done) := by
  rw [mayRead, ← Writer.isDone_iff]
  cases s.reader <;> simp

theorem State.move_of_write (h : s.write setup = some t) : Move S setup s t := by
  unfold write at h
  split at h
  next r unsent hwriter =>
    split_ifs at h with hbroken hroom <;> obtain rfl := Option.some.inj h
    · exact .giveUp hwriter hbroken
    · exact .write hwriter (by simpa using hbroken) hroom
  next => cases h

theorem State.move_of_serverRead (h : s.serverRead S = some t) : Move S setup s t := by
  unfold serverRead at h
  split at h
  next hserver hrequests =>
    obtain rfl := Option.some.inj h
    exact .serverRead hserver hrequests
  next => cases h

theorem State.move_of_serverReadEnds (h : s.serverReadEnds S = some t) : Move S setup s t := by
  unfold serverReadEnds at h
  split at h
  next hserver =>
    obtain ⟨hend, h⟩ := Option.ite_none_right_eq_some.mp h
    obtain rfl := Option.some.inj h
    rw [Bool.or_eq_true, Bool.and_eq_true, List.isEmpty_iff, Writer.isDone_iff] at hend
    exact .serverReadEnds hserver hend.symm
  next => cases h

theorem State.send_eq_some {m : μ} {server : Server η μ} (h : s.send setup m server = some t) :
    s.messages.length < setup.messageRoom ∧ t = { s with messages := s.messages ++ [m], server } :=
  (Option.ite_none_right_eq_some.mp h).imp_right fun heq ↦ (Option.some.inj heq).symm

theorem State.move_of_serverWrite (h : s.serverWrite S setup = some t) : Move S setup s t := by
  unfold serverWrite at h
  split at h
  next hserver =>
    split_ifs at h with hbroken hstops
    · obtain rfl := Option.some.inj h
      exact .serverDrop hserver hbroken (.inl rfl)
    · obtain rfl := Option.some.inj h
      exact .serverDrop hserver hbroken (.inr rfl)
    · obtain ⟨hroom, rfl⟩ := send_eq_some h
      exact .serverWrite hserver (by simpa using hbroken) hroom
  next hserver =>
    split_ifs at h with hbroken
    · obtain rfl := Option.some.inj h
      exact .lastDrop hserver hbroken
    · obtain ⟨hroom, rfl⟩ := send_eq_some h
      exact .lastWrite hserver (by simpa using hbroken) hroom
  next => cases h

theorem State.move_of_receive (h : s.receive setup = some t) : Move S setup s t := by
  unfold receive at h
  split at h
  next hmessages =>
    obtain ⟨hread, h⟩ := Option.ite_none_right_eq_some.mp h
    obtain rfl := Option.some.inj h
    exact .read (mayRead_iff.mp hread).1 hmessages
  next => cases h

theorem State.move_of_readEnds (h : s.readEnds setup = some t) : Move S setup s t := by
  obtain ⟨hend, h⟩ := Option.ite_none_right_eq_some.mp h
  obtain rfl := Option.some.inj h
  rw [Bool.and_eq_true, mayRead_iff, Bool.or_eq_true, Bool.and_eq_true, List.isEmpty_iff,
    Server.hasReturned_iff] at hend
  exact .readEnds hend.1.1 hend.2.symm

theorem State.move_of_join (h : s.join = some t) : Move S setup s t := by
  unfold join at h
  split at h
  next hreader =>
    obtain ⟨hwriter, h⟩ := Option.ite_none_right_eq_some.mp h
    obtain rfl := Option.some.inj h
    exact .join hreader (Writer.isDone_iff.mp hwriter)
  next => cases h

theorem State.move_of_finish (h : s.finish = some t) : Move S setup s t := by
  unfold finish at h
  split at h
  next hreader =>
    obtain ⟨hend, h⟩ := Option.ite_none_right_eq_some.mp h
    obtain rfl := Option.some.inj h
    rw [Bool.or_eq_true, Server.hasReturned_iff] at hend
    exact .finish hreader hend.symm
  next => cases h

theorem State.move_of_breaks (h : s.breaks = some t) : Move S setup s t := by
  unfold breaks at h
  split at h
  next => cases h
  next hreader =>
    split_ifs at h with hbroken
    obtain rfl := Option.some.inj h
    exact .breaks hreader (by simpa using hbroken)

/-- Every step is one of the moves. -/
theorem move_of_step (h : step S setup s a = some t) : Move S setup s t := by
  cases a with
  | write => exact State.move_of_write h
  | halfClose =>
    simp only [step, State.halfClose] at h
    split at h
    next hwriter =>
      obtain rfl := Option.some.inj h
      exact .halfClose hwriter
    next => cases h
  | serverRead => exact State.move_of_serverRead h
  | serverReadEnds => exact State.move_of_serverReadEnds h
  | serverWrite => exact State.move_of_serverWrite h
  | serverReturn =>
    simp only [step, State.serverReturn] at h
    split at h
    next hserver =>
      obtain rfl := Option.some.inj h
      exact .serverReturn hserver
    next => cases h
  | read => exact State.move_of_receive h
  | readEnds => exact State.move_of_readEnds h
  | join => exact State.move_of_join h
  | finish => exact State.move_of_finish h
  | breaks => exact State.move_of_breaks h

end Step

end StreamCall
