import CppDemo.Grpc.Greeter
import CppDemo.Grpc.ServerAsync.Tag

/-!
# Sessions of the asynchronous server

A session answers each request it reads with one message and also receives the broadcast messages
of the server. It has at most one write outstanding, and messages passed to it meanwhile wait in a
queue. `GreeterSession.sendResponse` and `GreeterSession.processEvent` are the two functions that
touch a session; both run under its mutex, and both return the calls they make on the stream.

A session object also has a gRPC side, the stream, on which the client sends its requests and the
server makes its calls, and a history, which records what the session was asked to do and which no
function of the server reads.

Source: `grpcdemo/server_async.cc`, lines 41–46 and 91–171.

## Main definitions

* `GreeterSession.sendResponse`, `GreeterSession.processEvent` : the session as the code has it.
* `SessionObject` : a session with its stream and its history.
* `SessionObject.deliver` : what a completing operation does to a session object.
-/

namespace CppDemo.Grpc.ServerAsync

/-- Whether a session waits for its client, may write, or waits for its outstanding write. -/
inductive SessionStatus
  | waitToConnect
  | readyToWrite
  | waitWriteDone
  deriving DecidableEq, Repr

/-- A call of the server on the stream of a session. -/
inductive StreamCall
  | read
  | write (response : HelloResponse)
  deriving DecidableEq, Repr

/-- The event that the completion of a stream call is reported as. -/
def StreamCall.event : StreamCall → SessionEvent
  | read => .readDone
  | write _ => .writeDone

/-- The message that a stream call hands to `Write`. -/
def StreamCall.written? : StreamCall → Option HelloResponse
  | read => none
  | write response => some response

namespace StreamCall

@[simp] theorem event_read : event read = .readDone := rfl

@[simp] theorem event_write (response : HelloResponse) : event (write response) = .writeDone := rfl

@[simp] theorem written?_read : written? read = none := rfl

@[simp] theorem written?_write (response : HelloResponse) :
    written? (write response) = some response := rfl

end StreamCall

/-- The members of a session that its functions read and write. -/
structure GreeterSession where
  sessionId : UInt64
  status : SessionStatus := .waitToConnect
  request : HelloRequest := {}
  messageQueue : List HelloResponse := []
  deriving DecidableEq, Repr

/-- The answer of the asynchronous server to a request. -/
def replyTo (request : HelloRequest) : HelloResponse := { message := "hello " ++ request.name }

namespace GreeterSession

/-- Write the message at once if no write is outstanding, queue it if one is, drop it if the client
has not connected yet. -/
def sendResponse (self : GreeterSession) (response : HelloResponse) :
    GreeterSession × List StreamCall :=
  if self.status ≠ .readyToWrite ∧ self.status ≠ .waitWriteDone then (self, [])
  else if self.status = .readyToWrite then
    ({ self with status := .waitWriteDone }, [.write response])
  else ({ self with messageQueue := self.messageQueue ++ [response] }, [])

/-- React to an event; `none` stands for the default branch of the switch, which asserts. -/
def processEvent (self : GreeterSession) (event : UInt64) :
    Option (GreeterSession × List StreamCall) :=
  match SessionEvent.ofWord? event with
  | some .connected => some ({ self with status := .readyToWrite }, [.read])
  | some .readDone =>
    let sent := self.sendResponse (replyTo self.request)
    some (sent.1, sent.2 ++ [.read])
  | some .writeDone =>
    match self.messageQueue with
    | front :: rest =>
      some ({ self with status := .waitWriteDone, messageQueue := rest }, [.write front])
    | [] => some ({ self with status := .readyToWrite }, [])
  | some .finished => some (self, [])
  | none => none

@[simp] theorem sendResponse_of_waitToConnect {self : GreeterSession} (response : HelloResponse)
    (h : self.status = .waitToConnect) : self.sendResponse response = (self, []) := by
  simp [sendResponse, h]

@[simp] theorem sendResponse_of_readyToWrite {self : GreeterSession} (response : HelloResponse)
    (h : self.status = .readyToWrite) : self.sendResponse response =
      ({ self with status := .waitWriteDone }, [.write response]) := by
  simp [sendResponse, h]

@[simp] theorem sendResponse_of_waitWriteDone {self : GreeterSession} (response : HelloResponse)
    (h : self.status = .waitWriteDone) : self.sendResponse response =
      ({ self with messageQueue := self.messageQueue ++ [response] }, []) := by
  simp [sendResponse, h]

@[simp] theorem sendResponse_sessionId (self : GreeterSession) (response : HelloResponse) :
    (self.sendResponse response).1.sessionId = self.sessionId := by
  unfold sendResponse; split_ifs <;> rfl

theorem processEvent_toWord (self : GreeterSession) (event : SessionEvent) :
    self.processEvent event.toWord =
      match event with
      | .connected => some ({ self with status := .readyToWrite }, [.read])
      | .readDone => some ((self.sendResponse (replyTo self.request)).1,
          (self.sendResponse (replyTo self.request)).2 ++ [.read])
      | .writeDone =>
        match self.messageQueue with
        | front :: rest =>
          some ({ self with status := .waitWriteDone, messageQueue := rest }, [.write front])
        | [] => some ({ self with status := .readyToWrite }, [])
      | .finished => some (self, []) := by
  unfold processEvent
  rw [SessionEvent.ofWord?_toWord]
  cases event <;> rfl

theorem processEvent_sessionId {self self' : GreeterSession} {event : UInt64}
    {calls : List StreamCall} (h : self.processEvent event = some (self', calls)) :
    self'.sessionId = self.sessionId := by
  unfold processEvent at h
  split at h
  · simp only [Option.some.injEq, Prod.mk.injEq] at h; rw [← h.1]
  · simp only [Option.some.injEq, Prod.mk.injEq] at h; rw [← h.1, sendResponse_sessionId]
  · split at h <;> simp only [Option.some.injEq, Prod.mk.injEq] at h <;> rw [← h.1]
  · simp only [Option.some.injEq, Prod.mk.injEq] at h; rw [← h.1]
  · simp at h

end GreeterSession

/-- Who passed a message to `SendResponse`. -/
inductive Origin
  | reply
  | broadcast
  deriving DecidableEq, Repr

/-- The gRPC side of a session. -/
structure SessionStream where
  /-- A client call has been bound to the stream. -/
  accepted : Bool := false
  /-- The server has asked gRPC to cancel the call. -/
  cancelled : Bool := false
  /-- The requests that the client has sent, in order. -/
  sent : List HelloRequest := []
  /-- The client sends nothing more. -/
  halfClosed : Bool := false
  /-- How many requests successful reads have taken off the stream. -/
  delivered : Nat := 0
  /-- The calls of the server on the stream, in order. -/
  calls : List StreamCall := []
  deriving DecidableEq, Repr

/-- What happened to a session, as the sequence of its events tells. -/
structure SessionHistory where
  /-- The event `Connected` has been processed. -/
  connected : Bool := false
  /-- The messages passed to `SendResponse` since then, in order. -/
  passed : List (Origin × HelloResponse) := []
  /-- How many `ReadDone` events have been processed. -/
  readDone : Nat := 0
  /-- How many `WriteDone` events have been processed. -/
  writeDone : Nat := 0
  deriving DecidableEq, Repr

namespace SessionHistory

/-- A message is passed to `SendResponse`. -/
def pass (self : SessionHistory) (origin : Origin) (response : HelloResponse) : SessionHistory :=
  if self.connected then { self with passed := self.passed ++ [(origin, response)] } else self

/-- The session processes an event. -/
def record (self : SessionHistory) (session : GreeterSession) (event : UInt64) : SessionHistory :=
  match SessionEvent.ofWord? event with
  | some .connected => { self with connected := true }
  | some .readDone =>
    { self.pass .reply (replyTo session.request) with readDone := self.readDone + 1 }
  | some .writeDone => { self with writeDone := self.writeDone + 1 }
  | _ => self

/-- The replies among the messages passed to `SendResponse`. -/
def replies (self : SessionHistory) : List HelloResponse :=
  (self.passed.filter fun m ↦ m.1 = .reply).map Prod.snd

end SessionHistory

/-- A session object of the server: the session, its stream and its history. -/
structure SessionObject where
  session : GreeterSession
  stream : SessionStream := {}
  history : SessionHistory := {}
  deriving DecidableEq, Repr

namespace SessionObject

/-- A session as its constructor leaves it. -/
def create (sessionId : UInt64) : SessionObject := { session := { sessionId } }

/-- The messages handed to `Write`, in order. -/
def written (o : SessionObject) : List HelloResponse := o.stream.calls.filterMap (·.written?)

/-- The session processes an event. -/
def processEvent (o : SessionObject) (event : UInt64) : Option (SessionObject × List StreamCall) :=
  (o.session.processEvent event).map fun r ↦
    ({ session := r.1
       stream := { o.stream with calls := o.stream.calls ++ r.2 }
       history := o.history.record o.session event }, r.2)

/-- The broadcast thread passes a message to the session. -/
def sendBroadcast (o : SessionObject) (response : HelloResponse) :
    SessionObject × List StreamCall :=
  let r := o.session.sendResponse response
  ({ session := r.1
     stream := { o.stream with calls := o.stream.calls ++ r.2 }
     history := o.history.pass .broadcast response }, r.2)

/-- What the completion of an operation does to its session: a registration that succeeds binds the
stream to a call, and a read that succeeds stores the next request of the client. -/
def deliver (o : SessionObject) : SessionEvent → Bool → Option SessionObject
  | .connected, true => some { o with stream := { o.stream with accepted := true } }
  | .readDone, true =>
    o.stream.sent[o.stream.delivered]?.map fun request ↦
      { o with
        session := { o.session with request }
        stream := { o.stream with delivered := o.stream.delivered + 1 } }
  | _, _ => some o

/-- The default branch of the switch is not reached with an event of the enumeration. -/
theorem exists_processEvent (o : SessionObject) (event : SessionEvent) :
    ∃ o' calls, o.processEvent event.toWord = some (o', calls) := by
  unfold processEvent
  rw [GreeterSession.processEvent_toWord]
  cases event with
  | writeDone => cases o.session.messageQueue <;> exact ⟨_, _, rfl⟩
  | _ => exact ⟨_, _, rfl⟩

@[simp] theorem written_create (sessionId : UInt64) : (create sessionId).written = [] := rfl

theorem processEvent_sessionId {o o' : SessionObject} {event : UInt64} {calls : List StreamCall}
    (h : o.processEvent event = some (o', calls)) :
    o'.session.sessionId = o.session.sessionId := by
  obtain ⟨⟨session, calls'⟩, hs, h⟩ := Option.map_eq_some_iff.mp h
  obtain ⟨rfl, rfl⟩ := Prod.mk.inj h
  exact GreeterSession.processEvent_sessionId hs

theorem sendBroadcast_sessionId (o : SessionObject) (response : HelloResponse) :
    (o.sendBroadcast response).1.session.sessionId = o.session.sessionId :=
  o.session.sendResponse_sessionId response

theorem deliver_sessionId {o o' : SessionObject} {event : SessionEvent} {ok : Bool}
    (h : o.deliver event ok = some o') : o'.session.sessionId = o.session.sessionId := by
  unfold deliver at h
  split at h
  · obtain rfl := Option.some.inj h; rfl
  · obtain ⟨request, -, rfl⟩ := Option.map_eq_some_iff.mp h; rfl
  · obtain rfl := Option.some.inj h; rfl

theorem processEvent_accepted {o o' : SessionObject} {event : UInt64} {calls : List StreamCall}
    (h : o.processEvent event = some (o', calls)) :
    o'.stream.accepted = o.stream.accepted := by
  obtain ⟨⟨session, calls'⟩, -, h⟩ := Option.map_eq_some_iff.mp h
  obtain ⟨rfl, rfl⟩ := Prod.mk.inj h
  rfl

/-- Only a registration that succeeds makes a session accepted. -/
theorem deliver_accepted {o o' : SessionObject} {event : SessionEvent} {ok : Bool}
    (h : o.deliver event ok = some o') (haccepted : o'.stream.accepted = true) :
    o.stream.accepted = true ∨ event = .connected ∧ ok = true := by
  unfold deliver at h
  split at h
  · exact Or.inr ⟨rfl, rfl⟩
  · obtain ⟨request, -, rfl⟩ := Option.map_eq_some_iff.mp h
    exact Or.inl haccepted
  · obtain rfl := Option.some.inj h
    exact Or.inl haccepted

/-- An accepted session stays accepted. -/
theorem accepted_deliver {o o' : SessionObject} {event : SessionEvent} {ok : Bool}
    (h : o.deliver event ok = some o') (haccepted : o.stream.accepted = true) :
    o'.stream.accepted = true := by
  unfold deliver at h
  split at h
  · obtain rfl := Option.some.inj h; rfl
  · obtain ⟨request, -, rfl⟩ := Option.map_eq_some_iff.mp h; exact haccepted
  · obtain rfl := Option.some.inj h; exact haccepted

end SessionObject

end CppDemo.Grpc.ServerAsync
