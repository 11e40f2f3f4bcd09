import CppDemo.Grpc.ServerAsync.Table

/-!
# Tags that wrap around

The shift in `tagify` drops the two top bits of a session id, so that the session created after
`2 ^ 62` others has the tags of session `0`. If session `0` is still in the table then, the accepter
takes the registration of the new session for one of session `0`, and has it process `Connected` a
second time.

The run that leads there is a loop, in which nothing fails. Session `0` has read two requests and
waits for its first write; every other session connects and waits for its first read.

Source: `grpcdemo/server_async.cc`, lines 30–39 and 191–228.

## Main definitions

* `wrapState` : the state at the start of each round of the loop.

## Main results

* `exists_run_wrapState` : the loop reaches every round before the tags wrap around.
* `exists_run_wrappedState` : the round in which they do.
-/

namespace CppDemo.Grpc.ServerAsync

open Transition

/-- A request of the client of session `0`. -/
def wrapRequest (name : String) : HelloRequest := { name }

/-- Session `0` during the loop: the first reply is being written and the second one is queued. -/
def firstSession : SessionObject where
  session :=
    { sessionId := 0
      status := .waitWriteDone
      request := wrapRequest "b"
      messageQueue := [replyTo (wrapRequest "b")] }
  stream :=
    { accepted := true
      sent := [wrapRequest "a", wrapRequest "b", wrapRequest "c"]
      delivered := 2
      calls := [.read, .write (replyTo (wrapRequest "a")), .read, .read] }
  history :=
    { connected := true
      passed := [(.reply, replyTo (wrapRequest "a")), (.reply, replyTo (wrapRequest "b"))]
      readDone := 2 }

/-- A session that has connected and whose first read is in flight. -/
def connectedSession (i : Nat) : SessionObject where
  session := { sessionId := UInt64.ofNat i, status := .readyToWrite }
  stream := { accepted := true, calls := [.read] }
  history := { connected := true }

/-- An operation with the tag that its session gives it. -/
def opOf (session : Nat) (event : SessionEvent) : Op :=
  { session, event, tag := tagify (UInt64.ofNat session) event }

/-- The table that holds the sessions up to `i`. -/
def wrapSessions : Nat → AList fun _ : UInt64 ↦ Nat
  | 0 => AList.singleton 0 0
  | i + 1 => (wrapSessions i).insert (UInt64.ofNat (i + 1)) (i + 1)

/-- What is in flight once the sessions up to `i` have connected. -/
def wrapInFlight : Nat → List Op
  | 0 => [opOf 0 .readDone, opOf 0 .writeDone]
  | i + 1 => opOf (i + 1) .readDone :: wrapInFlight i

/-- The start of a round: the sessions up to `k` have connected, and session `k + 1` waits for its
client. -/
def wrapState (k : Nat) : State where
  running := true
  sessionIdAllocator := UInt64.ofNat (k + 2)
  objects := firstSession :: ((List.range k).map fun i ↦ connectedSession (i + 1)) ++
    [.create (UInt64.ofNat (k + 1))]
  sessions := wrapSessions (k + 1)
  cqConn := ⟨[opOf (k + 1) .connected], [], false, []⟩
  cqReadwrite := ⟨wrapInFlight k, [], false, []⟩
  accepter := .next
  worker := .next
  broadcast := .loopTest
  stop := .notCalled

/-- The actions that lead to the first round. -/
def wrapStart : List Action :=
  [.accepterTest, .accepterAdd, .accepterInsert, .completeConn (opOf 0 .connected) true,
    .accepterNext ⟨opOf 0 .connected, true⟩, .accepterGet, .accepterProcess, .accepterAdd,
    .accepterInsert, .clientSend 0 (wrapRequest "a"), .clientSend 0 (wrapRequest "b"),
    .clientSend 0 (wrapRequest "c"), .workerTest,
    .completeReadwrite (opOf 0 .readDone) true, .workerNext ⟨opOf 0 .readDone, true⟩, .workerGet,
    .workerProcess,
    .completeReadwrite (opOf 0 .readDone) true, .workerNext ⟨opOf 0 .readDone, true⟩, .workerGet,
    .workerProcess]

theorem run_wrapStart : run step .init wrapStart = some (wrapState 0) := by
  rfl

/-- The actions of a round: the client of session `k + 1` connects, and session `k + 2` is
created. -/
def wrapRound (k : Nat) : List Action :=
  [.completeConn (opOf (k + 1) .connected) true, .accepterNext ⟨opOf (k + 1) .connected, true⟩,
    .accepterGet, .accepterProcess, .accepterAdd, .accepterInsert]

/-- A round leads to the next one as long as the ids of its sessions fit into their tags. -/
theorem run_wrapRound {k : Nat} (hk : k + 1 < maxSessions) :
    run step (wrapState k) (wrapRound k) = some (wrapState (k + 1)) := by
  have htag := fun event ↦ detagify_tagify_ofNat hk event
  have hnext : UInt64.ofNat (k + 1 + 1) = UInt64.ofNat (k + 1) + 1 := UInt64.ofNat_add _ _
  have hnext' : UInt64.ofNat (k + 1 + 2) = UInt64.ofNat (k + 1) + 1 + 1 := by
    rw [← hnext]
    exact UInt64.ofNat_add (k + 2) 1
  have hlength : ((List.range k).map fun i ↦ connectedSession (i + 1)).length = k := by simp
  have hconnected : connectedSession (k + 1) =
      { session := { sessionId := UInt64.ofNat (k + 1), status := .readyToWrite }
        stream := { accepted := true, calls := [.read] }
        history := { connected := true } } := rfl
  simp only [wrapState, wrapRound, opOf, wrapSessions, wrapInFlight, hnext, hnext',
    List.range_succ, List.map_append, List.map_cons, List.map_nil, hconnected]
  -- From here on nothing depends on how the id and the older sessions are given.
  generalize UInt64.ofNat (k + 1) = id at *
  generalize wrapSessions k = table
  generalize wrapInFlight k = inFlight
  generalize ((List.range k).map fun i ↦ connectedSession (i + 1)) = older at *
  subst hlength
  have hget : ∀ s : State, s.sessions = table.insert id (older.length + 1) →
      s.getSession id = some (older.length + 1) := fun s hs ↦ by
    rw [State.getSession, hs, AList.lookup_insert]
  simp [run, step, State.completeConn, SessionObject.deliver, CompletionQueue.complete,
    State.accepterNext, CompletionQueue.next, State.accepterGet, State.sessionsExclusive, hget,
    htag, State.accepterProcess, State.processEvent, State.accepterAdd,
    State.addNewSession, State.sessionsShared, State.accepterInsert, SessionObject.processEvent,
    GreeterSession.processEvent_toWord, SessionHistory.record, SessionObject.create,
    CompletionQueue.start, CompletionQueue.attach, State.callOp]

/-- An operation fails. -/
def Action.fails : Action → Bool
  | .completeConn _ ok => !ok
  | .completeReadwrite _ ok => !ok
  | _ => false

/-- The loop reaches every round before the tags wrap around, and no operation fails. -/
theorem exists_run_wrapState {k : Nat} (hk : k < maxSessions) :
    ∃ as, run step .init as = some (wrapState k) ∧ ∀ a ∈ as, a.fails = false := by
  induction k with
  | zero => exact ⟨wrapStart, run_wrapStart, by decide⟩
  | succ k ih =>
    obtain ⟨as, has, hok⟩ := ih (by omega)
    refine ⟨as ++ wrapRound k, (run_append step).mpr ⟨_, has, run_wrapRound hk⟩, fun a ha ↦ ?_⟩
    rcases List.mem_append.mp ha with ha | ha
    · exact hok a ha
    · simp only [wrapRound, List.mem_cons, List.not_mem_nil, or_false] at ha
      rcases ha with rfl | rfl | rfl | rfl | rfl | rfl <;> rfl

/-- Session `0` after it has processed `Connected` a second time. -/
def reconnectedSession : SessionObject :=
  { firstSession with
    session := { firstSession.session with status := .readyToWrite }
    stream := { firstSession.stream with calls := firstSession.stream.calls ++ [.read] } }

/-- Session `0` after it has then answered its third request. -/
def overtakenSession : SessionObject where
  session := { firstSession.session with request := wrapRequest "c" }
  stream :=
    { firstSession.stream with
      delivered := 3
      calls := firstSession.stream.calls ++
        [.read, .write (replyTo (wrapRequest "c")), .read] }
  history :=
    { connected := true
      passed := firstSession.history.passed ++ [(.reply, replyTo (wrapRequest "c"))]
      readDone := 3 }

/-- The sessions after session `0` when the client of session `k + 1` has connected. -/
def wrapOthers (k : Nat) : List SessionObject :=
  ((List.range k).map fun i ↦ connectedSession (i + 1)) ++
    [{ SessionObject.create (UInt64.ofNat (k + 1)) with stream := { accepted := true } }]

/-- The state in which session `0` has processed the registration of session `k + 1`. -/
def wrappedState (k : Nat) : State :=
  { wrapState k with
    objects := reconnectedSession :: wrapOthers k
    cqConn := ⟨[], [], false, []⟩
    cqReadwrite := ⟨opOf 0 .readDone :: wrapInFlight k, [], false, []⟩
    accepter := .addNext 0 }

/-- The state after session `0` has answered its third request. -/
def overtakenState (k : Nat) : State :=
  { wrappedState k with
    objects := overtakenSession :: wrapOthers k
    cqReadwrite := ⟨opOf 0 .readDone :: opOf 0 .writeDone :: wrapInFlight k, [], false, []⟩ }

/-- The table finds session `0`, under the id that the tag of session `2 ^ 62` leads to. -/
theorem lookup_wrapSessions {i : Nat} (hi : i < 2 ^ 64) : (wrapSessions i).lookup 0 = some 0 := by
  induction i with
  | zero => rfl
  | succ i ih =>
    have hne : (0 : UInt64) ≠ UInt64.ofNat (i + 1) := fun h ↦ by
      have heq := congrArg UInt64.toNat h
      rw [UInt64.toNat_ofNat_of_lt' hi] at heq
      exact absurd heq (Nat.succ_ne_zero i).symm
    rw [wrapSessions, AList.lookup_insert_ne hne]
    exact ih (Nat.lt_of_succ_lt hi)

private theorem run_wrappedState_of_tag {k : Nat} (hk : k + 1 < 2 ^ 64)
    (htag : detagify (tagify (UInt64.ofNat (k + 1)) .connected) =
      (0, SessionEvent.connected.toWord)) :
    run step (wrapState k) [.completeConn (opOf (k + 1) .connected) true,
      .accepterNext ⟨opOf (k + 1) .connected, true⟩, .accepterGet, .accepterProcess] =
        some (wrappedState k) := by
  have hlookup := lookup_wrapSessions hk
  have hlength : ((List.range k).map fun i ↦ connectedSession (i + 1)).length = k := by simp
  simp only [wrappedState, wrapState, opOf, wrapOthers]
  generalize UInt64.ofNat (k + 1) = id at *
  generalize wrapSessions (k + 1) = table at *
  generalize wrapInFlight k = inFlight
  generalize ((List.range k).map fun i ↦ connectedSession (i + 1)) = older at *
  subst hlength
  have hget : ∀ s : State, s.sessions = table → s.getSession 0 = some 0 := fun s hs ↦ by
    rw [State.getSession, hs, hlookup]
  simp [run, step, State.completeConn, SessionObject.deliver, CompletionQueue.complete,
    State.accepterNext, CompletionQueue.next, State.accepterGet, State.sessionsExclusive, hget,
    htag, State.accepterProcess, State.processEvent, SessionObject.processEvent,
    GreeterSession.processEvent_toWord, SessionHistory.record, SessionObject.create,
    CompletionQueue.start, CompletionQueue.attach, State.callOp, firstSession,
    reconnectedSession]

private theorem run_overtakenState_of_lt {k : Nat} (hk : k + 1 < 2 ^ 64) :
    run step (wrappedState k) [.completeReadwrite (opOf 0 .readDone) true,
      .workerNext ⟨opOf 0 .readDone, true⟩, .workerGet, .workerProcess] =
        some (overtakenState k) := by
  have htag : detagify (tagify 0 .readDone) = (0, SessionEvent.readDone.toWord) :=
    detagify_tagify (by decide) .readDone
  have hget : ∀ s : State, s.sessions = wrapSessions (k + 1) → s.getSession 0 = some 0 :=
    fun s hs ↦ by
      rw [State.getSession, hs, lookup_wrapSessions hk]
  simp [run, step, wrappedState, overtakenState, State.completeReadwrite, SessionObject.deliver,
    CompletionQueue.complete, State.workerNext, CompletionQueue.next, State.workerGet,
    State.sessionsExclusive, hget, opOf,
    htag, State.workerProcess, State.processEvent, SessionObject.processEvent,
    GreeterSession.processEvent_toWord, SessionHistory.record, SessionHistory.pass,
    CompletionQueue.start, CompletionQueue.attach, State.callOp, firstSession,
    reconnectedSession, overtakenSession, wrapState]

/-- The round in which the tags wrap around. -/
theorem exists_run_wrappedState : ∃ as, run step .init as = some (wrappedState (2 ^ 62 - 1)) ∧
    ∀ a ∈ as, a.fails = false := by
  obtain ⟨as, has, hok⟩ := exists_run_wrapState (k := 2 ^ 62 - 1) (by unfold maxSessions; omega)
  refine ⟨_, (run_append step).mpr ⟨_, has, run_wrappedState_of_tag (by omega) (by decide)⟩,
    fun a ha ↦ ?_⟩
  rcases List.mem_append.mp ha with ha | ha
  · exact hok a ha
  · simp only [List.mem_cons, List.not_mem_nil, or_false] at ha
    rcases ha with rfl | rfl | rfl | rfl <;> rfl

/-- One step of the conversation later. -/
theorem exists_run_overtakenState :
    ∃ as, run step .init as = some (overtakenState (2 ^ 62 - 1)) := by
  obtain ⟨as, has, -⟩ := exists_run_wrappedState
  exact ⟨_, (run_append step).mpr ⟨_, has, run_overtakenState_of_lt (by omega)⟩⟩

end CppDemo.Grpc.ServerAsync
