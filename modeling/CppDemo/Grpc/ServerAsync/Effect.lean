import CppDemo.Grpc.ServerAsync.Server

/-!
# What a step of the server does

`Effect s a t` says what the action `a` does when it leads from `s` to `t`: the condition under
which it is enabled and the state that it leads to. The results about single steps are by cases on
it and do not look into the steps of the threads again.

Source: `grpcdemo/server_async.cc`, lines 191–339.

## Main definitions

* `Effect` : what a step does, one case for each of its outcomes.

## Main results

* `effect_of_step` : every step has its effect.
* `objects_of_step` : what a step does to the session objects.
-/

namespace CppDemo.Grpc.ServerAsync

open State

/-- What processing an event does to the state: the session object changes and its stream calls
start reads and writes. -/
theorem State.processEvent_eq_some {s t : State} {i : Nat} {event : UInt64} :
    s.processEvent i event = some t ↔ ∃ o o' calls, s.objects[i]? = some o ∧
      o.processEvent event = some (o', calls) ∧
      t = { s with
        objects := s.objects.set i o'
        cqReadwrite := s.cqReadwrite.startAll (calls.map (callOp i o.session.sessionId)) } := by
  constructor
  · intro h
    obtain ⟨o, ho, h⟩ := Option.bind_eq_some_iff.mp h
    obtain ⟨⟨o', calls⟩, hp, rfl⟩ := Option.map_eq_some_iff.mp h
    exact ⟨o, o', calls, ho, hp, rfl⟩
  · rintro ⟨o, o', calls, ho, hp, rfl⟩
    simp only [processEvent, ho, hp, Option.bind_some, Option.map_some]

/-- The effect of an action on the state `s`. -/
inductive Effect (s : State) : Action → State → Prop
  | clientSend {i o request} (ho : s.objects[i]? = some o) (hopen : o.stream.halfClosed = false) :
      Effect s (.clientSend i request)
        { s with
          objects := s.objects.set i
            { o with stream := { o.stream with sent := o.stream.sent ++ [request] } } }
  | clientHalfClose {i o} (ho : s.objects[i]? = some o) :
      Effect s (.clientHalfClose i)
        { s with
          objects := s.objects.set i { o with stream := { o.stream with halfClosed := true } } }
  | completeConn {op ok o o' cqConn} (ho : s.objects[op.session]? = some o)
      (hd : o.deliver op.event ok = some o') (hq : s.cqConn.complete op ok = some cqConn) :
      Effect s (.completeConn op ok)
        { s with objects := s.objects.set op.session o', cqConn }
  | completeReadwrite {op ok o o' cqReadwrite} (ho : s.objects[op.session]? = some o)
      (hd : o.deliver op.event ok = some o')
      (hq : s.cqReadwrite.complete op ok = some cqReadwrite) :
      Effect s (.completeReadwrite op ok)
        { s with objects := s.objects.set op.session o', cqReadwrite }
  | accepterTest (hpc : s.accepter = .loopTest) :
      Effect s .accepterTest
        { s with accepter := if s.running then .addFirst else .finished }
  /-- The first `AddNewSession`, or the one that follows a connection. -/
  | accepterAdd {held} (hpc : s.accepter = held.elim .addFirst .addNext)
      (hexclusive : s.sessionsExclusive = false) (hshared : s.sessionsShared = false) :
      Effect s .accepterAdd
        { s with
          sessionIdAllocator := s.sessionIdAllocator + 1
          objects := s.objects ++ [.create s.sessionIdAllocator]
          cqConn := s.cqConn.start
            ⟨s.objects.length, .connected, tagify s.sessionIdAllocator .connected⟩
          cqReadwrite := s.cqReadwrite.attach
            ⟨s.objects.length, .connected, tagify s.sessionIdAllocator .connected⟩
          accepter := .insert s.sessionIdAllocator s.objects.length held }
  | accepterInsert {sessionId session held} (hpc : s.accepter = .insert sessionId session held) :
      Effect s .accepterInsert
        { s with sessions := s.sessions.insert sessionId session, accepter := .next }
  | accepterNext {c cqConn} (hpc : s.accepter = .next) (hq : s.cqConn.next c = some cqConn) :
      Effect s (.accepterNext c) { s with cqConn, accepter := .lookup c }
  | accepterDrained (hpc : s.accepter = .next) (hq : s.cqConn.Drained) :
      Effect s .accepterDrained { s with accepter := .loopTest }
  /-- There is no session for the completion. -/
  | accepterDrop {c} (hpc : s.accepter = .lookup c) (hexclusive : s.sessionsExclusive = false)
      (hi : s.getSession (detagify c.op.tag).1 = none) :
      Effect s .accepterGet { s with accepter := .next }
  | accepterGet {c i} (hpc : s.accepter = .lookup c) (hexclusive : s.sessionsExclusive = false)
      (hi : s.getSession (detagify c.op.tag).1 = some i) :
      Effect s .accepterGet { s with accepter := .handle c i }
  | accepterRemove {c i} (hpc : s.accepter = .handle c i) (hok : c.ok = false)
      (hexclusive : s.sessionsExclusive = false) (hshared : s.sessionsShared = false) :
      Effect s .accepterRemove
        { s with sessions := s.sessions.erase (detagify c.op.tag).1, accepter := .next }
  | accepterAbort {c i} (hpc : s.accepter = .handle c i) (hok : c.ok = true)
      (hfail : (detagify c.op.tag).2 = SessionEvent.connected.toWord →
        s.processEvent i (detagify c.op.tag).2 = none) :
      Effect s .accepterProcess { s with accepter := .aborted }
  | accepterProcess {c i o o' calls} (hpc : s.accepter = .handle c i) (hok : c.ok = true)
      (hevent : (detagify c.op.tag).2 = SessionEvent.connected.toWord)
      (ho : s.objects[i]? = some o)
      (hp : o.processEvent (detagify c.op.tag).2 = some (o', calls)) :
      Effect s .accepterProcess
        { s with
          objects := s.objects.set i o'
          cqReadwrite := s.cqReadwrite.startAll (calls.map (callOp i o.session.sessionId))
          accepter := .addNext i }
  | workerTest (hpc : s.worker = .loopTest) :
      Effect s .workerTest { s with worker := if s.running then .next else .finished }
  | workerNext {c cqReadwrite} (hpc : s.worker = .next)
      (hq : s.cqReadwrite.next c = some cqReadwrite) :
      Effect s (.workerNext c) { s with cqReadwrite, worker := .lookup c }
  | workerDrained (hpc : s.worker = .next) (hq : s.cqReadwrite.Drained) :
      Effect s .workerDrained { s with worker := .loopTest }
  /-- There is no session for the completion. -/
  | workerDrop {c} (hpc : s.worker = .lookup c) (hexclusive : s.sessionsExclusive = false)
      (hi : s.getSession (detagify c.op.tag).1 = none) :
      Effect s .workerGet { s with worker := .next }
  | workerGet {c i} (hpc : s.worker = .lookup c) (hexclusive : s.sessionsExclusive = false)
      (hi : s.getSession (detagify c.op.tag).1 = some i) :
      Effect s .workerGet { s with worker := .handle c i }
  | workerRemove {c i} (hpc : s.worker = .handle c i) (hok : c.ok = false)
      (hexclusive : s.sessionsExclusive = false) (hshared : s.sessionsShared = false) :
      Effect s .workerRemove
        { s with sessions := s.sessions.erase (detagify c.op.tag).1, worker := .next }
  | workerAbort {c i} (hpc : s.worker = .handle c i) (hok : c.ok = true)
      (hfail : (detagify c.op.tag).2 = SessionEvent.readDone.toWord ∨
        (detagify c.op.tag).2 = SessionEvent.writeDone.toWord →
        s.processEvent i (detagify c.op.tag).2 = none) :
      Effect s .workerProcess { s with worker := .aborted }
  | workerProcess {c i o o' calls} (hpc : s.worker = .handle c i) (hok : c.ok = true)
      (hevent : (detagify c.op.tag).2 = SessionEvent.readDone.toWord ∨
        (detagify c.op.tag).2 = SessionEvent.writeDone.toWord)
      (ho : s.objects[i]? = some o)
      (hp : o.processEvent (detagify c.op.tag).2 = some (o', calls)) :
      Effect s .workerProcess
        { s with
          objects := s.objects.set i o'
          cqReadwrite := s.cqReadwrite.startAll (calls.map (callOp i o.session.sessionId))
          worker := .next }
  | broadcastTest (hpc : s.broadcast = .loopTest) :
      Effect s .broadcastTest { s with broadcast := if s.running then .lock else .finished }
  | broadcastLock (hpc : s.broadcast = .lock) (hexclusive : s.sessionsExclusive = false) :
      Effect s .broadcastLock { s with broadcast := .retest }
  | broadcastRetest (hpc : s.broadcast = .retest) :
      Effect s .broadcastRetest
        { s with broadcast := if s.running then .round s.sessions.keys else .finished }
  | broadcastSend {k i o remaining} (hpc : s.broadcast = .round remaining) (hk : k ∈ remaining)
      (hi : s.getSession k = some i) (ho : s.objects[i]? = some o) :
      Effect s (.broadcastSend k)
        { s with
          objects := s.objects.set i (o.sendBroadcast broadcastMessage).1
          cqReadwrite := s.cqReadwrite.startAll
            ((o.sendBroadcast broadcastMessage).2.map (callOp i o.session.sessionId))
          broadcast := .round (remaining.erase k) }
  | broadcastUnlock (hpc : s.broadcast = .round []) :
      Effect s .broadcastUnlock { s with broadcast := .loopTest }
  | stopTest (hpc : s.stop = .notCalled) :
      Effect s .stopTest { s with stop := if s.running then .store else .finished }
  | stopStore (hpc : s.stop = .store) :
      Effect s .stopStore { s with running := false, stop := .lock }
  | stopLock (hpc : s.stop = .lock) (hexclusive : s.sessionsExclusive = false)
      (hshared : s.sessionsShared = false) :
      Effect s .stopLock { s with stop := .cancelling s.sessions.keys }
  | stopCancel {k i o remaining} (hpc : s.stop = .cancelling remaining) (hk : k ∈ remaining)
      (hi : s.getSession k = some i) (ho : s.objects[i]? = some o) :
      Effect s (.stopCancel k)
        { s with
          objects := s.objects.set i
            { o with
              stream := { o.stream with
                cancelled := o.stream.cancelled || o.session.status ≠ .waitToConnect } }
          stop := .cancelling (remaining.erase k) }
  | stopUnlock (hpc : s.stop = .cancelling []) :
      Effect s .stopUnlock { s with stop := .shutdownServer }
  | stopShutdownServer (hpc : s.stop = .shutdownServer) :
      Effect s .stopShutdownServer { s with stop := .waitServer }
  | stopServerDone (hpc : s.stop = .waitServer) :
      Effect s .stopServerDone { s with stop := .shutdownConn }
  | stopShutdownConn (hpc : s.stop = .shutdownConn) :
      Effect s .stopShutdownConn
        { s with cqConn := s.cqConn.shutdown, stop := .shutdownReadwrite }
  | stopShutdownReadwrite (hpc : s.stop = .shutdownReadwrite) :
      Effect s .stopShutdownReadwrite
        { s with cqReadwrite := s.cqReadwrite.shutdown, stop := .finished }

section Actions

variable {s t : State}

/-! ### Clients and gRPC -/

theorem effect_of_clientSend {i : Nat} {request : HelloRequest}
    (h : s.clientSend i request = some t) : Effect s (.clientSend i request) t := by
  obtain ⟨o, ho, h⟩ := Option.bind_eq_some_iff.mp h
  obtain ⟨hopen, h⟩ := Option.ite_none_left_eq_some.mp h
  obtain rfl := Option.some.inj h
  exact .clientSend ho (Bool.eq_false_iff.mpr hopen)

theorem effect_of_completeConn {op : Op} {ok : Bool} (h : s.completeConn op ok = some t) :
    Effect s (.completeConn op ok) t := by
  obtain ⟨o, ho, h⟩ := Option.bind_eq_some_iff.mp h
  obtain ⟨o', hd, h⟩ := Option.bind_eq_some_iff.mp h
  obtain ⟨q, hq, rfl⟩ := Option.map_eq_some_iff.mp h
  exact .completeConn ho hd hq

theorem effect_of_completeReadwrite {op : Op} {ok : Bool}
    (h : s.completeReadwrite op ok = some t) : Effect s (.completeReadwrite op ok) t := by
  obtain ⟨o, ho, h⟩ := Option.bind_eq_some_iff.mp h
  obtain ⟨o', hd, h⟩ := Option.bind_eq_some_iff.mp h
  obtain ⟨q, hq, rfl⟩ := Option.map_eq_some_iff.mp h
  exact .completeReadwrite ho hd hq

/-! ### The accepter thread -/

theorem effect_of_addNewSession (held : Option Nat)
    (hpc : s.accepter = held.elim .addFirst .addNext) (h : s.addNewSession held = some t) :
    Effect s .accepterAdd t := by
  obtain ⟨hlock, h⟩ := Option.ite_none_left_eq_some.mp h
  obtain rfl := Option.some.inj h
  simp only [Bool.or_eq_true, not_or, Bool.not_eq_true] at hlock
  exact .accepterAdd hpc hlock.1 hlock.2

theorem effect_of_accepterAdd (h : s.accepterAdd = some t) : Effect s .accepterAdd t := by
  unfold accepterAdd at h
  split at h
  next hpc => exact effect_of_addNewSession none hpc h
  next hpc => exact effect_of_addNewSession (some _) hpc h
  next => cases h

theorem effect_of_accepterNext {c : Completion Op} (h : s.accepterNext c = some t) :
    Effect s (.accepterNext c) t := by
  unfold accepterNext at h
  split at h
  next hpc =>
    obtain ⟨q, hq, rfl⟩ := Option.map_eq_some_iff.mp h
    exact .accepterNext hpc hq
  next => cases h

theorem effect_of_accepterDrained (h : s.accepterDrained = some t) :
    Effect s .accepterDrained t := by
  unfold accepterDrained at h
  split at h
  next hpc =>
    obtain ⟨hq, h⟩ := Option.ite_none_right_eq_some.mp h
    obtain rfl := Option.some.inj h
    exact .accepterDrained hpc hq
  next => cases h

theorem effect_of_accepterGet (h : s.accepterGet = some t) : Effect s .accepterGet t := by
  unfold accepterGet at h
  split at h
  next hpc =>
    obtain ⟨hexclusive, h⟩ := Option.ite_none_left_eq_some.mp h
    rw [Bool.not_eq_true] at hexclusive
    split at h
    next hi =>
      obtain rfl := Option.some.inj h
      exact .accepterDrop hpc hexclusive hi
    next hi =>
      obtain rfl := Option.some.inj h
      exact .accepterGet hpc hexclusive hi
  next => cases h

theorem effect_of_accepterRemove (h : s.accepterRemove = some t) : Effect s .accepterRemove t := by
  unfold accepterRemove at h
  split at h
  next hpc =>
    obtain ⟨hlock, h⟩ := Option.ite_none_left_eq_some.mp h
    obtain rfl := Option.some.inj h
    simp only [Bool.or_eq_true, not_or, Bool.not_eq_true] at hlock
    obtain ⟨⟨hok, hexclusive⟩, hshared⟩ := hlock
    exact .accepterRemove hpc hok hexclusive hshared
  next => cases h

theorem effect_of_accepterProcess (h : s.accepterProcess = some t) :
    Effect s .accepterProcess t := by
  unfold accepterProcess at h
  split at h
  next hpc =>
    obtain ⟨hok, h⟩ := Option.ite_none_left_eq_some.mp h
    rw [Bool.not_eq_true, Bool.not_eq_false'] at hok
    split_ifs at h with hevent
    · obtain rfl := Option.some.inj h
      exact .accepterAbort hpc hok fun heq ↦ absurd heq hevent
    split at h
    next hprocess =>
      obtain rfl := Option.some.inj h
      obtain ⟨o, o', calls, ho, hp, rfl⟩ := processEvent_eq_some.mp hprocess
      exact .accepterProcess hpc hok (not_ne_iff.mp hevent) ho hp
    next hprocess =>
      obtain rfl := Option.some.inj h
      exact .accepterAbort hpc hok fun _ ↦ hprocess
  next => cases h

/-! ### The worker thread -/

theorem effect_of_workerNext {c : Completion Op} (h : s.workerNext c = some t) :
    Effect s (.workerNext c) t := by
  unfold workerNext at h
  split at h
  next hpc =>
    obtain ⟨q, hq, rfl⟩ := Option.map_eq_some_iff.mp h
    exact .workerNext hpc hq
  next => cases h

theorem effect_of_workerDrained (h : s.workerDrained = some t) : Effect s .workerDrained t := by
  unfold workerDrained at h
  split at h
  next hpc =>
    obtain ⟨hq, h⟩ := Option.ite_none_right_eq_some.mp h
    obtain rfl := Option.some.inj h
    exact .workerDrained hpc hq
  next => cases h

theorem effect_of_workerGet (h : s.workerGet = some t) : Effect s .workerGet t := by
  unfold workerGet at h
  split at h
  next hpc =>
    obtain ⟨hexclusive, h⟩ := Option.ite_none_left_eq_some.mp h
    rw [Bool.not_eq_true] at hexclusive
    split at h
    next hi =>
      obtain rfl := Option.some.inj h
      exact .workerDrop hpc hexclusive hi
    next hi =>
      obtain rfl := Option.some.inj h
      exact .workerGet hpc hexclusive hi
  next => cases h

theorem effect_of_workerRemove (h : s.workerRemove = some t) : Effect s .workerRemove t := by
  unfold workerRemove at h
  split at h
  next hpc =>
    obtain ⟨hlock, h⟩ := Option.ite_none_left_eq_some.mp h
    obtain rfl := Option.some.inj h
    simp only [Bool.or_eq_true, not_or, Bool.not_eq_true] at hlock
    obtain ⟨⟨hok, hexclusive⟩, hshared⟩ := hlock
    exact .workerRemove hpc hok hexclusive hshared
  next => cases h

theorem effect_of_workerProcess (h : s.workerProcess = some t) : Effect s .workerProcess t := by
  unfold workerProcess at h
  split at h
  next hpc =>
    obtain ⟨hok, h⟩ := Option.ite_none_left_eq_some.mp h
    rw [Bool.not_eq_true, Bool.not_eq_false'] at hok
    split_ifs at h with hevent
    · obtain rfl := Option.some.inj h
      exact .workerAbort hpc hok fun heq ↦ absurd heq (not_or.mpr hevent)
    replace hevent := or_iff_not_and_not.mpr hevent
    split at h
    next hprocess =>
      obtain rfl := Option.some.inj h
      obtain ⟨o, o', calls, ho, hp, rfl⟩ := processEvent_eq_some.mp hprocess
      exact .workerProcess hpc hok hevent ho hp
    next hprocess =>
      obtain rfl := Option.some.inj h
      exact .workerAbort hpc hok fun _ ↦ hprocess
  next => cases h

/-! ### The broadcast thread and `Stop` -/

theorem effect_of_broadcastLock (h : s.broadcastLock = some t) : Effect s .broadcastLock t := by
  unfold broadcastLock at h
  split at h
  next hpc =>
    obtain ⟨hexclusive, h⟩ := Option.ite_none_left_eq_some.mp h
    obtain rfl := Option.some.inj h
    exact .broadcastLock hpc (Bool.eq_false_iff.mpr hexclusive)
  next => cases h

theorem effect_of_broadcastSend {k : UInt64} (h : s.broadcastSend k = some t) :
    Effect s (.broadcastSend k) t := by
  unfold broadcastSend at h
  split at h
  next hpc =>
    obtain ⟨hk, h⟩ := Option.ite_none_right_eq_some.mp h
    obtain ⟨i, hi, h⟩ := Option.bind_eq_some_iff.mp h
    obtain ⟨o, ho, rfl⟩ := Option.map_eq_some_iff.mp h
    exact .broadcastSend hpc hk hi ho
  next => cases h

theorem effect_of_stopLock (h : s.stopLock = some t) : Effect s .stopLock t := by
  unfold stopLock at h
  split at h
  next hpc =>
    obtain ⟨hlock, h⟩ := Option.ite_none_left_eq_some.mp h
    obtain rfl := Option.some.inj h
    simp only [Bool.or_eq_true, not_or, Bool.not_eq_true] at hlock
    exact .stopLock hpc hlock.1 hlock.2
  next => cases h

theorem effect_of_stopCancel {k : UInt64} (h : s.stopCancel k = some t) :
    Effect s (.stopCancel k) t := by
  unfold stopCancel at h
  split at h
  next hpc =>
    obtain ⟨hk, h⟩ := Option.ite_none_right_eq_some.mp h
    obtain ⟨i, hi, h⟩ := Option.bind_eq_some_iff.mp h
    obtain ⟨o, ho, rfl⟩ := Option.map_eq_some_iff.mp h
    exact .stopCancel hpc hk hi ho
  next => cases h

end Actions

/-- Every step has its effect. -/
theorem effect_of_step {s t : State} {a : Action} (h : step s a = some t) : Effect s a t := by
  cases a with
  | clientSend => exact effect_of_clientSend h
  | clientHalfClose =>
    obtain ⟨o, ho, rfl⟩ := Option.map_eq_some_iff.mp h
    exact .clientHalfClose ho
  | completeConn => exact effect_of_completeConn h
  | completeReadwrite => exact effect_of_completeReadwrite h
  | accepterAdd => exact effect_of_accepterAdd h
  | accepterNext => exact effect_of_accepterNext h
  | accepterDrained => exact effect_of_accepterDrained h
  | accepterGet => exact effect_of_accepterGet h
  | accepterRemove => exact effect_of_accepterRemove h
  | accepterProcess => exact effect_of_accepterProcess h
  | workerNext => exact effect_of_workerNext h
  | workerDrained => exact effect_of_workerDrained h
  | workerGet => exact effect_of_workerGet h
  | workerRemove => exact effect_of_workerRemove h
  | workerProcess => exact effect_of_workerProcess h
  | broadcastLock => exact effect_of_broadcastLock h
  | broadcastSend => exact effect_of_broadcastSend h
  | stopLock => exact effect_of_stopLock h
  | stopCancel => exact effect_of_stopCancel h
  -- a thread goes from one place to the next without a condition
  | accepterTest | accepterInsert | workerTest | broadcastTest | broadcastRetest
  | broadcastUnlock | stopTest | stopStore | stopUnlock | stopShutdownServer | stopServerDone
  | stopShutdownConn | stopShutdownReadwrite =>
    simp only [step, accepterTest, accepterInsert, workerTest, broadcastTest, broadcastRetest,
      broadcastUnlock, stopTest, stopStore, stopUnlock, stopShutdownServer, stopServerDone,
      stopShutdownConn, stopShutdownReadwrite] at h
    split at h
    · obtain rfl := Option.some.inj h
      constructor
      assumption
    · cases h

/-! ### The session objects -/

/-- A registration that succeeds. -/
def Action.registers : Action → Bool
  | .completeConn op ok | .completeReadwrite op ok => op.event = .connected && ok
  | _ => false

/-- What the action `a` keeps of a session object `o` that it turns into `o'`: the id of the
session, and that its call was accepted, which only a registration can change. -/
structure SessionObject.Kept (a : Action) (o o' : SessionObject) : Prop where
  sessionId : o'.session.sessionId = o.session.sessionId
  accepted : o.stream.accepted = true → o'.stream.accepted = true
  accepted_or : o'.stream.accepted = true → o.stream.accepted = true ∨ a.registers = true

/-- A step constructs a session object, changes one or leaves all of them alone. -/
theorem objects_of_step {s t : State} {a : Action} (h : step s a = some t) :
    t.objects = s.objects ∨
      a = .accepterAdd ∧ t.objects = s.objects ++ [.create s.sessionIdAllocator] ∨
      ∃ i o o', s.objects[i]? = some o ∧ o.Kept a o' ∧ t.objects = s.objects.set i o' := by
  cases effect_of_step h with
  | accepterAdd => exact Or.inr (Or.inl ⟨rfl, rfl⟩)
  | clientSend ho | clientHalfClose ho | stopCancel _ _ _ ho =>
    refine Or.inr (Or.inr ⟨_, _, _, ho, ?_, rfl⟩)
    exact ⟨rfl, id, Or.inl⟩
  | completeConn ho hd | completeReadwrite ho hd =>
    refine Or.inr (Or.inr ⟨_, _, _, ho, ?_, rfl⟩)
    refine ⟨SessionObject.deliver_sessionId hd, SessionObject.accepted_deliver hd, fun h ↦ ?_⟩
    exact (SessionObject.deliver_accepted hd h).imp_right fun ⟨hevent, hok⟩ ↦ by
      simp [Action.registers, hevent, hok]
  | accepterProcess _ _ _ ho hp | workerProcess _ _ _ ho hp =>
    have haccepted := SessionObject.processEvent_accepted hp
    refine Or.inr (Or.inr ⟨_, _, _, ho, ?_, rfl⟩)
    exact ⟨SessionObject.processEvent_sessionId hp, haccepted.trans,
      fun h ↦ Or.inl (haccepted.symm.trans h)⟩
  | broadcastSend _ _ _ ho =>
    refine Or.inr (Or.inr ⟨_, _, _, ho, ?_, rfl⟩)
    exact ⟨SessionObject.sendBroadcast_sessionId .., id, Or.inl⟩
  | _ => exact Or.inl rfl

/-- Session objects are never forgotten. -/
theorem length_le_of_step {s t : State} {a : Action} (h : step s a = some t) :
    s.objects.length ≤ t.objects.length := by
  rcases objects_of_step h with heq | ⟨-, heq⟩ | ⟨i, o, o', -, -, heq⟩ <;> simp [heq]

end CppDemo.Grpc.ServerAsync
