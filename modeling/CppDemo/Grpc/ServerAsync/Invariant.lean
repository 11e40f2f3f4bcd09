import CppDemo.Grpc.ServerAsync.Loops

/-!
# The invariant of the asynchronous server

Every step of the server is a step of its session table or leaves the table as it is, in the runs
that create at most `2 ^ 62` sessions. So the table keeps its invariant, and no assertion of the
accepter and the worker fails.

## Main results

* `State.Inv.of_step` : every step keeps the invariant.
* `State.Inv.remove_cases`, `State.Inv.process_cases` : what a loop does with the session that it
  has found.
* `inv_of_run` : the invariant holds in every state of a run.
-/

namespace CppDemo.Grpc.ServerAsync

open State

theorem State.inv_init : State.init.Inv where
  table :=
    { allocator := rfl
      sessionId := by simp [State.table, State.init]
      ops := fun t ht ↦ absurd ht (Multiset.notMem_zero t)
      keys := by simp [State.table, State.init]
      constructing := by simp [State.table, State.init, AccepterPc.constructing]
      view := by simp [State.table, State.init] }
  deals loop t ht := by cases loop <;> exact absurd ht (Multiset.notMem_zero t)
  place loop := by cases loop <;> trivial

namespace State

variable {s t : State}

/-! ### The accepter thread -/

/-- `AddNewSession` constructs a session with its registration in flight. -/
theorem Inv.of_accepterAdd (hs : s.Inv) (h : Effect s .accepterAdd t)
    (hb : t.objects.length ≤ maxSessions) : t.Inv := by
  cases h with
  | @accepterAdd held hpc =>
    have hhand : s.accepter.hand = 0 := by cases held <;> rw [hpc] <;> rfl
    have hconstructing : s.accepter.constructing = none := by cases held <;> rw [hpc] <;> rfl
    have hpending (op : Op) : (s.cqConn.start op).pending = (op, none) ::ₘ s.cqConn.pending :=
      CompletionQueue.pending_start _ op
    refine hs.of_tableStep hb ?_ (fun loop ↦ ?_) fun loop ↦ ?_
    · have hstep := TableStep.construct (T := s.table) hconstructing
      simp only [State.table, connPending, readwritePending, hhand, hpending, Multiset.zero_add,
        CompletionQueue.pending_attach] at hstep ⊢
      simp only [AccepterPc.hand, Multiset.zero_add, Multiset.cons_add]
      exact hstep
    · cases loop with
      | worker => exact hs.readwrite
      | accepter =>
        intro p hp
        simp only [loopPending, connPending, AccepterPc.hand, hpending, Multiset.zero_add,
          Multiset.mem_cons] at hp
        rcases hp with rfl | hp
        · rfl
        · exact hs.conn p (Multiset.mem_add.mpr (Or.inr hp))
    · cases loop with
      | worker => exact hs.worker
      | accepter => exact hs.table.allocator

/-- `AddNewSession` inserts the session. -/
theorem Inv.of_accepterInsert (hs : s.Inv) {sessionId : UInt64} {session : Nat}
    {held : Option Nat} (hpc : s.accepter = .insert sessionId session held)
    (hb : s.objects.length ≤ maxSessions) :
    State.Inv { s with sessions := s.sessions.insert sessionId session, accepter := .next } := by
  have hid := hs.accepter
  simp only [AccepterInv, hpc] at hid
  subst hid
  have hconstructing : s.table.constructing = some session := by
    simp only [State.table, hpc, AccepterPc.constructing]
  refine hs.of_tableStep hb ?_ (fun loop ↦ ?_) fun loop ↦ ?_
  · have hstep := TableStep.insert (T := s.table) hconstructing
    simp only [State.table, connPending, hpc, AccepterPc.hand] at hstep ⊢
    exact hstep
  · cases loop with
    | worker => exact hs.readwrite
    | accepter =>
      intro p hp
      refine hs.conn p ?_
      simpa only [loopPending, connPending, hpc, AccepterPc.hand] using hp
  · cases loop with
    | accepter => trivial
    | worker =>
      refine LoopInv.of_lookup (hs.place .worker) fun c i _ hi ↦ ?_
      by_cases hkey : UInt64.ofNat i = UInt64.ofNat session
      · have hlt : i < s.objects.length := (hs.table.keys _ i hi).1
        have hlt' : session < s.objects.length := (hs.table.constructing _ hconstructing).1
        rw [(ofNat_inj (by omega) (by omega)).mp hkey, AList.lookup_insert]
      · rw [AList.lookup_insert_ne hkey]
        exact hi

/-! ### The session that a loop has found -/

/-- A loop removes the session of an operation of its own that has failed. -/
theorem Inv.remove_cases (hs : s.Inv) (loop : Loop) (hb : s.objects.length ≤ maxSessions)
    (h : s.loopRemove loop = some t) :
    ∃ c, s.handled loop = some (c, c.op.session) ∧ c.ok = false ∧
      s.sessions.lookup (UInt64.ofNat c.op.session) = some c.op.session ∧
      t = toNext { s with sessions := s.sessions.erase (UInt64.ofNat c.op.session) } loop := by
  obtain ⟨c, i, hhandled, hok, rfl⟩ : ∃ c i, s.handled loop = some (c, i) ∧ c.ok = false ∧
      t = toNext { s with sessions := s.sessions.erase (detagify c.op.tag).1 } loop := by
    cases loop with
    | accepter =>
      cases effect_of_step (a := .accepterRemove) h with
      | accepterRemove hpc hok => exact ⟨_, _, congrArg AccepterPc.handled hpc, hok, rfl⟩
    | worker =>
      cases effect_of_step (a := .workerRemove) h with
      | workerRemove hpc hok => exact ⟨_, _, congrArg WorkerPc.handled hpc, hok, rfl⟩
  obtain ⟨rfl, hlookup, htag, -⟩ := hs.taken loop hb hhandled
  exact ⟨c, hhandled, hok, hlookup, by rw [htag]⟩

/-- A loop has the session of an operation of its own that is done process the event. -/
theorem Inv.process_cases (hs : s.Inv) (loop : Loop) (hb : s.objects.length ≤ maxSessions)
    (h : s.loopProcess loop = some t) :
    ∃ c o o' calls, s.handled loop = some (c, c.op.session) ∧ c.ok = true ∧
      loop.Deals c.op.event ∧
      s.sessions.lookup (UInt64.ofNat c.op.session) = some c.op.session ∧
      s.objects[c.op.session]? = some o ∧
      o.processEvent c.op.event.toWord = some (o', calls) ∧
      t = { s.toNextAfter c.op.session loop with
        objects := s.objects.set c.op.session o'
        cqReadwrite :=
          s.cqReadwrite.startAll (calls.map (callOp c.op.session o.session.sessionId)) } := by
  obtain ⟨c, i, o, o', calls, hhandled, hok, ho, hp, rfl⟩ :
      ∃ c i o o' calls, s.handled loop = some (c, i) ∧ c.ok = true ∧ s.objects[i]? = some o ∧
        o.processEvent (detagify c.op.tag).2 = some (o', calls) ∧
        t = { s.toNextAfter i loop with
          objects := s.objects.set i o'
          cqReadwrite := s.cqReadwrite.startAll (calls.map (callOp i o.session.sessionId)) } := by
    cases loop with
    | accepter =>
      cases effect_of_step (a := .accepterProcess) h with
      | accepterAbort hpc _ hfail =>
        have hhandled : s.handled .accepter = some (_, _) := congrArg AccepterPc.handled hpc
        obtain ⟨-, -, htag, hevent⟩ := hs.taken .accepter hb hhandled
        refine absurd (hfail ?_) (hs.processEvent_ne_none hb hhandled)
        rw [htag]
        exact congrArg SessionEvent.toWord hevent
      | accepterProcess hpc hok _ ho hp =>
        exact ⟨_, _, _, _, _, congrArg AccepterPc.handled hpc, hok, ho, hp, rfl⟩
    | worker =>
      cases effect_of_step (a := .workerProcess) h with
      | workerAbort hpc _ hfail =>
        have hhandled : s.handled .worker = some (_, _) := congrArg WorkerPc.handled hpc
        obtain ⟨-, -, htag, hevent⟩ := hs.taken .worker hb hhandled
        refine absurd (hfail ?_) (hs.processEvent_ne_none hb hhandled)
        rw [htag]
        exact hevent.imp (congrArg SessionEvent.toWord) (congrArg SessionEvent.toWord)
      | workerProcess hpc hok _ ho hp =>
        exact ⟨_, _, _, _, _, congrArg WorkerPc.handled hpc, hok, ho, hp, rfl⟩
  obtain ⟨rfl, hlookup, htag, hevent⟩ := hs.taken loop hb hhandled
  rw [htag] at hp
  exact ⟨c, o, o', calls, hhandled, hok, hevent, hlookup, ho, hp, rfl⟩

theorem Inv.of_loopRemove (hs : s.Inv) (loop : Loop) (hb : s.objects.length ≤ maxSessions)
    (h : s.loopRemove loop = some t) : t.Inv := by
  obtain ⟨c, hhandled, hok, -, rfl⟩ := hs.remove_cases loop hb h
  exact hs.of_remove loop hb hhandled hok

theorem Inv.of_loopProcess (hs : s.Inv) (loop : Loop) (hb : s.objects.length ≤ maxSessions)
    (h : s.loopProcess loop = some t) : t.Inv := by
  obtain ⟨c, o, o', calls, hhandled, hok, -, -, ho, hp, rfl⟩ := hs.process_cases loop hb h
  have hnext := hs.of_process loop hb hhandled hok ho hp
  cases loop with
  | accepter => exact hnext.of_accepter rfl rfl trivial
  | worker => exact hnext

/-! ### The broadcast thread -/

theorem Inv.of_broadcastSend (hs : s.Inv) {k : UInt64} {i : Nat} {o : SessionObject}
    (hi : s.getSession k = some i) (ho : s.objects[i]? = some o) (broadcast : BroadcastPc)
    (hb : s.objects.length ≤ maxSessions) :
    State.Inv { s with
      objects := s.objects.set i (o.sendBroadcast broadcastMessage).1
      cqReadwrite := s.cqReadwrite.startAll
        ((o.sendBroadcast broadcastMessage).2.map (callOp i o.session.sessionId))
      broadcast } := by
  have hkey := (hs.table.keys _ i hi).2
  have hlife : s.table.life i = .registered := hs.table.life_eq_registered (hkey ▸ hi)
  have hstep := TableStep.broadcast (T := s.table) ho hlife broadcastMessage
  have htable := table_startAll { s with broadcast } i o.session.sessionId
    (o.sendBroadcast broadcastMessage).2 (s.objects.set i (o.sendBroadcast broadcastMessage).1)
  refine hs.of_tableStep (by simpa using hb) (htable ▸ hstep) ?_ fun loop ↦ ?_
  · exact deals_startAll (s := { s with broadcast }) hs.deals i o.session.sessionId _ _
  · cases loop
    exacts [hs.accepter, hs.worker]

/-! ### Stop -/

theorem Inv.of_stopCancel (hs : s.Inv) {i : Nat} {o : SessionObject}
    (ho : s.objects[i]? = some o) (cancelled : Bool) (stop : StopPc)
    (hb : s.objects.length ≤ maxSessions) :
    State.Inv { s with
      objects := s.objects.set i { o with stream := { o.stream with cancelled } }, stop } := by
  have hclient : State.Inv { s with
      objects := s.objects.set i { o with stream := { o.stream with cancelled } } } :=
    hs.of_client ho rfl rfl ⟨[], o.stream.halfClosed, cancelled, by simp⟩ hb
  refine ⟨hclient.table, fun loop ↦ ?_, fun loop ↦ ?_⟩
  · cases loop
    exacts [hclient.conn, hclient.readwrite]
  · cases loop
    exacts [hclient.accepter, hclient.worker]

/-! ### All steps -/

/-- Every step keeps the invariant. -/
theorem Inv.of_step (hs : s.Inv) {a : Action} (h : step s a = some t)
    (hb : t.objects.length ≤ maxSessions) (hle : s.objects.length ≤ t.objects.length) :
    t.Inv := by
  have hb' : s.objects.length ≤ maxSessions := hle.trans hb
  cases effect_of_step h with
  | clientSend ho _ => exact hs.of_client ho rfl rfl ⟨_, _, _, rfl⟩ hb'
  | @clientHalfClose i o ho =>
    exact hs.of_client ho rfl rfl ⟨[], true, o.stream.cancelled, by simp⟩ hb'
  | completeConn ho hd hq => exact hs.of_complete .accepter ho hd hq hb'
  | completeReadwrite ho hd hq => exact hs.of_complete .worker ho hd hq hb'
  | accepterTest hpc =>
    refine hs.of_accepter ?_ ?_ ?_
    · rw [hpc]; split <;> rfl
    · rw [hpc]; split <;> rfl
    · unfold AccepterInv; cases s.running <;> trivial
  | accepterAdd => exact hs.of_accepterAdd (effect_of_step h) hb
  | accepterInsert hpc => exact hs.of_accepterInsert hpc hb'
  | accepterNext hpc hq =>
    exact hs.of_accepter (by rw [hpc]; exact pending_next hq) (by rw [hpc]; rfl) trivial
  | accepterDrained hpc => exact hs.of_accepter (by rw [hpc]; rfl) (by rw [hpc]; rfl) trivial
  | accepterDrop hpc _ hi =>
    exact hs.of_drop .accepter hb' (congrArg AccepterPc.hand hpc) (by rw [hpc]; rfl) hi
  | accepterGet hpc _ hi =>
    have hmem := (mem_pending_of_hand .accepter (congrArg AccepterPc.hand hpc)).2
    exact hs.of_accepter (by rw [hpc]; rfl) (by rw [hpc]; rfl) (hs.table.eq_of_lookup hb' hmem hi)
  | accepterRemove => exact hs.of_loopRemove .accepter hb' h
  | accepterAbort | accepterProcess => exact hs.of_loopProcess .accepter hb' h
  | workerTest hpc =>
    refine hs.of_worker ?_ ?_
    · rw [hpc]; split <;> rfl
    · unfold WorkerInv; cases s.running <;> trivial
  | workerNext hpc hq => exact hs.of_worker (by rw [hpc]; exact pending_next hq) trivial
  | workerDrained hpc => exact hs.of_worker (by rw [hpc]; rfl) trivial
  | workerDrop hpc hexclusive hi =>
    exact hs.of_drop .worker hb' (congrArg WorkerPc.hand hpc)
      (constructing_of_not_exclusive hexclusive) hi
  | workerGet hpc _ hi =>
    have hmem := (mem_pending_of_hand .worker (congrArg WorkerPc.hand hpc)).2
    exact hs.of_worker (by rw [hpc]; rfl) (hs.table.eq_of_lookup hb' hmem hi)
  | workerRemove => exact hs.of_loopRemove .worker hb' h
  | workerAbort | workerProcess => exact hs.of_loopProcess .worker hb' h
  | broadcastSend _ _ hi ho => exact hs.of_broadcastSend hi ho _ hb'
  | stopCancel _ _ _ ho => exact hs.of_stopCancel ho _ _ hb'
  -- The remaining steps of the broadcast thread and of `Stop` are not seen in the invariant.
  | _ =>
    refine ⟨hs.table, fun loop ↦ ?_, fun loop ↦ ?_⟩
    · cases loop
      exacts [hs.conn, hs.readwrite]
    · cases loop
      exacts [hs.accepter, hs.worker]

end State

/-- The invariant holds in every state of a run that creates at most `2 ^ 62` sessions. -/
theorem inv_of_run {s : State} {as : List Action} (h : Transition.run step .init as = some s)
    (hb : s.objects.length ≤ maxSessions) : s.Inv := by
  refine Transition.run_invariant (P := fun s ↦ s.objects.length ≤ maxSessions → s.Inv)
    (fun s a t hs h hb ↦ ?_) h (fun _ ↦ State.inv_init) hb
  have hle := length_le_of_step h
  exact (hs (hle.trans hb)).of_step h hb hle

end CppDemo.Grpc.ServerAsync
