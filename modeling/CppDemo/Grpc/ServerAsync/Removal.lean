import CppDemo.Grpc.ServerAsync.Delivery

/-!
# Removal of a session

The accepter and the worker remove a session on its first failed operation, whatever else is going
on. A read and a write of one session can be outstanding together, so the removal can drop the last
reference to a session with an operation still in flight (`allReturned_iff_of_run`). And a read that
fails because the client has half-closed its side can be handled before the writes of the earlier
replies are done, so that replies still queued are dropped (`repliesWritten_iff_of_run`).

Source: `grpcdemo/server_async.cc`, lines 101–153, 191–266 and 336–339.

## Main definitions

* `State.Removes` : a step removes a session.
* `State.AllReturned` : nothing of a session is still in gRPC.
* `SessionObject.RepliesWritten` : every request that was read has been answered.
* `halfCloseOnly` : the client of a session only half-closes its side.

## Main results

* `allReturned_iff_of_run` : when a removal leaves nothing of the session in gRPC.
* `repliesWritten_iff_of_run` : when a removal after a half-close drops no reply.
-/

namespace CppDemo.Grpc.ServerAsync

open Transition State

/-! ### The step that removes a session -/

namespace State

/-- The action `a` is enabled and removes session `i`, because of the completion `c`. -/
def Removes (s : State) (a : Action) (c : Completion Op) (i : Nat) : Prop :=
  (step s a).isSome = true ∧
    (a = .accepterRemove ∧ s.accepter = .handle c i ∨ a = .workerRemove ∧ s.worker = .handle c i)

/-- Everything that session `i` started has been returned by a completion queue. -/
def AllReturned (s : State) (i : Nat) : Prop :=
  ∀ p ∈ s.cqConn.pending + s.cqReadwrite.pending, p.1.session ≠ i

variable {s : State} {a : Action} {c : Completion Op} {i : Nat}

theorem tokensOf_eq_zero_iff {m : Multiset Pending} :
    tokensOf i m = 0 ↔ ∀ p ∈ m, p.1.session ≠ i := by
  rw [tokensOf, Multiset.map_eq_zero, Multiset.filter_eq_nil]

/-- A session is removed on an operation of its own that has failed. -/
theorem Inv.of_removes (hs : s.Inv) (hb : s.objects.length ≤ maxSessions)
    (hr : s.Removes a c i) :
    i = c.op.session ∧ c.ok = false ∧ s.getSession (UInt64.ofNat i) = some i ∧
      (c.op.event = .connected ∨ s.Completed c) := by
  obtain ⟨hstep, ⟨rfl, hpc⟩ | ⟨rfl, hpc⟩⟩ := hr
  · obtain ⟨t, ht⟩ := Option.isSome_iff_exists.mp hstep
    obtain ⟨rfl, hi⟩ := hs.eq_of_handled .accepter (congrArg AccepterPc.handled hpc)
    obtain ⟨c', hhandled, hok, -, -⟩ := hs.remove_cases .accepter hb ht
    obtain ⟨rfl, -⟩ :=
      AccepterPc.handle.inj (hpc.symm.trans (AccepterPc.handled_eq_some.mp hhandled))
    have hmem := (mem_pending_of_hand .accepter (congrArg AccepterPc.hand hpc)).1
    exact ⟨rfl, hok, hi, Or.inl (hs.conn _ hmem)⟩
  · obtain ⟨t, ht⟩ := Option.isSome_iff_exists.mp hstep
    obtain ⟨rfl, hi⟩ := hs.eq_of_handled .worker (congrArg WorkerPc.handled hpc)
    obtain ⟨c', hhandled, hok, -, -⟩ := hs.remove_cases .worker hb ht
    obtain ⟨rfl, -⟩ := WorkerPc.handle.inj (hpc.symm.trans (WorkerPc.handled_eq_some.mp hhandled))
    exact ⟨rfl, hok, hi, Or.inr (Or.inr (Or.inr ⟨_, hpc⟩))⟩

private theorem allReturned_iff : s.AllReturned i ↔
    tokensOf i s.cqConn.pending + tokensOf i s.cqReadwrite.pending = 0 := by
  rw [AllReturned, ← tokensOf_eq_zero_iff, tokensOf_add]

/-- What a session has outstanding besides the operation that a loop deals with is in the queues. -/
theorem Inv.tokensOf_of_handled (hs : s.Inv) (loop : Loop) (h : s.handled loop = some (c, i)) :
    tokensOf i s.table.pending = (c.op.event, some c.ok) ::ₘ
      (tokensOf i s.cqConn.pending + tokensOf i s.cqReadwrite.pending) := by
  have hhand := hand_of_handled h
  obtain ⟨rfl, -⟩ := hs.eq_of_handled loop h
  have hother : tokensOf c.op.session (s.hand loop.other) = 0 := by
    refine tokensOf_eq_zero_iff.mpr fun p hp heq ↦ ?_
    have hmem : p ∈ s.loopPending loop.other := by
      rw [loopPending_eq]
      exact Multiset.mem_add.mpr (Or.inl hp)
    exact hs.session_ne (mem_pending_of_hand loop hhand).1 hmem heq.symm
  have hqueues : tokensOf c.op.session (s.queue loop).pending +
      tokensOf c.op.session (s.queue loop.other).pending =
      tokensOf c.op.session s.cqConn.pending + tokensOf c.op.session s.cqReadwrite.pending := by
    cases loop with
    | accepter => rfl
    | worker => exact add_comm _ _
  rw [table_of_hand hhand, tokensOf_cons_self (t := (c.op, some c.ok)) rfl, tokensOf_add,
    loopPending_eq, tokensOf_add, hother, Multiset.zero_add, hqueues]

/-- What a removal leaves in gRPC is what the session has outstanding besides the failed operation.
-/
theorem Inv.tokensOf_of_removes (hs : s.Inv) (hb : s.objects.length ≤ maxSessions)
    (hr : s.Removes a c i) :
    ∃ rest, tokensOf i s.table.pending = (c.op.event, some false) ::ₘ rest ∧
      (s.AllReturned i ↔ rest = 0) := by
  obtain ⟨-, hok, -, -⟩ := hs.of_removes hb hr
  refine ⟨_, ?_, allReturned_iff⟩
  rw [← hok]
  obtain ⟨-, ⟨-, hpc⟩ | ⟨-, hpc⟩⟩ := hr
  · exact hs.tokensOf_of_handled .accepter (congrArg AccepterPc.handled hpc)
  · exact hs.tokensOf_of_handled .worker (congrArg WorkerPc.handled hpc)

end State

/-! ### Operations still in flight -/

/-- In a run that creates at most `2 ^ 62` sessions, the removal of a session leaves nothing of it
in gRPC exactly when its registration has failed, or a read while no write was outstanding. -/
theorem allReturned_iff_of_run {s : State} {as : List Action} {a : Action} {c : Completion Op}
    {i : Nat} {o : SessionObject} (h : run step .init as = some s)
    (hb : s.objects.length ≤ maxSessions) (hr : s.Removes a c i) (ho : s.objects[i]? = some o) :
    s.AllReturned i ↔ c.op.event = .connected ∨
      c.op.event = .readDone ∧ o.session.status = .readyToWrite := by
  have hs := inv_of_run h hb
  obtain ⟨rest, htokens, hall⟩ := hs.tokensOf_of_removes hb hr
  obtain ⟨-, -, hi, -⟩ := hs.of_removes hb hr
  rw [hall]
  cases hs.view_of_getSession hi ho with
  | waiting w h =>
    obtain ⟨htoken, rfl⟩ := cons_eq_singleton (htokens.symm.trans h.tokens)
    exact iff_of_true rfl (Or.inl (Prod.mk.inj htoken).1)
  | ready r h =>
    obtain ⟨htoken, rfl⟩ := cons_eq_singleton (htokens.symm.trans h.tokens)
    exact iff_of_true rfl (Or.inr ⟨(Prod.mk.inj htoken).1, h.status⟩)
  | writing r w h =>
    have hstatus : o.session.status = .waitWriteDone := h.status
    rcases cons_eq_pair (htokens.symm.trans h.tokens) with ⟨htoken, rfl⟩ | ⟨htoken, rfl⟩
    · simp [(Prod.mk.inj htoken).1, hstatus]
    · simp [(Prod.mk.inj htoken).1]
  | removed h => exact absurd h.life (by simp)

/-- A client connects, sends nothing and goes away. -/
def abandonedRun : List Action :=
  [.accepterTest, .accepterAdd, .accepterInsert, .completeConn (opOf 0 .connected) true,
    .accepterNext ⟨opOf 0 .connected, true⟩, .accepterGet, .accepterProcess, .workerTest,
    .completeReadwrite (opOf 0 .readDone) false, .workerNext ⟨opOf 0 .readDone, false⟩, .workerGet]

theorem allReturned_iff_of_run_abandoned : ∃ s, run step .init abandonedRun = some s ∧
    (s.AllReturned 0 ↔ SessionEvent.readDone = .connected ∨
      SessionEvent.readDone = .readDone ∧ SessionStatus.readyToWrite = .readyToWrite) :=
  ⟨_, rfl, allReturned_iff_of_run (show run step .init abandonedRun = some _ from rfl)
    (a := .workerRemove) (c := ⟨opOf 0 .readDone, false⟩) (i := 0) (o := connectedSession 0)
    (by decide) ⟨rfl, Or.inr ⟨rfl, rfl⟩⟩ rfl⟩

/-- A client connects, sends a request and goes away while the reply is being written. -/
def interruptedRun : List Action :=
  [.accepterTest, .accepterAdd, .accepterInsert, .completeConn (opOf 0 .connected) true,
    .accepterNext ⟨opOf 0 .connected, true⟩, .accepterGet, .accepterProcess, .workerTest,
    .clientSend 0 {}, .completeReadwrite (opOf 0 .readDone) true,
    .workerNext ⟨opOf 0 .readDone, true⟩, .workerGet, .workerProcess,
    .completeReadwrite (opOf 0 .readDone) false, .workerNext ⟨opOf 0 .readDone, false⟩, .workerGet]

/-- A session can be removed while its write is in flight. -/
theorem not_allReturned_of_run :
    ¬∀ as s a c i, run step .init as = some s → s.Removes a c i → s.AllReturned i := by
  intro hall
  have hreturned := hall interruptedRun _ .workerRemove ⟨opOf 0 .readDone, false⟩ 0 rfl
    ⟨rfl, Or.inr ⟨rfl, rfl⟩⟩
  exact absurd rfl (hreturned (opOf 0 .writeDone, none) (by decide))

/-! ### Replies after a half-close -/

/-- A completion that waits to be processed has just been posted or was waiting before. -/
theorem completed_of_step {s t : State} {a : Action} {c : Completion Op} (h : step s a = some t)
    (hc : t.Completed c) : s.Completed c ∨ a = .completeReadwrite c.op c.ok := by
  unfold State.Completed at hc ⊢
  cases effect_of_step h <;> grind [CompletionQueue.posted_attach, CompletionQueue.posted_shutdown,
    CompletionQueue.posted_startAll, CompletionQueue.complete_eq_some,
    CompletionQueue.next_eq_some]

/-- The client of session `i` only half-closes its side: it connects, its reads fail only when the
client has half-closed and everything sent has been read, its writes succeed, and the server is not
stopping. -/
def halfCloseOnly (i : Nat) (s : State) : Action → Bool
  | .completeConn op ok => op.session ≠ i || ok
  | .completeReadwrite op ok =>
    op.session ≠ i || ok || op.event = .readDone && s.objects[i]?.any fun o ↦
      o.stream.halfClosed && o.stream.delivered = o.stream.sent.length
  | .stopTest => false
  | _ => true

/-- Nothing is queued, and every request that was read has had its reply handed to `Write`. -/
structure SessionObject.RepliesWritten (o : SessionObject) : Prop where
  queue : o.session.messageQueue = []
  replies : ((o.stream.sent.take o.stream.delivered).map replyTo).Sublist o.written

/-- The writes of such a client never fail. -/
theorem writeDone_ok_of_run {s : State} {as : List Action} {i : Nat}
    (h : run step .init as = some s) (hC : Along step (halfCloseOnly i · ·) .init as) :
    ∀ c, s.Completed c → c.op.session = i → c.op.event = .writeDone → c.ok = true := by
  refine run_invariant_along (P := fun s : State ↦ ∀ c, s.Completed c → c.op.session = i →
    c.op.event = .writeDone → c.ok = true) (fun s a t hs ha h c hc hi hevent ↦ ?_) hC h ?_
  · rcases completed_of_step h hc with hc | rfl
    · exact hs c hc hi hevent
    · simpa [halfCloseOnly, hi, hevent] using ha
  · intro c hc
    rcases hc with hc | hc | ⟨j, hc⟩ <;> simp [State.init, CompletionQueue.empty] at hc

/-- When the read of a session has failed, the replies to the requests read are among the messages
passed to it. -/
theorem SessionObject.Active.replies_sublist {o : SessionObject} (h : o.Active (some false)) :
    ((o.stream.sent.take o.stream.delivered).map replyTo).Sublist
      (o.history.passed.map Prod.snd) := by
  have hdelivered : o.stream.delivered = o.history.readDone := by simpa using h.delivered
  rw [hdelivered, ← h.replies]
  exact List.filter_sublist.map Prod.snd

/-- In a run that creates at most `2 ^ 62` sessions and in which the client of session `i` only
half-closes its side, the removal of the session drops no reply exactly when all but one of the
messages passed to it have been reported written by then. -/
theorem repliesWritten_iff_of_run {s : State} {as : List Action} {a : Action}
    {c : Completion Op} {i : Nat} {o : SessionObject} (hrun : run step .init as = some s)
    (hC : Along step (halfCloseOnly i · ·) .init as) (hb : s.objects.length ≤ maxSessions)
    (hr : s.Removes a c i) (ho : s.objects[i]? = some o) :
    o.RepliesWritten ↔ o.history.passed.length ≤ o.history.writeDone + 1 := by
  have hs := inv_of_run hrun hb
  obtain ⟨rest, htokens, -⟩ := hs.tokensOf_of_removes hb hr
  obtain ⟨hsession, hok, hi, hcompleted⟩ := hs.of_removes hb hr
  cases hs.view_of_getSession hi ho with
  | waiting w h =>
    have hhistory : o.history = {} := h.history
    have hdelivered : o.stream.delivered = 0 := h.delivered
    have hqueue : o.session.messageQueue = [] := by rw [h.session]
    exact iff_of_true ⟨hqueue, by simp [hdelivered]⟩ (by simp [hhistory])
  | ready r h =>
    obtain ⟨htoken, -⟩ := cons_eq_singleton (htokens.symm.trans h.tokens)
    obtain rfl : some false = r := (Prod.mk.inj htoken).2
    have hqueue : o.session.messageQueue = [] := h.queue
    have hmessages : o.written ++ o.session.messageQueue = o.history.passed.map Prod.snd :=
      h.messages
    have hwrites : o.written.length = o.history.writeDone := h.writes
    rw [hqueue, List.append_nil] at hmessages
    have hlength := congrArg List.length hmessages
    rw [List.length_map] at hlength
    exact iff_of_true ⟨hqueue, hmessages ▸ h.toActive.replies_sublist⟩ (by omega)
  | writing r w h =>
    have hwrites : o.written.length = o.history.writeDone + 1 := h.writes
    have hmessages : o.written ++ o.session.messageQueue = o.history.passed.map Prod.snd :=
      h.messages
    have hlength := congrArg List.length hmessages
    rw [List.length_append, List.length_map] at hlength
    -- The failed operation is the read, since the writes of this client succeed.
    have hread : some false = r := by
      rcases cons_eq_pair (htokens.symm.trans h.tokens) with ⟨htoken, -⟩ | ⟨htoken, -⟩
      · exact (Prod.mk.inj htoken).2
      · have hevent : c.op.event = .writeDone := (Prod.mk.inj htoken).1
        have hcompleted := hcompleted.resolve_left (by simp [hevent])
        have hwrite := writeDone_ok_of_run hrun hC c hcompleted hsession.symm hevent
        simp [hok] at hwrite
    subst hread
    constructor
    · intro hwritten
      rw [hwritten.queue, List.length_nil] at hlength
      omega
    · intro hle
      have hqueue : o.session.messageQueue = [] := List.eq_nil_of_length_eq_zero (by omega)
      rw [hqueue, List.append_nil] at hmessages
      exact ⟨hqueue, hmessages ▸ h.toActive.replies_sublist⟩
  | removed h => exact absurd h.life (by simp)

/-- A client connects, sends a request and half-closes its side. -/
def halfCloseRun : List Action :=
  [.accepterTest, .accepterAdd, .accepterInsert, .completeConn (opOf 0 .connected) true,
    .accepterNext ⟨opOf 0 .connected, true⟩, .accepterGet, .accepterProcess, .workerTest,
    .clientSend 0 {}, .clientHalfClose 0, .completeReadwrite (opOf 0 .readDone) true,
    .workerNext ⟨opOf 0 .readDone, true⟩, .workerGet, .workerProcess,
    .completeReadwrite (opOf 0 .readDone) false, .workerNext ⟨opOf 0 .readDone, false⟩, .workerGet]

theorem repliesWritten_iff_of_run_halfClose : ∃ s o, run step .init halfCloseRun = some s ∧
    s.objects[0]? = some o ∧
    (o.RepliesWritten ↔ o.history.passed.length ≤ o.history.writeDone + 1) :=
  ⟨_, _, rfl, rfl, repliesWritten_iff_of_run
    (show run step .init halfCloseRun = some _ from rfl) (a := .workerRemove)
    (c := ⟨opOf 0 .readDone, false⟩) (i := 0) (by decide) (by decide)
    ⟨rfl, Or.inr ⟨rfl, rfl⟩⟩ rfl⟩

/-- A client connects, sends two requests at once and half-closes its side. -/
def pipelinedRun : List Action :=
  [.accepterTest, .accepterAdd, .accepterInsert, .completeConn (opOf 0 .connected) true,
    .accepterNext ⟨opOf 0 .connected, true⟩, .accepterGet, .accepterProcess, .workerTest,
    .clientSend 0 {}, .clientSend 0 {}, .clientHalfClose 0,
    .completeReadwrite (opOf 0 .readDone) true, .workerNext ⟨opOf 0 .readDone, true⟩, .workerGet,
    .workerProcess, .completeReadwrite (opOf 0 .readDone) true,
    .workerNext ⟨opOf 0 .readDone, true⟩, .workerGet, .workerProcess,
    .completeReadwrite (opOf 0 .readDone) false, .workerNext ⟨opOf 0 .readDone, false⟩, .workerGet]

/-- A half-close can drop the reply to a request that was read. -/
theorem not_repliesWritten_of_run :
    ¬∀ as s a c i o, run step .init as = some s → Along step (halfCloseOnly i · ·) .init as →
      s.Removes a c i → s.objects[i]? = some o → o.RepliesWritten := by
  intro hall
  have hwritten := hall pipelinedRun _ .workerRemove ⟨opOf 0 .readDone, false⟩ 0 _ rfl (by decide)
    ⟨rfl, Or.inr ⟨rfl, rfl⟩⟩ rfl
  exact absurd hwritten.queue (by decide)

end CppDemo.Grpc.ServerAsync
