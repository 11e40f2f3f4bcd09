import CppDemo.Grpc.ServerAsync.Delivery

/-!
# Stopping the server

`Stop` clears `running_`, cancels the sessions, shuts the server down and then the two completion
queues. `Shutdown` of the server returns only when every call that was accepted is over and its
session object is gone, and no registration succeeds from then on. So nothing is left that could
start an operation when the queues are shut down, with one exception: the accepter tests `running_`
and registers its first session in two steps, with nothing to keep `Stop` from running between them.
The broadcast thread, which has the same two steps, tests `running_` again under the lock.

Source: `grpcdemo/server_async.cc`, lines 191–325.

## Main definitions

* `State.alive` : the table or a thread refers to a session object.
* `shutdownContract` : what gRPC promises about `server_->Shutdown`.
* `firstRegistered` : the accepter is not about to register its first session.

## Main results

* `late_eq_nil_of_run` : no operation is started against a queue that has been shut down.
* `late_of_run` : the accepter can register its first session too late.
-/

namespace CppDemo.Grpc.ServerAsync

open Transition State

/-- The sessions to which the accepter refers. -/
def AccepterPc.held : AccepterPc → List Nat
  | .insert _ session held => session :: held.toList
  | .handle _ session | .addNext session => [session]
  | _ => []

/-- The sessions to which the worker refers. -/
def WorkerPc.held : WorkerPc → List Nat
  | .handle _ session => [session]
  | _ => []

/-- How far the call of `Stop` has come. -/
def StopPc.stage : StopPc → Nat
  | .notCalled => 0
  | .store => 1
  | .lock => 2
  | .cancelling _ => 3
  | .shutdownServer => 4
  | .waitServer => 5
  | .shutdownConn => 6
  | .shutdownReadwrite => 7
  | .finished => 8

/-- The steps of the call of `Stop`. -/
def Action.ofStop : Action → Bool
  | .stopTest | .stopStore | .stopLock | .stopCancel _ | .stopUnlock | .stopShutdownServer
  | .stopServerDone | .stopShutdownConn | .stopShutdownReadwrite => true
  | _ => false

namespace State

/-- Session object `i` still exists, since the table or a thread refers to it. -/
def alive (s : State) (i : Nat) : Bool :=
  s.getSession (UInt64.ofNat i) = some i || i ∈ s.accepter.held || i ∈ s.worker.held

/-- Every session object whose call was accepted has been destroyed. -/
def acceptedGone (s : State) : Bool :=
  s.objects.zipIdx.all fun p ↦ !p.1.stream.accepted || !s.alive p.2

theorem acceptedGone_iff {s : State} : s.acceptedGone = true ↔
    ∀ i o, s.objects[i]? = some o → o.stream.accepted = true → s.alive i = false := by
  simp only [acceptedGone, List.all_eq_true, Prod.forall, List.mk_mem_zipIdx_iff_getElem?,
    Bool.or_eq_true, Bool.not_eq_true']
  constructor
  · intro h i o ho haccepted
    exact (h o i ho).resolve_left (by simp [haccepted])
  · intro h o i ho
    cases haccepted : o.stream.accepted with
    | false => exact Or.inl rfl
    | true => exact Or.inr (h i o ho haccepted)

/-- What is known about the server while it is being stopped. -/
structure StopInv (s : State) : Prop where
  running : s.running = true ↔ s.stop.stage ≤ 1
  conn : s.cqConn.isShutdown = true ↔ 7 ≤ s.stop.stage
  readwrite : s.cqReadwrite.isShutdown = true ↔ 8 ≤ s.stop.stage
  gone : 6 ≤ s.stop.stage → s.acceptedGone = true
  first : 7 ≤ s.stop.stage → s.accepter ≠ .addFirst
  next : ∀ i, s.accepter = .addNext i →
    ∃ o, s.objects[i]? = some o ∧ o.stream.accepted = true
  conn_late : s.cqConn.late = []
  readwrite_late : s.cqReadwrite.late = []

end State

/-- What gRPC promises: `server_->Shutdown` returns when the session object of every accepted call
has been destroyed, and from its call on registrations only fail. -/
def shutdownContract (s : State) : Action → Bool
  | .stopServerDone => s.acceptedGone
  | .completeConn _ ok => !ok || s.stop.stage < 5
  | _ => true

/-- The accepter is not between its test of `running_` and its first registration when `cq_conn_` is
shut down. -/
def firstRegistered (s : State) : Action → Bool
  | .stopShutdownConn => s.accepter ≠ .addFirst
  | _ => true

/-! ### What a step can do -/

section Step

variable {s t : State} {a : Action}

/-- Only the call of `Stop` clears `running_` and shuts the queues down. -/
theorem flags_of_step (h : step s a = some t) (ha : a.ofStop = false) :
    t.running = s.running ∧ t.stop = s.stop ∧ t.cqConn.isShutdown = s.cqConn.isShutdown ∧
      t.cqReadwrite.isShutdown = s.cqReadwrite.isShutdown := by
  cases effect_of_step h with
  | completeConn _ _ hq | completeReadwrite _ _ hq =>
    obtain ⟨-, rfl⟩ := CompletionQueue.complete_eq_some.mp hq
    exact ⟨rfl, rfl, rfl, rfl⟩
  | accepterNext _ hq | workerNext _ hq =>
    obtain ⟨-, rfl⟩ := CompletionQueue.next_eq_some.mp hq
    exact ⟨rfl, rfl, rfl, rfl⟩
  | accepterProcess | workerProcess | broadcastSend =>
    exact ⟨rfl, rfl, rfl, CompletionQueue.isShutdown_startAll ..⟩
  | stopTest | stopStore | stopLock | stopCancel | stopUnlock | stopShutdownServer
  | stopServerDone | stopShutdownConn | stopShutdownReadwrite =>
    exact Bool.noConfusion (show true = false from ha)
  | _ => exact ⟨rfl, rfl, rfl, rfl⟩

/-- An accepted session was accepted before its object was replaced, unless the replacement
accepted it. -/
private theorem accepted_of_set {objects : List SessionObject} {i j : Nat}
    {o o' o'' : SessionObject} {P : Prop} (ho : objects[j]? = some o)
    (hP : o'.stream.accepted = true → o.stream.accepted = true ∨ P)
    (h : (objects.set j o')[i]? = some o'') (haccepted : o''.stream.accepted = true) :
    (∃ o, objects[i]? = some o ∧ o.stream.accepted = true) ∨ P := by
  by_cases hij : i = j
  · subst hij
    rw [List.getElem?_set_self (List.getElem?_eq_some_iff.mp ho).1] at h
    obtain rfl := Option.some.inj h
    exact (hP haccepted).imp_left fun h ↦ ⟨o, ho, h⟩
  · rw [List.getElem?_set_ne (Ne.symm hij)] at h
    exact Or.inl ⟨o'', h, haccepted⟩

/-- Only `cq_conn_` returns registrations. -/
theorem exists_of_registers (hs : s.Inv) (h : step s a = some t) (ha : a.registers = true) :
    ∃ op, a = .completeConn op true := by
  cases a with
  | completeConn op ok =>
    obtain ⟨-, rfl⟩ : op.event = .connected ∧ ok = true := by simpa [Action.registers] using ha
    exact ⟨op, rfl⟩
  | completeReadwrite op ok =>
    cases effect_of_step h with
    | completeReadwrite _ _ hq =>
      have hmem := CompletionQueue.mem_pending_none.mpr (CompletionQueue.complete_eq_some.mp hq).1
      have hevent : op.event = .connected ∧ ok = true := by simpa [Action.registers] using ha
      simpa [hevent.1] using hs.readwrite _ (Multiset.mem_add.mpr (Or.inr hmem))
  | _ => simp [Action.registers] at ha

/-- Only a registration that succeeds makes a session accepted. -/
theorem accepted_of_step (hs : s.Inv) (h : step s a = some t) {i : Nat} {o' : SessionObject}
    (ho' : t.objects[i]? = some o') (haccepted : o'.stream.accepted = true) :
    (∃ o, s.objects[i]? = some o ∧ o.stream.accepted = true) ∨ ∃ op, a = .completeConn op true := by
  rcases objects_of_step h with heq | ⟨-, heq⟩ | ⟨j, o, o₁, ho, hkept, heq⟩
  all_goals rw [heq] at ho'
  · exact Or.inl ⟨o', ho', haccepted⟩
  · left
    rcases Nat.lt_or_ge i s.objects.length with hi | hi
    · rw [List.getElem?_append_left hi] at ho'
      exact ⟨o', ho', haccepted⟩
    · rw [List.getElem?_append_right hi] at ho'
      obtain rfl := List.mem_singleton.mp (List.mem_of_getElem? ho')
      simp [SessionObject.create] at haccepted
  · exact (accepted_of_set ho hkept.accepted_or ho' haccepted).imp_right (exists_of_registers hs h)

private theorem accepted_set {objects : List SessionObject} {i j : Nat}
    {o o' o'' : SessionObject} (ho : objects[j]? = some o)
    (h : o.stream.accepted = true → o'.stream.accepted = true) (ho'' : objects[i]? = some o'')
    (haccepted : o''.stream.accepted = true) :
    ∃ o₁, (objects.set j o')[i]? = some o₁ ∧ o₁.stream.accepted = true := by
  by_cases hij : i = j
  · subst hij
    obtain rfl := Option.some.inj (ho.symm.trans ho'')
    exact ⟨o', List.getElem?_set_self (List.getElem?_eq_some_iff.mp ho).1, h haccepted⟩
  · exact ⟨o'', by rw [List.getElem?_set_ne (Ne.symm hij), ho''], haccepted⟩

/-- An accepted session stays accepted. -/
theorem accepted_step (h : step s a = some t) {i : Nat} {o : SessionObject}
    (ho : s.objects[i]? = some o) (haccepted : o.stream.accepted = true) :
    ∃ o', t.objects[i]? = some o' ∧ o'.stream.accepted = true := by
  rcases objects_of_step h with heq | ⟨-, heq⟩ | ⟨j, o₁, o₂, ho₁, hkept, heq⟩
  all_goals rw [heq]
  · exact ⟨o, ho, haccepted⟩
  · have hi : i < s.objects.length := (List.getElem?_eq_some_iff.mp ho).1
    exact ⟨o, by rw [List.getElem?_append_left hi, ho], haccepted⟩
  · exact accepted_set ho₁ hkept.accepted ho haccepted

/-- A session that exists existed before, unless it has just been constructed. -/
theorem alive_of_step (hs : s.Inv) (h : step s a = some t) {i : Nat}
    (halive : t.alive i = true) : s.alive i = true ∨ a = .accepterAdd ∧ i = s.objects.length := by
  have hlookup {k : UInt64} {j : Nat} (hj : s.sessions.lookup k = some j) :
      s.sessions.lookup (UInt64.ofNat j) = some j := (hs.table.keys k j hj).2 ▸ hj
  simp only [alive, Bool.or_eq_true, decide_eq_true_eq, getSession] at halive ⊢
  cases effect_of_step h with
  | @accepterInsert sessionId session held hpc =>
    by_cases hk : UInt64.ofNat i = sessionId
    · subst hk
      simp only [AList.lookup_insert, Option.some.injEq] at halive
      grind [AccepterPc.held]
    · have hold : (s.sessions.insert sessionId session).lookup (UInt64.ofNat i) =
          s.sessions.lookup (UInt64.ofNat i) := AList.lookup_insert_ne hk
      grind [AccepterPc.held]
  | @accepterAdd held => cases held <;> grind [AccepterPc.held]
  | _ =>
    grind [getSession, AccepterPc.held, WorkerPc.held, AList.lookup_erase, AList.lookup_erase_ne]

/-- The steps of `Stop` follow one another. -/
theorem stage_of_step (h : step s a = some t) (hs : s.StopInv) :
    (t.running = true ↔ t.stop.stage ≤ 1) ∧
      (t.cqConn.isShutdown = true ↔ 7 ≤ t.stop.stage) ∧
      (t.cqReadwrite.isShutdown = true ↔ 8 ≤ t.stop.stage) ∧
      (6 ≤ t.stop.stage → 6 ≤ s.stop.stage ∨ a = .stopServerDone) ∧
      (7 ≤ t.stop.stage → 7 ≤ s.stop.stage ∨ a = .stopShutdownConn) := by
  have hrunning := hs.running
  have hconn := hs.conn
  have hreadwrite := hs.readwrite
  cases ha : a.ofStop with
  | false =>
    obtain ⟨h₁, h₂, h₃, h₄⟩ := flags_of_step h ha
    rw [h₁, h₂, h₃, h₄]
    exact ⟨hrunning, hconn, hreadwrite, Or.inl, Or.inl⟩
  | true =>
    cases effect_of_step h <;> try exact Bool.noConfusion (show false = true from ha)
    all_goals grind [StopPc.stage, CompletionQueue.shutdown]

/-- The accepter gets ready to register a first session only while the server runs, and another one
only after it has accepted a call. -/
theorem accepter_of_step (h : step s a = some t) :
    (t.accepter = .addFirst → s.accepter = .addFirst ∨ s.running = true) ∧
      ∀ i, t.accepter = .addNext i → s.accepter = .addNext i ∨ a = .accepterProcess := by
  cases effect_of_step h <;> grind

/-- The session that a loop has found for an operation that succeeded has been accepted. -/
theorem accepted_of_handled (hs : s.Inv) (loop : Loop) {c : Completion Op} {o : SessionObject}
    (h : s.handled loop = some (c, c.op.session)) (hok : c.ok = true)
    (ho : s.objects[c.op.session]? = some o) : o.stream.accepted = true := by
  obtain ⟨-, hi⟩ := hs.eq_of_handled loop h
  have hmem := (mem_pending_of_hand loop (hand_of_handled h)).2
  have htoken : (c.op.event, some true) ∈ tokensOf c.op.session s.table.pending :=
    mem_tokensOf.mpr ⟨c.op, hok ▸ hmem, rfl, rfl⟩
  cases hs.view_of_getSession hi ho with
  | waiting w h =>
    have htokens : tokensOf c.op.session s.table.pending = {(.connected, w)} := h.tokens
    rw [htokens, Multiset.mem_singleton] at htoken
    exact h.accepted (Prod.mk.inj htoken).2.symm
  | ready r h => exact h.accepted
  | writing r w h => exact h.accepted
  | removed h => exact absurd h.life (by simp)

/-- A session that does not wait for its client has been accepted. -/
theorem accepted_of_status (hs : s.Inv) {i : Nat} {o : SessionObject}
    (hi : s.sessions.lookup (UInt64.ofNat i) = some i) (ho : s.objects[i]? = some o)
    (hstatus : o.session.status ≠ .waitToConnect) : o.stream.accepted = true := by
  cases hs.view_of_getSession hi ho with
  | waiting w h => exact absurd (by rw [h.session]) hstatus
  | ready r h => exact h.accepted
  | writing r w h => exact h.accepted
  | removed h => exact absurd h.life (by simp)

/-- An operation is started too late only by the registration of a session or for an accepted
session that still exists. -/
theorem late_of_step (hs : s.Inv) (hb : s.objects.length ≤ maxSessions) (h : step s a = some t) :
    (t.cqConn.late = s.cqConn.late ∨ a = .accepterAdd ∧ s.cqConn.isShutdown = true) ∧
      (t.cqReadwrite.late = s.cqReadwrite.late ∨ s.cqReadwrite.isShutdown = true ∧
        (a = .accepterAdd ∨
          ∃ i o, s.objects[i]? = some o ∧ o.stream.accepted = true ∧ s.alive i = true)) := by
  have hstart (ops : List Op) : (s.cqReadwrite.startAll ops).late = s.cqReadwrite.late ∨
      s.cqReadwrite.isShutdown = true := by
    cases hq : s.cqReadwrite.isShutdown with
    | false => exact Or.inl (CompletionQueue.late_startAll hq ops)
    | true => exact Or.inr rfl
  have hprocess (loop : Loop) (h : s.loopProcess loop = some t) : t.cqConn.late = s.cqConn.late ∧
      (t.cqReadwrite.late = s.cqReadwrite.late ∨ s.cqReadwrite.isShutdown = true ∧
        ∃ i o, s.objects[i]? = some o ∧ o.stream.accepted = true ∧ s.alive i = true) := by
    obtain ⟨c, o, o', calls, hhandled, hok, -, hi, ho, -, rfl⟩ := hs.process_cases loop hb h
    have haccepted := accepted_of_handled hs loop hhandled hok ho
    have halive : s.alive c.op.session = true := by simp [alive, getSession, hi]
    exact ⟨by cases loop <;> rfl, (hstart _).imp_right fun h ↦ ⟨h, _, o, ho, haccepted, halive⟩⟩
  cases a with
  | accepterProcess =>
    obtain ⟨hconn, hreadwrite⟩ := hprocess .accepter h
    exact ⟨Or.inl hconn, hreadwrite.imp_right (And.imp_right Or.inr)⟩
  | workerProcess =>
    obtain ⟨hconn, hreadwrite⟩ := hprocess .worker h
    exact ⟨Or.inl hconn, hreadwrite.imp_right (And.imp_right Or.inr)⟩
  | broadcastSend k =>
    cases effect_of_step h with
    | @broadcastSend k i o remaining _ _ hi ho =>
      have hi : s.sessions.lookup (UInt64.ofNat i) = some i := (hs.table.keys _ i hi).2 ▸ hi
      refine ⟨Or.inl rfl, ?_⟩
      by_cases hstatus : o.session.status = .waitToConnect
      · left
        simp [SessionObject.sendBroadcast, hstatus]
      · exact (hstart _).imp_right fun h ↦ ⟨h, Or.inr
          ⟨i, o, ho, accepted_of_status hs hi ho hstatus, by simp [alive, getSession, hi]⟩⟩
  | _ =>
    cases effect_of_step h <;> grind [CompletionQueue.start, CompletionQueue.attach,
      CompletionQueue.shutdown, CompletionQueue.complete_eq_some, CompletionQueue.next_eq_some]

/-- The accepter registers a session only when it has just started or has accepted a call. -/
theorem accepter_of_add (h : s.accepterAdd = some t) :
    s.accepter = .addFirst ∨ ∃ i, s.accepter = .addNext i := by
  cases effect_of_step (a := .accepterAdd) h with
  | @accepterAdd held hpc =>
    cases held with
    | none => exact Or.inl hpc
    | some i => exact Or.inr ⟨i, hpc⟩

end Step

/-! ### The invariant -/

namespace State

variable {s t : State} {a : Action}

theorem stopInv_init : State.init.StopInv where
  running := by simp [State.init, StopPc.stage]
  conn := by simp [State.init, StopPc.stage, CompletionQueue.empty]
  readwrite := by simp [State.init, StopPc.stage, CompletionQueue.empty]
  gone := by simp [State.init, StopPc.stage]
  first := by simp [State.init, StopPc.stage]
  next := by simp [State.init]
  conn_late := rfl
  readwrite_late := rfl

/-- Accepted sessions stay gone once the server has been shut down. -/
private theorem StopInv.gone_step (hst : s.StopInv) (hs : s.Inv)
    (hC : shutdownContract s a = true) (h : step s a = some t) (hstage : 6 ≤ t.stop.stage) :
    t.acceptedGone = true := by
  have hgone : s.acceptedGone = true := by
    rcases (stage_of_step h hst).2.2.2.1 hstage with hstage | rfl
    · exact hst.gone hstage
    · exact hC
  rw [acceptedGone_iff] at hgone ⊢
  intro i o' ho' haccepted
  rcases accepted_of_step hs h ho' haccepted with ⟨o, ho, haccepted⟩ | ⟨op, rfl⟩
  · by_contra halive
    rcases alive_of_step hs h (by simpa using halive) with halive | ⟨-, rfl⟩
    · simp [hgone i o ho haccepted] at halive
    · simp at ho
  · have hlt : s.stop.stage < 5 := by simpa [shutdownContract] using hC
    rw [(flags_of_step h rfl).2.1] at hstage
    omega

/-- While both queues are open or nothing accepted is left, nothing is started too late. -/
private theorem StopInv.late_step (hst : s.StopInv) (hs : s.Inv)
    (hb : s.objects.length ≤ maxSessions) (h : step s a = some t) :
    t.cqConn.late = [] ∧ t.cqReadwrite.late = [] := by
  -- No session is registered once `cq_conn_` has been shut down.
  have hadd : 7 ≤ s.stop.stage → a ≠ .accepterAdd := by
    rintro hstage rfl
    rcases accepter_of_add h with hpc | ⟨i, hpc⟩
    · exact hst.first hstage hpc
    · obtain ⟨o, ho, haccepted⟩ := hst.next i hpc
      have halive := acceptedGone_iff.mp (hst.gone (by omega)) i o ho haccepted
      simp [alive, hpc, AccepterPc.held] at halive
  obtain ⟨hconn, hreadwrite⟩ := late_of_step hs hb h
  constructor
  · rcases hconn with hconn | ⟨ha, hshutdown⟩
    · rw [hconn, hst.conn_late]
    · exact absurd ha (hadd (hst.conn.mp hshutdown))
  · rcases hreadwrite with hreadwrite | ⟨hshutdown, ha | ⟨i, o, ho, haccepted, halive⟩⟩
    · rw [hreadwrite, hst.readwrite_late]
    · have hstage := hst.readwrite.mp hshutdown
      exact absurd ha (hadd (by omega))
    · have hstage := hst.readwrite.mp hshutdown
      have hgone := acceptedGone_iff.mp (hst.gone (by omega)) i o ho haccepted
      simp [hgone] at halive

theorem StopInv.step (hst : s.StopInv) (hs : s.Inv) (hb : s.objects.length ≤ maxSessions)
    (hC : shutdownContract s a = true) (hF : firstRegistered s a = true)
    (h : step s a = some t) : t.StopInv := by
  obtain ⟨hrunning, hconn, hreadwrite, -, hstage⟩ := stage_of_step h hst
  obtain ⟨haddFirst, haddNext⟩ := accepter_of_step h
  obtain ⟨hlate, hlate'⟩ := hst.late_step hs hb h
  refine ⟨hrunning, hconn, hreadwrite, hst.gone_step hs hC h, ?_, ?_, hlate, hlate'⟩
  · intro hge hpc
    rcases hstage hge with hge | rfl
    · rcases haddFirst hpc with hpc | hpc
      · exact hst.first hge hpc
      · have := hst.running.mp hpc
        omega
    · cases effect_of_step h with
      | stopShutdownConn => simp [firstRegistered, show s.accepter = .addFirst from hpc] at hF
  · intro i hpc
    rcases haddNext i hpc with hpc | rfl
    · obtain ⟨o, ho, haccepted⟩ := hst.next i hpc
      exact accepted_step h ho haccepted
    · obtain ⟨c, o, o', calls, hhandled, hok, -, -, ho, hp, rfl⟩ :=
        hs.process_cases .accepter hb h
      obtain rfl : c.op.session = i := AccepterPc.addNext.inj hpc
      have haccepted := accepted_of_handled hs .accepter hhandled hok ho
      exact ⟨o', List.getElem?_set_self (List.getElem?_eq_some_iff.mp ho).1,
        (SessionObject.processEvent_accepted hp).trans haccepted⟩

end State

/-- In a run that creates at most `2 ^ 62` sessions, nothing is started against a completion queue
that has been shut down, if the accepter has not passed its test of `running_` without having
registered its first session by the time `cq_conn_` is shut down. -/
theorem late_eq_nil_of_run {s : State} {as : List Action} (h : run step .init as = some s)
    (hC : Along step (fun s a ↦ shutdownContract s a = true ∧ firstRegistered s a = true) .init as)
    (hb : s.objects.length ≤ maxSessions) : s.cqConn.late = [] ∧ s.cqReadwrite.late = [] := by
  have hstop : s.objects.length ≤ maxSessions → s.Inv ∧ s.StopInv := by
    refine run_invariant_along (P := fun s ↦ s.objects.length ≤ maxSessions → s.Inv ∧ s.StopInv)
      (fun s a t hs ha h hb ↦ ?_) hC h fun _ ↦ ⟨State.inv_init, State.stopInv_init⟩
    have hle := length_le_of_step h
    obtain ⟨hinv, hst⟩ := hs (hle.trans hb)
    exact ⟨hinv.of_step h hb hle, hst.step hinv (hle.trans hb) ha.1 ha.2 h⟩
  exact ⟨(hstop hb).2.conn_late, (hstop hb).2.readwrite_late⟩

/-- The server is stopped while one client is connected and the next one is awaited. -/
def stopRun : List Action :=
  [.accepterTest, .accepterAdd, .accepterInsert, .completeConn (opOf 0 .connected) true,
    .accepterNext ⟨opOf 0 .connected, true⟩, .accepterGet, .accepterProcess, .accepterAdd,
    .accepterInsert, .workerTest, .stopTest, .stopStore, .stopLock, .stopCancel 0, .stopCancel 1,
    .stopUnlock, .stopShutdownServer, .completeReadwrite (opOf 0 .readDone) false,
    .workerNext ⟨opOf 0 .readDone, false⟩, .workerGet, .workerRemove, .stopServerDone,
    .completeConn (opOf 1 .connected) false, .accepterNext ⟨opOf 1 .connected, false⟩,
    .accepterGet, .accepterRemove, .stopShutdownConn, .accepterDrained, .stopShutdownReadwrite,
    .workerDrained, .accepterTest, .workerTest]

theorem late_eq_nil_of_run_stop : ∃ s, run step .init stopRun = some s ∧
    s.cqConn.late = [] ∧ s.cqReadwrite.late = [] :=
  ⟨_, rfl, late_eq_nil_of_run (show run step .init stopRun = some _ from rfl) (by decide)
    (by decide)⟩

/-- The server is stopped before the accepter has registered its first session. -/
def earlyStopRun : List Action :=
  [.accepterTest, .stopTest, .stopStore, .stopLock, .stopUnlock, .stopShutdownServer,
    .stopServerDone, .stopShutdownConn, .accepterAdd]

/-- The accepter can register its first session after `cq_conn_` has been shut down. -/
theorem late_of_run : ¬∀ as s, run step .init as = some s →
    Along step (shutdownContract · ·) .init as → s.cqConn.late = [] ∧ s.cqReadwrite.late = [] := by
  intro hlate
  have hearly := hlate earlyStopRun _ rfl (by decide)
  exact absurd hearly.1 (by decide)

end CppDemo.Grpc.ServerAsync
