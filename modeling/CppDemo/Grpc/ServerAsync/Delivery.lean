import CppDemo.Grpc.ServerAsync.Invariant
import CppDemo.Grpc.ServerAsync.TagWrap

/-!
# Delivery and stream discipline

While a session is in the table, nothing that was passed to it is lost, duplicated or reordered, its
replies answer the requests that were read, and it never has two reads or two writes outstanding.
Both hold in every run that creates at most `2 ^ 62` sessions. The bound is needed: beyond it the
accepter can take the registration of a new session for one of an old session, which starts a second
read and then a second write that overtakes a queued message.

Source: `grpcdemo/server_async.cc`, lines 101–153, 191–286.

## Main definitions

* `State.Delivers`, `State.StreamDiscipline` : the two properties of a state.

## Main results

* `delivers_of_run`, `streamDiscipline_of_run` : they hold in every state of a run.
* `not_delivers_of_run`, `not_streamDiscipline_of_run` : they fail without the bound.
-/

namespace CppDemo.Grpc.ServerAsync

namespace State

/-- A completed read or write that no session has processed yet: it waits in its queue or in the
hands of the worker. -/
def Completed (s : State) (c : Completion Op) : Prop :=
  c ∈ s.cqReadwrite.posted ∨ s.worker = .lookup c ∨ ∃ i, s.worker = .handle c i

/-- How many operations of session `i` that complete with `event` are in flight. -/
def inFlight (s : State) (i : Nat) (event : SessionEvent) : Nat :=
  s.cqReadwrite.inFlight.countP fun op ↦ op.session = i ∧ op.event = event

variable {s : State}

theorem completed_iff {c : Completion Op} :
    s.Completed c ↔ (c.op, some c.ok) ∈ s.readwritePending := by
  have hhand : (c.op, some c.ok) ∈ s.worker.hand ↔
      s.worker = .lookup c ∨ ∃ i, s.worker = .handle c i := by
    cases s.worker with
    | lookup c' => simp [WorkerPc.hand, Completion.ext_iff, eq_comm]
    | handle c' i => simp [WorkerPc.hand, Completion.ext_iff, eq_comm]
    | _ => simp [WorkerPc.hand]
  rw [readwritePending, Multiset.mem_add, hhand, CompletionQueue.mem_pending_some, Completed]
  exact or_comm

/-- The operations in flight are outstanding operations of their session without an outcome. -/
theorem inFlight_le_count (s : State) (i : Nat) (event : SessionEvent) :
    s.inFlight i event ≤ (tokensOf i s.table.pending).count (event, none) := by
  have hcount : ∀ ops : List Op,
      (tokensOf i ((ops : Multiset Op).map fun op ↦ (op, none))).count (event, none) =
        ops.countP fun op ↦ op.session = i ∧ op.event = event := by
    intro ops
    induction ops with
    | nil => rfl
    | cons op ops ih =>
      rw [← Multiset.cons_coe, Multiset.map_cons]
      by_cases hop : op.session = i
      · rw [tokensOf_cons_self hop, Multiset.count_cons, ih, List.countP_cons]
        simp [hop, eq_comm]
      · rw [tokensOf_cons_of_ne hop, ih, List.countP_cons]
        simp [hop]
  rw [inFlight, ← hcount]
  simp only [table, readwritePending, CompletionQueue.pending, tokensOf_add, Multiset.count_add]
  omega

/-- An outstanding read or write without an outcome is in flight. -/
theorem Inv.inFlight_pos (hs : s.Inv) {i : Nat} {event : SessionEvent} (hevent : event ≠ .connected)
    (h : (event, none) ∈ tokensOf i s.table.pending) : 0 < s.inFlight i event := by
  obtain ⟨op, hop, rfl, rfl⟩ := mem_tokensOf.mp h
  have hreadwrite : (op, none) ∈ s.readwritePending := by
    rcases Multiset.mem_add.mp hop with hop | hop
    · exact absurd (hs.conn _ hop) hevent
    · exact hop
  have hhand : (op, none) ∉ s.worker.hand := by
    cases s.worker <;> simp [WorkerPc.hand]
  have hqueue := (Multiset.mem_add.mp hreadwrite).resolve_left hhand
  exact List.countP_pos_iff.mpr ⟨op, CompletionQueue.mem_pending_none.mp hqueue, by simp⟩

/-- A session in the table is in one of its phases. -/
theorem Inv.view_of_getSession (hs : s.Inv) {i : Nat} {o : SessionObject}
    (hi : s.getSession (UInt64.ofNat i) = some i) (ho : s.objects[i]? = some o) :
    (⟨o, .registered, tokensOf i s.table.pending⟩ : SessionView).Inv := by
  have hview := hs.table.view i o ho
  rwa [Table.view, hs.table.life_eq_registered hi] at hview

end State

/-! ### Delivery -/

/-- The conversation of a session is in order: the messages written and then those queued are the
messages passed to `SendResponse`, and the replies among them answer, one by one, the requests whose
`ReadDone` has been processed. -/
structure SessionObject.Delivers (o : SessionObject) : Prop where
  messages : o.written ++ o.session.messageQueue = o.history.passed.map Prod.snd
  replies : o.history.replies = (o.stream.sent.take o.history.readDone).map replyTo
  read : o.history.readDone ≤ o.stream.delivered ∧ o.stream.delivered ≤ o.stream.sent.length

/-- The conversation of every connected session in the table is in order, and a session that answers
a request has connected, so that the reply is not dropped. -/
structure State.Delivers (s : State) : Prop where
  sessions : ∀ i o, s.getSession (UInt64.ofNat i) = some i → s.objects[i]? = some o →
    o.history.connected = true → o.Delivers
  reply : ∀ c i o, s.worker = .handle c i → c.ok = true →
    (detagify c.op.tag).2 = SessionEvent.readDone.toWord → s.objects[i]? = some o →
    o.history.connected = true ∧ o.session.status ≠ .waitToConnect

theorem SessionObject.Active.delivers {o : SessionObject} {read : Option Bool}
    (h : o.Active read) : o.Delivers := by
  have hdelivered := h.delivered
  exact ⟨h.messages, h.replies, by omega, h.delivered_le⟩

/-- In every state of a run that creates at most `2 ^ 62` sessions, nothing passed to a connected
session in the table has been lost, duplicated or reordered. -/
theorem delivers_of_run {s : State} {as : List Action}
    (h : Transition.run step .init as = some s) (hb : s.objects.length ≤ maxSessions) :
    s.Delivers := by
  have hs := inv_of_run h hb
  refine ⟨fun i o hi ho hconnected ↦ ?_, fun c i o hpc _ hevent ho ↦ ?_⟩
  · cases hs.view_of_getSession hi ho with
    | waiting w h =>
      have hhistory : o.history = {} := h.history
      simp [hhistory] at hconnected
    | ready r h => exact h.toActive.delivers
    | writing r w h => exact h.toActive.delivers
    | removed h => exact absurd h.life (by simp)
  · obtain ⟨rfl, hi⟩ := hs.eq_of_handled .worker (congrArg WorkerPc.handled hpc)
    obtain ⟨hreadwrite, hmem⟩ :=
      State.mem_pending_of_hand .worker (congrArg WorkerPc.hand hpc)
    rw [hs.table.detagify hb hmem, SessionEvent.toWord_inj] at hevent
    have htoken : (SessionEvent.readDone, some c.ok) ∈ tokensOf c.op.session s.table.pending :=
      mem_tokensOf.mpr ⟨c.op, hmem, rfl, hevent⟩
    cases hs.view_of_getSession hi ho with
    | waiting w h =>
      have htokens : tokensOf c.op.session s.table.pending = {(.connected, w)} := h.tokens
      simp [htokens] at htoken
    | ready r h => exact ⟨h.connected, ne_of_eq_of_ne h.status (by simp)⟩
    | writing r w h => exact ⟨h.connected, ne_of_eq_of_ne h.status (by simp)⟩
    | removed h => exact absurd h.life (by simp)

/-- A client connects, sends a request and is answered. -/
theorem delivers_of_run_reply :
    ∃ s, Transition.run step .init wrapStart = some s ∧ s.Delivers :=
  ⟨wrapState 0, run_wrapStart, delivers_of_run run_wrapStart (by decide)⟩

/-- Beyond `2 ^ 62` sessions a reply can overtake one that was queued before it. -/
theorem not_delivers_of_run :
    ¬∀ as s, Transition.run step .init as = some s → s.Delivers := by
  intro hdelivers
  obtain ⟨as, has⟩ := exists_run_overtakenState
  have hsession := (hdelivers as _ has).sessions 0 overtakenSession
    (lookup_wrapSessions (by omega)) rfl rfl
  exact absurd hsession.messages (by decide)

/-! ### Stream discipline -/

/-- A session uses its stream as gRPC asks: nothing is started before `Connected` was processed, and
at most one read and one write are in flight. The status tells whether a write is in flight, except
while a `WriteDone` has not been processed yet, and a session that may write has nothing queued. -/
structure State.SessionDiscipline (s : State) (i : Nat) (o : SessionObject) : Prop where
  started : o.history.connected = false →
    o.stream.calls = [] ∧ s.inFlight i .readDone = 0 ∧ s.inFlight i .writeDone = 0
  reads : s.inFlight i .readDone ≤ 1
  writes : s.inFlight i .writeDone ≤ 1
  writing : (∀ c, s.Completed c → c.op.session = i → c.op.event ≠ .writeDone) →
    (s.inFlight i .writeDone = 1 ↔ o.session.status = .waitWriteDone)
  ready : o.session.status = .readyToWrite → o.session.messageQueue = []

/-- Every session in the table uses its stream as gRPC asks. -/
def State.StreamDiscipline (s : State) : Prop :=
  ∀ i o, s.getSession (UInt64.ofNat i) = some i → s.objects[i]? = some o → s.SessionDiscipline i o

/-- In every state of a run that creates at most `2 ^ 62` sessions, every session in the table uses
its stream as gRPC asks. -/
theorem streamDiscipline_of_run {s : State} {as : List Action}
    (h : Transition.run step .init as = some s) (hb : s.objects.length ≤ maxSessions) :
    s.StreamDiscipline := by
  intro i o hi ho
  have hs := inv_of_run h hb
  have hreads := s.inFlight_le_count i .readDone
  have hwrites := s.inFlight_le_count i .writeDone
  cases hs.view_of_getSession hi ho with
  | waiting w h =>
    have htokens : tokensOf i s.table.pending = {(.connected, w)} := h.tokens
    have hstatus : o.session.status = .waitToConnect := by rw [h.session]
    have hcalls : o.stream.calls = [] := h.calls
    simp only [htokens, Multiset.count_singleton, Prod.mk.injEq, reduceCtorEq, false_and,
      ↓reduceIte, Nat.le_zero] at hreads hwrites
    exact ⟨fun _ ↦ ⟨hcalls, hreads, hwrites⟩, by omega, by omega, by simp [hwrites, hstatus],
      by simp [hstatus]⟩
  | ready r h =>
    have htokens : tokensOf i s.table.pending = {(.readDone, r)} := h.tokens
    have hstatus : o.session.status = .readyToWrite := h.status
    have hconnected : o.history.connected = true := h.connected
    simp only [htokens, Multiset.count_singleton, Prod.mk.injEq, reduceCtorEq, false_and,
      ↓reduceIte, Nat.le_zero] at hreads hwrites
    refine ⟨by simp [hconnected], ?_, by omega, by simp [hwrites, hstatus], fun _ ↦ h.queue⟩
    split_ifs at hreads <;> omega
  | writing r w h =>
    have htokens : tokensOf i s.table.pending = {(.readDone, r), (.writeDone, w)} := h.tokens
    have hstatus : o.session.status = .waitWriteDone := h.status
    have hconnected : o.history.connected = true := h.connected
    have hone : (tokensOf i s.table.pending).count (.readDone, none) ≤ 1 ∧
        (tokensOf i s.table.pending).count (.writeDone, none) ≤ 1 := by
      simp only [htokens, Multiset.insert_eq_cons, Multiset.count_cons, Multiset.count_singleton,
        Prod.mk.injEq, reduceCtorEq, false_and, ↓reduceIte]
      constructor <;> split_ifs <;> omega
    refine ⟨by simp [hconnected], by omega, by omega, fun hwaits ↦ ?_, by simp [hstatus]⟩
    refine iff_of_true ?_ hstatus
    -- The outstanding write has no outcome, since a completed one would still wait.
    have hw : w = none := by
      cases w with
      | none => rfl
      | some ok =>
        have hmem : (SessionEvent.writeDone, some ok) ∈ tokensOf i s.table.pending := by
          simp [htokens]
        obtain ⟨op, hop, hsession, hevent⟩ := mem_tokensOf.mp hmem
        rcases Multiset.mem_add.mp hop with hop | hop
        · exact absurd ((hs.conn _ hop).symm.trans hevent) (by simp)
        · exact absurd hevent (hwaits ⟨op, ok⟩ (State.completed_iff.mpr hop) hsession)
    have hwrite : SessionEvent.writeDone ≠ .connected := by simp
    have hpos := hs.inFlight_pos (i := i) hwrite (by simp [htokens, hw])
    omega
  | removed h => exact absurd h.life (by simp)

theorem streamDiscipline_of_run_reply :
    ∃ s, Transition.run step .init wrapStart = some s ∧ s.StreamDiscipline :=
  ⟨wrapState 0, run_wrapStart, streamDiscipline_of_run run_wrapStart (by decide)⟩

theorem mem_wrapInFlight (i : Nat) : opOf 0 .readDone ∈ wrapInFlight i := by
  induction i with
  | zero => exact List.mem_cons_self
  | succ i ih => exact List.mem_cons_of_mem _ ih

/-- Session `0` has started a second read. -/
theorem two_le_inFlight_wrappedState (k : Nat) : 2 ≤ (wrappedState k).inFlight 0 .readDone := by
  have hread : 0 < (wrapInFlight k).countP fun op ↦ op.session = 0 ∧ op.event = .readDone :=
    List.countP_pos_iff.mpr ⟨_, mem_wrapInFlight k, rfl⟩
  rw [State.inFlight, wrappedState, List.countP_cons_of_pos rfl]
  exact Nat.succ_le_succ hread

/-- Beyond `2 ^ 62` sessions a session can have two reads in flight, even if nothing fails. -/
theorem not_streamDiscipline_of_run :
    ¬∀ as s, Transition.run step .init as = some s → (∀ a ∈ as, a.fails = false) →
      s.StreamDiscipline := by
  intro hdiscipline
  obtain ⟨as, has, hok⟩ := exists_run_wrappedState
  have hsession := hdiscipline as _ has hok 0 reconnectedSession (lookup_wrapSessions (by omega))
    rfl
  exact absurd ((two_le_inFlight_wrappedState _).trans hsession.reads) (by decide)

end CppDemo.Grpc.ServerAsync
