import CppDemo.Grpc.ServerAsync.Delivery

/-!
# The server keeps up with its clients

A session does nothing of its own accord: whatever it has still to do is done when one of its
operations completes. In every run that creates at most `2 ^ 62` sessions there is such an
operation. A connected session in the table always has a read outstanding, and while messages are
queued a write as well. When the requests of the client have been read and the events have been
processed, every request has been answered and no message is left in the queue.

Source: `grpcdemo/server_async.cc`, lines 101–153, 226–266.

## Main definitions

* `State.Outstanding` : an operation of a session is in flight or waits to be processed.
* `State.KeepsUp` : the session has an operation outstanding for what it has still to do.

## Main results

* `keepsUp_of_run` : this holds of every connected session in the table.
-/

namespace CppDemo.Grpc.ServerAsync

namespace State

/-- A read or write of session `i` is in flight, or its completion waits to be processed. -/
def Outstanding (s : State) (i : Nat) (event : SessionEvent) : Prop :=
  0 < s.inFlight i event ∨ ∃ c, s.Completed c ∧ c.op.session = i ∧ c.op.event = event

/-- Nothing of session `i` is under way but a read: no write is in flight, and no completion waits
to be processed. -/
structure Settled (s : State) (i : Nat) : Prop where
  writes : s.inFlight i .writeDone = 0
  completed : ∀ c, s.Completed c → c.op.session ≠ i

/-- Session `i` has an operation outstanding for whatever it has still to do, and once it has
settled it has done everything. -/
structure KeepsUp (s : State) (i : Nat) (o : SessionObject) : Prop where
  reads : s.Outstanding i .readDone
  writes : o.session.messageQueue ≠ [] → s.Outstanding i .writeDone
  written : s.Settled i → o.written = o.history.passed.map Prod.snd
  answered : s.Settled i → o.history.replies = (o.stream.sent.take o.stream.delivered).map replyTo

variable {s : State} {i : Nat}

/-- An outstanding read or write is in flight or waits to be processed. -/
theorem Inv.outstanding (hs : s.Inv) {event : SessionEvent} (hevent : event ≠ .connected)
    {w : Option Bool} (h : (event, w) ∈ tokensOf i s.table.pending) : s.Outstanding i event := by
  cases w with
  | none => exact Or.inl (hs.inFlight_pos hevent h)
  | some ok =>
    obtain ⟨op, hop, hsession, rfl⟩ := mem_tokensOf.mp h
    rcases Multiset.mem_add.mp hop with hop | hop
    · exact absurd (hs.conn _ hop) hevent
    · exact Or.inr ⟨⟨op, ok⟩, completed_iff.mpr hop, hsession, rfl⟩

/-- A settled session has no write outstanding. -/
theorem Settled.not_outstanding (h : s.Settled i) : ¬s.Outstanding i .writeDone := by
  rintro (hpos | ⟨c, hc, hsession, -⟩)
  · rw [h.writes] at hpos
    exact absurd hpos (Nat.lt_irrefl 0)
  · exact h.completed c hc hsession

/-- The read of a settled session has no outcome yet. -/
theorem Settled.read_eq_none (h : s.Settled i) (hs : s.Inv) {event : SessionEvent}
    (hevent : event ≠ .connected) {w : Option Bool}
    (hw : (event, w) ∈ tokensOf i s.table.pending) : w = none := by
  cases w with
  | none => rfl
  | some ok =>
    obtain ⟨op, hop, hsession, rfl⟩ := mem_tokensOf.mp hw
    rcases Multiset.mem_add.mp hop with hop | hop
    · exact absurd (hs.conn _ hop) hevent
    · exact absurd hsession (h.completed ⟨op, ok⟩ (completed_iff.mpr hop))

end State

open State

/-- A session whose read is under way has answered every request that was delivered to it. -/
theorem SessionObject.Active.answered {o : SessionObject} (h : o.Active none) :
    o.history.replies = (o.stream.sent.take o.stream.delivered).map replyTo := by
  have hdelivered := h.delivered
  simp only [reduceCtorEq, ↓reduceIte, Nat.add_zero] at hdelivered
  rw [hdelivered]
  exact h.replies

/-- In every state of a run that creates at most `2 ^ 62` sessions, every connected session in the
table keeps up with its client: it never waits with work left over and nothing under way. -/
theorem keepsUp_of_run {s : State} {as : List Action}
    (h : Transition.run step .init as = some s) (hb : s.objects.length ≤ maxSessions) :
    ∀ i o, s.getSession (UInt64.ofNat i) = some i → s.objects[i]? = some o →
      o.history.connected = true → s.KeepsUp i o := by
  intro i o hi ho hconnected
  have hs := inv_of_run h hb
  have hread : SessionEvent.readDone ≠ .connected := by simp
  have hwrite : SessionEvent.writeDone ≠ .connected := by simp
  cases hs.view_of_getSession hi ho with
  | waiting w h =>
    have hhistory : o.history = {} := h.history
    simp [hhistory] at hconnected
  | ready r h =>
    have htokens : tokensOf i s.table.pending = {(.readDone, r)} := h.tokens
    have hqueue : o.session.messageQueue = [] := h.queue
    have hmessages : o.written ++ o.session.messageQueue = o.history.passed.map Prod.snd :=
      h.messages
    rw [hqueue, List.append_nil] at hmessages
    refine ⟨hs.outstanding hread (w := r) (by simp [htokens]), fun hne ↦ absurd hqueue hne,
      fun _ ↦ hmessages, fun hsettled ↦ ?_⟩
    obtain rfl := hsettled.read_eq_none hs hread (w := r) (by simp [htokens])
    exact h.toActive.answered
  | writing r w h =>
    have htokens : tokensOf i s.table.pending = {(.readDone, r), (.writeDone, w)} := h.tokens
    have houtstanding := hs.outstanding (i := i) hwrite (w := w) (by simp [htokens])
    exact ⟨hs.outstanding hread (w := r) (by simp [htokens]), fun _ ↦ houtstanding,
      fun hsettled ↦ absurd houtstanding hsettled.not_outstanding,
      fun hsettled ↦ absurd houtstanding hsettled.not_outstanding⟩
  | removed h => exact absurd h.life (by simp)

theorem keepsUp_of_run_reply :
    ∃ s, Transition.run step .init wrapStart = some s ∧
      ∀ i o, s.getSession (UInt64.ofNat i) = some i → s.objects[i]? = some o →
        o.history.connected = true → s.KeepsUp i o :=
  ⟨wrapState 0, run_wrapStart, keepsUp_of_run run_wrapStart (by decide)⟩

end CppDemo.Grpc.ServerAsync
