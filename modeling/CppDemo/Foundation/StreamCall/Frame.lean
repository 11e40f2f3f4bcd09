import CppDemo.Foundation.StreamCall.Progress

/-!
# What the parties of a call leave alone

No more is on its way in a call than there is room for. Only the operations of the writer change it,
and the other ones look at it only to see whether it is done. Only the call itself breaks the call.

## Main definitions

* `StreamCall.State.Fits` : how much is under way.

## Main results

* `StreamCall.fits_of_run` : there is never more under way.
* `StreamCall.step_withWriter`, `StreamCall.writer_of_step`, `StreamCall.broken_of_step` : what the
  operations of one party do to the others.
-/

namespace StreamCall

open Transition

section Fits

variable {η ρ μ : Type*} {S : StreamService η ρ μ} {setup : Setup} {width : Nat} {s t : State η ρ μ}

/-- No more is on its way than there is room for, and the server writes at most what is due for a
request and at the end. -/
structure State.Fits (setup : Setup) (width : Nat) (s : State η ρ μ) : Prop where
  requests : s.requests.length ≤ setup.requestRoom
  messages : s.messages.length ≤ setup.messageRoom
  server : s.server.cost width ≤ 4 * width + 3

theorem State.Fits.move (hS : S.Bounded width) (h : s.Fits setup width)
    (hmove : Move S setup s t) : t.Fits setup width := by
  cases hmove with
  | write hwriter hbroken hroom =>
    exact ⟨Nat.le_trans (Nat.le_of_eq List.length_append) hroom, h.messages, h.server⟩
  | giveUp | halfClose | readEnds | join | finish | breaks =>
    exact ⟨h.requests, h.messages, h.server⟩
  | @serverRead state r _ hserver hrequests =>
    have hlength := h.requests
    have hwidth := hS.onRequest state r
    rw [hrequests, List.length_cons] at hlength
    refine ⟨Nat.le_of_succ_le hlength, h.messages, ?_⟩
    simp only [Server.cost]
    omega
  | @serverReadEnds state hserver =>
    have hwidth := hS.onEnd state
    refine ⟨h.requests, h.messages, ?_⟩
    simp only [Server.cost]
    omega
  | serverWrite hserver hbroken hroom =>
    have hcost := h.server
    rw [hserver] at hcost
    refine ⟨h.requests, Nat.le_trans (Nat.le_of_eq List.length_append) hroom, ?_⟩
    simp only [Server.cost, List.length_cons] at hcost ⊢
    omega
  | serverDrop hserver hbroken hnext =>
    have hcost := h.server
    rw [hserver] at hcost
    refine ⟨h.requests, h.messages, ?_⟩
    rcases hnext with rfl | rfl
    · simp only [Server.cost, List.length_nil]
      omega
    · simp only [Server.cost, List.length_cons] at hcost ⊢
      omega
  | lastWrite hserver hbroken hroom =>
    have hcost := h.server
    rw [hserver] at hcost
    refine ⟨h.requests, Nat.le_trans (Nat.le_of_eq List.length_append) hroom, ?_⟩
    simp only [Server.cost, List.length_cons] at hcost ⊢
    omega
  | lastDrop hserver hbroken =>
    have hcost := h.server
    rw [hserver] at hcost
    refine ⟨h.requests, h.messages, ?_⟩
    simp only [Server.cost, List.length_cons] at hcost ⊢
    omega
  | serverReturn => exact ⟨h.requests, h.messages, Nat.zero_le _⟩
  | read hreader hmessages =>
    have hlength := h.messages
    rw [hmessages, List.length_cons] at hlength
    exact ⟨h.requests, Nat.le_of_succ_le hlength, h.server⟩

theorem fits_of_run (hS : S.Bounded width) {requests : List ρ} {as : List Action}
    (hrun : run (step S setup) (init S requests) as = some s) : s.Fits setup width :=
  run_invariant (fun _ _ _ h hstep ↦ h.move hS (move_of_step hstep)) hrun
    ⟨Nat.zero_le _, Nat.zero_le _, by simp only [init, Server.cost, List.length_nil]; omega⟩

end Fits

/-! ### The writer -/

section WithWriter

variable {η ρ μ : Type*} {S : StreamService η ρ μ} {setup : Setup} {s t : State η ρ μ} {a : Action}

/-- What the other parties do depends on the writer only through whether it is done. -/
theorem step_withWriter {writer : Writer ρ} (hdone : writer.isDone = s.writer.isDone)
    (hwrite : a ≠ .write) (hclose : a ≠ .halfClose) :
    step S setup { s with writer } a = (step S setup s a).map fun t ↦ { t with writer } := by
  have hmay : State.mayRead setup { s with writer } = s.mayRead setup := by
    simp only [State.mayRead, hdone]
  cases a with
  | write => exact absurd rfl hwrite
  | halfClose => exact absurd rfl hclose
  | serverRead =>
    simp only [step, State.serverRead]
    split <;> rfl
  | serverReadEnds =>
    simp only [step, State.serverReadEnds, hdone]
    split
    · split_ifs <;> rfl
    · rfl
  | serverWrite =>
    simp only [step, State.serverWrite, State.send]
    split
    · split_ifs <;> rfl
    · split_ifs <;> rfl
    · rfl
  | serverReturn =>
    simp only [step, State.serverReturn]
    split <;> rfl
  | read =>
    simp only [step, State.receive, hmay]
    split
    · split_ifs <;> rfl
    · rfl
  | readEnds =>
    simp only [step, State.readEnds, hmay]
    split_ifs <;> rfl
  | join =>
    simp only [step, State.join, hdone]
    split
    · split_ifs <;> rfl
    · rfl
  | finish =>
    simp only [step, State.finish]
    split
    · split_ifs <;> rfl
    · rfl
  | breaks =>
    simp only [step, State.breaks]
    split
    · rfl
    · split_ifs <;> rfl

theorem writer_of_step (hwrite : a ≠ .write) (hclose : a ≠ .halfClose)
    (hstep : step S setup s a = some t) : t.writer = s.writer := by
  have hsame : step S setup s a = (step S setup s a).map fun t ↦ { t with writer := s.writer } :=
    step_withWriter rfl hwrite hclose
  rw [hstep, Option.map_some] at hsame
  have hwriter := congrArg State.writer (Option.some.inj hsame)
  exact hwriter

/-- A call breaks by itself only. -/
theorem broken_of_step (hbreaks : a ≠ .breaks) (hstep : step S setup s a = some t) :
    t.broken = s.broken := by
  cases a with
  | breaks => exact absurd rfl hbreaks
  | serverRead | serverReturn | halfClose =>
    simp only [step, State.serverRead, State.serverReturn, State.halfClose] at hstep
    split at hstep <;> cases hstep
    rfl
  | write | serverReadEnds | serverWrite | read | join | finish =>
    simp only [step, State.write, State.serverReadEnds, State.serverWrite, State.send,
      State.receive, State.join, State.finish] at hstep
    split at hstep <;> (try split_ifs at hstep) <;> cases hstep <;> rfl
  | readEnds =>
    obtain ⟨-, hstep⟩ := Option.ite_none_right_eq_some.mp hstep
    cases hstep
    rfl

end WithWriter

end StreamCall
