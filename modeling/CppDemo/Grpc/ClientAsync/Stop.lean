import CppDemo.Grpc.ClientAsync.Client
import Mathlib.Algebra.Order.BigOperators.Group.List
import Mathlib.Algebra.Order.Ring.Nat

/-!
# A signal ends the client

After a call of `stop` has reset `running_`, the write thread may be behind its test of it, so that
one more request may be written. Everything else that is under way comes to an end: the number of
steps that are left is bounded by what is on its way and by the number of signals, and who goes on
as long as he can gets to the return of `run`.

Source: `grpcdemo/client_async.cpp`, lines 28–70.

## Main definitions

* `State.Stopped` : `running_` has been reset.
* `State.cost` : at most how many steps are left then.

## Main results

* `State.Stopped.cost_lt` : every step but a signal leaves less to do.
* `stops_of_run` : at most one more request is written, and `run` returns after a number of steps.
-/

namespace CppDemo.Grpc.ClientAsync

open Transition StreamCall ServiceImpl

/-- A call of `stop` has reset `running_`. -/
structure State.Stopped (s : State) : Prop where
  inv : s.Inv
  running : s.running = false
  main : s.main ≠ .start

/-! ### At most one more request -/

/-- How many requests the write thread still writes if it finds `running_` reset. -/
def WriteThread.pending : WriteThread → Nat
  | write => 1
  | unborn | loop | sleep | ended => 0

section Written

variable {requestRoom messageRoom : Nat} {s t : State} {a : Action}

theorem State.Stopped.step (h : s.Stopped)
    (hstep : ClientAsync.step requestRoom messageRoom s a = some t) : t.Stopped := by
  have hinv := h.inv.step hstep
  cases move_of_step hstep with
  | start hmain => exact absurd hmain h.main
  | sayHello3 | readThread | writeThread | joinRead | joinWrite => exact ⟨hinv, h.running, nofun⟩
  | reset => exact ⟨hinv, rfl, h.main⟩
  | _ => exact ⟨hinv, h.running, h.main⟩

/-- The requests that have been written or are still to be written do not get more. -/
theorem State.Stopped.written_le (h : s.Stopped)
    (hstep : ClientAsync.step requestRoom messageRoom s a = some t) :
    t.written + t.writeThread.pending ≤ s.written + s.writeThread.pending := by
  cases move_of_step hstep with
  | writeThread hmain => exact Nat.le_add_right _ _
  | loop hthread =>
    rw [h.running]
    exact Nat.le_add_right _ _
  | write hthread => simp [hthread, WriteThread.pending]
  | writeFails hthread => exact Nat.le_add_right _ _
  | sleep hthread => exact Nat.le_add_right _ _
  | _ => exact Nat.le_refl _

end Written

/-! ### What is left to do -/

def Main.cost : Main → Nat
  | start => 6
  | sayHello3 => 5
  | readThread => 4
  | writeThread => 3
  | joinRead => 2
  | joinWrite => 1
  | returned => 0

/-- The steps of the write thread if `running_` stays reset. -/
def WriteThread.cost : WriteThread → Nat
  | write | sleep => 2
  | unborn | loop => 1
  | ended => 0

def Stop.cost : Stop → Nat
  | test => 3
  | reset => 2
  | tryCancel => 1
  | returned => 0

/-- At most how many steps are left once `running_` has been reset. -/
def State.cost (s : State) : Nat :=
  (s.callWith (s.written + s.writeThread.pending)).cost 1 + s.main.cost + s.writeThread.cost +
    (s.stops.map Stop.cost).sum

section Cost

variable {requestRoom messageRoom : Nat} {s t : State} {a : Action}

theorem State.cost_eq (s : State) :
    s.cost = 5 * s.writeThread.pending + 1 + 4 * s.call.requests.length + s.call.server.cost 1 +
      s.call.messages.length + s.call.reader.cost + (if s.call.broken then 0 else 1) +
        s.main.cost + s.writeThread.cost + (s.stops.map Stop.cost).sum := by
  simp only [State.cost, State.callWith, StreamCall.State.cost, Writer.cost,
    Nat.add_sub_cancel_left, List.length_replicate]

/-- Every step but a signal leaves less to do. -/
theorem State.Stopped.cost_lt (h : s.Stopped)
    (hstep : ClientAsync.step requestRoom messageRoom s a = some t) :
    t.cost < s.cost + 4 * [a].countP (· = .signal) := by
  cases move_of_step hstep with
  | start hmain => exact absurd hmain h.main
  | sayHello3 hmain | readThread hmain | joinRead hmain | joinWrite hmain =>
    rw [State.cost_eq, s.cost_eq]
    simp only [hmain, Main.cost]
    omega
  | writeThread hmain =>
    have hunborn := h.inv.unborn.mpr (by rw [hmain]; rfl)
    rw [State.cost_eq, s.cost_eq]
    simp only [hmain, hunborn, Main.cost, WriteThread.pending, WriteThread.cost]
    omega
  | loop hthread =>
    rw [State.cost_eq, s.cost_eq]
    simp only [hthread, h.running, Bool.false_eq_true, if_false, WriteThread.pending,
      WriteThread.cost]
    omega
  | write hthread =>
    rw [State.cost_eq, s.cost_eq]
    simp only [hthread, List.length_append, List.length_singleton, WriteThread.pending,
      WriteThread.cost]
    omega
  | writeFails hthread | sleep hthread =>
    rw [State.cost_eq, s.cost_eq]
    simp only [hthread, WriteThread.pending, WriteThread.cost]
    omega
  | call hallows hcall =>
    have hmove := StreamCall.move_of_step
      (callWith_call (n := s.written + s.writeThread.pending) h.inv.writer hallows hcall)
    have hlt := cost_lt_of_move sayHello3Service_bounded hmove
    simp only [State.cost]
    omega
  | signal =>
    rw [State.cost_eq, s.cost_eq]
    simp only [List.map_append, List.sum_append, List.map_singleton, List.sum_singleton, Stop.cost,
      decide_true, List.countP_singleton, if_true]
    omega
  | test hstop =>
    have hsum := sum_map_set Stop.cost hstop .returned
    simp only [Stop.cost] at hsum
    rw [State.cost_eq, s.cost_eq]
    simp only [h.running, Bool.false_eq_true, if_false]
    omega
  | reset hstop =>
    have hsum := sum_map_set Stop.cost hstop .tryCancel
    simp only [Stop.cost] at hsum
    rw [State.cost_eq, s.cost_eq]
    simp only
    omega
  | tryCancel hstop =>
    have hsum := sum_map_set Stop.cost hstop .returned
    simp only [Stop.cost] at hsum
    rw [State.cost_eq, s.cost_eq]
    simp only [if_true]
    omega

end Cost

/-! ### Runs -/

section Runs

variable {requestRoom messageRoom : Nat} {s t : State} {as bs : List Action}

theorem length_stops_of_run (hrun : run (step requestRoom messageRoom) {} as = some s) :
    s.stops.length = as.countP (· = .signal) := by
  refine run_history (P := fun as s ↦ s.stops.length = as.countP (· = .signal))
    (fun as s a t h hstep ↦ ?_) hrun rfl
  rw [List.countP_append]
  cases move_of_step hstep <;> simpa using h

/-- What is left at most when `running_` is reset. -/
theorem cost_le_of_run (hrun : run (step requestRoom messageRoom) {} as = some s)
    (hmain : s.main ≠ .start) :
    s.cost ≤ 4 * requestRoom + messageRoom + 25 + 3 * as.countP (· = .signal) := by
  obtain ⟨bs, hbs⟩ := exists_run_of_run hrun (Nat.le_refl s.written)
  have hfits := fits_of_run sayHello3Service_bounded hbs
  have hrequests : s.call.requests.length ≤ requestRoom := hfits.requests
  have hmessages : s.call.messages.length ≤ messageRoom := hfits.messages
  have hserver : s.call.server.cost 1 ≤ 7 := hfits.server
  have hreader : s.call.reader.cost ≤ 3 := by
    cases s.call.reader <;> simp [Reader.cost]
  have hthread : 5 * s.writeThread.pending + s.writeThread.cost ≤ 7 := by
    cases s.writeThread <;> simp [WriteThread.pending, WriteThread.cost]
  have hmain' : s.main.cost ≤ 5 := by
    generalize s.main = main at hmain
    cases main <;> first | exact absurd rfl hmain | simp [Main.cost]
  have hstops : (s.stops.map Stop.cost).sum ≤ 3 * as.countP (· = .signal) := by
    have hle : ∀ stop ∈ s.stops.map Stop.cost, stop ≤ 3 := by
      simp only [List.mem_map, forall_exists_index, and_imp, forall_apply_eq_imp_iff₂]
      intro stop _
      cases stop <;> simp [Stop.cost]
    have hsum : (s.stops.map Stop.cost).sum ≤ (s.stops.map Stop.cost).length * 3 :=
      List.sum_le_card_nsmul _ 3 hle
    rwa [List.length_map, length_stops_of_run hrun, Nat.mul_comm] at hsum
  have hbroken : (if s.call.broken then 0 else 1) ≤ 1 := by split_ifs <;> simp
  rw [s.cost_eq]
  omega

/-- Once a call of `stop` has reset `running_`, whatever the order of the steps, at most one more
request is written, and after a number of steps nobody can go on. By then `run` has returned. -/
theorem stops_of_run (hrequest : 0 < requestRoom) (hmessage : 0 < messageRoom)
    (hs : run (step requestRoom messageRoom) {} as = some s) (hrunning : s.running = false)
    (hmain : s.main ≠ .start) (ht : run (step requestRoom messageRoom) s bs = some t) :
    t.written ≤ s.written + 1 ∧
      bs.length ≤ 4 * requestRoom + messageRoom + 25 + 3 * as.countP (· = .signal) +
        4 * bs.countP (· = .signal) ∧
      (Idle requestRoom messageRoom t → t.main = .returned ∧ t.call.server = .returned) := by
  have hstopped : s.Stopped := ⟨inv_of_run hs, hrunning, hmain⟩
  have hkept : ∀ u a v, State.Stopped u → step requestRoom messageRoom u a = some v → v.Stopped :=
    fun u a v h hstep ↦ h.step hstep
  refine ⟨?_, ?_, fun hidle ↦ ?_⟩
  · have hwritten := run_invariant (P := fun u : State ↦ u.Stopped ∧
        u.written + u.writeThread.pending ≤ s.written + s.writeThread.pending)
      (fun u a v h hstep ↦ ⟨h.1.step hstep, Nat.le_trans (h.1.written_le hstep) h.2⟩) ht
      ⟨hstopped, Nat.le_refl _⟩
    have hpending : s.writeThread.pending ≤ 1 := by
      cases s.writeThread <;> simp [WriteThread.pending]
    have hle := hwritten.2
    omega
  · have hlength := length_add_le_of_run_credit (μ := State.cost) (q := fun a ↦ a = .signal) hkept
      (fun u a v h hstep ↦ h.cost_lt hstep) ht hstopped
    have hcost := cost_le_of_run hs hmain
    omega
  · have hrun : run (step requestRoom messageRoom) {} (as ++ bs) = some t :=
      (run_append _).mpr ⟨s, hs, ht⟩
    exact (inv_of_run hrun).returned_of_idle hidle (broken_of_idle hrun hrequest hmessage hidle)

/-- The write thread finds `running_` set right before it is reset. -/
def untilReset : List Action :=
  [.main, .main, .main, .main, .writeThread, .signal, .stop 0, .stop 0]

/-- Its request is written before the call is cancelled, and is still answered. -/
def afterReset : List Action :=
  [.writeThread, .signal, .call .serverRead, .call .serverWrite, .call .read, .stop 1, .stop 0,
    .writeThread, .writeThread, .call .readEnds, .main, .main, .call .serverReadEnds,
    .call .serverReturn]

theorem stops_of_run_afterReset :
    ∃ s t, run (step 1 1) {} untilReset = some s ∧ run (step 1 1) s afterReset = some t ∧
      t.written ≤ s.written + 1 ∧
      afterReset.length ≤ 4 * 1 + 1 + 25 + 3 * untilReset.countP (· = .signal) +
        4 * afterReset.countP (· = .signal) ∧
      (Idle 1 1 t → t.main = .returned ∧ t.call.server = .returned) :=
  ⟨_, _, rfl, rfl, stops_of_run (s := _) (t := _) Nat.one_pos Nat.one_pos
    (show run (step 1 1) {} untilReset = some _ from rfl) rfl nofun
    (show run (step 1 1) _ afterReset = some _ from rfl)⟩

end Runs

end CppDemo.Grpc.ClientAsync
