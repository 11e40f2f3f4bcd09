import CppDemo.Foundation.StreamCall.Answers

/-!
# The end of a call

Every step leaves less to do, so that every run of a call comes to an end. If each direction has
room for a message, then nobody waits forever, and the client has read all the answers at the end
unless the call has broken.

## Main definitions

* `StreamCall.State.cost` : at most how many steps are left.
* `StreamCall.Setup.Suits` : the conditions under which nobody waits forever.

## Main results

* `StreamCall.length_le_of_run` : every run comes to an end.
* `StreamCall.finished_of_idle` : no party waits forever for another one.
* `StreamCall.outcome_of_run` : the client reads answers in order, the call comes to an end, and if
  it has not broken then the client has read all the answers.
-/

namespace StreamCall

open Transition

section Cost

variable {η ρ μ : Type*}

/-- At most how many steps are left, for a server that writes at most `width` messages at a time. -/
def Writer.cost (width : Nat) : Writer ρ → Nat
  | writing unsent => (2 * width + 3) * unsent.length + 1
  | done => 0

def Server.cost (width : Nat) : Server η μ → Nat
  | serving _ unsent => 2 * unsent.length + (2 * width + 3)
  | ending unsent => 2 * unsent.length + 1
  | returned => 0

def Reader.cost : Reader → Nat
  | reading => 3
  | joining => 2
  | finishing => 1
  | finished _ => 0

def State.cost (width : Nat) (s : State η ρ μ) : Nat :=
  s.writer.cost width + (2 * width + 2) * s.requests.length + s.server.cost width +
    s.messages.length + s.reader.cost + if s.broken then 0 else 1

variable {S : StreamService η ρ μ} {setup : Setup} {width : Nat} {s t : State η ρ μ}

/-- Every move leaves less to do. -/
theorem cost_lt_of_move (hS : S.Bounded width) (hmove : Move S setup s t) :
    t.cost width < s.cost width := by
  cases hmove with
  | write hwriter hbroken =>
    simp only [State.cost, hwriter, Writer.cost, List.length_cons, List.length_append,
      List.length_nil, Nat.mul_add]
    omega
  | giveUp hwriter hbroken =>
    simp only [State.cost, hwriter, Writer.cost, List.length_cons, List.length_nil, Nat.mul_add]
    omega
  | halfClose hwriter =>
    simp only [State.cost, hwriter, Writer.cost, List.length_nil]
    omega
  | @serverRead h r _ hserver hrequests =>
    have hle := hS.onRequest h r
    simp only [State.cost, hserver, hrequests, Server.cost, List.length_cons, List.length_nil,
      Nat.mul_add]
    omega
  | @serverReadEnds h hserver hend =>
    have hle := hS.onEnd h
    simp only [State.cost, hserver, Server.cost, List.length_nil]
    omega
  | serverWrite hserver hbroken =>
    simp only [State.cost, hserver, Server.cost, List.length_cons, List.length_append,
      List.length_nil]
    omega
  | serverDrop hserver hbroken hnext =>
    rcases hnext with rfl | rfl <;>
      simp only [State.cost, hserver, Server.cost, List.length_cons, List.length_nil] <;> omega
  | lastWrite hserver hbroken =>
    simp only [State.cost, hserver, Server.cost, List.length_cons, List.length_append,
      List.length_nil]
    omega
  | lastDrop hserver hbroken =>
    simp only [State.cost, hserver, Server.cost, List.length_cons]
    omega
  | serverReturn hserver =>
    simp only [State.cost, hserver, Server.cost, List.length_nil]
    omega
  | read hreader hmessages =>
    simp only [State.cost, hmessages, List.length_cons]
    omega
  | readEnds hreader hend =>
    simp only [State.cost, hreader, Reader.cost]
    omega
  | join hreader hwriter =>
    simp only [State.cost, hreader, Reader.cost]
    omega
  | finish hreader hend =>
    simp only [State.cost, hreader, Reader.cost]
    omega
  | breaks hreader hbroken =>
    simp [State.cost, hbroken]

/-- Every run comes to an end. -/
theorem length_le_of_run (hS : S.Bounded width) {requests : List ρ} {as : List Action}
    (hrun : run (step S setup) (init S requests) as = some s) :
    as.length ≤ (2 * width + 3) * (requests.length + 1) + 5 := by
  have hle := length_add_le_of_run (I := fun _ ↦ True) (μ := State.cost width)
    (fun _ _ _ _ _ ↦ trivial) (fun _ _ _ _ hstep ↦ cost_lt_of_move hS (move_of_step hstep)) hrun
    trivial
  have hinit : (init S requests : State η ρ μ).cost width =
      (2 * width + 3) * (requests.length + 1) + 5 := by
    simp only [State.cost, init, Writer.cost, Server.cost, Reader.cost, List.length_nil,
      Bool.false_eq_true, if_false, Nat.mul_add]
    omega
  omega

end Cost

/-! ### Nobody waits forever -/

section Stuck

variable {η ρ μ : Type*} {S : StreamService η ρ μ} {setup : Setup} {s : State η ρ μ}

/-- All parties are done. -/
structure State.Finished (s : State η ρ μ) : Prop where
  writer : s.writer = .done
  server : s.server = .returned
  reader : s.reader = .finished !s.broken

/-- Each direction has room for a message, and a client that writes before it reads has a server
that does not write before it has read everything. -/
structure Setup.Suits (setup : Setup) (S : StreamService η ρ μ) : Prop where
  requestRoom : 0 < setup.requestRoom
  messageRoom : 0 < setup.messageRoom
  quiet : setup.concurrent = false → S.Quiet

/-- No operation is possible, and the call does not break either. -/
abbrev Idle (S : StreamService η ρ μ) (setup : Setup) (s : State η ρ μ) : Prop :=
  Stuck (step S setup) (· ≠ .breaks) s

/-- If the server waits to write, there is no room for its message. -/
theorem server_of_stuck (hidle : Stuck (step S setup) (·.isServer = true) s) :
    s.server = .returned ∨
    s.broken = false ∧ setup.messageRoom ≤ s.messages.length ∧
      ((∃ h m unsent, s.server = .serving h (m :: unsent)) ∨
        ∃ m unsent, s.server = .ending (m :: unsent)) ∨
    s.broken = false ∧ s.requests = [] ∧ s.writer ≠ .done ∧ ∃ h, s.server = .serving h [] := by
  have hwrite := hidle .serverWrite rfl
  have hread := hidle .serverRead rfl
  have hends := hidle .serverReadEnds rfl
  have hreturn := hidle .serverReturn rfl
  simp only [step, State.serverWrite, State.serverRead, State.serverReadEnds, State.serverReturn,
    State.send] at hwrite hread hends hreturn
  cases hserver : s.server with
  | returned => exact .inl rfl
  | serving h unsent =>
    rw [hserver] at hwrite hread hends
    cases unsent with
    | cons m unsent =>
      cases hbroken : s.broken with
      | true => simp [hbroken] at hwrite
      | false =>
        simp only [hbroken, Bool.false_eq_true, if_false, ite_eq_right_iff, reduceCtorEq,
          imp_false, Nat.not_lt] at hwrite
        exact .inr (.inl ⟨rfl, hwrite, .inl ⟨h, m, unsent, rfl⟩⟩)
    | nil =>
      cases hrequests : s.requests with
      | cons r requests => simp [hrequests] at hread
      | nil =>
        simp only [hrequests, List.isEmpty_nil, Bool.true_and, ite_eq_right_iff, reduceCtorEq,
          imp_false, Bool.or_eq_true, Writer.isDone_iff, not_or, Bool.not_eq_true] at hends
        exact .inr (.inr ⟨hends.2, rfl, hends.1, h, rfl⟩)
  | ending unsent =>
    rw [hserver] at hwrite hreturn
    cases unsent with
    | nil => cases hreturn
    | cons m unsent =>
      cases hbroken : s.broken with
      | true => simp [hbroken] at hwrite
      | false =>
        simp only [hbroken, Bool.false_eq_true, if_false, ite_eq_right_iff, reduceCtorEq,
          imp_false, Nat.not_lt] at hwrite
        exact .inr (.inl ⟨rfl, hwrite, .inr ⟨m, unsent, rfl⟩⟩)

/-- If the client waits to read, there is nothing to read. -/
theorem messages_of_stuck (hreceive : step S setup s .read = none)
    (hends : step S setup s .readEnds = none) (hread : s.reader = .reading)
    (hmay : setup.concurrent = true ∨ s.writer = .done) :
    s.broken = false ∧ s.messages = [] ∧ s.server ≠ .returned := by
  have hmay' : s.mayRead setup = true := State.mayRead_iff.mpr ⟨hread, hmay⟩
  simp only [step, State.receive, State.readEnds, hmay', if_true, Bool.true_and] at hreceive hends
  cases hmessages : s.messages with
  | cons m messages => simp [hmessages] at hreceive
  | nil =>
    simp only [hmessages, List.isEmpty_nil, Bool.true_and, ite_eq_right_iff, reduceCtorEq,
      imp_false, Bool.or_eq_true, Server.hasReturned_iff, not_or, Bool.not_eq_true] at hends
    exact ⟨hends.2, rfl, hends.1⟩

/-- If the client waits to write, there is no room for its request. -/
theorem Idle.writer (hidle : Idle S setup s) : s.writer = .done ∨
    s.broken = false ∧ (∃ r unsent, s.writer = .writing (r :: unsent)) ∧
      setup.requestRoom ≤ s.requests.length := by
  have hwrite := hidle .write (by simp)
  have hclose := hidle .halfClose (by simp)
  simp only [step, State.write, State.halfClose] at hwrite hclose
  cases hwriter : s.writer with
  | done => exact .inl rfl
  | writing unsent =>
    rw [hwriter] at hwrite hclose
    cases unsent with
    | nil => cases hclose
    | cons r unsent =>
      cases hbroken : s.broken with
      | true => simp [hbroken] at hwrite
      | false =>
        simp only [hbroken, Bool.false_eq_true, if_false, ite_eq_right_iff, reduceCtorEq,
          imp_false, Nat.not_lt] at hwrite
        exact .inr ⟨rfl, ⟨r, unsent, rfl⟩, hwrite⟩

theorem Idle.server (hidle : Idle S setup s) : Stuck (step S setup) (·.isServer = true) s :=
  fun a ha ↦ hidle a (by rintro rfl; cases ha)

/-- When nothing more happens, all parties are done, and the client has read all the answers unless
the call has broken. -/
theorem finished_of_idle (hidle : Idle S setup s) (hsetup : setup.Suits S) {answers : List μ}
    (h : s.Inv S setup answers) : s.Finished ∧ (s.broken = false → s.read = answers) := by
  obtain ⟨hrequestRoom, hmessageRoom, hquiet⟩ := hsetup
  have hmessagesOf := messages_of_stuck (hidle .read (by simp)) (hidle .readEnds (by simp))
  have hserver : s.server = .returned := by
    rcases server_of_stuck hidle.server with
      hreturned | ⟨hbroken, hroom, hplace⟩ | ⟨-, hempty, hwriter, -⟩
    · exact hreturned
    · -- The client reads, so that there is room for the message.
      have hmessages : s.messages ≠ [] := List.ne_nil_of_length_pos (by omega)
      have hreader : s.reader = .reading := by
        by_contra hreader
        exact hmessages (h.readEnded hbroken hreader).2
      have hmay : setup.concurrent = true ∨ s.writer = .done := by
        refine or_iff_not_imp_left.mpr fun hsequential ↦ ?_
        rw [Bool.not_eq_true] at hsequential
        rcases hplace with ⟨h', m, unsent, hserver⟩ | ⟨m, unsent, hserver⟩
        · exact absurd (h.quiet hsequential (hquiet hsequential) _ _ hserver) (by simp)
        · exact (h.ended hbroken (by simp [hserver])).2
      exact absurd (hmessagesOf hreader hmay).2.1 hmessages
    · -- Without requests on their way the client can write.
      rcases hidle.writer with hdone | ⟨-, -, hfull⟩
      · exact absurd hdone hwriter
      · rw [hempty, List.length_nil] at hfull
        omega
  have hwriter : s.writer = .done := by
    rcases hidle.writer with hdone | ⟨hbroken, -, -⟩
    · exact hdone
    · exact (h.ended hbroken (by simp [hserver])).2
  have hreader : s.reader = .finished !s.broken := by
    have hjoin := hidle .join (by simp)
    have hfinish := hidle .finish (by simp)
    simp only [step, State.join, State.finish, hwriter, hserver, Writer.isDone,
      Server.hasReturned] at hjoin hfinish
    cases hreader : s.reader with
    | reading => exact absurd hserver (hmessagesOf hreader (.inr hwriter)).2.2
    | joining => simp [hreader] at hjoin
    | finishing => simp [hreader] at hfinish
    | finished ok => rw [h.finished ok hreader]
  refine ⟨⟨hwriter, hserver, hreader⟩, fun hbroken ↦ ?_⟩
  obtain ⟨rest, hall, hrest⟩ := h.answers
  have hmessages : s.messages = [] := (h.readEnded hbroken (by simp [hreader])).2
  simpa [hrest hbroken, State.rest, hserver, hmessages] using hall

/-- The client reads answers in order, every run comes to an end, and nobody waits forever. -/
theorem outcome_of_run {width : Nat} (hS : S.Bounded width) (hsetup : setup.Suits S)
    {requests : List ρ} {as : List Action}
    (hrun : run (step S setup) (init S requests) as = some s) :
    s.read <+: S.answers requests ∧ as.length ≤ (2 * width + 3) * (requests.length + 1) + 5 ∧
      (Idle S setup s → s.Finished ∧ (s.broken = false → s.read = S.answers requests)) :=
  ⟨read_prefix_of_run hrun, length_le_of_run hS hrun,
    fun hidle ↦ finished_of_idle hidle hsetup (inv_of_run hrun)⟩

end Stuck

end StreamCall
