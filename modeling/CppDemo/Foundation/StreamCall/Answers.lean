import CppDemo.Foundation.StreamCall.Operations

/-!
# The answers of a call

What the client has read, what is on its way and what the server is still to write are together the
answers to the requests, as long as the call does not break. In a call that has broken, what has
been read and what is on its way are still answers in order.

## Main definitions

* `StreamCall.State.Inv` : what holds in every state of a call.

## Main results

* `StreamCall.State.Inv.move` : every step keeps the invariant.
* `StreamCall.read_prefix_of_run` : the client reads answers in order.
-/

namespace StreamCall

open Transition

section Answers

variable {η ρ μ : Type*} (S : StreamService η ρ μ)

/-- The requests that are still to be written. -/
def Writer.unsent : Writer ρ → List ρ
  | writing unsent => unsent
  | done => []

/-- What the server is still to write if the call does not break. -/
def State.rest (s : State η ρ μ) : List μ :=
  match s.server with
  | .serving h unsent => unsent ++ S.answersFrom h (s.requests ++ s.writer.unsent)
  | .ending unsent => unsent
  | .returned => []

/-- What holds in every state of a call whose requests have the answers `answers`. -/
structure State.Inv (setup : Setup) (answers : List μ) (s : State η ρ μ) : Prop where
  /-- The messages that have been written are answers in order, and the server is to write the other
  ones. -/
  answers : ∃ rest, s.read ++ s.messages ++ rest = answers ∧ (s.broken = false → rest = s.rest S)
  /-- The server has come to the end of the requests. -/
  ended : s.broken = false → (∀ h unsent, s.server ≠ .serving h unsent) →
    s.requests = [] ∧ s.writer = .done
  /-- The client has come to the end of the messages. -/
  readEnded : s.broken = false → s.reader ≠ .reading → s.server = .returned ∧ s.messages = []
  joined : s.reader ≠ .reading → s.reader ≠ .joining → s.writer = .done
  finished : ∀ ok, s.reader = .finished ok → ok = !s.broken
  quiet : setup.concurrent = false → S.Quiet → ∀ h unsent, s.server = .serving h unsent →
    unsent = []

variable {S} {setup : Setup} {answers : List μ} {s t : State η ρ μ}

theorem inv_init (requests : List ρ) :
    (init S requests : State η ρ μ).Inv S setup (S.answers requests) where
  answers := ⟨_, rfl, fun _ ↦ rfl⟩
  ended _ h := absurd rfl (h S.start [])
  readEnded _ h := absurd rfl h
  joined h := absurd rfl h
  finished ok h := by cases h
  quiet _ _ h unsent hserver := by
    obtain ⟨-, rfl⟩ := Server.serving.inj hserver
    rfl

/-- In a call that has broken it is enough that what has been read and what is on its way are
answers in order. -/
private theorem inv_of_broken (hbroken : s.broken = true)
    (hall : ∃ rest, s.read ++ s.messages ++ rest = answers)
    (hjoined : s.reader ≠ .reading → s.reader ≠ .joining → s.writer = .done)
    (hfinished : ∀ ok, s.reader = .finished ok → ok = !s.broken)
    (hquiet : setup.concurrent = false → S.Quiet → ∀ h unsent, s.server = .serving h unsent →
      unsent = []) : s.Inv S setup answers := by
  obtain ⟨rest, hall⟩ := hall
  have hno {P : Prop} (h : s.broken = false) : P := absurd hbroken (by simp [h])
  exact ⟨⟨rest, hall, hno⟩, hno, hno, hjoined, hfinished, hquiet⟩

/-- A message is put on its way that the server was to write. -/
private theorem State.Inv.answers_write (h : s.Inv S setup answers) {m : μ} {server : Server η μ}
    (hbroken : s.broken = false)
    (hrest : s.rest S = m :: State.rest S { s with messages := s.messages ++ [m], server }) :
    ∃ rest, s.read ++ (s.messages ++ [m]) ++ rest = answers ∧ (s.broken = false →
      rest = State.rest S { s with messages := s.messages ++ [m], server }) := by
  obtain ⟨rest, hall, hunbroken⟩ := h.answers
  rw [hunbroken hbroken, hrest] at hall
  exact ⟨_, by simpa using hall, fun _ ↦ rfl⟩

/-- While the server has not returned, the client reads, unless the call has broken. -/
private theorem State.Inv.reading (h : s.Inv S setup answers) (hserver : s.server ≠ .returned)
    {P : Prop} (hbroken : s.broken = false) (hreader : s.reader ≠ .reading) : P :=
  absurd (h.readEnded hbroken hreader).1 hserver

/-- Every move keeps the invariant. -/
theorem State.Inv.move (h : s.Inv S setup answers) (hmove : Move S setup s t) :
    t.Inv S setup answers := by
  obtain ⟨rest, hall, hunbroken⟩ := h.answers
  have hclash {P : Prop} (hbroken : s.broken = false) (hbroken' : s.broken = true) : P :=
    absurd hbroken' (by simp [hbroken])
  cases hmove with
  | write hwriter hbroken =>
    refine ⟨⟨rest, hall, fun _ ↦ (hunbroken hbroken).trans ?_⟩, fun _ hend ↦ ?_, h.readEnded,
      fun hread hjoin ↦ ?_, h.finished, h.quiet⟩
    · simp only [State.rest, hwriter, Writer.unsent, List.append_assoc, List.singleton_append]
    · exact absurd (h.ended hbroken hend).2 (by simp [hwriter])
    · exact absurd (h.joined hread hjoin) (by simp [hwriter])
  | giveUp hwriter hbroken =>
    refine inv_of_broken hbroken ⟨rest, hall⟩ (fun hread hjoin ↦ ?_) h.finished h.quiet
    exact absurd (h.joined hread hjoin) (by simp [hwriter])
  | halfClose hwriter =>
    refine ⟨⟨rest, hall, fun hbroken ↦ (hunbroken hbroken).trans ?_⟩,
      fun hbroken hend ↦ ⟨(h.ended hbroken hend).1, rfl⟩, h.readEnded, fun _ _ ↦ rfl, h.finished,
      h.quiet⟩
    simp only [State.rest, hwriter, Writer.unsent]
  | serverRead hserver hrequests =>
    refine ⟨⟨rest, hall, fun hbroken ↦ (hunbroken hbroken).trans ?_⟩,
      fun _ hend ↦ absurd rfl (hend _ _), h.reading (by simp [hserver]), h.joined, h.finished,
      fun hsequential hquiet _ _ heq ↦ ?_⟩
    · simp only [State.rest, hserver, hrequests, List.nil_append, List.cons_append,
        StreamService.answersFrom]
    · obtain ⟨-, rfl⟩ := Server.serving.inj heq
      exact hquiet _ _
  | serverReadEnds hserver hend =>
    have hend' (hbroken : s.broken = false) : s.requests = [] ∧ s.writer = .done :=
      hend.resolve_left (hclash hbroken)
    refine ⟨⟨rest, hall, fun hbroken ↦ (hunbroken hbroken).trans ?_⟩, fun hbroken _ ↦ hend' hbroken,
      h.reading (by simp [hserver]), h.joined, h.finished, fun _ _ _ _ heq ↦ by cases heq⟩
    simp only [State.rest, hserver, (hend' hbroken).1, (hend' hbroken).2, Writer.unsent,
      List.nil_append, StreamService.answersFrom]
  | serverWrite hserver hbroken =>
    refine ⟨h.answers_write hbroken ?_, fun _ hend ↦ absurd rfl (hend _ _),
      h.reading (by simp [hserver]), h.joined, h.finished, fun hsequential hquiet _ _ _ ↦ ?_⟩
    · simp only [State.rest, hserver, List.cons_append]
    · exact absurd (h.quiet hsequential hquiet _ _ hserver) (by simp)
  | serverDrop hserver hbroken hnext =>
    refine inv_of_broken hbroken ⟨rest, hall⟩ h.joined h.finished fun hsequential hquiet _ _ _ ↦ ?_
    exact absurd (h.quiet hsequential hquiet _ _ hserver) (by simp)
  | lastWrite hserver hbroken =>
    refine ⟨h.answers_write hbroken ?_, fun _ _ ↦ h.ended hbroken (by simp [hserver]),
      h.reading (by simp [hserver]), h.joined, h.finished, fun _ _ _ _ heq ↦ by cases heq⟩
    simp only [State.rest, hserver]
  | lastDrop hserver hbroken =>
    exact inv_of_broken hbroken ⟨rest, hall⟩ h.joined h.finished fun _ _ _ _ heq ↦ by cases heq
  | serverReturn hserver =>
    refine ⟨⟨rest, hall, fun hbroken ↦ (hunbroken hbroken).trans ?_⟩,
      fun hbroken _ ↦ h.ended hbroken (by simp [hserver]), h.reading (by simp [hserver]), h.joined,
      h.finished, fun _ _ _ _ heq ↦ by cases heq⟩
    simp only [State.rest, hserver]
  | @read m messages hreader hmessages =>
    refine ⟨⟨rest, ?_, hunbroken⟩, h.ended, fun _ hread ↦ absurd hreader hread, h.joined,
      h.finished, h.quiet⟩
    simpa [hmessages] using hall
  | readEnds hreader hend =>
    refine ⟨⟨rest, hall, hunbroken⟩, h.ended, fun hbroken _ ↦ ?_, fun _ hjoin ↦ absurd rfl hjoin,
      (fun _ heq ↦ by cases heq), h.quiet⟩
    exact (hend.resolve_left (hclash hbroken)).symm
  | join hreader hwriter =>
    exact ⟨⟨rest, hall, hunbroken⟩, h.ended,
      fun hbroken _ ↦ h.readEnded hbroken (by simp [hreader]), fun _ _ ↦ hwriter,
      (fun _ heq ↦ by cases heq), h.quiet⟩
  | finish hreader hend =>
    exact ⟨⟨rest, hall, hunbroken⟩, h.ended,
      fun hbroken _ ↦ h.readEnded hbroken (by simp [hreader]),
      fun _ _ ↦ h.joined (by simp [hreader]) (by simp [hreader]),
      fun _ heq ↦ (Reader.finished.inj heq).symm, h.quiet⟩
  | breaks hreader hbroken =>
    exact inv_of_broken rfl ⟨rest, hall⟩ h.joined (fun ok heq ↦ absurd heq (hreader ok)) h.quiet

theorem inv_of_run {requests : List ρ} {as : List Action}
    (hrun : run (step S setup) (init S requests) as = some s) :
    s.Inv S setup (S.answers requests) :=
  run_invariant (fun _ _ _ h hstep ↦ h.move (move_of_step hstep)) hrun (inv_init requests)

/-- The client reads the answers in order. -/
theorem read_prefix_of_run {requests : List ρ} {as : List Action}
    (hrun : run (step S setup) (init S requests) as = some s) : s.read <+: S.answers requests := by
  obtain ⟨rest, hall, -⟩ := (inv_of_run hrun).answers
  exact ⟨s.messages ++ rest, by rw [← hall, List.append_assoc]⟩

end Answers

end StreamCall
