import CppDemo.Http.TcpReuse

/-!
# What the calls read

The calls of `do_http` share the bytes that the server sends among them: each reads on where the one
before has stopped, and prints what it reads. How much a call reads and how it ends depends only on
the bytes and on how `read` cuts them. It stops with the first buffer in which the parser finds the
end of a response or an error, and with a failure before.

Source: `http/tcp_reuse.cpp`, lines 59–94 and 113–126; `tls/tls_session_ticket.cpp`, lines 197–234,
and `tls/tls_false_start.cpp`, lines 133–170, are written alike.

## Main definitions

* `State.allBuffers` : what the buffer has held after each `read`.
* `Decides` : the last buffer of a call decides about what it has read, and none before has.
* `Call.Ends` : how a call has ended, by its buffers.

## Main results

* `transcript_of_run` : the buffers are the stream in order, and each call ends as they say.
-/

namespace CppDemo.Http.TcpReuse

open Transition

variable {σ : Type*} {request : Bytes} {parser : IncrementalParser σ UInt8}
  {judge : Bytes → Option Verdict} {s t : State σ} {a : Action}

/-- What the buffers of all calls have held, in the order of the reads. -/
def State.allBuffers (s : State σ) : List Bytes :=
  (s.calls.reverse.map Call.buffers).flatten ++ s.buffers

/-- How many bytes a `read` has returned. -/
def Action.size : Action → Option Nat
  | .read nr => some nr
  | _ => none

/-- The last buffer decides: there is a verdict with it, and there was none after those before. -/
def Decides (judge : Bytes → Option Verdict) (buffers : List Bytes) (verdict : Verdict) : Prop :=
  ∃ before last, buffers = before ++ [last] ∧ Undecided judge before ∧
    judge buffers.flatten = some verdict

/-- How a call has ended, by its buffers. -/
def Call.Ends (request : Bytes) (judge : Bytes → Option Verdict) (call : Call) : Prop :=
  match call.outcome with
  | .badWrite nw => nw ≠ request.length ∧ call.buffers = []
  | .badRead nr => nr ≤ 0 ∧ Undecided judge call.buffers
  | .good => ∃ n, Decides judge call.buffers (.good n)
  | .invalid => Decides judge call.buffers .bad

/-- The reads among the actions `as` have filled the buffers with the front of the stream. -/
structure State.Transcript (request : Bytes) (judge : Bytes → Option Verdict) (stream : Bytes)
    (as : List Action) (s : State σ) : Prop where
  stream : s.allBuffers.flatten ++ s.rest = stream
  sizes : s.allBuffers.map List.length = as.filterMap Action.size
  filled : ∀ buffer ∈ s.allBuffers, 0 < buffer.length ∧ buffer.length ≤ bufferSize
  count : s.calls.length = s.j
  bound : s.j ≤ nTry ∧ (s.place ≠ .write → s.j < nTry)
  ends : ∀ call ∈ s.calls, call.Ends request judge

theorem transcript_init (stream : Bytes) :
    (init stream : State σ).Transcript request judge stream [] where
  stream := by simp [init, State.allBuffers]
  sizes := rfl
  filled := by simp [init, State.allBuffers]
  count := rfl
  bound := ⟨Nat.zero_le _, fun _ ↦ by simp [init, nTry]⟩
  ends := by simp [init]

/-- The present call goes on because none of its buffers has decided. -/
theorem State.Inv.undecided (hnil : judge [] = none) (h : s.Inv parser judge) :
    Undecided judge s.buffers := by
  cases hplace : s.place with
  | write =>
    rw [h.write hplace]
    exact undecided_nil hnil
  | read p => exact (h.read p hplace).2

/-- The buffers of a call stay when it returns. -/
@[simp] theorem allBuffers_finish (s : State σ) (outcome : Outcome) :
    (s.finish outcome).allBuffers = s.allBuffers := by
  simp [State.allBuffers, State.finish]

@[simp] theorem allBuffers_fill (s : State σ) (nr : Nat) :
    (s.fill nr).allBuffers = s.allBuffers ++ [s.rest.take nr] := by
  simp [State.allBuffers, State.fill]

section Steps

variable {stream : Bytes} {as : List Action}

/-- A call that returns has ended as it should. -/
theorem State.Transcript.finish (h : s.Transcript request judge stream as) (hlt : s.j < nTry)
    {outcome : Outcome} (hends : (⟨s.start, s.buffers, outcome⟩ : Call).Ends request judge) :
    (s.finish outcome).Transcript request judge stream as where
  stream := by
    rw [allBuffers_finish]
    exact h.stream
  sizes := (congrArg (List.map List.length) (allBuffers_finish s outcome)).trans h.sizes
  filled := by
    rw [allBuffers_finish]
    exact h.filled
  count := congrArg (· + 1) h.count
  bound := ⟨hlt, fun hne ↦ absurd rfl hne⟩
  ends := List.forall_mem_cons.mpr ⟨hends, h.ends⟩

/-- An action that reads nothing leaves the sizes. -/
theorem State.Transcript.snoc (h : s.Transcript request judge stream as) (ha : a.size = none) :
    s.Transcript request judge stream (as ++ [a]) := by
  refine ⟨h.stream, ?_, h.filled, h.count, h.bound, h.ends⟩
  rw [h.sizes, List.filterMap_append, List.filterMap_cons_none ha, List.filterMap_nil,
    List.append_nil]

/-- A `read` fills the buffer with the next bytes of the stream. -/
theorem State.Transcript.fill {nr : Nat} (h : s.Transcript request judge stream as) (hpos : 0 < nr)
    (hsize : nr ≤ bufferSize) (hle : nr ≤ s.rest.length) :
    (s.fill nr).Transcript request judge stream (as ++ [Action.read nr]) := by
  have hlength : (s.rest.take nr).length = nr := List.length_take_of_le hle
  refine ⟨?_, ?_, ?_, h.count, h.bound, h.ends⟩
  · rw [allBuffers_fill, List.flatten_append, List.flatten_singleton, List.append_assoc, ← h.stream]
    exact congrArg (s.allBuffers.flatten ++ ·) (List.take_append_drop nr s.rest)
  · rw [allBuffers_fill, List.map_append, h.sizes, List.filterMap_append]
    simp [hlength, Action.size]
  · intro buffer hmem
    rw [allBuffers_fill] at hmem
    rcases List.mem_append.mp hmem with hmem | hmem
    · exact h.filled buffer hmem
    · obtain rfl := List.mem_singleton.mp hmem
      omega

/-- The call goes on if the buffer does not decide, and ends with the verdict if it does. -/
theorem State.Transcript.receive (hparser : parser.Recognizes judge) {p : σ} {nr : Nat}
    (h : s.Transcript request judge stream as) (hinv : s.Inv parser judge) (hp : s.place = .read p)
    (hpos : 0 < nr) (hsize : nr ≤ bufferSize) (hle : nr ≤ s.rest.length) :
    (s.receive parser p nr).Transcript request judge stream (as ++ [Action.read nr]) := by
  have hlt : s.j < nTry := h.bound.2 (by simp [hp])
  have hfill := h.fill hpos hsize hle
  rw [hinv.receive_eq hparser hp nr]
  cases hverdict : judge (s.fill nr).seen with
  | none =>
    exact ⟨hfill.stream, hfill.sizes, hfill.filled, h.count, ⟨h.bound.1, fun _ ↦ hlt⟩, h.ends⟩
  | some verdict =>
    have hdecides : Decides judge (s.fill nr).buffers verdict :=
      ⟨s.buffers, s.rest.take nr, rfl, hinv.undecided hparser.nil, hverdict⟩
    cases verdict with
    | good n => exact hfill.finish hlt ⟨n, hdecides⟩
    | bad => exact hfill.finish hlt hdecides

/-- Every step keeps the transcript. -/
theorem State.Transcript.step (hparser : parser.Recognizes judge)
    (h : s.Transcript request judge stream as) (hinv : s.Inv parser judge)
    (hstep : TcpReuse.step request parser s a = some t) :
    t.Transcript request judge stream (as ++ [a]) := by
  obtain ⟨nw, rfl, hplace, hlt, hnw, rfl⟩ | ⟨rfl, hplace, hlt, rfl⟩ |
    ⟨p, nr, rfl, hp, hpos, hsize, hle, rfl⟩ | ⟨p, nr, rfl, hp, hfails, rfl⟩ := step_cases hstep
  · exact (h.snoc rfl).finish hlt ⟨hnw, hinv.write hplace⟩
  · have hwritten : s.Transcript request judge stream (as ++ [.write request.length]) := h.snoc rfl
    exact ⟨hwritten.stream, hwritten.sizes, h.filled, h.count, ⟨h.bound.1, fun _ ↦ hlt⟩, h.ends⟩
  · exact h.receive hparser hinv hp hpos hsize hle
  · exact (h.snoc rfl).finish (h.bound.2 (by simp [hp])) ⟨hfails, (hinv.read p hp).2⟩

end Steps

/-- In every run with one connection there are at most five calls. What the buffer has held after
each `read`, one after the other, is the front of what the server sends. A call ends with the first
buffer with which its response or an error is found, and in no other way but a failure before. -/
theorem transcript_of_run (hparser : parser.Recognizes judge) {stream : Bytes} {as : List Action}
    (hrun : run (step request parser) (init stream) as = some s) :
    s.Transcript request judge stream as ∧ Undecided judge s.buffers := by
  have hboth : s.Inv parser judge ∧ s.Transcript request judge stream as :=
    run_history (P := fun as s ↦ s.Inv parser judge ∧ s.Transcript request judge stream as)
      (fun _ _ _ _ h hstep ↦ ⟨h.1.step hparser hstep, h.2.step hparser h.1 hstep⟩) hrun
      ⟨inv_init stream, transcript_init stream⟩
  exact ⟨hboth.2, hboth.1.undecided hparser.nil⟩

/-- The first call reads beyond its answer, and the second one starts in the middle of the next. -/
def overlappingReads : List Action :=
  [.write TcpReuse.request.length, .read 20, .read 10, .write TcpReuse.request.length, .read 24]

theorem transcript_of_run_overlappingReads :
    answerParser.Recognizes judgeAnswer ∧
      ∃ s, run (step TcpReuse.request answerParser) (init (answer ++ answer)) overlappingReads =
          some s ∧
        s.Transcript TcpReuse.request judgeAnswer (answer ++ answer) overlappingReads ∧
          Undecided judgeAnswer s.buffers := by
  refine ⟨answerParser_recognizes, _, rfl, ?_⟩
  exact transcript_of_run answerParser_recognizes (show run (step TcpReuse.request answerParser)
    (init (answer ++ answer)) overlappingReads = some _ from rfl)

end CppDemo.Http.TcpReuse
