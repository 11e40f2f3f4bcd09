import CppDemo.Foundation.ByteStream
import CppDemo.Foundation.IncrementalParser
import CppDemo.Foundation.Transition

/-!
# Requests over a connection that is used again

`main` calls `do_http` five times with one connection. A call writes its request and reads until a
parser of its own has seen a whole response. The parser and the buffer go when the call returns, and
nobody looks at the offset of the parser or at how the call has ended. The next call reads on where
the last `read` has stopped, wherever that is.

The result of each `write` and each `read` is part of the action: a `read` fills the buffer with up
to 2048 of the bytes that the server sends, or it fails. Beside it is recorded what the buffer has
held after each `read`, and how each call has ended.

Source: `http/tcp_reuse.cpp`, lines 59–94 and 113–126.

## Main definitions

* `step` : the calls of `do_http` with one connection, one `write` or `read` at a time.
* `Framed` : every call that reads starts behind the response of the call before.
* `Spoils` : after this step the next call would not start behind a response.

## Main results

* `State.Inv.step` : every step keeps the invariant.
* `framed_iff_noneAfter` : the calls are framed if and only if nothing is read after a step that
  spoils them.
-/

namespace CppDemo.Http.TcpReuse

open Transition

/-- `N_TRY`. -/
def nTry : Nat := 5

/-- The size of the buffer of `do_http`. -/
def bufferSize : Nat := 2048

/-- How a call of `do_http` returns. -/
inductive Outcome
  /-- `write` has not written the whole request. -/
  | badWrite (nw : Int)
  /-- `read` has failed, or the connection is at its end. -/
  | badRead (nr : Int)
  | good
  | invalid
  deriving DecidableEq, Repr

/-- A call that has returned. -/
structure Call where
  /-- How many bytes had been read from the connection before the call. -/
  start : Nat
  /-- What the buffer has held after each `read` of the call. -/
  buffers : List Bytes
  outcome : Outcome
  deriving DecidableEq, Repr

/-- What the call has read. -/
def Call.read (call : Call) : Bytes := call.buffers.flatten

/-- What `do_http` does next. -/
inductive Place (σ : Type*)
  | write
  | read (parser : σ)

structure State (σ : Type*) where
  /-- What the server sends and has not been read. -/
  rest : Bytes
  /-- The loop variable of `main`. -/
  j : Nat := 0
  place : Place σ := .write
  /-- How many bytes had been read before the present call. -/
  start : Nat := 0
  /-- What the buffer has held after each `read` of the present call. -/
  buffers : List Bytes := []
  /-- The calls that have returned, the last one first. -/
  calls : List Call := []

/-- What the present call has read. -/
def State.seen {σ : Type*} (s : State σ) : Bytes := s.buffers.flatten

/-- A new connection. -/
def init {σ : Type*} (stream : Bytes) : State σ := { rest := stream }

/-- The result of a `write` or a `read`. -/
inductive Action
  | write (nw : Int)
  /-- The buffer is filled with this many bytes. -/
  | read (nr : Nat)
  | readFails (nr : Int)
  deriving DecidableEq, Repr

/-- `do_http` returns, and `main` calls it again. -/
def State.finish {σ : Type*} (s : State σ) (outcome : Outcome) : State σ :=
  { s with
    j := s.j + 1
    place := .write
    start := s.start + s.seen.length
    buffers := []
    calls := ⟨s.start, s.buffers, outcome⟩ :: s.calls }

/-- `read` has filled the buffer with `nr` bytes. -/
def State.fill {σ : Type*} (s : State σ) (nr : Nat) : State σ :=
  { s with rest := s.rest.drop nr, buffers := s.buffers ++ [s.rest.take nr] }

theorem State.seen_fill {σ : Type*} (s : State σ) (nr : Nat) :
    (s.fill nr).seen = s.seen ++ s.rest.take nr := by
  simp [State.seen, State.fill]

section Step

variable {σ : Type*} (request : Bytes) (parser : IncrementalParser σ UInt8)

/-- The bytes in the buffer are parsed. -/
def State.receive (s : State σ) (p : σ) (nr : Nat) : State σ :=
  let buffer := s.rest.take nr
  let s := s.fill nr
  let (status, _, p) := parser.parse p buffer
  match status with
  | .good => s.finish .good
  | .indeterminate => { s with place := .read p }
  | .bad => s.finish .invalid

/-- A `write` or a `read` returns. -/
def step (s : State σ) (a : Action) : Option (State σ) :=
  match s.place, a with
  | .write, .write nw =>
    if s.j < nTry ∧ -1 ≤ nw ∧ nw ≤ request.length then
      if nw ≠ request.length then some (s.finish (.badWrite nw))
      else some { s with place := .read parser.start }
    else none
  | .read p, .read nr =>
    if 0 < nr ∧ nr ≤ bufferSize ∧ nr ≤ s.rest.length then some (s.receive parser p nr) else none
  | .read _, .readFails nr => if nr ≤ 0 then some (s.finish (.badRead nr)) else none
  | _, _ => none

variable {request parser} {s t : State σ} {a : Action}

/-- What a step does. -/
theorem step_cases (h : step request parser s a = some t) :
    (∃ nw, a = .write nw ∧ s.place = .write ∧ s.j < nTry ∧ nw ≠ request.length ∧
        t = s.finish (.badWrite nw)) ∨
      (a = .write request.length ∧ s.place = .write ∧ s.j < nTry ∧
        t = { s with place := .read parser.start }) ∨
      (∃ p nr, a = .read nr ∧ s.place = .read p ∧ 0 < nr ∧ nr ≤ bufferSize ∧ nr ≤ s.rest.length ∧
        t = s.receive parser p nr) ∨
      ∃ p nr, a = .readFails nr ∧ s.place = .read p ∧ nr ≤ 0 ∧ t = s.finish (.badRead nr) := by
  unfold step at h
  split at h
  next nw hplace =>
    split_ifs at h with henabled hnw
    · exact .inl ⟨nw, rfl, hplace, henabled.1, hnw, (Option.some.inj h).symm⟩
    · obtain rfl := not_ne_iff.mp hnw
      exact .inr (.inl ⟨rfl, hplace, henabled.1, (Option.some.inj h).symm⟩)
  next p nr hplace =>
    obtain ⟨⟨hpos, hsize, hle⟩, h⟩ := Option.ite_none_right_eq_some.mp h
    exact .inr (.inr (.inl ⟨p, nr, rfl, hplace, hpos, hsize, hle, (Option.some.inj h).symm⟩))
  next p nr hplace =>
    obtain ⟨hfails, h⟩ := Option.ite_none_right_eq_some.mp h
    exact .inr (.inr (.inr ⟨p, nr, rfl, hplace, hfails, (Option.some.inj h).symm⟩))
  next => cases h

end Step

/-! ### Framing -/

section Framing

variable (judge : Bytes → Option Verdict)

/-- The position is that behind the response that the last of the calls has read, and that of the
first byte if there is no call. -/
def Follows (position : Nat) : List Call → Prop
  | [] => position = 0
  | call :: _ => ∃ n, judge call.read = some (.good n) ∧ position = call.start + n

/-- Every call that has read something has started behind the response of the call before. -/
def FramedCalls : List Call → Prop
  | [] => True
  | call :: calls => (call.read ≠ [] → Follows judge call.start calls) ∧ FramedCalls calls

/-- The same for all calls, with the present one. -/
def Framed {σ : Type*} (s : State σ) : Prop :=
  (s.seen ≠ [] → Follows judge s.start s.calls) ∧ FramedCalls judge s.calls

/-- The call writes less than its request, fails to read, reads what is no response, or reads
beyond the end of its response. -/
def Spoils {σ : Type*} (request : Bytes) (s : State σ) : Action → Prop
  | .write nw => nw ≠ request.length
  | .read nr =>
    match judge (s.fill nr).seen with
    | none => False
    | some (.good n) => n ≠ (s.fill nr).seen.length
    | some .bad => True
  | .readFails _ => True

/-- Bytes are read. -/
def Reads : Action → Prop
  | .read _ => True
  | _ => False

/-- A call has read a response and nothing else. -/
def Exact (call : Call) : Prop := judge call.read = some (.good call.read.length)

/-- The calls have read one after the other, up to a position. -/
def Consecutive : Nat → List Call → Prop
  | position, [] => position = 0
  | position, call :: calls =>
    position = call.start + call.read.length ∧ Consecutive call.start calls

variable {judge}

/-- The next call starts behind a response if and only if the last call has read nothing else. -/
theorem follows_cons_iff {position : Nat} {call : Call} {calls : List Call}
    (h : Consecutive position (call :: calls)) :
    Follows judge position (call :: calls) ↔ Exact judge call := by
  obtain ⟨rfl, -⟩ := h
  constructor
  · rintro ⟨n, hjudge, hn⟩
    obtain rfl : call.read.length = n := by omega
    exact hjudge
  · intro hexact
    exact ⟨_, hexact, rfl⟩

/-- If all calls so far are framed, then the next one starts behind a response if and only if all
of them have read a response and nothing else. -/
theorem follows_iff (hnil : judge [] = none) {position : Nat} {calls : List Call}
    (h : Consecutive position calls) (hframed : FramedCalls judge calls) :
    Follows judge position calls ↔ ∀ call ∈ calls, Exact judge call := by
  induction calls generalizing position with
  | nil => exact ⟨fun _ ↦ by simp, fun _ ↦ h⟩
  | cons call calls ih =>
    rw [follows_cons_iff h, List.forall_mem_cons, ← ih h.2 hframed.2]
    refine ⟨fun hexact ↦ ⟨hexact, hframed.1 fun hread ↦ ?_⟩, And.left⟩
    -- a call that has read nothing has not read a response
    rw [Exact, hread, hnil] at hexact
    cases hexact

end Framing

/-! ### Every step -/

section Invariant

variable {σ : Type*} {request : Bytes} {parser : IncrementalParser σ UInt8}
  {judge : Bytes → Option Verdict} {s t : State σ} {a : Action}

/-- What holds in every state of a run. -/
structure State.Inv (parser : IncrementalParser σ UInt8) (judge : Bytes → Option Verdict)
    (s : State σ) : Prop where
  consecutive : Consecutive s.start s.calls
  /-- Before its `write` a call has not read. -/
  write : s.place = .write → s.buffers = []
  /-- The parser has been fed the buffers of the call, and none of them has decided. -/
  read : ∀ p, s.place = .read p → p = parser.after s.buffers ∧ Undecided judge s.buffers

theorem inv_init (stream : Bytes) : (init stream : State σ).Inv parser judge where
  consecutive := rfl
  write _ := rfl
  read p hp := by cases hp

theorem State.Inv.finish (h : s.Inv parser judge) (outcome : Outcome) :
    (s.finish outcome).Inv parser judge where
  consecutive := ⟨rfl, h.consecutive⟩
  write _ := rfl
  read p hp := by cases hp

/-- What `do_http` does with the bytes depends on what they are judged to be. -/
theorem State.Inv.receive_eq (hparser : parser.Recognizes judge) (h : s.Inv parser judge) {p : σ}
    (hp : s.place = .read p) (nr : Nat) :
    s.receive parser p nr = match judge (s.fill nr).seen with
      | none => { s.fill nr with place := .read (parser.parse p (s.rest.take nr)).2.2 }
      | some (.good _) => (s.fill nr).finish .good
      | some .bad => (s.fill nr).finish .invalid := by
  obtain ⟨rfl, hundecided⟩ := h.read p hp
  have hjudge := hundecided.flatten
  have hseen : (s.fill nr).seen = s.buffers.flatten ++ s.rest.take nr := s.seen_fill nr
  rw [receive, hseen]
  cases hverdict : judge (s.buffers.flatten ++ s.rest.take nr) with
  | none => simp only [hparser.indeterminate _ _ hjudge hverdict]
  | some verdict =>
    cases verdict with
    | good n => simp only [(hparser.good _ _ n hjudge hverdict).1]
    | bad => simp only [hparser.bad _ _ hjudge hverdict]

/-- What `read` has returned belongs to the call. -/
theorem State.Inv.receive (hparser : parser.Recognizes judge) (h : s.Inv parser judge) {p : σ}
    (hp : s.place = .read p) (nr : Nat) : (s.receive parser p nr).Inv parser judge := by
  have hconsecutive : Consecutive (s.fill nr).start (s.fill nr).calls := h.consecutive
  have hreceive := h.receive_eq hparser hp nr
  cases hverdict : judge (s.fill nr).seen with
  | none =>
    rw [hverdict] at hreceive
    rw [hreceive]
    obtain ⟨rfl, hundecided⟩ := h.read p hp
    refine ⟨hconsecutive, fun hwrite ↦ (by cases hwrite), fun q hq ↦ ?_⟩
    obtain rfl := Place.read.inj hq
    rw [seen_fill] at hverdict
    exact ⟨(parser.after_snoc _ _).symm, hundecided.snoc hverdict⟩
  | some verdict =>
    rw [hverdict] at hreceive
    rw [hreceive]
    cases verdict <;> exact ⟨⟨rfl, hconsecutive⟩, fun _ ↦ rfl, fun q hq ↦ (by cases hq)⟩

/-- Every step keeps the invariant. -/
theorem State.Inv.step (hparser : parser.Recognizes judge) (h : s.Inv parser judge)
    (hstep : step request parser s a = some t) : t.Inv parser judge := by
  obtain ⟨nw, -, -, -, -, rfl⟩ | ⟨-, hplace, -, rfl⟩ | ⟨p, nr, -, hp, -, -, -, rfl⟩ |
    ⟨p, nr, -, -, -, rfl⟩ := step_cases hstep
  · exact h.finish _
  · have hbuffers := h.write hplace
    refine ⟨h.consecutive, fun hwrite ↦ (by cases hwrite), fun p hp ↦ ?_⟩
    obtain rfl := Place.read.inj hp
    simp only [hbuffers]
    exact ⟨rfl, undecided_nil hparser.nil⟩
  · exact h.receive hparser hp nr
  · exact h.finish _

theorem forall_exact_finish_iff (s : State σ) (outcome : Outcome) :
    (∀ call ∈ (s.finish outcome).calls, Exact judge call) ↔
      judge s.seen = some (.good s.seen.length) ∧ ∀ call ∈ s.calls, Exact judge call :=
  List.forall_mem_cons

/-- A step spoils the calls if and only if it adds one that has not read just a response. -/
theorem State.Inv.exact_iff_of_step (hparser : parser.Recognizes judge) (h : s.Inv parser judge)
    (hstep : TcpReuse.step request parser s a = some t) :
    (∀ call ∈ t.calls, Exact judge call) ↔
      (∀ call ∈ s.calls, Exact judge call) ∧ ¬Spoils judge request s a := by
  obtain ⟨nw, rfl, hplace, -, hnw, rfl⟩ | ⟨rfl, hplace, -, rfl⟩ | ⟨p, nr, rfl, hp, -, -, -, rfl⟩ |
    ⟨p, nr, rfl, hp, -, rfl⟩ := step_cases hstep
  · have hseen : s.seen = [] := by rw [State.seen, h.write hplace, List.flatten_nil]
    rw [forall_exact_finish_iff, hseen, hparser.nil]
    simp [Spoils, hnw]
  · simp [Spoils]
  · rw [h.receive_eq hparser hp nr]
    simp only [Spoils]
    cases hverdict : judge (s.fill nr).seen with
    | none => simp [fill]
    | some verdict =>
      cases verdict with
      | good n =>
        simp only [forall_exact_finish_iff, hverdict, Option.some.injEq, Verdict.good.injEq,
          not_ne_iff]
        exact and_comm
      | bad => simp [forall_exact_finish_iff, hverdict]
  · have hjudge : judge s.seen = none := (h.read p hp).2.flatten
    rw [forall_exact_finish_iff, hjudge]
    simp [Spoils]

/-- What a call has read matters before it returns as it does after. -/
@[simp] theorem framed_finish_iff (s : State σ) (outcome : Outcome) :
    Framed judge (s.finish outcome) ↔ Framed judge s :=
  and_iff_right fun hne ↦ absurd rfl hne

theorem seen_fill_ne_nil {nr : Nat} (hpos : 0 < nr) (hle : nr ≤ s.rest.length) :
    (s.fill nr).seen ≠ [] := by
  intro hnil
  have hlength := congrArg List.length hnil
  simp only [State.seen_fill, List.length_append, List.length_take, List.length_nil] at hlength
  omega

/-- While a call reads, it has to start behind a response. -/
theorem framed_fill_iff {nr : Nat} (hpos : 0 < nr) (hle : nr ≤ s.rest.length) :
    Framed judge (s.fill nr) ↔ Follows judge s.start s.calls ∧ FramedCalls judge s.calls :=
  and_congr_left fun _ ↦
    ⟨fun hfollows ↦ hfollows (seen_fill_ne_nil hpos hle), fun hfollows _ ↦ hfollows⟩

/-- A step keeps the calls framed if and only if it reads only while all calls before have read just
a response. -/
theorem State.Inv.framed_iff_of_step (hparser : parser.Recognizes judge) (h : s.Inv parser judge)
    (hstep : TcpReuse.step request parser s a = some t) :
    Framed judge t ↔ Framed judge s ∧ (Reads a → ∀ call ∈ s.calls, Exact judge call) := by
  obtain ⟨nw, rfl, -, -, -, rfl⟩ | ⟨rfl, -, -, rfl⟩ | ⟨p, nr, rfl, hp, hpos, -, hle, rfl⟩ |
    ⟨p, nr, rfl, -, -, rfl⟩ := step_cases hstep
  · simp [Reads]
  · simp [Framed, State.seen, Reads]
  · have hfill : Framed judge (s.receive parser p nr) ↔ Framed judge (s.fill nr) := by
      rw [h.receive_eq hparser hp nr]
      cases judge (s.fill nr).seen with
      | none => exact Iff.rfl
      | some verdict => cases verdict <;> exact framed_finish_iff _ _
    rw [hfill, framed_fill_iff hpos hle]
    constructor
    · rintro ⟨hfollows, hcalls⟩
      exact ⟨⟨fun _ ↦ hfollows, hcalls⟩,
        fun _ ↦ (follows_iff hparser.nil h.consecutive hcalls).mp hfollows⟩
    · rintro ⟨⟨-, hcalls⟩, hexact⟩
      exact ⟨(follows_iff hparser.nil h.consecutive hcalls).mpr (hexact trivial), hcalls⟩
  · simp [Reads]

/-- In every run with one connection, every call that reads starts behind the response of the call
before if and only if nothing is read after a step that spoils the calls: a request that is not
written whole, a `read` that fails, bytes that are no response, or bytes behind the end of the
response. -/
theorem framed_iff_noneAfter (hparser : parser.Recognizes judge) {stream : Bytes}
    {as : List Action} (hrun : run (step request parser) (init stream) as = some s) :
    Framed judge s ↔
      NoneAfter (step request parser) (Spoils judge request) Reads (init stream) as := by
  have hinit : Framed judge (init stream : State σ) := ⟨fun hne ↦ absurd rfl hne, trivial⟩
  have hexact : ∀ call ∈ (init stream : State σ).calls, Exact judge call := by simp [init]
  have hinv : ∀ s a t, s.Inv parser judge → step request parser s a = some t → t.Inv parser judge :=
    fun _ _ _ h hstep ↦ h.step hparser hstep
  have hiff := run_iff_noneAfter (F := Framed judge)
    (G := fun s ↦ ∀ call ∈ s.calls, Exact judge call) hinv
    (fun _ _ _ h hstep ↦ h.exact_iff_of_step hparser hstep)
    (fun _ _ _ h hstep ↦ h.framed_iff_of_step hparser hstep) hrun (inv_init stream)
  rw [hiff, and_iff_right hinit, and_iff_right fun hspoilt ↦ absurd hexact hspoilt]

end Invariant

/-! ### A server with one answer -/

def request : Bytes :=
  ascii "GET /test_json HTTP/1.1\r\nHost: localhost\r\nConnection: keep-alive\r\n\r\n"

def answer : Bytes := ascii "HTTP/1.1 204 No Content\r\n\r\n"

/-- The judgement of streams in which `answer` is the only response. -/
def judgeAnswer (w : Bytes) : Option Verdict :=
  if answer.isPrefixOf w then some (.good answer.length)
  else if w.isPrefixOf answer then none
  else some .bad

def answerParser : IncrementalParser Bytes UInt8 := .ofJudge judgeAnswer

theorem answerParser_recognizes : answerParser.Recognizes judgeAnswer := by
  refine IncrementalParser.ofJudge_recognizes (by decide) fun seen chunk n hseen hgood ↦ ?_
  have hle : seen.length ≤ answer.length := by
    simp only [judgeAnswer] at hseen
    split_ifs at hseen with _ hprefix
    exact (List.isPrefixOf_iff_prefix.mp hprefix).length_le
  simp only [judgeAnswer] at hgood
  split_ifs at hgood
  · exact Verdict.good.inj (Option.some.inj hgood) ▸ hle
  · cases hgood

/-- Two calls read an answer each, the first one in two chunks. -/
def exactReads : List Action :=
  [.write request.length, .read 20, .read 7, .write request.length, .read 27]

theorem framed_iff_noneAfter_exactReads :
    answerParser.Recognizes judgeAnswer ∧
      ∃ s, run (step request answerParser) (init (answer ++ answer)) exactReads = some s ∧
        (Framed judgeAnswer s ↔ NoneAfter (step request answerParser)
          (Spoils judgeAnswer request) Reads (init (answer ++ answer)) exactReads) :=
  ⟨answerParser_recognizes, _, rfl, framed_iff_noneAfter answerParser_recognizes rfl⟩

/-- The first call is given two answers at once, and the second one starts behind both. -/
theorem exists_not_framed :
    ¬ ∀ (parser : IncrementalParser Bytes UInt8) (judge : Bytes → Option Verdict),
      parser.Recognizes judge → ∀ request stream as s,
        run (step request parser) (init stream) as = some s → Framed judge s := by
  intro h
  have hframed := h answerParser judgeAnswer answerParser_recognizes request
    (answer ++ answer ++ answer)
    [.write request.length, .read 54, .write request.length, .read 27] _ rfl
  obtain ⟨n, hjudge, hn⟩ := hframed.2.1 (by decide)
  have hlength : judgeAnswer (answer ++ answer) = some (.good 27) := by decide
  have hn' : 54 = 0 + n := hn
  rw [show n = 27 from Verdict.good.inj (Option.some.inj (hjudge.symm.trans hlength))] at hn'
  exact absurd hn' (by decide)

end CppDemo.Http.TcpReuse
