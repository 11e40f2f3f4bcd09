import CppDemo.Grpc.ClientAsync2.Callback

/-!
# The discipline of the stream

gRPC asks that nothing is written on a stream before the call has been established, and that a write
is started only after the completion of the previous one has been returned. `sendRequest` tests
nothing but `running_`, which `run` stores before it makes the call, and starts a write whatever is
outstanding; the sessions of the server queue their messages instead. The stream is used as gRPC
asks in the runs in which a caller waits for its turn, that is, calls `sendRequest` only when
neither the call nor a write is outstanding.

Source: `grpcdemo/client_async2.cpp`, lines 24–84.

## Main definitions

* `State.WritesInTurn` : what gRPC asks.
* `waitsTurn` : the condition on the steps.

## Main results

* `writesInTurn_of_run` : the stream is used as gRPC asks if every caller waits for its turn.
* `not_writesInTurn_of_early` : a caller who does not wait can break the discipline at once.
-/

namespace CppDemo.Grpc.ClientAsync2

open Transition

/-- While a write has been started and its completion not been returned by `Next`, `run` is over and
the completion of the call has been returned, and there is only one such write. -/
structure State.WritesInTurn (s : State) : Prop where
  established : ∀ ctx, .write ctx ∈ s.cq.ops → s.main.beforeThread = false ∧ .call ∉ s.cq.ops
  writes : (s.cq.ops.filter fun op ↦ op.tag.isSome).card ≤ 1

/-- Neither the call nor a write is outstanding. -/
def State.streamFree (s : State) : Bool :=
  s.cq.inFlight.all (· = .read) && s.cq.posted.all (·.op = .read)

/-- A call of `sendRequest` passes its test only when the stream is free. -/
def waitsTurn (s : State) : Action → Bool
  | .sendRequest => !s.running || s.streamFree
  | _ => true

/-! ### Outstanding operations -/

/-- The operations outstanding other than reads. -/
def State.turns (s : State) : Multiset Op := s.cq.ops.filter (· ≠ .read)

/-- Nothing is written at these places of the main thread. -/
def MainPc.idle : MainPc → Bool
  | .created => true
  | .runStore => true
  | .runCall => true
  | .sending _ => true
  | _ => false

/-- The call and the writes are outstanding one at a time, and none of them is before the call is
made and while a write is about to be started. -/
structure State.Turns (s : State) : Prop where
  created : s.main = .created → s.running = false
  idle : s.main.idle = true → s.turns = 0
  card : s.turns.card ≤ 1
  write : ∀ ctx, .write ctx ∈ s.turns → s.main.beforeThread = false

section Step

variable {s t : State} {a : Action}

theorem streamFree_iff : s.streamFree = true ↔ ∀ op ∈ s.cq.ops, op = .read := by
  simp only [State.streamFree, Bool.and_eq_true, List.all_eq_true, decide_eq_true_eq]
  constructor
  · rintro ⟨hflight, hposted⟩ op hop
    rcases CompletionQueue.mem_ops.mp hop with hop | ⟨c, hc, rfl⟩
    · exact hflight op hop
    · exact hposted c hc
  · intro h
    exact ⟨fun op hop ↦ h op (CompletionQueue.mem_ops.mpr (Or.inl hop)),
      fun c hc ↦ h c.op (CompletionQueue.mem_ops.mpr (Or.inr ⟨c, hc, rfl⟩))⟩

theorem turns_eq_zero_iff : s.turns = 0 ↔ s.streamFree = true := by
  rw [State.turns, Multiset.filter_eq_nil, streamFree_iff]
  simp only [ne_eq, not_not]

theorem mem_turns {op : Op} (hop : op ≠ .read) : op ∈ s.turns ↔ op ∈ s.cq.ops := by
  simp [State.turns, Multiset.mem_filter, hop]

/-- Two different operations, or one twice, are more than one. -/
theorem State.Turns.ne_cons (hs : s.Turns) {op op' : Op} {rest : Multiset Op} :
    s.turns ≠ op ::ₘ op' ::ₘ rest := by
  intro h
  have hcard := hs.card
  rw [h, Multiset.card_cons, Multiset.card_cons] at hcard
  omega

/-- One operation at a time is what gRPC asks. -/
theorem State.Turns.writesInTurn (hs : s.Turns) : s.WritesInTurn where
  established ctx hwrite := by
    have hmem : .write ctx ∈ s.turns := (mem_turns (by simp)).mpr hwrite
    refine ⟨hs.write ctx hmem, fun hcall ↦ ?_⟩
    obtain ⟨rest, hrest⟩ := Multiset.exists_cons_of_mem hmem
    have hcall : .call ∈ s.turns := (mem_turns (by simp)).mpr hcall
    rw [hrest, Multiset.mem_cons] at hcall
    obtain ⟨rest', rfl⟩ := Multiset.exists_cons_of_mem (hcall.resolve_left (by simp))
    exact hs.ne_cons hrest
  writes := by
    refine le_trans (Multiset.card_le_card (Multiset.monotone_filter_right _ ?_)) hs.card
    rintro op htag rfl
    simp [Op.tag] at htag

/-- A step that starts nothing but reads and takes the main thread nowhere new. -/
theorem State.Turns.of_le (hs : s.Turns) (hcreated : t.main = .created → s.main = .created)
    (hrunning : t.running = true → s.running = true)
    (hidle : t.main.idle = true → s.main.idle = true)
    (hbefore : s.main.beforeThread = false → t.main.beforeThread = false)
    (hturns : t.turns ≤ s.turns) : t.Turns where
  created h := by
    have hfalse := hs.created (hcreated h)
    exact Bool.eq_false_iff.mpr fun htrue ↦ by simp [hrunning htrue] at hfalse
  idle h := Multiset.le_zero.mp (hs.idle (hidle h) ▸ hturns)
  card := le_trans (Multiset.card_le_card hturns) hs.card
  write ctx h := hbefore (hs.write ctx (Multiset.mem_of_le hturns h))

/-- A step of the callback thread, of gRPC or of `stop`. -/
theorem State.Turns.of_main (hs : s.Turns) (hmain : t.main = s.main)
    (hrunning : t.running = true → s.running = true) (hturns : t.turns ≤ s.turns) : t.Turns :=
  hs.of_le (hmain ▸ id) hrunning (hmain ▸ id) (hmain ▸ id) hturns

theorem turns_init : State.init.Turns where
  created _ := rfl
  idle _ := rfl
  card := by simp [State.turns, State.init, CompletionQueue.ops]
  write ctx h := by simp [State.turns, State.init, CompletionQueue.ops] at h

theorem turns_dispatch (s : State) (c : Completion Op) : (s.dispatch c).turns = s.turns := by
  obtain ⟨op, ok⟩ := c
  cases ok <;> cases op <;> simp [State.turns, State.dispatch, State.readNextNotify, Op.tag]

/-- Starting an operation other than a read. -/
theorem turns_start (s : State) (main : MainPc) (op : Op) (hop : op ≠ .read) :
    ({ s with cq := s.cq.start op, main } : State).turns = op ::ₘ s.turns := by
  simp [State.turns, hop]

/-- Every step of a caller who waits for its turn keeps the operations one at a time. -/
theorem State.Turns.step (hs : s.Turns) (hC : waitsTurn s a = true) (h : step s a = some t) :
    t.Turns := by
  cases effect_of_step h with
  | runTest hmain =>
    have hrunning := hs.created hmain
    refine hs.of_le (fun h ↦ ?_) id (fun _ ↦ by rw [hmain]; rfl) (fun h ↦ ?_) le_rfl
    · simp [hrunning] at h
    · simp [hmain, MainPc.beforeThread] at h
  | runStore hmain =>
    have hidle := hs.idle (by rw [hmain]; rfl)
    refine ⟨fun h ↦ by simp at h, fun _ ↦ hidle, hs.card, fun ctx h ↦ ?_⟩
    exact absurd (show .write ctx ∈ s.turns from h) (by simp [hidle])
  | runCall hmain =>
    have hidle := hs.idle (by rw [hmain]; rfl)
    have hturns := turns_start s .createThread .call (by simp)
    rw [hidle] at hturns
    exact ⟨fun h ↦ by simp at h, fun h ↦ by simp [MainPc.idle] at h, by simp [hturns],
      fun ctx h ↦ by simp [hturns] at h⟩
  | createThread hmain | destroy hmain =>
    exact hs.of_le (fun h ↦ by simp at h) id (fun h ↦ by simp [MainPc.idle] at h)
      (fun _ ↦ rfl) le_rfl
  | sendRequest hmain =>
    cases hrunning : s.running with
    | false =>
      have hrequest : s.sendRequest.turns = s.turns ∧ s.sendRequest.main = s.main ∧
          s.sendRequest.running = s.running := by
        simp [State.sendRequest, hrunning, State.turns]
      obtain ⟨hturns, hmain', hrunning'⟩ := hrequest
      exact hs.of_main hmain' (hrunning' ▸ id) hturns.le
    | true =>
      have hfree : s.turns = 0 := by
        rw [turns_eq_zero_iff]
        simpa [waitsTurn, hrunning] using hC
      have hrequest : s.sendRequest.turns = 0 ∧
          s.sendRequest.main = .sending s.requests.length := by
        rw [← hfree]
        simp [State.sendRequest, hrunning, State.turns]
      obtain ⟨hturns, hmain'⟩ := hrequest
      exact ⟨fun h ↦ by simp [hmain'] at h, fun _ ↦ hturns, by simp [hturns],
        fun ctx h ↦ by simp [hturns] at h⟩
  | @write ctx hmain =>
    have hidle := hs.idle (by rw [hmain]; rfl)
    have hturns := turns_start s .ready (.write ctx) (by simp)
    rw [hidle] at hturns
    exact ⟨fun h ↦ by simp at h, fun h ↦ by simp [MainPc.idle] at h, by simp [hturns],
      fun _ _ ↦ rfl⟩
  | destructorStop hmain hstop =>
    obtain ⟨-, -, -, hops, hrunning⟩ := stop_frame hstop
    refine hs.of_le (fun h ↦ by simp at h) hrunning (fun h ↦ by simp [MainPc.idle] at h)
      (fun _ ↦ rfl) (le_of_eq ?_)
    exact congrArg (Multiset.filter (· ≠ Op.read)) hops
  | signal => exact hs.of_main rfl id le_rfl
  | signalStop hsignal hstop =>
    obtain ⟨hmain, -, -, hops, hrunning⟩ := stop_frame hstop
    exact hs.of_main hmain hrunning (le_of_eq (congrArg (Multiset.filter (· ≠ Op.read)) hops))
  | complete hcq =>
    exact hs.of_main rfl id
      (le_of_eq (congrArg (Multiset.filter (· ≠ Op.read)) (CompletionQueue.ops_complete hcq)))
  | callbackTest hcallback => exact hs.of_main rfl id le_rfl
  | callbackNext hcallback hcq =>
    refine hs.of_main (by simp) (by simp) ?_
    simp only [State.turns, State.record_cq, CompletionQueue.ops_next hcq]
    exact Multiset.filter_le_filter _ (Multiset.le_cons_self _ _)
  | callbackDrained hcallback _ => exact hs.of_main rfl id le_rfl
  | callbackDispatch hcallback =>
    exact hs.of_main (by simp) (by simp) (turns_dispatch ..).le
  | callbackStore hcallback => exact hs.of_main rfl (fun h ↦ by simp at h) le_rfl

end Step

/-- If every caller waits for its turn, the stream is used as gRPC asks. By
`not_writesInTurn_of_early`, a caller who does not wait may not write at once. -/
theorem writesInTurn_of_run {s : State} {as : List Action} (h : run step .init as = some s)
    (hC : Along step (waitsTurn · · = true) .init as) : s.WritesInTurn :=
  (run_invariant_along (P := State.Turns) (fun _ _ _ hs ha h ↦ hs.step ha h) hC h
    turns_init).writesInTurn

theorem writesInTurn_of_run_answered :
    ∃ s, run step .init answeredRun = some s ∧ s.WritesInTurn :=
  ⟨_, rfl, writesInTurn_of_run (show run step .init answeredRun = some _ from rfl)
    (by decide)⟩

/-- A caller who does not wait breaks the discipline if it writes at once. -/
theorem not_writesInTurn_of_early {s t : State} (h : step s .sendRequest = some t)
    (hC : waitsTurn s .sendRequest = false) :
    ∃ u, step t .write = some u ∧ ¬u.WritesInTurn := by
  obtain ⟨hrunning, hfree⟩ : s.running = true ∧ s.streamFree = false := by
    simpa [waitsTurn] using hC
  obtain ⟨hmain, hcq⟩ : t.main = .sending s.requests.length ∧ t.cq = s.cq := by
    cases effect_of_step h
    simp [State.sendRequest, hrunning]
  refine ⟨{ t with cq := t.cq.start (.write s.requests.length), main := .ready },
    by simp [step, mainStep, hmain], fun hdiscipline ↦ ?_⟩
  obtain ⟨op, hop, hread⟩ : ∃ op ∈ s.cq.ops, op ≠ .read := by
    by_contra hall
    push Not at hall
    exact absurd (streamFree_iff.mpr hall) (by simp [hfree])
  cases op with
  | read => exact hread rfl
  | call =>
    exact (hdiscipline.established s.requests.length (by simp)).2 (by simp [hcq, hop])
  | write ctx =>
    obtain ⟨rest, hrest⟩ := Multiset.exists_cons_of_mem hop
    have hwrites := hdiscipline.writes
    simp [hcq, hrest, Op.tag] at hwrites

/-- A request is sent before the call is established. -/
def earlyRun : List Action :=
  [.runTest, .runStore, .runCall, .createThread, .sendRequest, .write]

/-- The write is started while the call is in flight. -/
theorem not_writesInTurn_of_run : ¬∀ (s : State) (as : List Action),
    run step .init as = some s → s.WritesInTurn := by
  intro hdiscipline
  obtain ⟨s, hrun, hflight⟩ : ∃ s, run step .init earlyRun = some s ∧
      s.cq.inFlight = [.write 0, .call] := ⟨_, rfl, rfl⟩
  have hwrite : .write 0 ∈ s.cq.ops := CompletionQueue.mem_ops.mpr (Or.inl (by simp [hflight]))
  have hcall : .call ∈ s.cq.ops := CompletionQueue.mem_ops.mpr (Or.inl (by simp [hflight]))
  exact ((hdiscipline s earlyRun hrun).established 0 hwrite).2 hcall

end CppDemo.Grpc.ClientAsync2
