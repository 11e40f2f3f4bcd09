import CppDemo.Foundation.CompletionQueue
import CppDemo.Foundation.Transition

/-!
# The asynchronous client

`GreeterClient::run` opens the stream and creates the callback thread, which takes completions out
of `cq_` and calls the callbacks of requests. `sendRequest` wraps a callback in a `RequestContext`
and hands it to gRPC as the tag of a `Write`. `stop` shuts `cq_` down and joins the thread; it is
called by the destructor on the main thread and by the signal handler at any time.

The threads share `running_`. Every load and every store of it is a step of its own, and so is every
call of gRPC. What the texts of requests and notifies say plays no role here.

Source: `grpcdemo/client_async2.cpp`, lines 16–103 and 105–149.

## Main definitions

* `Op` : what the client starts, and its tag.
* `State` : the client with its threads, and what has become of every request.
* `Action`, `step` : the steps of the threads and of gRPC.

## Main results

* `effect_of_step`, `effect_of_stop` : what every step needs and what it does.
-/

namespace CppDemo.Grpc.ClientAsync2

/-- What the client starts on the stream. -/
inductive Op
  | call
  | read
  | write (ctx : Nat)
  deriving DecidableEq, Repr

/-- The tag of an operation: the address of a context, or the null pointer. -/
def Op.tag : Op → Option Nat
  | .call => none
  | .read => none
  | .write ctx => some ctx

/-- What has become of a call of `sendRequest`. -/
structure Request where
  /-- The value of `running_` that the call saw. -/
  running : Bool
  /-- The results that the callback was invoked with. -/
  results : List Int := []
  /-- How often the context has been deleted. -/
  freed : Nat := 0
  /-- The flag with which `Next` returned the tag. -/
  returned : Option Bool := none
  deriving DecidableEq, Repr

namespace Request

/-- `ctx->cb_(result)`. -/
def cb (r : Request) (result : Int) : Request := { r with results := r.results ++ [result] }

/-- `delete ctx`. -/
def delete (r : Request) : Request := { r with freed := r.freed + 1 }

end Request

/-- Where a call of `stop` is. -/
inductive StopPc
  | test
  | store
  | tryCancel
  | shutdown
  | join
  | returned
  deriving DecidableEq, Repr

/-- Where the main thread is. -/
inductive MainPc
  /-- Before `run`. -/
  | created
  | runStore
  | runCall
  | createThread
  /-- After `run`, between two calls of `sendRequest`. -/
  | ready
  /-- `sendRequest` has tested `running_` and not yet started the write. -/
  | sending (ctx : Nat)
  /-- In the destructor. -/
  | destructor (pc : StopPc)
  deriving DecidableEq, Repr

/-- Where the callback thread is. -/
inductive CallbackPc
  | notStarted
  | test
  | next
  /-- `Next` has returned a tag and a flag. -/
  | got (c : Completion Op)
  /-- Behind the loop. -/
  | left
  | exited
  deriving DecidableEq

/-- The client. -/
structure State where
  running : Bool
  cq : CompletionQueue Op
  main : MainPc
  callback : CallbackPc
  /-- The calls of `stop` by the signal handler. -/
  signals : List StopPc
  /-- The calls of `sendRequest`, in order. -/
  requests : List Request
  /-- How often `cq_.Shutdown` and `thread_.join` have been called. -/
  shutdowns : Nat
  joins : Nat

namespace State

/-- A client that has just been constructed. -/
def init : State where
  running := false
  cq := .empty
  main := .created
  callback := .notStarted
  signals := []
  requests := []
  shutdowns := 0
  joins := 0

/-- `readNextNotify`. -/
def readNextNotify (s : State) : State := { s with cq := s.cq.start .read }

/-- The load of `running_` in `sendRequest`. -/
def sendRequest (s : State) : State :=
  if !s.running then
    { s with requests := s.requests ++ [Request.cb { running := false } (-2)] }
  else
    { s with requests := s.requests ++ [{ running := true }], main := .sending s.requests.length }

/-- `Next` returns `c`. -/
def record (s : State) (c : Completion Op) : State :=
  match c.op.tag with
  | none => s
  | some ctx =>
    { s with requests := s.requests.modify ctx fun r ↦ { r with returned := some c.ok } }

/-- The body of the loop of the callback thread, after `Next`. -/
def dispatch (s : State) (c : Completion Op) : State :=
  if !c.ok then { s with callback := .left }
  else
    match c.op.tag with
    | none => readNextNotify { s with callback := .test }
    | some ctx =>
      { s with
        callback := .test
        requests := s.requests.modify ctx fun r ↦ (r.cb (if c.ok then 0 else -1)).delete }

@[simp] theorem record_main (s : State) (c : Completion Op) : (s.record c).main = s.main := by
  unfold record
  split <;> rfl

@[simp] theorem record_callback (s : State) (c : Completion Op) :
    (s.record c).callback = s.callback := by
  unfold record
  split <;> rfl

@[simp] theorem record_cq (s : State) (c : Completion Op) : (s.record c).cq = s.cq := by
  unfold record
  split <;> rfl

@[simp] theorem record_running (s : State) (c : Completion Op) :
    (s.record c).running = s.running := by
  unfold record
  split <;> rfl

@[simp] theorem dispatch_main (s : State) (c : Completion Op) : (s.dispatch c).main = s.main := by
  obtain ⟨op, ok⟩ := c
  cases ok <;> cases op <;> rfl

@[simp] theorem dispatch_running (s : State) (c : Completion Op) :
    (s.dispatch c).running = s.running := by
  obtain ⟨op, ok⟩ := c
  cases ok <;> cases op <;> rfl

@[simp] theorem dispatch_callback (s : State) (c : Completion Op) :
    (s.dispatch c).callback = if c.ok then .test else .left := by
  obtain ⟨op, ok⟩ := c
  cases ok <;> cases op <;> rfl

/-- One step of a call of `stop`; `join` waits for the callback thread if there is one. -/
def stop (s : State) : StopPc → Option (StopPc × State)
  | .test => some (if !s.running then (.returned, s) else (.store, s))
  | .store => some (.tryCancel, { s with running := false })
  | .tryCancel => some (.shutdown, s)
  | .shutdown => some (.join, { s with cq := s.cq.shutdown, shutdowns := s.shutdowns + 1 })
  | .join =>
    if s.callback = .notStarted ∨ s.callback = .exited then
      some (.returned, { s with joins := s.joins + 1 })
    else none
  | .returned => none

end State

/-- The steps of the client and of gRPC. -/
inductive Action
  | runTest
  | runStore
  | runCall
  | createThread
  | sendRequest
  | write
  | destroy
  | destructorStop
  | signal
  | signalStop (i : Nat)
  /-- gRPC completes an operation. -/
  | complete (op : Op) (ok : Bool)
  | callbackTest
  | callbackNext (c : Completion Op)
  | callbackDrained
  | callbackDispatch
  | callbackStore
  deriving DecidableEq

/-- The steps of the main thread. -/
def mainStep (s : State) : Action → Option State
  | .runTest =>
    if s.main = .created then
      some { s with main := if s.running then .ready else .runStore }
    else none
  | .runStore =>
    if s.main = .runStore then some { s with running := true, main := .runCall } else none
  | .runCall =>
    if s.main = .runCall then some { s with cq := s.cq.start .call, main := .createThread }
    else none
  | .createThread =>
    if s.main = .createThread then some { s with callback := .test, main := .ready } else none
  | .sendRequest =>
    if s.main = .created ∨ s.main = .ready then some s.sendRequest else none
  | .write =>
    match s.main with
    | .sending ctx => some { s with cq := s.cq.start (.write ctx), main := .ready }
    | _ => none
  | .destroy => if s.main = .ready then some { s with main := .destructor .test } else none
  | .destructorStop =>
    match s.main with
    | .destructor pc => (s.stop pc).map fun (pc, s) ↦ { s with main := .destructor pc }
    | _ => none
  | _ => none

/-- The steps of the callback thread. -/
def callbackStep (s : State) : Action → Option State
  | .callbackTest =>
    if s.callback = .test then some { s with callback := if s.running then .next else .left }
    else none
  | .callbackNext c =>
    if s.callback = .next then
      (s.cq.next c).map fun cq ↦ { s with cq := cq, callback := .got c }.record c
    else none
  | .callbackDrained =>
    if s.callback = .next ∧ s.cq.Drained then some { s with callback := .left } else none
  | .callbackDispatch =>
    match s.callback with
    | .got c => some (s.dispatch c)
    | _ => none
  | .callbackStore =>
    if s.callback = .left then some { s with running := false, callback := .exited } else none
  | _ => none

/-- The step for an action. -/
def step (s : State) : Action → Option State
  | .signal => some { s with signals := s.signals ++ [.test] }
  | .signalStop i =>
    match s.signals[i]? with
    | some pc => (s.stop pc).map fun (pc, s) ↦ { s with signals := s.signals.set i pc }
    | none => none
  | .complete op ok => (s.cq.complete op ok).map fun cq ↦ { s with cq := cq }
  | .callbackTest => callbackStep s .callbackTest
  | .callbackNext c => callbackStep s (.callbackNext c)
  | .callbackDrained => callbackStep s .callbackDrained
  | .callbackDispatch => callbackStep s .callbackDispatch
  | .callbackStore => callbackStep s .callbackStore
  | a => mainStep s a

/-! ### What a step does -/

/-- What the step for an action needs, and the state after it. -/
inductive Effect (s : State) : Action → State → Prop
  | runTest (hmain : s.main = .created) :
      Effect s .runTest { s with main := if s.running then .ready else .runStore }
  | runStore (hmain : s.main = .runStore) :
      Effect s .runStore { s with running := true, main := .runCall }
  | runCall (hmain : s.main = .runCall) :
      Effect s .runCall { s with cq := s.cq.start .call, main := .createThread }
  | createThread (hmain : s.main = .createThread) :
      Effect s .createThread { s with callback := .test, main := .ready }
  | sendRequest (hmain : s.main = .created ∨ s.main = .ready) :
      Effect s .sendRequest s.sendRequest
  | write {ctx : Nat} (hmain : s.main = .sending ctx) :
      Effect s .write { s with cq := s.cq.start (.write ctx), main := .ready }
  | destroy (hmain : s.main = .ready) : Effect s .destroy { s with main := .destructor .test }
  | destructorStop {pc pc' : StopPc} {u : State} (hmain : s.main = .destructor pc)
      (hstop : s.stop pc = some (pc', u)) :
      Effect s .destructorStop { u with main := .destructor pc' }
  | signal : Effect s .signal { s with signals := s.signals ++ [.test] }
  | signalStop {i : Nat} {pc pc' : StopPc} {u : State} (hsignal : s.signals[i]? = some pc)
      (hstop : s.stop pc = some (pc', u)) :
      Effect s (.signalStop i) { u with signals := u.signals.set i pc' }
  | complete {op : Op} {ok : Bool} {cq : CompletionQueue Op}
      (hcq : s.cq.complete op ok = some cq) : Effect s (.complete op ok) { s with cq := cq }
  | callbackTest (hcallback : s.callback = .test) :
      Effect s .callbackTest { s with callback := if s.running then .next else .left }
  | callbackNext {c : Completion Op} {cq : CompletionQueue Op} (hcallback : s.callback = .next)
      (hcq : s.cq.next c = some cq) :
      Effect s (.callbackNext c) ({ s with cq := cq, callback := .got c }.record c)
  | callbackDrained (hcallback : s.callback = .next) (hdrained : s.cq.Drained) :
      Effect s .callbackDrained { s with callback := .left }
  | callbackDispatch {c : Completion Op} (hcallback : s.callback = .got c) :
      Effect s .callbackDispatch (s.dispatch c)
  | callbackStore (hcallback : s.callback = .left) :
      Effect s .callbackStore { s with running := false, callback := .exited }

/-- Every step has its effect. -/
theorem effect_of_step {s t : State} {a : Action} (h : step s a = some t) : Effect s a t := by
  cases a with
  | runTest | runStore | runCall | createThread | sendRequest | destroy | callbackTest
  | callbackStore =>
    obtain ⟨hpc, h⟩ := Option.ite_none_right_eq_some.mp h
    obtain rfl := Option.some.inj h
    constructor
    exact hpc
  | write | callbackDispatch =>
    simp only [step, mainStep, callbackStep] at h
    split at h
    · obtain rfl := Option.some.inj h
      constructor
      assumption
    · simp at h
  | destructorStop | signalStop i =>
    simp only [step, mainStep] at h
    split at h
    · obtain ⟨⟨pc, u⟩, hstop, rfl⟩ := Option.map_eq_some_iff.mp h
      constructor
      · assumption
      · exact hstop
    · simp at h
  | signal =>
    obtain rfl := Option.some.inj h
    exact .signal
  | complete op ok =>
    obtain ⟨cq, hcq, rfl⟩ := Option.map_eq_some_iff.mp h
    exact .complete hcq
  | callbackNext c =>
    obtain ⟨hcallback, h⟩ := Option.ite_none_right_eq_some.mp h
    obtain ⟨cq, hcq, rfl⟩ := Option.map_eq_some_iff.mp h
    exact .callbackNext hcallback hcq
  | callbackDrained =>
    obtain ⟨⟨hcallback, hdrained⟩, h⟩ := Option.ite_none_right_eq_some.mp h
    obtain rfl := Option.some.inj h
    exact .callbackDrained hcallback hdrained

/-- What the next step of a call of `stop` needs, the state after it and where the call is then. -/
inductive StopEffect (s : State) : StopPc → StopPc → State → Prop
  | refused (hrunning : s.running = false) : StopEffect s .test .returned s
  | passed (hrunning : s.running = true) : StopEffect s .test .store s
  | store : StopEffect s .store .tryCancel { s with running := false }
  | tryCancel : StopEffect s .tryCancel .shutdown s
  | shutdown :
      StopEffect s .shutdown .join { s with cq := s.cq.shutdown, shutdowns := s.shutdowns + 1 }
  | join (hexited : s.callback = .notStarted ∨ s.callback = .exited) :
      StopEffect s .join .returned { s with joins := s.joins + 1 }

theorem effect_of_stop {s u : State} {pc pc' : StopPc} (h : s.stop pc = some (pc', u)) :
    StopEffect s pc pc' u := by
  cases pc with
  | test =>
    cases hrunning : s.running with
    | true =>
      simp only [State.stop, hrunning, Bool.not_true, Bool.false_eq_true, ↓reduceIte,
        Option.some.injEq, Prod.mk.injEq] at h
      obtain ⟨rfl, rfl⟩ := h
      exact .passed hrunning
    | false =>
      simp only [State.stop, hrunning, Bool.not_false, ↓reduceIte, Option.some.injEq,
        Prod.mk.injEq] at h
      obtain ⟨rfl, rfl⟩ := h
      exact .refused hrunning
  | store | tryCancel | shutdown =>
    simp only [State.stop, Option.some.injEq, Prod.mk.injEq] at h
    obtain ⟨rfl, rfl⟩ := h
    constructor
  | join =>
    obtain ⟨hexited, h⟩ := Option.ite_none_right_eq_some.mp h
    obtain ⟨rfl, rfl⟩ := Prod.mk.inj (Option.some.inj h)
    exact .join hexited
  | returned => simp [State.stop] at h

/-- A call of `stop` touches neither thread nor request. -/
theorem stop_frame {s u : State} {pc pc' : StopPc} (h : s.stop pc = some (pc', u)) :
    u.main = s.main ∧ u.callback = s.callback ∧ u.requests = s.requests ∧
      u.cq.ops = s.cq.ops ∧ (u.running = true → s.running = true) := by
  cases effect_of_stop h <;> simp

end CppDemo.Grpc.ClientAsync2
