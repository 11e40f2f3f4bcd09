import CppDemo.Foundation.StreamCall.Frame
import CppDemo.Grpc.Client

/-!
# The client that a signal stops

The client opens a call of `SayHello3` and starts two threads. One reads the responses until there
are no more, and the other one writes the same request again and again while `running_` is set.
It never half-closes its side. A signal handler calls `stop`, which does nothing unless `running_`
is set, and otherwise resets it and cancels the call.

The service is the one of `service_impl.cc`, and the two directions of the call have room for some
messages. Signals come at any time, and what a handler does may come between any two steps of the
threads. The pause between two writes may take any time.

Source: `grpcdemo/client_async.cpp`, lines 14–88, and `grpcdemo/service_impl.cc`, lines 68–86.

## Main definitions

* `State`, `step` : the main thread, its two threads, the handlers and the call.
* `State.callWith` : the call of a client that knows how many requests it is going to write.
* `Idle` : no thread and no handler can go on, nor can the service.

## Main results

* `exists_run_of_run` : a run of the client is a run of such a call.
* `conversation_of_run` : the responses are those to the requests that have been written, and the
  threads go on until the call is cancelled or breaks, after which `run` returns.
-/

namespace CppDemo.Grpc.ClientAsync

open Transition StreamCall ServiceImpl

/-- What the write thread writes. -/
def request : HelloRequest := { name := "tony" }

/-- The next statement of the main thread. -/
inductive Main
  /-- `running_ = true`. -/
  | start
  /-- `stub_->SayHello3`. -/
  | sayHello3
  | readThread
  | writeThread
  | joinRead
  | joinWrite
  | returned
  deriving DecidableEq, Repr

/-- The next statement of the write thread. -/
inductive WriteThread
  | unborn
  /-- `while (running_)`. -/
  | loop
  | write
  | sleep
  | ended
  deriving DecidableEq, Repr

/-- The next statement of a call of `stop`. -/
inductive Stop
  /-- `if (!running_)`. -/
  | test
  /-- `running_ = false`. -/
  | reset
  /-- `context_.TryCancel()`. -/
  | tryCancel
  | returned
  deriving DecidableEq, Repr

structure State where
  main : Main := .start
  running : Bool := false
  writeThread : WriteThread := .unborn
  /-- The calls of `stop`. -/
  stops : List Stop := []
  /-- The call, which is broken once it has been cancelled, and whose reader is the read thread. -/
  call : StreamCall.State Unit HelloRequest HelloResponse :=
    { writer := .writing [], server := .serving () [] }
  /-- How many calls of `Write` have succeeded. -/
  written : Nat := 0
  deriving DecidableEq, Repr

inductive Action
  | main
  | writeThread
  /-- The service or the read thread goes on, or the call breaks. -/
  | call (a : StreamCall.Action)
  | signal
  /-- A call of `stop` goes on. -/
  | stop (i : Nat)
  deriving DecidableEq, Repr

/-- The steps of the call that are possible while the main thread is at a statement. The client
does without `WritesDone` and `Finish`. -/
def Main.allows (main : Main) : StreamCall.Action → Bool
  | .serverRead | .serverReadEnds | .serverWrite | .serverReturn | .breaks =>
    main ≠ .start && main ≠ .sayHello3
  | .read | .readEnds => main ≠ .start && main ≠ .sayHello3 && main ≠ .readThread
  | .write | .halfClose | .join | .finish => false

section Step

variable (requestRoom messageRoom : Nat)

/-- The directions of the call. The client reads from a thread of its own. -/
abbrev setup : Setup := { requestRoom, messageRoom, concurrent := true }

namespace State

variable (s : State)

/-- The main thread goes on. -/
def mainNext : Option State :=
  match s.main with
  | .start => some { s with main := .sayHello3, running := true }
  | .sayHello3 => some { s with main := .readThread }
  | .readThread => some { s with main := .writeThread }
  | .writeThread => some { s with main := .joinRead, writeThread := .loop }
  | .joinRead => if s.call.reader = .joining then some { s with main := .joinWrite } else none
  | .joinWrite => if s.writeThread = .ended then some { s with main := .returned } else none
  | .returned => none

/-- `stream_->Write(request)`, which waits while there is no room, and what comes after it. -/
def write : Option State :=
  (StreamCall.State.write (setup requestRoom messageRoom)
      { s.call with writer := .writing [request] }).map fun call ↦
    if s.call.broken then { s with call, writeThread := .ended }
    else { s with call, writeThread := .sleep, written := s.written + 1 }

/-- The write thread goes on. -/
def writeNext : Option State :=
  match s.writeThread with
  | .loop => some { s with writeThread := if s.running then .write else .ended }
  | .write => s.write requestRoom messageRoom
  | .sleep => some { s with writeThread := .loop }
  | .unborn | .ended => none

def callNext (a : StreamCall.Action) : Option State :=
  if s.main.allows a then
    (StreamCall.step sayHello3Service (setup requestRoom messageRoom) s.call a).map fun call ↦
      { s with call }
  else none

/-- A call of `stop` goes on. -/
def stopNext (i : Nat) : Option State :=
  match s.stops[i]? with
  | some .test =>
    some { s with stops := s.stops.set i (if s.running then .reset else .returned) }
  | some .reset => some { s with stops := s.stops.set i .tryCancel, running := false }
  | some .tryCancel =>
    some { s with stops := s.stops.set i .returned, call := { s.call with broken := true } }
  | _ => none

end State

/-- One statement of a thread or of a handler, or a step of the call. -/
def step (s : State) : Action → Option State
  | .main => s.mainNext
  | .writeThread => s.writeNext requestRoom messageRoom
  | .call a => s.callNext requestRoom messageRoom a
  | .signal => some { s with stops := s.stops ++ [.test] }
  | .stop i => s.stopNext i

/-- Nobody can go on by himself: without a signal, and unless the call breaks, nothing happens. -/
abbrev Idle (s : State) : Prop :=
  Stuck (step requestRoom messageRoom) (fun a ↦ a ≠ .signal ∧ a ≠ .call .breaks) s

/-- What a step needs and what it does. -/
inductive Move (s : State) : Action → State → Prop
  | start (hmain : s.main = .start) : Move s .main { s with main := .sayHello3, running := true }
  | sayHello3 (hmain : s.main = .sayHello3) : Move s .main { s with main := .readThread }
  | readThread (hmain : s.main = .readThread) : Move s .main { s with main := .writeThread }
  | writeThread (hmain : s.main = .writeThread) :
      Move s .main { s with main := .joinRead, writeThread := .loop }
  | joinRead (hmain : s.main = .joinRead) (hreader : s.call.reader = .joining) :
      Move s .main { s with main := .joinWrite }
  | joinWrite (hmain : s.main = .joinWrite) (hended : s.writeThread = .ended) :
      Move s .main { s with main := .returned }
  | loop (hthread : s.writeThread = .loop) :
      Move s .writeThread { s with writeThread := if s.running then .write else .ended }
  | write (hthread : s.writeThread = .write) (hbroken : s.call.broken = false)
      (hroom : s.call.requests.length < requestRoom) :
      Move s .writeThread { s with
        call := { s.call with writer := .writing [], requests := s.call.requests ++ [request] }
        writeThread := .sleep
        written := s.written + 1 }
  | writeFails (hthread : s.writeThread = .write) (hbroken : s.call.broken = true) :
      Move s .writeThread { s with
        call := { s.call with writer := .writing [] }
        writeThread := .ended }
  | sleep (hthread : s.writeThread = .sleep) : Move s .writeThread { s with writeThread := .loop }
  | call {a call} (hallows : s.main.allows a = true)
      (hcall : StreamCall.step sayHello3Service (setup requestRoom messageRoom) s.call a =
        some call) :
      Move s (.call a) { s with call }
  | signal : Move s .signal { s with stops := s.stops ++ [.test] }
  | test {i} (hstop : s.stops[i]? = some .test) :
      Move s (.stop i) { s with stops := s.stops.set i (if s.running then .reset else .returned) }
  | reset {i} (hstop : s.stops[i]? = some .reset) :
      Move s (.stop i) { s with stops := s.stops.set i .tryCancel, running := false }
  | tryCancel {i} (hstop : s.stops[i]? = some .tryCancel) :
      Move s (.stop i) { s with
        stops := s.stops.set i .returned
        call := { s.call with broken := true } }

variable {requestRoom messageRoom : Nat} {s t : State} {a : Action}

theorem move_of_mainNext (h : s.mainNext = some t) : Move requestRoom messageRoom s .main t := by
  unfold State.mainNext at h
  cases hmain : s.main <;> rw [hmain] at h
  case joinRead =>
    obtain ⟨hreader, h⟩ := Option.ite_none_right_eq_some.mp h
    cases h
    exact .joinRead hmain hreader
  case joinWrite =>
    obtain ⟨hended, h⟩ := Option.ite_none_right_eq_some.mp h
    cases h
    exact .joinWrite hmain hended
  all_goals cases h
  · exact .start hmain
  · exact .sayHello3 hmain
  · exact .readThread hmain
  · exact .writeThread hmain

theorem move_of_write (hthread : s.writeThread = .write)
    (h : s.write requestRoom messageRoom = some t) :
    Move requestRoom messageRoom s .writeThread t := by
  obtain ⟨call, hcall, rfl⟩ := Option.map_eq_some_iff.mp h
  simp only [StreamCall.State.write] at hcall
  split_ifs at hcall with hbroken hroom <;> obtain rfl := Option.some.inj hcall
  · rw [if_pos (by exact hbroken)]
    exact .writeFails hthread hbroken
  · rw [if_neg (by exact hbroken)]
    exact .write hthread (by simpa using hbroken) hroom

theorem move_of_writeNext (h : s.writeNext requestRoom messageRoom = some t) :
    Move requestRoom messageRoom s .writeThread t := by
  unfold State.writeNext at h
  cases hthread : s.writeThread <;> simp only [hthread, reduceCtorEq] at h
  case loop =>
    obtain rfl := Option.some.inj h
    exact .loop hthread
  case write => exact move_of_write hthread h
  case sleep =>
    obtain rfl := Option.some.inj h
    exact .sleep hthread

theorem move_of_stopNext {i : Nat} (h : s.stopNext i = some t) :
    Move requestRoom messageRoom s (.stop i) t := by
  unfold State.stopNext at h
  split at h
  next hstop =>
    obtain rfl := Option.some.inj h
    exact .test hstop
  next hstop =>
    obtain rfl := Option.some.inj h
    exact .reset hstop
  next hstop =>
    obtain rfl := Option.some.inj h
    exact .tryCancel hstop
  next => cases h

/-- Every step is one of the moves. -/
theorem move_of_step (h : step requestRoom messageRoom s a = some t) :
    Move requestRoom messageRoom s a t := by
  cases a with
  | main => exact move_of_mainNext h
  | writeThread => exact move_of_writeNext h
  | call a =>
    obtain ⟨hallows, h⟩ := Option.ite_none_right_eq_some.mp h
    obtain ⟨call, hcall, rfl⟩ := Option.map_eq_some_iff.mp h
    exact .call hallows hcall
  | signal =>
    obtain rfl := Option.some.inj h
    exact .signal
  | stop i => exact move_of_stopNext h

end Step

/-! ### The threads and the handlers -/

section Inv

variable {requestRoom messageRoom : Nat} {s t : State} {a : Action}

/-- The write thread has not been started yet. -/
def Main.early : Main → Bool
  | start | sayHello3 | readThread | writeThread => true
  | joinRead | joinWrite | returned => false

/-- What holds in every state of a run. -/
structure State.Inv (s : State) : Prop where
  writer : s.call.writer = .writing []
  reader : s.call.reader = .reading ∨ s.call.reader = .joining
  unborn : s.writeThread = .unborn ↔ s.main.early = true
  joinedRead : s.main = .joinWrite ∨ s.main = .returned → s.call.reader = .joining
  joinedWrite : s.main = .returned → s.writeThread = .ended
  /-- The write thread ends for one of two reasons. -/
  ended : s.writeThread = .ended → s.running = false ∨ s.call.broken = true
  /-- Before `running_` is set, a call of `stop` does nothing. -/
  start : s.main = .start → s.running = false ∧ ∀ stop ∈ s.stops, stop = .test ∨ stop = .returned
  tryCancel : .tryCancel ∈ s.stops → s.running = false
  /-- Who has reset `running_` cancels the call. -/
  reset : s.running = false → s.main = .start ∨ .tryCancel ∈ s.stops ∨ s.call.broken = true

theorem inv_init : State.Inv {} where
  writer := rfl
  reader := .inl rfl
  unborn := iff_of_true rfl rfl
  joinedRead h := by simp at h
  joinedWrite h := by cases h
  ended h := by cases h
  start _ := ⟨rfl, by simp⟩
  tryCancel h := by simp at h
  reset _ := .inl rfl

/-- The other handlers stay where they are. -/
theorem mem_set_of_ne {stops : List Stop} {i : Nat} {old new stop : Stop}
    (hold : stops[i]? = some old) (hmem : stop ∈ stops) (hne : stop ≠ old) :
    stop ∈ stops.set i new := by
  obtain ⟨j, hj⟩ := List.mem_iff_getElem?.mp hmem
  have hij : i ≠ j := by
    rintro rfl
    exact hne (Option.some.inj (hj.symm.trans hold))
  exact List.mem_iff_getElem?.mpr ⟨j, (List.getElem?_set_ne hij).trans hj⟩

theorem mem_set_self {stops : List Stop} {i : Nat} {old : Stop} (hold : stops[i]? = some old)
    (new : Stop) : new ∈ stops.set i new :=
  List.mem_set (List.getElem?_eq_some_iff.mp hold).1 new

/-- A step of the call does not touch what the client writes, and the read thread reads or ends. -/
theorem call_of_allows {c c' : StreamCall.State Unit HelloRequest HelloResponse}
    {a : StreamCall.Action} (hallows : s.main.allows a = true)
    (hstep : StreamCall.step sayHello3Service (setup requestRoom messageRoom) c a = some c')
    (hwriter : c.writer = .writing []) (hreader : c.reader = .reading ∨ c.reader = .joining) :
    c'.writer = .writing [] ∧ (c'.reader = c.reader ∨ c'.reader = .joining) ∧
      (c.broken = true → c'.broken = true) := by
  have hwrite : a ≠ .write := by rintro rfl; cases hallows
  have hclose : a ≠ .halfClose := by rintro rfl; cases hallows
  have hwriter' := (writer_of_step hwrite hclose hstep).trans hwriter
  refine ⟨hwriter', ?_⟩
  cases StreamCall.move_of_step hstep with
  | write hw | giveUp hw => exact absurd (hwriter.symm.trans hw) (by simp)
  | halfClose => exact absurd hwriter' (by simp)
  | join _ hw => exact absurd (hwriter.symm.trans hw) (by simp)
  | finish hr => exact absurd hr (by rcases hreader with hr' | hr' <;> simp [hr'])
  | readEnds => exact ⟨.inr rfl, id⟩
  | breaks => exact ⟨.inl rfl, fun _ ↦ rfl⟩
  | _ => exact ⟨.inl rfl, id⟩

namespace State.Inv

theorem of_start (h : s.Inv) (hmain : s.main = .start) :
    State.Inv { s with main := .sayHello3, running := true } := by
  have hunborn := h.unborn.mpr (by rw [hmain]; rfl)
  obtain ⟨-, hstops⟩ := h.start hmain
  refine { h with
    unborn := iff_of_true hunborn rfl
    joinedRead := fun hjoined ↦ absurd hjoined (by simp)
    joinedWrite := nofun
    ended := fun hended ↦ absurd (hunborn.symm.trans hended) (by simp)
    start := nofun
    tryCancel := fun hstop ↦ absurd (hstops _ hstop) (by simp)
    reset := nofun }

/-- The main thread goes on and does not start the write thread. -/
theorem of_main (h : s.Inv) {main : Main} (hmain : s.main ≠ .start) (hstart : main ≠ .start)
    (hearly : main.early = s.main.early)
    (hread : main = .joinWrite ∨ main = .returned → s.call.reader = .joining)
    (hwrite : main = .returned → s.writeThread = .ended) : State.Inv { s with main } where
  __ := h
  unborn := hearly ▸ h.unborn
  joinedRead := hread
  joinedWrite := hwrite
  start := fun hmain' ↦ absurd hmain' hstart
  reset := fun hrunning ↦ .inr ((h.reset hrunning).resolve_left hmain)

theorem of_writeThread (h : s.Inv) (hmain : s.main = .writeThread) :
    State.Inv { s with main := .joinRead, writeThread := .loop } where
  __ := h
  unborn := iff_of_false nofun nofun
  joinedRead := fun hjoined ↦ absurd hjoined (by simp)
  joinedWrite := nofun
  ended := nofun
  start := nofun
  reset := fun hrunning ↦ .inr ((h.reset hrunning).resolve_left (by simp [hmain]))

/-- The write thread goes on, and has a reason if it ends. -/
theorem of_writeNext (h : s.Inv) (hborn : s.writeThread ≠ .unborn)
    (halive : s.writeThread ≠ .ended) {thread : WriteThread}
    {call : StreamCall.State Unit HelloRequest HelloResponse} {written : Nat}
    (hthread : thread ≠ .unborn)
    (hended : thread = .ended → s.running = false ∨ s.call.broken = true)
    (hwriter : call.writer = .writing []) (hreader : call.reader = s.call.reader)
    (hbroken : call.broken = s.call.broken) :
    State.Inv { s with call, writeThread := thread, written } where
  __ := h
  writer := hwriter
  reader := hreader ▸ h.reader
  unborn := iff_of_false hthread fun hearly ↦ hborn (h.unborn.mpr hearly)
  joinedRead := fun hmain ↦ hreader.trans (h.joinedRead hmain)
  joinedWrite := fun hmain ↦ absurd (h.joinedWrite hmain) halive
  ended := fun heq ↦ (hended heq).imp_right hbroken.trans
  reset := fun hrunning ↦ (h.reset hrunning).imp_right (Or.imp_right hbroken.trans)

theorem of_call (h : s.Inv) {a : StreamCall.Action}
    {call : StreamCall.State Unit HelloRequest HelloResponse} (hallows : s.main.allows a = true)
    (hcall : StreamCall.step sayHello3Service (setup requestRoom messageRoom) s.call a =
      some call) : State.Inv { s with call } := by
  obtain ⟨hwriter, hreader, hbroken⟩ := call_of_allows hallows hcall h.writer h.reader
  refine { h with
    writer := hwriter
    reader := hreader.elim (fun heq ↦ heq ▸ h.reader) .inr
    joinedRead := fun hjoined ↦ hreader.elim (fun heq ↦ heq.trans (h.joinedRead hjoined)) id
    ended := fun hended ↦ (h.ended hended).imp_right hbroken
    reset := fun hrunning ↦ (h.reset hrunning).imp_right (Or.imp_right hbroken) }

theorem of_signal (h : s.Inv) : State.Inv { s with stops := s.stops ++ [.test] } := by
  refine { h with
    start := fun hmain ↦ ⟨(h.start hmain).1, fun stop hstop ↦ ?_⟩
    tryCancel := fun hstop ↦ h.tryCancel (by simpa using hstop)
    reset := fun hrunning ↦ (h.reset hrunning).imp_right (Or.imp_left (List.mem_append_left _)) }
  rcases List.mem_append.mp hstop with hstop | hstop
  · exact (h.start hmain).2 stop hstop
  · exact .inl (List.mem_singleton.mp hstop)

theorem of_test (h : s.Inv) {i : Nat} (hstop : s.stops[i]? = some .test) :
    State.Inv { s with stops := s.stops.set i (if s.running then .reset else .returned) } := by
  refine { h with
    start := fun hmain ↦ ⟨(h.start hmain).1, fun stop hmem ↦ ?_⟩
    tryCancel := fun hmem ↦ h.tryCancel ?_
    reset := fun hrunning ↦ (h.reset hrunning).imp_right (Or.imp_left fun hmem ↦ ?_) }
  · rcases List.mem_or_eq_of_mem_set hmem with hmem | rfl
    · exact (h.start hmain).2 stop hmem
    · simp [(h.start hmain).1]
  · rcases List.mem_or_eq_of_mem_set hmem with hmem | heq
    · exact hmem
    · split_ifs at heq
  · exact mem_set_of_ne hstop hmem nofun

/-- A handler that has found `running_` set has been called after `start`. -/
theorem main_ne_start (h : s.Inv) {i : Nat} {stop : Stop} (hstop : s.stops[i]? = some stop)
    (hset : stop = .reset ∨ stop = .tryCancel) : s.main ≠ .start := by
  intro hmain
  have hbefore := (h.start hmain).2 stop (List.mem_of_getElem? hstop)
  rcases hset with rfl | rfl <;> simp at hbefore

theorem of_reset (h : s.Inv) {i : Nat} (hstop : s.stops[i]? = some .reset) :
    State.Inv { s with stops := s.stops.set i .tryCancel, running := false } where
  __ := h
  ended := fun _ ↦ .inl rfl
  start := fun hmain ↦ absurd hmain (h.main_ne_start hstop (.inl rfl))
  tryCancel := fun _ ↦ rfl
  reset := fun _ ↦ .inr (.inl (mem_set_self hstop _))

theorem of_tryCancel (h : s.Inv) {i : Nat} (hstop : s.stops[i]? = some .tryCancel) :
    State.Inv { s with
      stops := s.stops.set i .returned
      call := { s.call with broken := true } } where
  __ := h
  ended := fun _ ↦ .inr rfl
  start := fun hmain ↦ absurd hmain (h.main_ne_start hstop (.inr rfl))
  tryCancel := fun _ ↦ h.tryCancel (List.mem_of_getElem? hstop)
  reset := fun _ ↦ .inr (.inr rfl)

theorem step (h : s.Inv) (hstep : step requestRoom messageRoom s a = some t) : t.Inv := by
  cases move_of_step hstep with
  | start hmain => exact h.of_start hmain
  | sayHello3 hmain | readThread hmain =>
    exact h.of_main (by simp [hmain]) nofun (by rw [hmain]; rfl) (by simp) nofun
  | writeThread hmain => exact h.of_writeThread hmain
  | joinRead hmain hreader =>
    exact h.of_main (by simp [hmain]) nofun (by rw [hmain]; rfl) (fun _ ↦ hreader) nofun
  | joinWrite hmain hended =>
    exact h.of_main (by simp [hmain]) nofun (by rw [hmain]; rfl)
      (fun _ ↦ h.joinedRead (.inl hmain)) fun _ ↦ hended
  | loop hthread =>
    refine h.of_writeNext (by simp [hthread]) (by simp [hthread]) ?_ (fun hended ↦ .inl ?_)
      h.writer rfl rfl
    · split_ifs <;> simp
    · by_contra hrunning
      simp [hrunning] at hended
  | write hthread hbroken =>
    exact h.of_writeNext (by simp [hthread]) (by simp [hthread]) nofun nofun rfl rfl rfl
  | writeFails hthread hbroken =>
    exact h.of_writeNext (by simp [hthread]) (by simp [hthread]) nofun (fun _ ↦ .inr hbroken)
      rfl rfl rfl
  | sleep hthread =>
    exact h.of_writeNext (by simp [hthread]) (by simp [hthread]) nofun nofun h.writer rfl rfl
  | call hallows hcall => exact h.of_call hallows hcall
  | signal => exact h.of_signal
  | test hstop => exact h.of_test hstop
  | reset hstop => exact h.of_reset hstop
  | tryCancel hstop => exact h.of_tryCancel hstop

end State.Inv

theorem inv_of_run {as : List Action} (hrun : run (step requestRoom messageRoom) {} as = some s) :
    s.Inv :=
  run_invariant (fun _ _ _ h hstep ↦ h.step hstep) hrun inv_init

end Inv

/-! ### The call -/

section Call

variable {requestRoom messageRoom : Nat} {s t : State} {a : Action} {n : Nat}

/-- The call as one of a client that is to write `n` requests. -/
def State.callWith (n : Nat) (s : State) : StreamCall.State Unit HelloRequest HelloResponse :=
  { s.call with writer := .writing (List.replicate (n - s.written) request) }

/-- The runs of a client that writes `n` requests from a thread of its own. -/
abbrev callRun (requestRoom messageRoom n : Nat) (as : List StreamCall.Action) :
    Option (StreamCall.State Unit HelloRequest HelloResponse) :=
  run (StreamCall.step sayHello3Service (setup requestRoom messageRoom))
    (StreamCall.init sayHello3Service (List.replicate n request)) as

theorem written_le_of_step (hstep : step requestRoom messageRoom s a = some t) :
    s.written ≤ t.written := by
  cases move_of_step hstep with
  | write => exact Nat.le_succ _
  | _ => exact Nat.le_refl _

theorem callWith_write (hbroken : s.call.broken = false)
    (hroom : s.call.requests.length < requestRoom) (hn : s.written < n) :
    StreamCall.step sayHello3Service (setup requestRoom messageRoom) (s.callWith n) .write =
      some (State.callWith n { s with
        call := { s.call with writer := .writing [], requests := s.call.requests ++ [request] }
        writeThread := .sleep
        written := s.written + 1 }) := by
  have hleft : n - s.written = n - (s.written + 1) + 1 := by omega
  simp only [StreamCall.step, StreamCall.State.write, State.callWith, hleft, List.replicate_succ,
    hbroken, Bool.false_eq_true, if_false, if_pos hroom]

theorem callWith_call {b : StreamCall.Action}
    {call : StreamCall.State Unit HelloRequest HelloResponse}
    (hwriter : s.call.writer = .writing []) (hallows : s.main.allows b = true)
    (hcall : StreamCall.step sayHello3Service (setup requestRoom messageRoom) s.call b =
      some call) :
    StreamCall.step sayHello3Service (setup requestRoom messageRoom) (s.callWith n) b =
      some (State.callWith n { s with call }) := by
  have hwrite : b ≠ .write := by rintro rfl; cases hallows
  have hclose : b ≠ .halfClose := by rintro rfl; cases hallows
  rw [State.callWith, step_withWriter _ hwrite hclose, hcall]
  · rfl
  · rw [hwriter]
    rfl

/-- What the client does is nothing to the call, or a step of a client whose number of requests is
known. -/
theorem State.Inv.step_callWith (h : s.Inv)
    (hstep : ClientAsync.step requestRoom messageRoom s a = some t) (hn : t.written ≤ n) :
    t.callWith n = s.callWith n ∨ ∃ b,
      StreamCall.step sayHello3Service (setup requestRoom messageRoom) (s.callWith n) b =
        some (t.callWith n) := by
  cases move_of_step hstep with
  | write hthread hbroken hroom => exact .inr ⟨_, callWith_write hbroken hroom hn⟩
  | call hallows hcall => exact .inr ⟨_, callWith_call h.writer hallows hcall⟩
  | tryCancel hstop =>
    cases hbroken : s.call.broken with
    | true =>
      left
      simp only [State.callWith, hbroken]
    | false =>
      refine .inr ⟨.breaks, ?_⟩
      rcases h.reader with hreader | hreader <;>
        simp [StreamCall.step, StreamCall.State.breaks, State.callWith, hreader, hbroken]
  | _ => exact .inl rfl

/-- A run of the client is a run of a client that knows how many requests it is going to write. -/
theorem exists_run_of_run {as : List Action}
    (hrun : run (step requestRoom messageRoom) {} as = some s) (hn : s.written ≤ n) :
    ∃ bs, callRun requestRoom messageRoom n bs = some (s.callWith n) := by
  have hinv : s.Inv ∧ ∀ n, s.written ≤ n →
      ∃ bs, callRun requestRoom messageRoom n bs = some (s.callWith n) := by
    refine run_invariant (P := fun s : State ↦ s.Inv ∧ ∀ n, s.written ≤ n →
        ∃ bs, callRun requestRoom messageRoom n bs = some (s.callWith n))
      (fun s a t h hstep ↦ ?_) hrun ⟨inv_init, fun n _ ↦ ⟨[], rfl⟩⟩
    refine ⟨h.1.step hstep, fun n hn ↦ ?_⟩
    obtain ⟨bs, hbs⟩ := h.2 n (Nat.le_trans (written_le_of_step hstep) hn)
    rcases h.1.step_callWith hstep hn with heq | ⟨b, hb⟩
    · exact ⟨bs, heq ▸ hbs⟩
    · exact ⟨bs ++ [b], run_snoc _ hbs hb⟩
  exact hinv.2 n hn

end Call

/-! ### Nobody waits forever -/

section Idle

variable {requestRoom messageRoom : Nat} {s t : State}

theorem stuck_of_idle (hidle : Idle requestRoom messageRoom s) {b : StreamCall.Action}
    (hallows : s.main.allows b = true) (hbreaks : b ≠ .breaks) :
    StreamCall.step sayHello3Service (setup requestRoom messageRoom) s.call b = none := by
  have hnone := hidle (.call b) ⟨nofun, fun heq ↦ hbreaks (Action.call.inj heq)⟩
  simpa [step, State.callNext, hallows] using hnone

/-- When the main thread waits or has returned, it has started both threads. -/
theorem main_of_idle (hidle : Idle requestRoom messageRoom s) : s.main.early = false := by
  have hnone := hidle .main ⟨nofun, nofun⟩
  simp only [step, State.mainNext] at hnone
  cases hmain : s.main <;> rw [hmain] at hnone <;> first | rfl | cases hnone

/-- The write thread waits for room, or has ended. -/
theorem writeThread_of_idle (hidle : Idle requestRoom messageRoom s) (hinv : s.Inv) :
    s.writeThread = .ended ∨
      s.writeThread = .write ∧ s.call.broken = false ∧ requestRoom ≤ s.call.requests.length := by
  have hnone := hidle .writeThread ⟨nofun, nofun⟩
  simp only [step, State.writeNext, State.write, StreamCall.State.write] at hnone
  cases hthread : s.writeThread with
  | ended => exact .inl rfl
  | unborn => exact absurd (hinv.unborn.mp hthread) (by simp [main_of_idle hidle])
  | loop | sleep => simp [hthread] at hnone
  | write =>
    cases hbroken : s.call.broken with
    | true => simp [hthread, hbroken] at hnone
    | false => simpa [hthread, hbroken] using hnone

/-- A call of `stop` has returned. -/
theorem stop_of_idle (hidle : Idle requestRoom messageRoom s) {stop : Stop}
    (hstop : stop ∈ s.stops) : stop = .returned := by
  obtain ⟨i, hi⟩ := List.mem_iff_getElem?.mp hstop
  have hnone := hidle (.stop i) ⟨nofun, nofun⟩
  simp only [step, State.stopNext, hi] at hnone
  cases stop <;> first | rfl | cases hnone

/-- Once both threads run, the service and the read thread may do what they like. -/
theorem Main.allows_of_late {main : Main} (hmain : main.early = false) :
    (∀ b : StreamCall.Action, b.isServer = true → main.allows b = true) ∧
      main.allows .read = true ∧ main.allows .readEnds = true := by
  cases main <;> cases hmain <;> refine ⟨fun b hb ↦ ?_, rfl, rfl⟩ <;> cases b <;>
    first | rfl | cases hb

theorem server_of_idle (hidle : Idle requestRoom messageRoom s) :
    Stuck (StreamCall.step sayHello3Service (setup requestRoom messageRoom))
      (·.isServer = true) s.call := fun b hb ↦
  stuck_of_idle hidle ((Main.allows_of_late (main_of_idle hidle)).1 b hb) (by rintro rfl; cases hb)

/-- If the read thread waits, there is nothing to read yet. -/
theorem messages_of_idle (hidle : Idle requestRoom messageRoom s)
    (hreader : s.call.reader = .reading) :
    s.call.broken = false ∧ s.call.messages = [] ∧ s.call.server ≠ .returned := by
  obtain ⟨-, hread, hends⟩ := Main.allows_of_late (main_of_idle hidle)
  exact messages_of_stuck (stuck_of_idle hidle hread nofun) (stuck_of_idle hidle hends nofun)
    hreader (.inl rfl)

/-- When nobody can go on after the call has been cancelled, `run` has returned. -/
theorem State.Inv.returned_of_idle (h : s.Inv) (hidle : Idle requestRoom messageRoom s)
    (hbroken : s.call.broken = true) : s.main = .returned ∧ s.call.server = .returned := by
  have hclash {P : Prop} (hunbroken : s.call.broken = false) : P :=
    absurd hbroken (by simp [hunbroken])
  have hreader : s.call.reader = .joining :=
    h.reader.resolve_left fun hreading ↦ hclash (messages_of_idle hidle hreading).1
  have hended : s.writeThread = .ended :=
    (writeThread_of_idle hidle h).resolve_right fun hwrite ↦ hclash hwrite.2.1
  refine ⟨?_, ?_⟩
  · have hnone := hidle .main ⟨nofun, nofun⟩
    simp only [ClientAsync.step, State.mainNext, hreader, hended, if_true] at hnone
    cases hmain : s.main <;> rw [hmain] at hnone <;> first | rfl | cases hnone
  · rcases server_of_stuck (server_of_idle hidle) with hreturned | ⟨hunbroken, -⟩ | ⟨hunbroken, -⟩
    · exact hreturned
    · exact hclash hunbroken
    · exact hclash hunbroken

/-- As long as the call has not broken, the service and the read thread go on. -/
theorem reading_of_run {as : List Action}
    (hrun : run (step requestRoom messageRoom) {} as = some s) (hbroken : s.call.broken = false) :
    s.call.reader = .reading ∧ ∃ h unsent, s.call.server = .serving h unsent := by
  obtain ⟨bs, hbs⟩ := exists_run_of_run hrun (Nat.le_refl s.written)
  have hcall := StreamCall.inv_of_run hbs
  have hserver : ∃ h unsent, s.call.server = .serving h unsent := by
    by_contra hserver
    have hwriter := (hcall.ended hbroken fun h unsent heq ↦ hserver ⟨h, unsent, heq⟩).2
    exact absurd hwriter nofun
  refine ⟨?_, hserver⟩
  by_contra hreader
  obtain ⟨state, unsent, hserver⟩ := hserver
  exact absurd (hserver.symm.trans (hcall.readEnded hbroken hreader).1) nofun

/-- While the call has neither been cancelled nor broken, somebody can go on. -/
theorem broken_of_idle {as : List Action}
    (hrun : run (step requestRoom messageRoom) {} as = some s) (hrequest : 0 < requestRoom)
    (hmessage : 0 < messageRoom) (hidle : Idle requestRoom messageRoom s) :
    s.call.broken = true := by
  by_contra hbroken
  rw [Bool.not_eq_true] at hbroken
  have hinv := inv_of_run hrun
  obtain ⟨hreader, state, unsent, hserver⟩ := reading_of_run hrun hbroken
  obtain ⟨-, hmessages, -⟩ := messages_of_idle hidle hreader
  -- There is room for a message, so that the service waits for a request.
  have hrequests : s.call.requests = [] := by
    rcases server_of_stuck (server_of_idle hidle) with hreturned | ⟨-, hroom, -⟩ | ⟨-, hempty, -⟩
    · exact absurd (hserver.symm.trans hreturned) nofun
    · rw [hmessages, List.length_nil] at hroom
      exact absurd hroom (Nat.not_le.mpr hmessage)
    · exact hempty
  rcases writeThread_of_idle hidle hinv with hended | ⟨-, -, hroom⟩
  · -- The write thread has seen that `running_` was reset, and the call is going to be cancelled.
    have hrunning := (hinv.ended hended).resolve_right (by simp [hbroken])
    rcases hinv.reset hrunning with hstart | hcancel | hcancelled
    · exact absurd (main_of_idle hidle) (by simp [hstart, Main.early])
    · exact absurd (stop_of_idle hidle hcancel) nofun
    · exact absurd hcancelled (by simp [hbroken])
  · rw [hrequests, List.length_nil] at hroom
    exact absurd hroom (Nat.not_le.mpr hrequest)

end Idle

/-! ### Runs -/

section Runs

variable {requestRoom messageRoom : Nat} {s t : State} {a : Action} {as : List Action}

/-- A call that does not break by itself is cancelled by who has reset `running_`. -/
theorem State.Inv.cancelled_step (h : s.Inv)
    (hcancelled : s.call.broken = true → s.running = false ∧ s.main ≠ .start)
    (hbreaks : a ≠ .call .breaks) (hstep : ClientAsync.step requestRoom messageRoom s a = some t) :
    t.call.broken = true → t.running = false ∧ t.main ≠ .start := by
  cases move_of_step hstep with
  | start hmain => exact fun hbroken ↦ absurd hmain (hcancelled hbroken).2
  | sayHello3 | readThread | writeThread | joinRead | joinWrite =>
    exact fun hbroken ↦ ⟨(hcancelled hbroken).1, nofun⟩
  | reset hstop => exact fun hbroken ↦ ⟨rfl, (hcancelled hbroken).2⟩
  | tryCancel hstop =>
    have hmem := List.mem_of_getElem? hstop
    refine fun _ ↦ ⟨h.tryCancel hmem, fun hmain ↦ ?_⟩
    exact absurd ((h.start hmain).2 _ hmem) (by simp)
  | call hallows hcall =>
    have hsame := broken_of_step (fun heq ↦ hbreaks (congrArg Action.call heq)) hcall
    exact fun hbroken ↦ hcancelled (hsame.symm.trans hbroken)
  | _ => exact hcancelled

theorem running_of_run (hrun : run (step requestRoom messageRoom) {} as = some s)
    (hbreaks : .call .breaks ∉ as) (hbroken : s.call.broken = true) : s.running = false := by
  let Cancelled (s : State) : Prop :=
    s.Inv ∧ (s.call.broken = true → s.running = false ∧ s.main ≠ .start)
  have hcancelled : Cancelled s := by
    refine run_invariant_along (P := Cancelled) (C := fun _ a ↦ a ≠ .call .breaks)
      (fun s a t h ha hstep ↦ ?_) (along_of_mem (fun a ha s ↦ ?_) _) hrun ⟨inv_init, nofun⟩
    · exact ⟨h.1.step hstep, h.1.cancelled_step h.2 ha hstep⟩
    · exact fun heq ↦ hbreaks (heq ▸ ha)
  exact (hcancelled.2 hbroken).1

/-- In every run, whatever the order of the steps, the client reads the responses to its requests in
order. The threads and the service can go on until the call has been cancelled or has broken, and
then until `run` and the service have returned. Unless the call breaks by itself, this needs a call
of `stop` that has found `running_` set. -/
theorem conversation_of_run (hrequest : 0 < requestRoom) (hmessage : 0 < messageRoom)
    (hrun : run (step requestRoom messageRoom) {} as = some s) :
    s.call.read <+: sayHello3 (List.replicate s.written request) ∧
      (Idle requestRoom messageRoom s → s.main = .returned ∧ s.call.server = .returned) ∧
      (s.main = .returned → s.call.broken = true ∧
        (.call .breaks ∉ as → s.running = false)) := by
  have hinv := inv_of_run hrun
  refine ⟨?_, fun hidle ↦ ?_, fun hmain ↦ ?_⟩
  · obtain ⟨bs, hbs⟩ := exists_run_of_run hrun (Nat.le_refl s.written)
    rw [← sayHello3Service_answers]
    have hread := read_prefix_of_run hbs
    exact hread
  · exact hinv.returned_of_idle hidle (broken_of_idle hrun hrequest hmessage hidle)
  · have hbroken : s.call.broken = true := by
      by_contra hbroken
      rw [Bool.not_eq_true] at hbroken
      have hreader := hinv.joinedRead (.inr hmain)
      exact absurd (hreader.symm.trans (reading_of_run hrun hbroken).1) nofun
    exact ⟨hbroken, fun hbreaks ↦ running_of_run hrun hbreaks hbroken⟩

/-- A signal that comes too early is lost. The second one comes while a request is on its way, and
the write thread sees it before the call is cancelled. -/
def stoppedByTheSecond : List Action :=
  [.signal, .stop 0, .main, .main, .main, .main, .writeThread, .writeThread, .call .serverRead,
    .call .serverWrite, .call .read, .writeThread, .signal, .stop 1, .writeThread, .stop 1,
    .writeThread, .writeThread, .writeThread, .stop 1, .call .serverReadEnds, .call .serverReturn,
    .call .readEnds, .main, .main]

theorem conversation_of_run_stoppedByTheSecond :
    ∃ s, run (step 1 1) {} stoppedByTheSecond = some s ∧
      s.call.read <+: sayHello3 (List.replicate s.written request) ∧
      (Idle 1 1 s → s.main = .returned ∧ s.call.server = .returned) ∧
      (s.main = .returned → s.call.broken = true ∧
        (.call .breaks ∉ stoppedByTheSecond → s.running = false)) :=
  ⟨_, rfl, conversation_of_run Nat.one_pos Nat.one_pos
    (show run (step 1 1) {} stoppedByTheSecond = some _ from rfl)⟩

end Runs

end CppDemo.Grpc.ClientAsync
