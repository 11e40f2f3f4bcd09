import CppDemo.Foundation.Calls
import CppDemo.Grpc.ClientAsync2.Callback

/-!
# Stopping the client

`stop` is called by the destructor and by the signal handler, on any thread and at any time. It
tests `running_`, stores `false`, shuts `cq_` down and joins the callback thread. Nothing keeps the
callback thread from starting another read, or the main thread from starting a write, between the
shutdown and their next look at `running_`. And `running_` says two things, that the thread runs and
that nobody has stopped the client: the callback thread stores `false` when the session closes, and
two calls of `stop` can both see `true` before one of them stores.

Source: `grpcdemo/client_async2.cpp`, lines 19–22 and 36–94.

## Main definitions

* `State.NothingLate`, `stopsQuietly` : no read or write is started after the shutdown, and the
  condition for it.
* `State.TornDownOnce`, `stopsOnce` : the destructor leaves a client that has been shut down and
  joined once, and the condition for it.

## Main results

* `nothingLate_of_run`, `not_nothingLate_of_busy` : no read or write is started after the shutdown
  if nothing is about to be started then; otherwise one can be at once.
* `tornDownOnce_of_run` : the client is torn down once if one call of `stop` passes its test.
-/

namespace CppDemo.Grpc.ClientAsync2

open Transition Calls

/-! ### The calls of `stop` -/

/-- The call has passed its test and not returned. -/
def StopPc.busy : StopPc → Bool
  | .test => false
  | .returned => false
  | _ => true

/-- `run` has stored `running_`. -/
def MainPc.ran : MainPc → Bool
  | .created => false
  | .runStore => false
  | _ => true

/-- The call of `stop` by the destructor. -/
def MainPc.stops : MainPc → Multiset StopPc
  | .destructor pc => {pc}
  | _ => 0

/-- The calls of `stop`. -/
def State.stops (s : State) : Multiset StopPc := s.signals + s.main.stops

/-- Where the call of `stop` is that an action moves. -/
def State.moves (s : State) : Action → Option StopPc
  | .signalStop i => s.signals[i]?
  | .destructorStop =>
    match s.main with
    | .destructor pc => some pc
    | _ => none
  | _ => none

/-- What the calls of `stop` read and write. -/
@[ext]
structure Control where
  running : Bool
  ran : Bool
  stops : Multiset StopPc
  isShutdown : Bool
  shutdowns : Nat
  joins : Nat

def State.control (s : State) : Control where
  running := s.running
  ran := s.main.ran
  stops := s.stops
  isShutdown := s.cq.isShutdown
  shutdowns := s.shutdowns
  joins := s.joins

/-- What a step can do to the calls of `stop` and what they share. -/
inductive ControlStep (s : State) : Action → Control → Prop
  | frame {a : Action} : ControlStep s a s.control
  | run (hran : s.main.ran = false) :
      ControlStep s .runStore { s.control with running := true, ran := true }
  | call {a : Action} : ControlStep s a { s.control with stops := .test ::ₘ s.stops }
  | exit : ControlStep s .callbackStore { s.control with running := false }
  | move {a : Action} {pc pc' : StopPc} {rest : Multiset StopPc} {u : State}
      (hmoves : s.moves a = some pc) (hstops : s.stops = pc ::ₘ rest)
      (heffect : StopEffect s pc pc' u) :
      ControlStep s a ⟨u.running, s.main.ran, pc' ::ₘ rest, u.cq.isShutdown, u.shutdowns, u.joins⟩

section Step

variable {s t u : State} {a : Action} {pc pc' : StopPc}

/-- A step of the destructor's call moves one call. -/
theorem stops_destructorStop (hmain : s.main = .destructor pc) (hstop : s.stop pc = some (pc', u)) :
    ∃ rest, s.stops = pc ::ₘ rest ∧ ({ u with main := .destructor pc' } : State).stops =
      pc' ::ₘ rest := by
  have hsignals : u.signals = s.signals := by cases effect_of_stop hstop <;> rfl
  refine ⟨s.signals, ?_, ?_⟩
  · rw [State.stops, hmain, MainPc.stops, Multiset.add_comm, Multiset.singleton_add]
  · rw [State.stops, MainPc.stops, Multiset.add_comm, Multiset.singleton_add, hsignals]

/-- A step of a signal handler's call moves one call. -/
theorem stops_signalStop {i : Nat} (hsignal : s.signals[i]? = some pc)
    (hstop : s.stop pc = some (pc', u)) :
    ∃ rest, s.stops = pc ::ₘ rest ∧ ({ u with signals := u.signals.set i pc' } : State).stops =
      pc' ::ₘ rest := by
  obtain ⟨hsignals, hmain⟩ : u.signals = s.signals ∧ u.main = s.main := by
    cases effect_of_stop hstop <;> exact ⟨rfl, rfl⟩
  obtain ⟨rest, hl, hset⟩ := exists_cons_of_getElem? hsignal pc'
  refine ⟨rest + s.main.stops, ?_, ?_⟩
  · rw [State.stops, hl, Multiset.cons_add]
  · rw [State.stops, hsignals, hset, hmain, Multiset.cons_add]

private theorem ControlStep.of_eq (h : t.control = s.control) : ControlStep s a t.control :=
  h ▸ .frame

/-- A step that leaves alone what the calls of `stop` share. -/
private theorem ControlStep.of_frame (hrunning : t.running = s.running)
    (hran : t.main.ran = s.main.ran) (hstops : t.main.stops = s.main.stops)
    (hsignals : t.signals = s.signals) (hshutdown : t.cq.isShutdown = s.cq.isShutdown)
    (hcounts : t.shutdowns = s.shutdowns ∧ t.joins = s.joins) : ControlStep s a t.control := by
  refine .of_eq (Control.ext hrunning hran ?_ hshutdown hcounts.1 hcounts.2)
  exact congrArg₂ (fun (l : List StopPc) m ↦ (l : Multiset StopPc) + m) hsignals hstops

/-- Every step does one of these things. -/
theorem control_of_step (hcreated : s.main = .created → s.running = false)
    (h : step s a = some t) : ControlStep s a t.control := by
  cases effect_of_step h with
  | runTest hmain =>
    have hrunning := hcreated hmain
    refine .of_frame rfl ?_ ?_ rfl rfl ⟨rfl, rfl⟩
    · simp [hrunning, hmain, MainPc.ran]
    · simp [hrunning, hmain, MainPc.stops]
  | runStore hmain =>
    have hstops : s.stops = ({ s with running := true, main := .runCall } : State).stops := by
      rw [State.stops, State.stops, hmain]
      rfl
    have hrun : ControlStep s .runStore { s.control with running := true, ran := true } :=
      .run (by rw [hmain]; rfl)
    rwa [State.control, hstops] at hrun
  | runCall hmain | createThread hmain | write hmain =>
    refine .of_frame rfl ?_ ?_ rfl rfl ⟨rfl, rfl⟩ <;> rw [hmain] <;> rfl
  | sendRequest hmain =>
    unfold State.sendRequest
    split_ifs with hrunning
    · exact .of_frame rfl rfl rfl rfl rfl ⟨rfl, rfl⟩
    · have hready : s.main = .ready :=
        hmain.resolve_left fun h ↦ hrunning (by simp [hcreated h])
      refine .of_frame rfl ?_ ?_ rfl rfl ⟨rfl, rfl⟩ <;> rw [hready] <;> rfl
  | destroy hmain =>
    have hcall : ControlStep s .destroy { s.control with stops := .test ::ₘ s.stops } := .call
    have hstops : .test ::ₘ s.stops = ({ s with main := .destructor .test } : State).stops := by
      rw [State.stops, State.stops, hmain]
      change StopPc.test ::ₘ ((s.signals : Multiset StopPc) + 0) = s.signals + {StopPc.test}
      rw [Multiset.add_zero, Multiset.add_comm, Multiset.singleton_add]
    rwa [State.control, hstops, hmain] at hcall
  | @destructorStop pc pc' u hmain hstop =>
    obtain ⟨rest, hstops, hstops'⟩ := stops_destructorStop hmain hstop
    have hmoves : s.moves .destructorStop = some pc := by simp only [State.moves, hmain]
    have hmove := ControlStep.move hmoves hstops (effect_of_stop hstop)
    rwa [← hstops', hmain] at hmove
  | signal =>
    have hcall : ControlStep s .signal { s.control with stops := .test ::ₘ s.stops } := .call
    have hstops : .test ::ₘ s.stops =
        ({ s with signals := s.signals ++ [.test] } : State).stops := by
      rw [State.stops, State.stops, ← Multiset.cons_add]
      exact congrArg (· + s.main.stops) (coe_concat s.signals .test).symm
    rwa [State.control, hstops] at hcall
  | @signalStop i pc pc' u hsignal hstop =>
    obtain ⟨rest, hstops, hstops'⟩ := stops_signalStop hsignal hstop
    have hmove := ControlStep.move (show s.moves (.signalStop i) = some pc from hsignal) hstops
      (effect_of_stop hstop)
    rwa [← hstops', ← (stop_frame hstop).1] at hmove
  | complete hcq =>
    obtain ⟨-, rfl⟩ := CompletionQueue.complete_eq_some.mp hcq
    exact .of_frame rfl rfl rfl rfl rfl ⟨rfl, rfl⟩
  | callbackTest hcallback | callbackDrained hcallback =>
    exact .of_frame rfl rfl rfl rfl rfl ⟨rfl, rfl⟩
  | @callbackNext c cq hcallback hcq =>
    obtain ⟨-, rfl⟩ := CompletionQueue.next_eq_some.mp hcq
    obtain ⟨op, ok⟩ := c
    cases op <;> exact .of_frame rfl rfl rfl rfl rfl ⟨rfl, rfl⟩
  | @callbackDispatch c hcallback =>
    obtain ⟨op, ok⟩ := c
    cases ok <;> cases op <;> exact .of_frame rfl rfl rfl rfl rfl ⟨rfl, rfl⟩
  | callbackStore hcallback => exact .exit

end Step

/-! ### Nothing is started after the shutdown -/

/-- No read and no write has been started after `cq_.Shutdown`. -/
def State.NothingLate (s : State) : Prop := ∀ op ∈ s.cq.late, op = .call

/-- The callback thread starts a read when it handles this completion. -/
def startsRead (c : Completion Op) : Bool := c.ok && c.op.tag.isNone

/-- The callback thread is not about to start a read. -/
def CallbackPc.startsNothing : CallbackPc → Bool
  | .got c => !startsRead c
  | _ => true

/-- The main thread is not about to start a write. -/
def MainPc.startsNothing : MainPc → Bool
  | .sending _ => false
  | _ => true

def State.startsNothing (s : State) : Bool := s.callback.startsNothing && s.main.startsNothing

/-- Nothing is about to be started when `cq_` is shut down, and afterwards `Next` returns nothing
that the callback thread answers with a read. -/
def stopsQuietly (s : State) (a : Action) : Bool :=
  (!(s.moves a = some .shutdown) || s.startsNothing) &&
    match a with
    | .callbackNext c => !s.cq.isShutdown || !startsRead c
    | _ => true

/-- Before `run` nobody has stopped the client, and behind the store of a call of `stop` `running_`
is false. -/
structure Control.Stopped (c : Control) : Prop where
  ran : c.ran = false →
    c.running = false ∧ (∀ pc ∈ c.stops, pc.busy = false) ∧ c.isShutdown = false
  stored : ∀ pc ∈ c.stops, pc = .tryCancel ∨ pc = .shutdown ∨ pc = .join → c.running = false
  isShutdown : c.isShutdown = true → c.running = false

section Stopped

variable {s t : State} {a : Action}

theorem stopped_init : State.init.control.Stopped where
  ran _ :=
    ⟨rfl, fun pc h ↦ by simp [State.control, State.init, State.stops, MainPc.stops] at h, rfl⟩
  stored pc h := by simp [State.control, State.init, State.stops, MainPc.stops] at h
  isShutdown h := by simp [State.control, State.init, CompletionQueue.empty] at h

theorem Control.Stopped.created (hs : s.control.Stopped) (hmain : s.main = .created) :
    s.running = false :=
  (hs.ran (by rw [State.control, hmain]; rfl)).1

/-- A call that has passed its test has seen what `run` has stored. -/
theorem Control.Stopped.ran_of_busy {c : Control} (hc : c.Stopped) {pc : StopPc}
    (hmem : pc ∈ c.stops) (hbusy : pc.busy = true) : c.ran = true := by
  by_contra hran
  obtain ⟨-, hnone, -⟩ := hc.ran (by simpa using hran)
  exact absurd hbusy (by simp [hnone pc hmem])

/-- A call of `stop` makes a step after `run`. -/
theorem Control.Stopped.of_move {c c' : Control} (hc : c.Stopped) {pc pc' : StopPc}
    {rest : Multiset StopPc} (hstops : c.stops = pc ::ₘ rest) (hstops' : c'.stops = pc' ::ₘ rest)
    (hran : c'.ran = true) (hrunning : c.running = false → c'.running = false)
    (hshutdown : c'.isShutdown = true → c'.running = false)
    (hstored : pc' = .tryCancel ∨ pc' = .shutdown ∨ pc' = .join → c'.running = false) :
    c'.Stopped where
  ran h := by simp [hran] at h
  stored pc'' hmem h := by
    rw [hstops', Multiset.mem_cons] at hmem
    rcases hmem with rfl | hmem
    · exact hstored h
    · exact hrunning (hc.stored pc'' (hstops ▸ Multiset.mem_cons_of_mem hmem) h)
  isShutdown := hshutdown

/-- Every step keeps the order of stores. -/
theorem Control.Stopped.step (hs : s.control.Stopped) (h : step s a = some t) :
    t.control.Stopped := by
  have hstep := control_of_step hs.created h
  generalize t.control = c at hstep
  cases hstep with
  | frame => exact hs
  | run hran =>
    obtain ⟨-, hbusy, hshutdown⟩ := hs.ran hran
    refine ⟨fun h ↦ by simp at h, fun pc hmem hstored ↦ ?_, fun h ↦ ?_⟩
    · have hidle := hbusy pc hmem
      rcases hstored with rfl | rfl | rfl <;> simp [StopPc.busy] at hidle
    · exact absurd (h.symm.trans hshutdown) (by simp)
  | call =>
    refine ⟨fun h ↦ ?_, fun pc hmem hstored ↦ ?_, hs.isShutdown⟩
    · obtain ⟨hrunning, hbusy, hshutdown⟩ := hs.ran h
      exact ⟨hrunning, Multiset.forall_mem_cons.mpr ⟨rfl, hbusy⟩, hshutdown⟩
    · rcases Multiset.mem_cons.mp hmem with rfl | hmem
      · simp at hstored
      · exact hs.stored pc hmem hstored
  | exit => exact ⟨fun h ↦ ⟨rfl, (hs.ran h).2⟩, fun _ _ _ ↦ rfl, fun _ ↦ rfl⟩
  | @move a pc pc' rest u hmoves hstops heffect =>
    have hmem : pc ∈ s.stops := hstops ▸ Multiset.mem_cons_self pc rest
    cases heffect with
    | refused hrunning =>
      refine ⟨fun h ↦ ?_, fun pc hmem hstored ↦ hrunning, fun _ ↦ hrunning⟩
      obtain ⟨-, hbusy, hshutdown⟩ := hs.ran h
      rw [State.control, hstops, Multiset.forall_mem_cons] at hbusy
      exact ⟨hrunning, Multiset.forall_mem_cons.mpr ⟨rfl, hbusy.2⟩, hshutdown⟩
    | passed hrunning =>
      have hran : s.main.ran = true := by
        rw [← Bool.not_eq_false]
        intro hran
        exact absurd (hrunning.symm.trans (hs.ran hran).1) (by simp)
      exact hs.of_move hstops rfl hran id hs.isShutdown (by simp)
    | store =>
      exact hs.of_move hstops rfl (hs.ran_of_busy hmem rfl) (fun _ ↦ rfl) (fun _ ↦ rfl) fun _ ↦ rfl
    | tryCancel | shutdown | join hexited =>
      have hrunning := hs.stored _ hmem (by simp)
      exact hs.of_move hstops rfl (hs.ran_of_busy hmem rfl) id (fun _ ↦ hrunning) fun _ ↦ hrunning

/-- No read or write has been started after the shutdown, and none is about to be. -/
structure State.Quiet (s : State) : Prop where
  stopped : s.control.Stopped
  late : s.NothingLate
  nothing : s.cq.isShutdown = true → s.startsNothing = true

theorem quiet_init : State.init.Quiet where
  stopped := stopped_init
  late op h := by simp [State.init, CompletionQueue.empty] at h
  nothing _ := rfl

/-- A step that starts nothing. -/
theorem State.Quiet.of_late (hs : s.Quiet) (ht : t.control.Stopped) (hlate : t.cq.late = s.cq.late)
    (hnothing : t.cq.isShutdown = true → t.startsNothing = true) : t.Quiet :=
  ⟨ht, fun op hop ↦ hs.late op (hlate ▸ hop), hnothing⟩

/-- A step that starts nothing, after which neither thread is about to start anything unless it was
before. -/
theorem State.Quiet.of_threads (hs : s.Quiet) (ht : t.control.Stopped)
    (hcq : t.cq.late = s.cq.late ∧ t.cq.isShutdown = s.cq.isShutdown)
    (hcallback : s.callback.startsNothing = true → t.callback.startsNothing = true)
    (hmain : s.main.startsNothing = true → t.main.startsNothing = true) : t.Quiet := by
  refine hs.of_late ht hcq.1 fun h ↦ ?_
  obtain ⟨hc, hm⟩ := Bool.and_eq_true_iff.mp (hs.nothing (hcq.2 ▸ h))
  exact Bool.and_eq_true_iff.mpr ⟨hcallback hc, hmain hm⟩

/-- A call of `stop` makes a step. -/
theorem State.Quiet.of_stop (hs : s.Quiet) (ht : t.control.Stopped) {pc pc' : StopPc} {u : State}
    (hstop : s.stop pc = some (pc', u)) (hcq : t.cq = u.cq)
    (hstarts : s.startsNothing = true → t.startsNothing = true)
    (hC : pc = .shutdown → s.startsNothing = true) : t.Quiet := by
  cases effect_of_stop hstop with
  | refused hrunning | passed hrunning =>
    exact hs.of_late ht (by rw [hcq]) fun h ↦ hstarts (hs.nothing (hcq ▸ h))
  | store | tryCancel | join hexited =>
    exact hs.of_late ht (by rw [hcq]) fun h ↦ hstarts (hs.nothing (hcq ▸ h))
  | shutdown => exact hs.of_late ht (by rw [hcq]; rfl) fun _ ↦ hstarts (hC rfl)

/-- Starting an operation before the shutdown records nothing. -/
theorem late_start {q : CompletionQueue Op} (hq : q.isShutdown = false) (op : Op) :
    (q.start op).late = q.late := CompletionQueue.late_startAll hq [op]

theorem dispatch_cq (s : State) (c : Completion Op) :
    (s.dispatch c).cq = if startsRead c then s.cq.start .read else s.cq := by
  obtain ⟨op, ok⟩ := c
  cases ok <;> cases op <;> rfl

/-- Every step that meets the condition starts no read or write after the shutdown. -/
theorem State.Quiet.step (hs : s.Quiet) (hC : stopsQuietly s a = true) (h : step s a = some t) :
    t.Quiet := by
  have ht := hs.stopped.step h
  obtain ⟨hshutdown, hnext⟩ := Bool.and_eq_true_iff.mp hC
  have hmoves : s.moves a = some .shutdown → s.startsNothing = true := fun h ↦ by
    simpa [h] using hshutdown
  cases effect_of_step h with
  | runTest hmain =>
    refine hs.of_threads ht ⟨rfl, rfl⟩ id fun _ ↦ ?_
    dsimp only
    split <;> rfl
  | runStore hmain | createThread hmain | destroy hmain =>
    exact hs.of_threads ht ⟨rfl, rfl⟩ (fun _ ↦ by first | rfl | assumption) fun _ ↦ rfl
  | runCall hmain =>
    refine ⟨ht, fun op hop ↦ ?_, fun h ↦ ?_⟩
    · simp only [CompletionQueue.start, CompletionQueue.attach] at hop
      split_ifs at hop
      · exact (List.mem_cons.mp hop).elim id (hs.late op)
      · exact hs.late op hop
    · exact Bool.and_eq_true_iff.mpr ⟨(Bool.and_eq_true_iff.mp (hs.nothing h)).1, rfl⟩
  | sendRequest hmain =>
    cases hrunning : s.running with
    | false =>
      rw [State.sendRequest, if_pos (by simp [hrunning])] at ht ⊢
      exact hs.of_threads ht ⟨rfl, rfl⟩ id id
    | true =>
      rw [State.sendRequest, if_neg (by simp [hrunning])] at ht ⊢
      exact hs.of_late ht rfl fun h ↦
        absurd (hrunning.symm.trans (hs.stopped.isShutdown h)) (by simp)
  | @write ctx hmain =>
    have hopen : s.cq.isShutdown = false := by
      rw [← Bool.not_eq_true]
      intro h
      have hnothing := (Bool.and_eq_true_iff.mp (hs.nothing h)).2
      simp [hmain, MainPc.startsNothing] at hnothing
    exact hs.of_late ht (late_start hopen _) fun h ↦ absurd (hopen.symm.trans h) (by simp)
  | destructorStop hmain hstop =>
    obtain ⟨-, hcallback, -⟩ := stop_frame hstop
    refine hs.of_stop ht hstop rfl (fun h ↦ ?_) fun hpc ↦ hmoves (by simp [State.moves, hmain, hpc])
    exact Bool.and_eq_true_iff.mpr ⟨hcallback ▸ (Bool.and_eq_true_iff.mp h).1, rfl⟩
  | signal => exact hs.of_late ht rfl hs.nothing
  | signalStop hsignal hstop =>
    obtain ⟨hmain, hcallback, -⟩ := stop_frame hstop
    refine hs.of_stop ht hstop rfl (fun h ↦ ?_) fun hpc ↦ hmoves (hpc ▸ hsignal)
    simpa only [State.startsNothing, hmain, hcallback] using h
  | complete hcq =>
    obtain ⟨-, rfl⟩ := CompletionQueue.complete_eq_some.mp hcq
    exact hs.of_threads ht ⟨rfl, rfl⟩ id id
  | callbackTest hcallback =>
    refine hs.of_threads ht ⟨rfl, rfl⟩ (fun _ ↦ ?_) id
    dsimp only
    split <;> rfl
  | @callbackNext c cq hcallback hcq =>
    obtain ⟨-, rfl⟩ := CompletionQueue.next_eq_some.mp hcq
    refine hs.of_late ht (by rw [State.record_cq]) fun h ↦ ?_
    rw [State.record_cq] at h
    have hread : startsRead c = false := by simpa [show s.cq.isShutdown = true from h] using hnext
    rw [State.startsNothing, State.record_callback, State.record_main]
    exact Bool.and_eq_true_iff.mpr ⟨by simp [CallbackPc.startsNothing, hread],
      (Bool.and_eq_true_iff.mp (hs.nothing h)).2⟩
  | callbackDrained hcallback _ | callbackStore hcallback =>
    exact hs.of_threads ht ⟨rfl, rfl⟩ (fun _ ↦ rfl) id
  | @callbackDispatch c hcallback =>
    have hcq := dispatch_cq s c
    have hnothing : (s.dispatch c).callback.startsNothing = true := by
      rw [State.dispatch_callback]
      split <;> rfl
    split_ifs at hcq with hread
    · have hopen : s.cq.isShutdown = false := by
        rw [← Bool.not_eq_true]
        intro h
        have hnothing := (Bool.and_eq_true_iff.mp (hs.nothing h)).1
        simp [hcallback, CallbackPc.startsNothing, hread] at hnothing
      refine hs.of_late ht (by rw [hcq, late_start hopen]) fun h ↦ ?_
      rw [hcq, CompletionQueue.isShutdown_start, hopen] at h
      exact absurd h (by simp)
    · refine hs.of_threads ht (by rw [hcq]; exact ⟨rfl, rfl⟩) (fun _ ↦ hnothing) fun h ↦ ?_
      rwa [State.dispatch_main]

end Stopped

/-- If nothing is about to be started when `cq_` is shut down, no read and no write is started
afterwards. Whenever the condition fails, `not_nothingLate_of_busy` starts one in the next step. -/
theorem nothingLate_of_run {s : State} {as : List Action} (h : run step .init as = some s)
    (hC : Along step (stopsQuietly · · = true) .init as) : s.NothingLate :=
  (run_invariant_along (P := State.Quiet) (fun _ _ _ hs ha h ↦ hs.step ha h) hC h quiet_init).late

theorem nothingLate_of_run_answered :
    ∃ s, run step .init answeredRun = some s ∧ s.NothingLate :=
  ⟨_, rfl, nothingLate_of_run (show run step .init answeredRun = some _ from rfl) (by decide)⟩

private theorem not_nothingLate_start {t : State} (op : Op) (hop : op ≠ .call)
    (hlate : t.cq.isShutdown = true) {u : State} (hu : u.cq = t.cq.start op) : ¬u.NothingLate := by
  intro h
  have hmem : op ∈ u.cq.late := by
    rw [hu, CompletionQueue.start, CompletionQueue.attach, hlate]
    exact List.mem_cons_self
  exact hop (h op hmem)

/-- What a thread is about to start after the shutdown it can start at once. -/
private theorem exists_late {t : State} (hlate : t.cq.isShutdown = true)
    (hbusy : t.startsNothing = false) : ∃ b u, step t b = some u ∧ ¬u.NothingLate := by
  rcases Bool.and_eq_false_iff.mp hbusy with hcallback | hmain
  · obtain ⟨c, hc, hread⟩ : ∃ c, t.callback = .got c ∧ startsRead c = true := by
      cases h : t.callback <;> simp_all [CallbackPc.startsNothing]
    refine ⟨.callbackDispatch, t.dispatch c, by simp [step, callbackStep, hc],
      not_nothingLate_start .read (by simp) hlate ?_⟩
    rw [dispatch_cq, if_pos hread]
  · obtain ⟨ctx, hctx⟩ : ∃ ctx, t.main = .sending ctx := by
      cases h : t.main <;> simp_all [MainPc.startsNothing]
    exact ⟨.write, { t with cq := t.cq.start (.write ctx), main := .ready },
      by simp [step, mainStep, hctx], not_nothingLate_start (.write ctx) (by simp) hlate rfl⟩

/-- If something is about to be started when `cq_` is shut down, it can be started at once. -/
theorem not_nothingLate_of_busy {s t : State} {a : Action} (h : step s a = some t)
    (hC : stopsQuietly s a = false) : ∃ b u, step t b = some u ∧ ¬u.NothingLate := by
  rcases Bool.and_eq_false_iff.mp hC with hshutdown | hnext
  · obtain ⟨hmoves, hbusy⟩ : s.moves a = some .shutdown ∧ s.startsNothing = false := by
      simpa using hshutdown
    cases effect_of_step h with
    | @destructorStop pc pc' u hmain hstop =>
      obtain rfl : pc = .shutdown := by simpa [State.moves, hmain] using hmoves
      cases effect_of_stop hstop with
      | shutdown =>
        refine exists_late rfl (Bool.and_eq_false_iff.mpr (Or.inl ?_))
        simpa [State.startsNothing, hmain, MainPc.startsNothing] using hbusy
    | @signalStop i pc pc' u hsignal hstop =>
      obtain rfl : pc = .shutdown := Option.some.inj (hsignal.symm.trans hmoves)
      cases effect_of_stop hstop with
      | shutdown => exact exists_late rfl hbusy
    | _ => simp [State.moves] at hmoves
  · cases effect_of_step h with
    | @callbackNext c cq hcallback hcq =>
      obtain ⟨hlate, hread⟩ : s.cq.isShutdown = true ∧ startsRead c = true := by
        simpa using hnext
      obtain ⟨-, rfl⟩ := CompletionQueue.next_eq_some.mp hcq
      refine exists_late (by rw [State.record_cq]; exact hlate)
        (Bool.and_eq_false_iff.mpr (Or.inl ?_))
      simp [CallbackPc.startsNothing, hread]
    | _ => simp at hnext

/-- `stop` is called while the callback thread handles the completion of the call. -/
def busyRun : List Action :=
  [.runTest, .runStore, .runCall, .createThread, .callbackTest, .complete .call true,
    .callbackNext ⟨.call, true⟩, .signal, .signalStop 0, .signalStop 0, .signalStop 0,
    .signalStop 0, .callbackDispatch]

/-- The callback thread starts a read after the shutdown. -/
theorem not_nothingLate_of_run : ¬∀ (s : State) (as : List Action),
    run step .init as = some s → s.NothingLate := by
  intro hnothing
  obtain ⟨s, hrun, hlate⟩ : ∃ s, run step .init busyRun = some s ∧ s.cq.late = [.read] :=
    ⟨_, rfl, rfl⟩
  have hread := hnothing s busyRun hrun .read (by simp [hlate])
  exact absurd hread (by simp)

/-! ### The client is torn down once -/

/-- When the `stop` of the destructor has returned, `cq_` has been shut down and the callback thread
joined, once each. -/
def State.TornDownOnce (s : State) : Prop :=
  s.main = .destructor .returned → s.shutdowns = 1 ∧ s.joins = 1

/-- A call of `stop` passes its test only if no other is between its test and its store; that of the
destructor finds `running_` false only when the others have returned; and the callback thread
leaves only when `running_` is false or a call of `stop` is about to store. -/
def stopsOnce (s : State) (a : Action) : Bool :=
  match a with
  | .callbackStore => !s.running || decide (.store ∈ s.stops)
  | .destructorStop =>
    !(s.moves .destructorStop = some .test) ||
      if s.running then decide (.store ∉ s.stops) else decide (∀ pc ∈ s.stops, pc.busy = false)
  | a => !(s.moves a = some .test && s.running) || decide (.store ∉ s.stops)

/-- The stages of the teardown: before `run` has stored `running_`, before anybody has stopped the
client, the steps of the one call that does, and after it. -/
inductive TeardownStage : (running ran : Bool) → Option StopPc → (shutdowns joins : Nat) → Prop
  | fresh : TeardownStage false false none 0 0
  | serving : TeardownStage true true none 0 0
  | passed {running : Bool} : TeardownStage running true (some .store) 0 0
  | cancelling : TeardownStage false true (some .tryCancel) 0 0
  | shutting : TeardownStage false true (some .shutdown) 0 0
  | joining : TeardownStage false true (some .join) 1 0
  | done : TeardownStage false true none 1 1

namespace TeardownStage

variable {running ran : Bool} {sole : Option StopPc} {shutdowns joins : Nat}

theorem running_of_fresh (h : TeardownStage running false sole shutdowns joins) :
    running = false := by
  cases h; rfl

theorem run (h : TeardownStage running false sole shutdowns joins) :
    TeardownStage true true sole shutdowns joins := by
  cases h; exact .serving

theorem exit (h : TeardownStage running ran sole shutdowns joins)
    (hsole : running = true → sole = some .store) :
    TeardownStage false ran sole shutdowns joins := by
  cases h with
  | fresh => exact .fresh
  | serving => exact absurd (hsole rfl) (by simp)
  | passed => exact .passed
  | cancelling => exact .cancelling
  | shutting => exact .shutting
  | joining => exact .joining
  | done => exact .done

theorem pass (h : TeardownStage true ran sole shutdowns joins) (hsole : sole ≠ some .store) :
    sole = none ∧ TeardownStage true ran (some .store) shutdowns joins := by
  cases h with
  | serving => exact ⟨rfl, .passed⟩
  | passed => exact absurd rfl hsole

theorem store (h : TeardownStage running ran (some .store) shutdowns joins) :
    TeardownStage false ran (some .tryCancel) shutdowns joins := by
  cases h; exact .cancelling

theorem tryCancel (h : TeardownStage running ran (some .tryCancel) shutdowns joins) :
    TeardownStage running ran (some .shutdown) shutdowns joins := by
  cases h; exact .shutting

theorem shutdown (h : TeardownStage running ran (some .shutdown) shutdowns joins) :
    TeardownStage running ran (some .join) (shutdowns + 1) joins := by
  cases h; exact .joining

theorem join (h : TeardownStage running ran (some .join) shutdowns joins) :
    TeardownStage running ran none shutdowns (joins + 1) := by
  cases h; exact .done

theorem once_of_join (h : TeardownStage running ran (some .join) shutdowns joins) :
    shutdowns = 1 ∧ joins + 1 = 1 := by
  cases h; exact ⟨rfl, rfl⟩

/-- After `run`, with `running_` false and no call of `stop` busy, the teardown is done. -/
theorem once (h : TeardownStage false true none shutdowns joins) : shutdowns = 1 ∧ joins = 1 := by
  cases h; exact ⟨rfl, rfl⟩

/-- When the teardown is done, `running_` is false and no call of `stop` is busy. -/
theorem of_once (h : TeardownStage running ran sole shutdowns joins)
    (honce : shutdowns = 1 ∧ joins = 1) : running = false ∧ sole = none := by
  cases h with
  | done => exact ⟨rfl, rfl⟩
  | fresh | serving | passed | cancelling | shutting | joining => simp at honce

end TeardownStage

/-- The teardown is in one of its stages, and at most one call of `stop` is busy. -/
def Control.Teardown (c : Control) : Prop :=
  ∃ sole : Option StopPc, Sole StopPc.busy c.stops sole ∧
    TeardownStage c.running c.ran sole c.shutdowns c.joins

section Teardown

variable {s t : State} {a : Action}

theorem teardown_init : State.init.control.Teardown := ⟨none, rfl, .fresh⟩

theorem Control.Teardown.created (hs : s.control.Teardown) (hmain : s.main = .created) :
    s.running = false := by
  obtain ⟨sole, -, hstage⟩ := hs
  have hran : s.control.ran = false := by rw [State.control, hmain]; rfl
  exact (hran ▸ hstage).running_of_fresh

/-- A call of `stop` that is busy is the only one. -/
theorem Control.Teardown.of_busy {c : Control} (hc : c.Teardown) {pc : StopPc}
    {rest : Multiset StopPc} (hstops : c.stops = pc ::ₘ rest) (hpc : pc.busy = true) :
    Sole StopPc.busy rest none ∧
      TeardownStage c.running c.ran (some pc) c.shutdowns c.joins := by
  obtain ⟨sole, hsole, hstage⟩ := hc
  obtain ⟨rfl, hrest⟩ := (hstops ▸ hsole).of_cons hpc
  exact ⟨hrest, hstage⟩

/-- The condition at a call of `stop` that passes its test. -/
theorem store_not_mem (hC : stopsOnce s a = true) (hmoves : s.moves a = some .test)
    (hrunning : s.running = true) : .store ∉ s.stops := by
  cases a <;> simp_all [stopsOnce, State.moves]

/-- Every step that meets the condition leads from one stage to one of them. -/
theorem Control.Teardown.step (hs : s.control.Teardown) (hC : stopsOnce s a = true)
    (h : step s a = some t) : t.control.Teardown := by
  have hstep := control_of_step hs.created h
  generalize t.control = c at hstep
  cases hstep with
  | frame => exact hs
  | run hran =>
    obtain ⟨sole, hsole, hstage⟩ := hs
    rw [show s.control.ran = false from hran] at hstage
    exact ⟨sole, hsole, hstage.run⟩
  | call =>
    obtain ⟨sole, hsole, hstage⟩ := hs
    exact ⟨sole, (sole_cons_of_idle rfl).mpr hsole, hstage⟩
  | exit =>
    obtain ⟨sole, hsole, hstage⟩ := hs
    refine ⟨sole, hsole, hstage.exit fun hrunning ↦ ?_⟩
    have hstore : .store ∈ s.stops := by
      simpa [stopsOnce, show s.running = true from hrunning] using hC
    exact hsole.of_mem hstore rfl
  | @move a pc pc' rest u hmoves hstops heffect =>
    cases heffect with
    | refused hrunning =>
      obtain ⟨sole, hsole, hstage⟩ := hs
      rw [show s.control.stops = .test ::ₘ rest from hstops, sole_cons_of_idle rfl] at hsole
      exact ⟨sole, (sole_cons_of_idle rfl).mpr hsole, hstage⟩
    | passed hrunning =>
      obtain ⟨sole, hsole, hstage⟩ := hs
      have hstore : sole ≠ some .store := by
        rintro rfl
        exact store_not_mem hC hmoves hrunning hsole.mem
      rw [show s.control.running = true from hrunning] at hstage
      obtain ⟨rfl, hpass⟩ := hstage.pass hstore
      rw [show s.control.stops = .test ::ₘ rest from hstops, sole_cons_of_idle rfl] at hsole
      refine ⟨some .store, hsole.cons rfl, ?_⟩
      rw [hrunning]
      exact hpass
    | store =>
      obtain ⟨hrest, hstage⟩ := hs.of_busy hstops rfl
      exact ⟨_, hrest.cons rfl, hstage.store⟩
    | tryCancel =>
      obtain ⟨hrest, hstage⟩ := hs.of_busy hstops rfl
      exact ⟨_, hrest.cons rfl, hstage.tryCancel⟩
    | shutdown =>
      obtain ⟨hrest, hstage⟩ := hs.of_busy hstops rfl
      exact ⟨_, hrest.cons rfl, hstage.shutdown⟩
    | join hexited =>
      obtain ⟨hrest, hstage⟩ := hs.of_busy hstops rfl
      exact ⟨_, (sole_cons_of_idle rfl).mpr hrest, hstage.join⟩

/-- A client that has been torn down stays so. -/
theorem Control.Teardown.once_step (hs : s.control.Teardown) (honce : s.shutdowns = 1 ∧ s.joins = 1)
    (h : ClientAsync2.step s a = some t) : t.shutdowns = 1 ∧ t.joins = 1 := by
  have hstep := control_of_step hs.created h
  change t.control.shutdowns = 1 ∧ t.control.joins = 1
  generalize t.control = c at hstep
  obtain ⟨sole, hsole, hstage⟩ := hs
  obtain ⟨hrunning, rfl⟩ := hstage.of_once honce
  cases hstep with
  | frame | run | call | exit => exact honce
  | @move a pc pc' rest u hmoves hstops heffect =>
    have hmem : pc ∈ s.stops := hstops ▸ Multiset.mem_cons_self pc rest
    have hidle : pc.busy = false := sole_none.mp hsole pc hmem
    cases heffect with
    | refused | passed => exact honce
    | store | tryCancel | shutdown | join => simp [StopPc.busy] at hidle

/-- Every step that meets the condition keeps the promise of the destructor. -/
theorem State.TornDownOnce.step (hs : s.control.Teardown) (honce : s.TornDownOnce)
    (hC : stopsOnce s a = true) (h : step s a = some t) : t.TornDownOnce := by
  intro hmain
  by_cases hreturned : s.main = .destructor .returned
  · exact hs.once_step (honce hreturned) h
  cases effect_of_step h with
  | @destructorStop pc pc' u hmain' hstop =>
    obtain rfl : pc' = .returned := by simpa using hmain
    obtain ⟨rest, hstops, -⟩ := stops_destructorStop hmain' hstop
    cases effect_of_stop hstop with
    | refused hrunning =>
      obtain ⟨sole, hsole, hstage⟩ := hs
      have hnone : Sole StopPc.busy s.stops none := by
        rw [sole_none]
        simpa [stopsOnce, State.moves, hmain', hrunning] using hC
      have hran : s.control.ran = true := by rw [State.control, hmain']; rfl
      rw [show s.control.running = false from hrunning, hran] at hstage
      cases sole with
      | none => exact hstage.once
      | some pc => exact absurd (Eq.trans hsole.symm hnone) (by simp)
    | join hexited => exact (hs.of_busy hstops rfl).2.once_of_join
  | runTest =>
    dsimp only at hmain
    split at hmain <;> simp at hmain
  | sendRequest =>
    unfold State.sendRequest at hmain
    split at hmain
    · exact absurd hmain hreturned
    · simp at hmain
  | runStore | runCall | createThread | write | destroy => simp at hmain
  | signalStop hsignal hstop => exact absurd ((stop_frame hstop).1.symm.trans hmain) hreturned
  | callbackNext => exact absurd ((State.record_main ..).symm.trans hmain) hreturned
  | callbackDispatch => exact absurd ((State.dispatch_main ..).symm.trans hmain) hreturned
  | signal | complete | callbackTest | callbackDrained | callbackStore =>
    exact absurd hmain hreturned

end Teardown

/-- If one call of `stop` passes its test and the others wait for it, the client is torn down once
when the destructor has returned. -/
theorem tornDownOnce_of_run {s : State} {as : List Action} (h : run step .init as = some s)
    (hC : Along step (stopsOnce · · = true) .init as) : s.TornDownOnce := by
  have hinv : s.control.Teardown ∧ s.TornDownOnce :=
    run_invariant_along (P := fun s ↦ s.control.Teardown ∧ s.TornDownOnce)
      (fun s a t hs ha h ↦ ⟨hs.1.step ha h, hs.2.step hs.1 ha h⟩) hC h
      ⟨teardown_init, fun h ↦ by simp [State.init] at h⟩
  exact hinv.2

theorem tornDownOnce_of_run_answered :
    ∃ s, run step .init answeredRun = some s ∧ s.TornDownOnce :=
  ⟨_, rfl, tornDownOnce_of_run (show run step .init answeredRun = some _ from rfl) (by decide)⟩

/-- The session closes, the callback thread leaves, and the client is destroyed. -/
def abandonedRun : List Action :=
  [.runTest, .runStore, .runCall, .createThread, .callbackTest, .complete .call false,
    .callbackNext ⟨.call, false⟩, .callbackDispatch, .callbackStore, .destroy, .destructorStop]

/-- The destructor shuts nothing down and joins nothing. -/
theorem not_tornDownOnce_of_run : ¬∀ (s : State) (as : List Action),
    run step .init as = some s → s.TornDownOnce := by
  intro honce
  obtain ⟨s, hrun, hmain, hshutdowns⟩ : ∃ s, run step .init abandonedRun = some s ∧
      s.main = .destructor .returned ∧ s.shutdowns = 0 := ⟨_, rfl, rfl, rfl⟩
  exact absurd (hshutdowns.symm.trans (honce s abandonedRun hrun hmain).1) (by simp)

end CppDemo.Grpc.ClientAsync2
