import CppDemo.Grpc.ClientAsync2.Client

/-!
# The callbacks of requests

A request that passes the test of `running_` becomes a write, the completion of the write is taken
out of `cq_`, and its callback is invoked and its context deleted. The loop of the callback thread
breaks on the first completion that is not ok, before it looks at the tag, and it ends when
`running_` is false; in neither case does it wait for the writes that are outstanding. Their
callbacks are never invoked. When the loop is only left with no write outstanding, no write
completes with a failure, and no request passes its test after the loop, every callback is invoked
exactly once.

Source: `grpcdemo/client_async2.cpp`, lines 36–94.

## Main definitions

* `State.CallbackContract` : what `sendRequest` promises.
* `leavesClean` : the condition on the steps.

## Main results

* `callbackContract_of_run` : the contract holds in every run whose steps meet the condition.
-/

namespace CppDemo.Grpc.ClientAsync2

open Transition

/-- The callback of every request whose tag has been returned has been invoked once and its context
deleted, unless the callback thread is about to do so; and behind the thread every callback has been
invoked once. -/
structure State.CallbackContract (s : State) : Prop where
  returned : ∀ i r ok, s.requests[i]? = some r → r.returned = some ok →
    s.callback = .got ⟨.write i, ok⟩ ∨ r.results = [if ok then 0 else -1] ∧ r.freed = 1
  exited : s.callback = .exited → ∀ r ∈ s.requests,
    r.running = false ∧ r.results = [-2] ∨
      r.running = true ∧ ∃ ok, r.returned = some ok ∧ r.results = [if ok then 0 else -1]

/-- No write is outstanding, and none is about to be started. -/
def State.noneOutstanding (s : State) : Bool :=
  s.cq.inFlight.all (·.tag.isNone) && s.cq.posted.all (·.op.tag.isNone) &&
    match s.main with
    | .sending _ => false
    | _ => true

/-- No write completes with a failure, the callback thread leaves its loop only when no write is
outstanding, and no request passes its test when the thread has left its loop. -/
def leavesClean (s : State) : Action → Bool
  | .callbackNext c => c.op.tag.isNone || c.ok
  | .callbackTest => s.running || s.noneOutstanding
  | .callbackDrained => s.noneOutstanding
  | .callbackDispatch =>
    match s.callback with
    | .got c => c.ok || s.noneOutstanding
    | _ => true
  | .sendRequest => !s.running || s.callback ≠ .left
  | _ => true

/-! ### The stages of a request -/

/-- The main thread is about to start the write of request `i`. -/
def MainPc.sends : MainPc → Nat → Bool
  | .sending ctx, i => ctx = i
  | _, _ => false

/-- The flag with which the callback thread holds the tag of request `i`. -/
def CallbackPc.holds : CallbackPc → Nat → Option Bool
  | .got ⟨.write ctx, ok⟩, i => if ctx = i then some ok else none
  | _, _ => none

/-- The callback thread has left its loop. -/
def CallbackPc.behindLoop : CallbackPc → Bool
  | .left => true
  | .exited => true
  | _ => false

/-- Where request `i` is: about to be sent, outstanding, held by the callback thread; and whether
the callback thread has left its loop. -/
@[ext]
structure View where
  sends : Bool
  writes : Nat
  holds : Option Bool
  behindLoop : Bool

def State.view (s : State) (i : Nat) : View where
  sends := s.main.sends i
  writes := s.cq.ops.count (.write i)
  holds := s.callback.holds i
  behindLoop := s.callback.behindLoop

/-- The stages of a request. -/
inductive Stage : View → Request → Prop
  | refused {behindLoop : Bool} : Stage ⟨false, 0, none, behindLoop⟩ ⟨false, [-2], 0, none⟩
  | sending : Stage ⟨true, 0, none, false⟩ ⟨true, [], 0, none⟩
  | outstanding : Stage ⟨false, 1, none, false⟩ ⟨true, [], 0, none⟩
  | held : Stage ⟨false, 0, some true, false⟩ ⟨true, [], 0, some true⟩
  | finished {behindLoop : Bool} : Stage ⟨false, 0, none, behindLoop⟩ ⟨true, [0], 1, some true⟩

/-- Every request is in one of the stages, and there is no trace of other requests. -/
structure State.Inv (s : State) : Prop where
  request : ∀ i r, s.requests[i]? = some r → Stage (s.view i) r
  fresh : ∀ i, s.requests.length ≤ i → s.view i = ⟨false, 0, none, s.callback.behindLoop⟩

/-- The main thread has not yet created the callback thread. -/
def MainPc.beforeThread : MainPc → Bool
  | .created => true
  | .runStore => true
  | .runCall => true
  | .createThread => true
  | _ => false

/-- The callback thread is started once, and `running_` is false when it has exited. -/
structure State.Threads (s : State) : Prop where
  notStarted : s.main.beforeThread = true → s.callback = .notStarted
  exited : s.callback = .exited → s.running = false

theorem State.inv_init : State.init.Inv where
  request i r h := by simp [State.init] at h
  fresh i _ := rfl

theorem State.threads_init : State.init.Threads where
  notStarted _ := rfl
  exited h := by simp [State.init] at h

/-! ### What a step does -/

section Step

variable {s t : State} {a : Action}

theorem holds_eq_some {pc : CallbackPc} {i : Nat} {ok : Bool} (h : pc.holds i = some ok) :
    pc = .got ⟨.write i, ok⟩ := by
  unfold CallbackPc.holds at h
  split at h
  · split_ifs at h with hctx
    rw [hctx, Option.some.inj h]
  · simp at h

theorem noneOutstanding_iff : s.noneOutstanding = true ↔
    (∀ ctx, .write ctx ∉ s.cq.ops) ∧ ∀ ctx, s.main.sends ctx = false := by
  have hmain : (match s.main with | .sending _ => false | _ => true) = true ↔
      ∀ ctx, s.main.sends ctx = false := by
    cases s.main <;> simp [MainPc.sends]
  have hops : (∀ op ∈ s.cq.ops, op.tag.isNone = true) ↔ ∀ ctx, .write ctx ∉ s.cq.ops := by
    constructor
    · intro h ctx hmem
      simpa [Op.tag] using h _ hmem
    · intro h op hmem
      cases op with
      | call | read => rfl
      | write ctx => exact absurd hmem (h ctx)
  rw [← hops, ← hmain, State.noneOutstanding, Bool.and_eq_true, Bool.and_eq_true, List.all_eq_true,
    List.all_eq_true]
  refine and_congr_left fun _ ↦ ⟨fun ⟨hflight, hposted⟩ op hop ↦ ?_, fun h ↦ ⟨fun op hop ↦ ?_,
    fun c hc ↦ ?_⟩⟩
  · rcases CompletionQueue.mem_ops.mp hop with hop | ⟨c, hc, rfl⟩
    · exact hflight op hop
    · exact hposted c hc
  · exact h op (CompletionQueue.mem_ops.mpr (Or.inl hop))
  · exact h c.op (CompletionQueue.mem_ops.mpr (Or.inr ⟨c, hc, rfl⟩))

/-- A step that no request sees keeps the stages. -/
theorem State.Inv.of_view (hs : s.Inv) (hrequests : t.requests = s.requests)
    (hview : ∀ i, t.view i = s.view i) : t.Inv where
  request i r h := by
    rw [hview]
    exact hs.request i r (hrequests ▸ h)
  fresh i h := by
    rw [hview, hs.fresh i (hrequests ▸ h)]
    have hbehind := congrArg View.behindLoop (hview i)
    exact View.ext rfl rfl rfl hbehind.symm

/-- A step that one request sees takes that request to another stage. -/
theorem State.Inv.of_modify (hs : s.Inv) {ctx : Nat} {f : Request → Request}
    (hrequests : t.requests = s.requests.modify ctx f) (hctx : ctx < s.requests.length)
    (hview : ∀ i, i ≠ ctx → t.view i = s.view i)
    (hbehind : t.callback.behindLoop = s.callback.behindLoop)
    (hstage : ∀ r, Stage (s.view ctx) r → Stage (t.view ctx) (f r)) : t.Inv where
  request i r h := by
    rw [hrequests, List.getElem?_modify] at h
    by_cases hi : ctx = i
    · subst hi
      obtain ⟨r₀, hr₀, rfl⟩ := Option.map_eq_some_iff.mp (by simpa using h)
      exact hstage r₀ (hs.request _ r₀ hr₀)
    · rw [hview i (Ne.symm hi)]
      exact hs.request i r (by simpa [hi] using h)
  fresh i h := by
    rw [hrequests, List.length_modify] at h
    rw [hview i (by omega), hs.fresh i h, hbehind]

/-- A step that makes a request. -/
theorem State.Inv.of_append (hs : s.Inv) {r : Request}
    (hrequests : t.requests = s.requests ++ [r])
    (hview : ∀ i, i ≠ s.requests.length → t.view i = s.view i)
    (hbehind : t.callback.behindLoop = s.callback.behindLoop)
    (hstage : Stage (t.view s.requests.length) r) : t.Inv where
  request i r' h := by
    rw [hrequests] at h
    by_cases hi : i = s.requests.length
    · subst hi
      obtain rfl : r = r' := by simpa using h
      exact hstage
    · rw [hview i hi]
      rw [List.getElem?_append] at h
      split_ifs at h with hlt
      · exact hs.request i r' h
      · have hzero : ¬i - s.requests.length = 0 := by omega
        simp [hzero] at h
  fresh i h := by
    rw [hrequests, List.length_append, List.length_singleton] at h
    rw [hview i (by omega), hs.fresh i (by omega), hbehind]

/-- The callback thread leaves its loop with nothing outstanding. -/
theorem State.Inv.leave (hs : s.Inv) (hnone : s.noneOutstanding = true)
    (hholds : ∀ i, s.callback.holds i ≠ some true) : { s with callback := .left }.Inv := by
  obtain ⟨hops, hmain⟩ := noneOutstanding_iff.mp hnone
  have hview : ∀ i, { s with callback := .left }.view i = ⟨false, 0, none, true⟩ := fun i ↦
    View.ext (hmain i) (Multiset.count_eq_zero.mpr (hops i)) rfl rfl
  refine ⟨fun i r h ↦ ?_, fun i _ ↦ hview i⟩
  rw [hview]
  have hstage := hs.request i r h
  have hsends : (s.view i).sends = false := hmain i
  have hwrites : (s.view i).writes = 0 := Multiset.count_eq_zero.mpr (hops i)
  have hholds : (s.view i).holds ≠ some true := hholds i
  generalize s.view i = view at hstage hsends hwrites hholds
  cases hstage with
  | refused => exact .refused
  | sending => exact absurd hsends (by simp)
  | outstanding => exact absurd hwrites (by simp)
  | held => exact absurd rfl hholds
  | finished => exact .finished

/-- A request that some thread or queue knows of exists. -/
theorem State.Inv.lt_length (hs : s.Inv) {i : Nat}
    (h : s.view i ≠ ⟨false, 0, none, s.callback.behindLoop⟩) : i < s.requests.length := by
  by_contra hle
  exact h (hs.fresh i (not_lt.mp hle))

/-! ### The steps -/

theorem State.Inv.sendRequest (hs : s.Inv) (hmain : s.main = .created ∨ s.main = .ready)
    (hleft : s.running = true → s.callback.behindLoop = false) : s.sendRequest.Inv := by
  have hsends : ∀ i, s.main.sends i = false := by
    rcases hmain with h | h <;> simp [h, MainPc.sends]
  have hfresh := hs.fresh s.requests.length le_rfl
  cases hrunning : s.running with
  | false =>
    have heq : s.sendRequest =
        { s with requests := s.requests ++ [Request.cb { running := false } (-2)] } := by
      simp only [State.sendRequest, hrunning, Bool.not_false, ↓reduceIte]
    rw [heq]
    refine hs.of_append rfl (fun i _ ↦ rfl) rfl ?_
    exact (show s.view s.requests.length = _ from hfresh) ▸ Stage.refused
  | true =>
    have heq : s.sendRequest = { s with
        requests := s.requests ++ [{ running := true }], main := .sending s.requests.length } := by
      simp only [State.sendRequest, hrunning, Bool.not_true, Bool.false_eq_true, ↓reduceIte]
    rw [heq]
    refine hs.of_append rfl (fun i hi ↦ View.ext ?_ rfl rfl rfl) rfl ?_
    · exact (decide_eq_false (Ne.symm hi)).trans (hsends i).symm
    · have hwrites : s.cq.ops.count (.write s.requests.length) = 0 := congrArg View.writes hfresh
      have hholds : s.callback.holds s.requests.length = none := congrArg View.holds hfresh
      have hview : ({ s with
          requests := s.requests ++ [{ running := true }],
          main := .sending s.requests.length } : State).view s.requests.length =
            ⟨true, 0, none, false⟩ :=
        View.ext (decide_eq_true rfl) hwrites hholds (hleft hrunning)
      rw [hview]
      exact .sending

theorem State.Inv.write (hs : s.Inv) {ctx : Nat} (hmain : s.main = .sending ctx) :
    { s with cq := s.cq.start (.write ctx), main := .ready }.Inv := by
  have hsends : (s.view ctx).sends = true := by simp [State.view, hmain, MainPc.sends]
  have hctx : ctx < s.requests.length := hs.lt_length fun h ↦ by simp [h] at hsends
  refine hs.of_modify (f := id) (List.modify_id ..).symm hctx
    (fun i hi ↦ View.ext ?_ ?_ rfl rfl) rfl fun r hstage ↦ ?_
  · simp [State.view, hmain, MainPc.sends, Ne.symm hi]
  · simp [State.view, hi]
  · have hview : ({ s with cq := s.cq.start (.write ctx), main := .ready } : State).view ctx =
        { s.view ctx with sends := false, writes := (s.view ctx).writes + 1 } :=
      View.ext rfl (by simp [State.view]) rfl rfl
    rw [hview]
    generalize s.view ctx = view at hstage hsends
    cases hstage with
    | sending => exact .outstanding
    | refused | outstanding | held | finished => simp at hsends

theorem State.Inv.callbackNext (hs : s.Inv) {c : Completion Op} {cq : CompletionQueue Op}
    (hcallback : s.callback = .next) (hcq : s.cq.next c = some cq)
    (hok : c.op.tag.isNone = true ∨ c.ok = true) :
    ({ s with cq := cq, callback := .got c }.record c).Inv := by
  have hops := CompletionQueue.ops_next hcq
  obtain ⟨op, ok⟩ := c
  cases op with
  | call | read =>
    refine hs.of_view rfl fun i ↦ View.ext rfl ?_ ?_ ?_
    · simp [State.view, State.record, Op.tag, hops]
    · simp [State.view, State.record, Op.tag, hcallback, CallbackPc.holds]
    · simp [State.view, State.record, Op.tag, hcallback, CallbackPc.behindLoop]
  | write ctx =>
    obtain rfl : ok = true := by simpa [Op.tag] using hok
    have hwrites : (s.view ctx).writes = cq.ops.count (.write ctx) + 1 := by
      simp [State.view, hops]
    have hctx : ctx < s.requests.length := hs.lt_length fun h ↦ by simp [h] at hwrites
    refine hs.of_modify rfl hctx (fun i hi ↦ View.ext rfl ?_ ?_ ?_) ?_ fun r hstage ↦ ?_
    · simp [State.view, State.record, Op.tag, hops, hi]
    · simp [State.view, State.record, Op.tag, hcallback, CallbackPc.holds, Ne.symm hi]
    · simp [State.view, State.record, Op.tag, hcallback, CallbackPc.behindLoop]
    · simp [State.record, Op.tag, hcallback, CallbackPc.behindLoop]
    · have hview : ({ s with cq := cq, callback := .got ⟨.write ctx, true⟩ }.record
          ⟨.write ctx, true⟩).view ctx = ⟨(s.view ctx).sends, (s.view ctx).writes - 1, some true,
            (s.view ctx).behindLoop⟩ := by
        rw [hwrites]
        refine View.ext rfl rfl ?_ ?_
        · simp [State.view, State.record, Op.tag, CallbackPc.holds]
        · simp [State.view, State.record, Op.tag, hcallback, CallbackPc.behindLoop]
      rw [hview]
      generalize s.view ctx = view at hstage hwrites
      cases hstage with
      | outstanding => exact .held
      | refused | sending | held | finished => simp at hwrites

/-- The callback of a request whose write has succeeded is invoked and its context deleted. -/
theorem State.Inv.dispatch (hs : s.Inv) {op : Op} (hcallback : s.callback = .got ⟨op, true⟩) :
    (s.dispatch ⟨op, true⟩).Inv := by
  cases op with
  | call | read =>
    refine hs.of_view rfl fun i ↦ View.ext rfl ?_ ?_ ?_
    · simp [State.view, State.dispatch, State.readNextNotify, Op.tag]
    · simp [State.view, State.dispatch, State.readNextNotify, Op.tag, hcallback, CallbackPc.holds]
    · simp [State.view, State.dispatch, State.readNextNotify, Op.tag, hcallback,
        CallbackPc.behindLoop]
  | write ctx =>
    have hholds : (s.view ctx).holds = some true := by
      simp [State.view, hcallback, CallbackPc.holds]
    have hctx : ctx < s.requests.length := hs.lt_length fun h ↦ by simp [h] at hholds
    refine hs.of_modify rfl hctx (fun i hi ↦ View.ext rfl rfl ?_ ?_) ?_ fun r hstage ↦ ?_
    · simp [State.view, State.dispatch, Op.tag, hcallback, CallbackPc.holds, Ne.symm hi]
    · simp [State.view, State.dispatch, Op.tag, hcallback, CallbackPc.behindLoop]
    · simp [State.dispatch, Op.tag, hcallback, CallbackPc.behindLoop]
    · have hview : (s.dispatch ⟨.write ctx, true⟩).view ctx =
          { s.view ctx with holds := none } := by
        refine View.ext rfl rfl ?_ ?_
        · simp [State.view, State.dispatch, Op.tag, CallbackPc.holds]
        · simp [State.view, State.dispatch, Op.tag, hcallback, CallbackPc.behindLoop]
      rw [hview]
      generalize s.view ctx = view at hstage hholds
      cases hstage with
      | held => exact .finished
      | refused | sending | outstanding | finished => simp at hholds

/-- A step of `stop` keeps the stages. -/
theorem State.Inv.of_stop (hs : s.Inv) {pc pc' : StopPc} {u : State}
    (h : s.stop pc = some (pc', u)) (hmain : ∀ i, t.main.sends i = s.main.sends i)
    (hcallback : t.callback = u.callback) (hcq : t.cq = u.cq)
    (hrequests : t.requests = u.requests) : t.Inv := by
  obtain ⟨-, hcallback', hrequests', hops, -⟩ := stop_frame h
  refine hs.of_view (hrequests.trans hrequests') fun i ↦ View.ext (hmain i) ?_ ?_ ?_
  · exact congrArg (Multiset.count _) (hcq ▸ hops)
  · exact congrArg (CallbackPc.holds · i) (hcallback.trans hcallback')
  · exact congrArg CallbackPc.behindLoop (hcallback.trans hcallback')

/-- Every step that meets the condition keeps the stages. -/
theorem State.Inv.step (hs : s.Inv) (ht : s.Threads) (hC : leavesClean s a = true)
    (h : step s a = some t) : t.Inv := by
  cases effect_of_step h with
  | runTest hmain =>
    refine hs.of_view rfl fun i ↦ View.ext ?_ rfl rfl rfl
    cases hrunning : s.running <;> simp [State.view, hmain, MainPc.sends]
  | runStore hmain | destroy hmain =>
    refine hs.of_view rfl fun i ↦ View.ext ?_ rfl rfl rfl
    simp [State.view, hmain, MainPc.sends]
  | runCall hmain =>
    refine hs.of_view rfl fun i ↦ View.ext ?_ ?_ rfl rfl
    · simp [State.view, hmain, MainPc.sends]
    · simp [State.view]
  | createThread hmain =>
    have hcallback := ht.notStarted (by rw [hmain]; rfl)
    refine hs.of_view rfl fun i ↦ View.ext ?_ rfl ?_ ?_
    · simp [State.view, hmain, MainPc.sends]
    · simp [State.view, hcallback, CallbackPc.holds]
    · simp [State.view, hcallback, CallbackPc.behindLoop]
  | sendRequest hmain =>
    refine hs.sendRequest hmain fun hrunning ↦ ?_
    have hleft : s.callback ≠ .left := by simpa [leavesClean, hrunning] using hC
    have hexited : s.callback ≠ .exited := fun hexit ↦ by simp [ht.exited hexit] at hrunning
    cases hcallback : s.callback with
    | left => exact absurd hcallback hleft
    | exited => exact absurd hcallback hexited
    | notStarted | test | next | got c => rfl
  | write hmain => exact hs.write hmain
  | destructorStop hmain hstop =>
    exact hs.of_stop hstop (fun i ↦ by simp [hmain, MainPc.sends]) rfl rfl rfl
  | signal => exact hs.of_view rfl fun _ ↦ rfl
  | signalStop hsignal hstop =>
    exact hs.of_stop hstop (fun i ↦ congrArg (MainPc.sends · i) (stop_frame hstop).1) rfl rfl rfl
  | complete hcq =>
    refine hs.of_view rfl fun i ↦ View.ext rfl ?_ rfl rfl
    exact congrArg (Multiset.count _) (CompletionQueue.ops_complete hcq)
  | callbackTest hcallback =>
    by_cases hrunning : s.running = true
    · rw [if_pos hrunning]
      refine hs.of_view rfl fun i ↦ View.ext rfl rfl ?_ ?_
      · simp [State.view, hcallback, CallbackPc.holds]
      · simp [State.view, hcallback, CallbackPc.behindLoop]
    · rw [if_neg hrunning]
      refine hs.leave ?_ fun i ↦ ?_
      · simpa [leavesClean, hrunning] using hC
      · simp [hcallback, CallbackPc.holds]
  | callbackNext hcallback hcq =>
    exact hs.callbackNext hcallback hcq (by simpa [leavesClean] using hC)
  | callbackDrained hcallback _ =>
    exact hs.leave hC fun i ↦ by simp [hcallback, CallbackPc.holds]
  | @callbackDispatch c hcallback =>
    obtain ⟨op, ok⟩ := c
    cases ok with
    | true => exact hs.dispatch hcallback
    | false =>
      refine hs.leave ?_ fun i hholds ↦ ?_
      · simpa [leavesClean, hcallback] using hC
      · simpa [hcallback] using holds_eq_some hholds
  | callbackStore hcallback =>
    refine hs.of_view rfl fun i ↦ View.ext rfl rfl ?_ ?_
    · simp [State.view, hcallback, CallbackPc.holds]
    · simp [State.view, hcallback, CallbackPc.behindLoop]

/-- A step that neither starts nor ends the callback thread nor stores `true`. -/
theorem State.Threads.of_frame (ht : s.Threads)
    (hmain : t.main.beforeThread = true → s.main.beforeThread = true)
    (hcallback : t.callback = s.callback) (hrunning : t.running = true → s.running = true) :
    t.Threads where
  notStarted h := hcallback.trans (ht.notStarted (hmain h))
  exited h := by
    have hfalse := ht.exited (hcallback.symm.trans h)
    exact Bool.eq_false_iff.mpr fun htrue ↦ by simp [hrunning htrue] at hfalse

/-- A step of the callback thread. -/
theorem State.Threads.of_callback (ht : s.Threads) (hmain : t.main = s.main)
    (hcallback : s.callback ≠ .notStarted) (hexited : t.callback = .exited → t.running = false) :
    t.Threads where
  notStarted h := absurd (ht.notStarted (hmain ▸ h)) hcallback
  exited := hexited

/-- Every step keeps the order of the threads. -/
theorem State.Threads.step (ht : s.Threads) (h : step s a = some t) : t.Threads := by
  cases effect_of_step h with
  | runTest hmain | runCall hmain =>
    exact ht.of_frame (fun _ ↦ by rw [hmain]; rfl) rfl id
  | runStore hmain =>
    have hcallback := ht.notStarted (by rw [hmain]; rfl)
    exact ⟨fun _ ↦ hcallback, fun hexited ↦ by simp [hcallback] at hexited⟩
  | createThread hmain =>
    exact ⟨fun hready ↦ by simp [MainPc.beforeThread] at hready, fun hexited ↦ by simp at hexited⟩
  | sendRequest hmain =>
    unfold State.sendRequest
    split_ifs
    · exact ht.of_frame id rfl id
    · exact ht.of_frame (fun hsending ↦ by simp [MainPc.beforeThread] at hsending) rfl id
  | write hmain | destroy hmain =>
    exact ht.of_frame (fun hlater ↦ by simp [MainPc.beforeThread] at hlater) rfl id
  | destructorStop hmain hstop =>
    obtain ⟨-, hcallback, -, -, hrunning⟩ := stop_frame hstop
    exact ht.of_frame (fun hlater ↦ by simp [MainPc.beforeThread] at hlater) hcallback hrunning
  | signalStop hsignal hstop =>
    obtain ⟨hmain, hcallback, -, -, hrunning⟩ := stop_frame hstop
    exact ht.of_frame (fun hbefore ↦ hmain ▸ hbefore) hcallback hrunning
  | signal | complete hcq => exact ht.of_frame id rfl id
  | callbackTest hcallback =>
    refine ht.of_callback rfl (by simp [hcallback]) fun hexited ↦ ?_
    dsimp only at hexited
    split_ifs at hexited
  | callbackNext hcallback hcq =>
    exact ht.of_callback (by simp) (by simp [hcallback]) fun hexited ↦ by simp at hexited
  | callbackDrained hcallback _ =>
    exact ht.of_callback rfl (by simp [hcallback]) fun hexited ↦ by simp at hexited
  | callbackDispatch hcallback =>
    refine ht.of_callback (by simp) (by simp [hcallback]) fun hexited ↦ ?_
    rw [State.dispatch_callback] at hexited
    split_ifs at hexited
  | callbackStore hcallback => exact ht.of_callback rfl (by simp [hcallback]) fun _ ↦ rfl

end Step

/-- A state in which all requests are in their stages keeps the contract. -/
theorem State.Inv.callbackContract {s : State} (hs : s.Inv) : s.CallbackContract where
  returned i r ok hr hok := by
    have hstage := hs.request i r hr
    have hholds : s.callback.holds i = (s.view i).holds := rfl
    generalize s.view i = view at hstage hholds
    cases hstage with
    | refused | sending | outstanding => simp at hok
    | held =>
      obtain rfl := Option.some.inj hok
      exact Or.inl (holds_eq_some hholds)
    | finished =>
      obtain rfl := Option.some.inj hok
      exact Or.inr ⟨rfl, rfl⟩
  exited hexited r hr := by
    obtain ⟨i, hi⟩ := List.mem_iff_getElem?.mp hr
    have hstage := hs.request i r hi
    have hbehind : (s.view i).behindLoop = true := by
      simp [State.view, hexited, CallbackPc.behindLoop]
    generalize s.view i = view at hstage hbehind
    cases hstage with
    | refused => exact Or.inl ⟨rfl, rfl⟩
    | sending | outstanding | held => simp at hbehind
    | finished => exact Or.inr ⟨rfl, true, rfl, rfl⟩

/-- The contract holds in every run in which no write fails and the callback thread leaves its loop
with nothing outstanding. -/
theorem callbackContract_of_run {s : State} {as : List Action} (h : run step .init as = some s)
    (hC : Along step (leavesClean · · = true) .init as) : s.CallbackContract := by
  have hinv : s.Inv ∧ s.Threads := run_invariant_along (P := fun s ↦ s.Inv ∧ s.Threads)
    (fun s a t hs ha h ↦ ⟨hs.1.step hs.2 ha h, hs.2.step h⟩) hC h ⟨State.inv_init,
      State.threads_init⟩
  exact hinv.1.callbackContract

/-- A request is answered, and then the client is stopped. -/
def answeredRun : List Action :=
  [.runTest, .runStore, .runCall, .createThread, .callbackTest, .complete .call true,
    .callbackNext ⟨.call, true⟩, .callbackDispatch, .sendRequest, .write, .callbackTest,
    .complete (.write 0) true, .callbackNext ⟨.write 0, true⟩, .callbackDispatch, .callbackTest,
    .destroy, .destructorStop, .destructorStop, .destructorStop, .destructorStop,
    .complete .read false, .callbackNext ⟨.read, false⟩, .callbackDispatch, .callbackStore,
    .destructorStop]

theorem callbackContract_of_run_answered :
    ∃ s, run step .init answeredRun = some s ∧ s.CallbackContract :=
  ⟨_, rfl, callbackContract_of_run (show run step .init answeredRun = some _ from rfl)
    (by decide)⟩

/-- The session closes while a request is being written. -/
def closedRun : List Action :=
  [.runTest, .runStore, .runCall, .createThread, .callbackTest, .complete .call true,
    .callbackNext ⟨.call, true⟩, .callbackDispatch, .sendRequest, .write, .callbackTest,
    .complete (.write 0) false, .callbackNext ⟨.write 0, false⟩, .callbackDispatch,
    .callbackStore]

/-- The callback of the request is never invoked. -/
theorem not_callbackContract_of_run : ¬∀ (s : State) (as : List Action),
    run step .init as = some s → s.CallbackContract := by
  intro h
  obtain ⟨s, hrun, hexited, hrequests⟩ : ∃ s, run step .init closedRun = some s ∧
      s.callback = .exited ∧ s.requests = [⟨true, [], 0, some false⟩] := ⟨_, rfl, rfl, rfl⟩
  rcases (h s closedRun hrun).exited hexited ⟨true, [], 0, some false⟩ (by simp [hrequests]) with
    hrefused | ⟨-, ok, -, hresults⟩
  · exact absurd hrefused.1 (by simp)
  · exact absurd hresults (by simp)

end CppDemo.Grpc.ClientAsync2
