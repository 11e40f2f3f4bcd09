import CppDemo.Grpc.ClientAsync2.Callback

/-!
# The reads of the asynchronous client

The completion of the call and those of the reads carry the null pointer as their tag. Whenever the
callback thread has taken one of them, it looks at `notify_` and starts the next read. So these
operations form a chain: in every run there is at most one of them, no read is started before the
call has been established, and nothing writes to `notify_` while the callback thread looks at it.
The chain does not break off either. As long as the callback thread is in its loop, the next message
of the server is waited for.

Source: `grpcdemo/client_async2.cpp`, lines 28–75.

## Main definitions

* `State.notifies` : the number of the operations with the tag null.
* `State.ReadsInTurn` : what gRPC asks of reads, and that there is always one.

## Main results

* `readsInTurn_of_run` : this holds in every state of a run.
-/

namespace CppDemo.Grpc.ClientAsync2

open Transition

@[simp] theorem Op.tag_call : Op.call.tag = none := rfl

@[simp] theorem Op.tag_read : Op.read.tag = none := rfl

@[simp] theorem Op.tag_write (ctx : Nat) : (Op.write ctx).tag = some ctx := rfl

/-- The thread has taken a completion with the tag null and not yet dealt with it. -/
def CallbackPc.notified : CallbackPc → Bool
  | .got c => c.op.tag = none
  | _ => false

/-- The call and the reads that have been started and not been dealt with: those whose completion
`Next` has not returned, and the one that the callback thread holds. -/
def State.notifies (s : State) : Nat :=
  s.cq.ops.countP (fun op ↦ op.tag = none) + if s.callback.notified then 1 else 0

/-- `run` has not yet made the call. -/
def MainPc.beforeCall : MainPc → Bool
  | .created => true
  | .runStore => true
  | .runCall => true
  | _ => false

/-- The call and the reads come one at a time, and there is always one until the callback thread
leaves its loop. -/
structure State.ReadsInTurn (s : State) : Prop where
  /-- Two reads are never outstanding. -/
  reads : s.cq.ops.countP (fun op ↦ op.tag = none) ≤ 1
  /-- No read is started before the call is established. -/
  established : .read ∈ s.cq.ops → s.main.beforeCall = false ∧ .call ∉ s.cq.ops
  /-- Nothing writes to `notify_` while the callback thread looks at it. -/
  exclusive : ∀ c, s.callback = .got c → c.op.tag = none → .read ∉ s.cq.ops ∧ .call ∉ s.cq.ops
  /-- A message of the server is waited for, or it is being dealt with. -/
  waits : s.callback ≠ .notStarted → s.callback.behindLoop = false → s.notifies = 1

/-- The call and the reads form a chain, from the call until the callback thread leaves its loop. -/
structure State.Chain (s : State) : Prop where
  created : s.main = .created → s.running = false
  before : s.main.beforeCall = true → s.notifies = 0
  card : s.notifies ≤ 1
  one : s.main.beforeCall = false → s.callback.behindLoop = false → s.notifies = 1

theorem State.chain_init : State.init.Chain where
  created _ := rfl
  before _ := rfl
  card := Nat.zero_le 1
  one h := by simp [State.init, MainPc.beforeCall] at h

section Step

variable {s t : State} {a : Action}

/-- A step that keeps the chain, or breaks it off behind the loop of the callback thread. -/
theorem State.Chain.of_frame (hs : s.Chain) (hcreated : t.main = .created → s.main = .created)
    (hcall : t.main.beforeCall = s.main.beforeCall)
    (hrunning : t.running = true → s.running = true) (hle : t.notifies ≤ s.notifies)
    (hloop : t.callback.behindLoop = false →
      s.callback.behindLoop = false ∧ t.notifies = s.notifies) : t.Chain where
  created h := by
    have hfalse := hs.created (hcreated h)
    exact Bool.eq_false_iff.mpr fun htrue ↦ by simp [hrunning htrue] at hfalse
  before h := Nat.le_zero.mp (hs.before (hcall ▸ h) ▸ hle)
  card := hle.trans hs.card
  one hmain h := (hloop h).2.trans (hs.one (hcall ▸ hmain) (hloop h).1)

/-- A step that touches neither the queue nor the callback thread. -/
theorem State.Chain.of_main (hs : s.Chain) (hcreated : t.main = .created → s.main = .created)
    (hcall : t.main.beforeCall = s.main.beforeCall)
    (hrunning : t.running = true → s.running = true) (hops : t.cq.ops = s.cq.ops)
    (hcallback : t.callback = s.callback) : t.Chain := by
  have hnotifies : t.notifies = s.notifies := by rw [notifies, notifies, hops, hcallback]
  exact hs.of_frame hcreated hcall hrunning hnotifies.le fun h ↦ ⟨hcallback ▸ h, hnotifies⟩

/-- A step of the callback thread. -/
theorem State.Chain.of_callback (hs : s.Chain) (hmain : t.main = s.main)
    (hrunning : t.running = true → s.running = true) (hle : t.notifies ≤ s.notifies)
    (hloop : t.callback.behindLoop = false →
      s.callback.behindLoop = false ∧ t.notifies = s.notifies) : t.Chain :=
  hs.of_frame (hmain ▸ id) (hmain ▸ rfl) hrunning hle hloop

/-- Dealing with a completion: the null pointer starts the next read. -/
theorem notifies_dispatch {c : Completion Op} (hcallback : s.callback = .got c) :
    (s.dispatch c).notifies ≤ s.notifies ∧
      (c.ok = true → (s.dispatch c).notifies = s.notifies) := by
  obtain ⟨op, ok⟩ := c
  cases ok <;> cases op <;>
    simp [State.notifies, State.dispatch, State.readNextNotify, hcallback, CallbackPc.notified,
      Multiset.countP_cons]

/-- Every step keeps the chain. -/
theorem State.Chain.step (hs : s.Chain) (ht : s.Threads) (h : step s a = some t) : t.Chain := by
  cases effect_of_step h with
  | runTest hmain =>
    have hrunning := hs.created hmain
    refine hs.of_main (fun h ↦ ?_) ?_ id rfl rfl
    · simp [hrunning] at h
    · simp [hrunning, hmain, MainPc.beforeCall]
  | runStore hmain =>
    have hnone := hs.before (by rw [hmain]; rfl)
    exact ⟨fun h ↦ by simp at h, fun _ ↦ hnone, hs.card, fun h ↦ by simp [MainPc.beforeCall] at h⟩
  | runCall hmain =>
    have hnone := hs.before (by rw [hmain]; rfl)
    have hone : State.notifies { s with cq := s.cq.start .call, main := .createThread } = 1 := by
      rw [← Nat.zero_add 1, ← hnone]
      simp only [State.notifies, CompletionQueue.ops_start, Multiset.countP_cons, Op.tag_call,
        ↓reduceIte]
      omega
    exact ⟨fun h ↦ by simp at h, fun h ↦ by simp [MainPc.beforeCall] at h, hone.le,
      fun _ _ ↦ hone⟩
  | createThread hmain =>
    have hcallback := ht.notStarted (by rw [hmain]; rfl)
    have hnotifies : ({ s with callback := .test, main := .ready } : State).notifies =
        s.notifies := by
      simp [State.notifies, hcallback, CallbackPc.notified]
    refine hs.of_frame (fun h ↦ by simp at h) ?_ id hnotifies.le fun _ ↦ ⟨?_, hnotifies⟩
    · rw [hmain]; rfl
    · rw [hcallback]; rfl
  | sendRequest hmain =>
    cases hrunning : s.running with
    | false =>
      obtain ⟨hmain', hrunning', hops, hcallback⟩ : s.sendRequest.main = s.main ∧
          s.sendRequest.running = s.running ∧ s.sendRequest.cq.ops = s.cq.ops ∧
          s.sendRequest.callback = s.callback := by
        simp [State.sendRequest, hrunning]
      exact hs.of_main (hmain' ▸ id) (hmain' ▸ rfl) (hrunning' ▸ id) hops hcallback
    | true =>
      have hready : s.main = .ready := hmain.resolve_left fun hcreated ↦ by
        simp [hs.created hcreated] at hrunning
      obtain ⟨hmain', hrunning', hops, hcallback⟩ : s.sendRequest.main =
          .sending s.requests.length ∧ s.sendRequest.running = s.running ∧
          s.sendRequest.cq.ops = s.cq.ops ∧ s.sendRequest.callback = s.callback := by
        simp [State.sendRequest, hrunning]
      exact hs.of_main (fun h ↦ by simp [hmain'] at h) (by rw [hmain', hready]; rfl)
        (hrunning' ▸ id) hops hcallback
  | write hmain =>
    refine hs.of_frame (fun h ↦ by simp at h) (by rw [hmain]; rfl) id (le_of_eq ?_)
      fun h ↦ ⟨h, ?_⟩
    · simp [State.notifies]
    · simp [State.notifies]
  | destroy hmain => exact hs.of_main (fun h ↦ by simp at h) (by rw [hmain]; rfl) id rfl rfl
  | destructorStop hmain hstop =>
    obtain ⟨-, hcallback, -, hops, hrunning⟩ := stop_frame hstop
    exact hs.of_main (fun h ↦ by simp at h) (by rw [hmain]; rfl) hrunning hops hcallback
  | signal => exact hs.of_main id rfl id rfl rfl
  | signalStop hsignal hstop =>
    obtain ⟨hmain, hcallback, -, hops, hrunning⟩ := stop_frame hstop
    exact hs.of_main (hmain ▸ id) (hmain ▸ rfl) hrunning hops hcallback
  | complete hcq => exact hs.of_main id rfl id (CompletionQueue.ops_complete hcq) rfl
  | callbackTest hcallback =>
    refine hs.of_callback rfl id ?_ fun _ ↦ ⟨by rw [hcallback]; rfl, ?_⟩
    all_goals
      simp only [State.notifies, hcallback, CallbackPc.notified]
      split_ifs <;> simp
  | callbackNext hcallback hcq =>
    have hnotifies := CompletionQueue.ops_next hcq
    refine hs.of_callback (by simp) (by simp) ?_ fun _ ↦ ⟨by rw [hcallback]; rfl, ?_⟩
    all_goals simp [State.notifies, hcallback, CallbackPc.notified, hnotifies, Multiset.countP_cons]
  | callbackDrained hcallback hdrained =>
    refine hs.of_callback rfl id ?_ fun h ↦ by simp [CallbackPc.behindLoop] at h
    simp [State.notifies, hcallback, CallbackPc.notified]
  | @callbackDispatch c hcallback =>
    obtain ⟨hle, heq⟩ := notifies_dispatch hcallback
    refine hs.of_callback (by simp) (by simp) hle fun h ↦ ⟨by rw [hcallback]; rfl, heq ?_⟩
    by_contra hok
    simp [hok, CallbackPc.behindLoop] at h
  | callbackStore hcallback =>
    refine hs.of_callback rfl (fun h ↦ by simp at h) ?_ fun h ↦ by simp [CallbackPc.behindLoop] at h
    simp [State.notifies, hcallback, CallbackPc.notified]

/-- No operation of a chain that has come to an end is outstanding. -/
theorem notMem_ops_of_countP (h : s.cq.ops.countP (fun op ↦ op.tag = none) = 0) :
    .read ∉ s.cq.ops ∧ .call ∉ s.cq.ops := by
  rw [Multiset.countP_eq_zero] at h
  exact ⟨fun hread ↦ h _ hread rfl, fun hcall ↦ h _ hcall rfl⟩

/-- In a chain the reads come in turn. -/
theorem State.Chain.readsInTurn (hs : s.Chain) (ht : s.Threads) : s.ReadsInTurn where
  reads := le_trans (Nat.le_add_right _ _) hs.card
  established h := by
    have hcard : s.cq.ops.countP (fun op ↦ op.tag = none) ≤ 1 :=
      le_trans (Nat.le_add_right _ _) hs.card
    obtain ⟨rest, hrest⟩ := Multiset.exists_cons_of_mem h
    rw [hrest, Multiset.countP_cons, if_pos Op.tag_read] at hcard
    constructor
    · rw [Bool.eq_false_iff]
      intro hbefore
      have hnone := hs.before hbefore
      simp only [notifies, hrest, Multiset.countP_cons, Op.tag_read, ↓reduceIte] at hnone
      omega
    · rw [hrest, Multiset.mem_cons]
      rintro (hcall | hcall)
      · simp at hcall
      · have hzero : rest.countP (fun op ↦ op.tag = none) = 0 := by omega
        exact Multiset.countP_eq_zero.mp hzero _ hcall rfl
  exclusive c hc htag := by
    have hcard := hs.card
    simp only [notifies, hc, CallbackPc.notified, htag, decide_true, ↓reduceIte] at hcard
    exact notMem_ops_of_countP (by omega)
  waits hstarted hloop := by
    refine hs.one ?_ hloop
    rw [Bool.eq_false_iff]
    intro hbefore
    refine hstarted (ht.notStarted ?_)
    cases hmain : s.main <;> first | rfl | simp [hmain, MainPc.beforeCall] at hbefore

end Step

/-- In every run the call and the reads come one at a time, and as long as the callback thread is in
its loop one of them is outstanding or being dealt with. -/
theorem readsInTurn_of_run {s : State} {as : List Action} (h : run step .init as = some s) :
    s.ReadsInTurn := by
  have hinv : s.Chain ∧ s.Threads := run_invariant (P := fun s ↦ s.Chain ∧ s.Threads)
    (fun _ _ _ hs h ↦ ⟨hs.1.step hs.2 h, hs.2.step h⟩) h ⟨State.chain_init, State.threads_init⟩
  exact hinv.1.readsInTurn hinv.2

theorem readsInTurn_of_run_answered :
    ∃ s, run step .init answeredRun = some s ∧ s.ReadsInTurn :=
  ⟨_, rfl, readsInTurn_of_run (show run step .init answeredRun = some _ from rfl)⟩

end CppDemo.Grpc.ClientAsync2
