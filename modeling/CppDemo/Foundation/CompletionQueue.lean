import Mathlib.Data.Multiset.AddSub
import Mathlib.Data.Multiset.MapFold
import Mathlib.Data.Multiset.Filter

/-!
# Completion queues

An asynchronous operation is *started* against a completion queue, is *in flight* until it
completes, and its completion, carrying one success flag, is then *posted* until a thread takes it
out of the queue. Completions are taken in any order. Every started operation completes at most
once, since completing it removes it from the operations in flight.

After the queue has been shut down it still hands out what is pending; a thread that asks for a
completion is told that there is none left when nothing is in flight or posted. Operations started
against a queue that is already shut down break the contract of the queue and are recorded.

This is what gRPC documents for `grpc::CompletionQueue`, and it is assumed of it: every operation
that has been started hands its tag out once, with `ok` or without, whatever the order; `Next`
returns `false` only after `Shutdown` and when all tags have been handed out; nothing may be started
after `Shutdown`. When an operation completes and with which outcome is left open, so that what is
proved holds for all outcomes. Which operations exist and what they mean is up to the user.

## Main definitions

* `CompletionQueue` : a queue, with the operations in flight and the completions posted.
* `CompletionQueue.pending` : everything started and not taken out, each operation with its outcome,
  `none` while it is in flight.

## Main results

* `CompletionQueue.pending_start`, `CompletionQueue.pending_complete`,
  `CompletionQueue.pending_next` : what each operation of the queue does to `pending`.
-/

/-- What a completion queue hands out: the operation and whether it succeeded. -/
@[ext]
structure Completion (ω : Type*) where
  op : ω
  ok : Bool
  deriving DecidableEq

/-- A completion queue for operations of type `ω`. -/
structure CompletionQueue (ω : Type*) where
  inFlight : List ω
  posted : List (Completion ω)
  isShutdown : Bool
  /-- Operations started after the queue was shut down. -/
  late : List ω

namespace CompletionQueue

variable {ω : Type*}

/-- A new queue. -/
def empty : CompletionQueue ω := ⟨[], [], false, []⟩

/-- Record a use of the queue by `op`, which is a late one after the shutdown. -/
def attach (q : CompletionQueue ω) (op : ω) : CompletionQueue ω :=
  { q with late := if q.isShutdown then op :: q.late else q.late }

/-- Start `op` against the queue. -/
def start (q : CompletionQueue ω) (op : ω) : CompletionQueue ω :=
  { q.attach op with inFlight := op :: q.inFlight }

/-- Start several operations, in order. -/
def startAll (q : CompletionQueue ω) (ops : List ω) : CompletionQueue ω :=
  ops.foldl start q

/-- The operation `op` completes and its completion is posted. -/
def complete [DecidableEq ω] (q : CompletionQueue ω) (op : ω) (ok : Bool) :
    Option (CompletionQueue ω) :=
  if op ∈ q.inFlight then
    some { q with inFlight := q.inFlight.erase op, posted := ⟨op, ok⟩ :: q.posted }
  else none

/-- A thread takes the completion `c` out of the queue. -/
def next [DecidableEq ω] (q : CompletionQueue ω) (c : Completion ω) :
    Option (CompletionQueue ω) :=
  if c ∈ q.posted then some { q with posted := q.posted.erase c } else none

/-- Shut the queue down. -/
def shutdown (q : CompletionQueue ω) : CompletionQueue ω := { q with isShutdown := true }

/-- The queue is shut down and nothing is left in it. -/
def Drained (q : CompletionQueue ω) : Prop := q.isShutdown = true ∧ q.inFlight = [] ∧ q.posted = []

instance (q : CompletionQueue ω) : Decidable q.Drained :=
  decidable_of_iff (q.isShutdown = true ∧ q.inFlight.isEmpty = true ∧ q.posted.isEmpty = true)
    (by simp only [Drained, List.isEmpty_iff])

/-- Everything started and not taken out, with its outcome: `none` while in flight. -/
def pending (q : CompletionQueue ω) : Multiset (ω × Option Bool) :=
  (q.inFlight : Multiset ω).map (fun op ↦ (op, none)) +
    (q.posted : Multiset (Completion ω)).map fun c ↦ (c.op, some c.ok)

/-- The operations started and not taken out. -/
def ops (q : CompletionQueue ω) : Multiset ω := q.pending.map Prod.fst

@[simp] theorem pending_empty : (empty : CompletionQueue ω).pending = 0 := rfl

@[simp] theorem pending_attach (q : CompletionQueue ω) (op : ω) :
    (q.attach op).pending = q.pending := rfl

@[simp] theorem pending_shutdown (q : CompletionQueue ω) : q.shutdown.pending = q.pending := rfl

@[simp] theorem pending_start (q : CompletionQueue ω) (op : ω) :
    (q.start op).pending = (op, none) ::ₘ q.pending := by
  simp only [pending, start, attach, ← Multiset.cons_coe, Multiset.map_cons, Multiset.cons_add]

@[simp] theorem ops_shutdown (q : CompletionQueue ω) : q.shutdown.ops = q.ops := rfl

@[simp] theorem ops_start (q : CompletionQueue ω) (op : ω) : (q.start op).ops = op ::ₘ q.ops := by
  rw [ops, pending_start, Multiset.map_cons, ops]

@[simp] theorem isShutdown_attach (q : CompletionQueue ω) (op : ω) :
    (q.attach op).isShutdown = q.isShutdown := rfl

@[simp] theorem isShutdown_start (q : CompletionQueue ω) (op : ω) :
    (q.start op).isShutdown = q.isShutdown := rfl

@[simp] theorem startAll_nil (q : CompletionQueue ω) : q.startAll [] = q := rfl

@[simp] theorem startAll_cons (q : CompletionQueue ω) (op : ω) (ops : List ω) :
    q.startAll (op :: ops) = (q.start op).startAll ops := rfl

theorem pending_startAll (q : CompletionQueue ω) (ops : List ω) :
    (q.startAll ops).pending = (ops : Multiset ω).map (fun op ↦ (op, none)) + q.pending := by
  induction ops generalizing q with
  | nil => simp
  | cons op ops ih =>
    rw [startAll_cons, ih, pending_start, ← Multiset.cons_coe, Multiset.map_cons,
      Multiset.add_cons, Multiset.cons_add]

@[simp] theorem isShutdown_startAll (q : CompletionQueue ω) (ops : List ω) :
    (q.startAll ops).isShutdown = q.isShutdown := by
  induction ops generalizing q with
  | nil => rfl
  | cons op ops ih => rw [startAll_cons, ih, isShutdown_start]

@[simp] theorem posted_attach (q : CompletionQueue ω) (op : ω) :
    (q.attach op).posted = q.posted := rfl

@[simp] theorem posted_shutdown (q : CompletionQueue ω) : q.shutdown.posted = q.posted := rfl

@[simp] theorem posted_startAll (q : CompletionQueue ω) (ops : List ω) :
    (q.startAll ops).posted = q.posted := by
  induction ops generalizing q with
  | nil => rfl
  | cons op ops ih => exact ih (q.start op)

/-- Starting operations before the shutdown records nothing. -/
theorem late_startAll {q : CompletionQueue ω} (hq : q.isShutdown = false) (ops : List ω) :
    (q.startAll ops).late = q.late := by
  induction ops generalizing q with
  | nil => rfl
  | cons op ops ih =>
    rw [startAll_cons, ih (q := q.start op) hq]
    simp only [start, attach, hq, Bool.false_eq_true, ↓reduceIte]

theorem mem_pending_none {q : CompletionQueue ω} {op : ω} :
    (op, none) ∈ q.pending ↔ op ∈ q.inFlight := by
  simp [pending]

theorem mem_pending_some {q : CompletionQueue ω} {op : ω} {ok : Bool} :
    (op, some ok) ∈ q.pending ↔ ⟨op, ok⟩ ∈ q.posted := by
  simp only [pending, Multiset.mem_add, Multiset.mem_map, Multiset.mem_coe, Prod.mk.injEq,
    reduceCtorEq, and_false, exists_false, false_or, Option.some.injEq]
  exact ⟨fun ⟨c, hc, h₁, h₂⟩ ↦ h₁ ▸ h₂ ▸ hc, fun h ↦ ⟨_, h, rfl, rfl⟩⟩

theorem mem_ops {q : CompletionQueue ω} {op : ω} :
    op ∈ q.ops ↔ op ∈ q.inFlight ∨ ∃ c ∈ q.posted, c.op = op := by
  simp [ops, pending]

section DecidableEq

variable [DecidableEq ω]

theorem complete_eq_some {q q' : CompletionQueue ω} {op : ω} {ok : Bool} :
    q.complete op ok = some q' ↔ op ∈ q.inFlight ∧
      q' = { q with inFlight := q.inFlight.erase op, posted := ⟨op, ok⟩ :: q.posted } := by
  unfold complete
  split_ifs with h
  · simp only [Option.some.injEq, h, true_and, eq_comm]
  · simp [h]

theorem next_eq_some {q q' : CompletionQueue ω} {c : Completion ω} :
    q.next c = some q' ↔ c ∈ q.posted ∧ q' = { q with posted := q.posted.erase c } := by
  unfold next
  split_ifs with h
  · simp only [Option.some.injEq, h, true_and, eq_comm]
  · simp [h]

/-- Completing an operation settles its outcome and changes nothing else. -/
theorem pending_complete {q q' : CompletionQueue ω} {op : ω} {ok : Bool}
    (h : q.complete op ok = some q') :
    ∃ rest, q.pending = (op, none) ::ₘ rest ∧ q'.pending = (op, some ok) ::ₘ rest := by
  obtain ⟨hmem, rfl⟩ := complete_eq_some.mp h
  have hperm : (q.inFlight : Multiset ω) = op ::ₘ ↑(q.inFlight.erase op) :=
    Multiset.coe_eq_coe.mpr (List.perm_cons_erase hmem)
  refine ⟨(↑(q.inFlight.erase op) : Multiset ω).map (fun op ↦ (op, none)) +
    (q.posted : Multiset (Completion ω)).map fun c ↦ (c.op, some c.ok), ?_, ?_⟩
  · simp only [pending, hperm, Multiset.map_cons, Multiset.cons_add]
  · simp only [pending, ← Multiset.cons_coe, Multiset.map_cons, Multiset.add_cons]

/-- Taking a completion out of the queue removes just that one. -/
theorem pending_next {q q' : CompletionQueue ω} {c : Completion ω} (h : q.next c = some q') :
    q.pending = (c.op, some c.ok) ::ₘ q'.pending := by
  obtain ⟨hmem, rfl⟩ := next_eq_some.mp h
  have hperm : (q.posted : Multiset (Completion ω)) = c ::ₘ ↑(q.posted.erase c) :=
    Multiset.coe_eq_coe.mpr (List.perm_cons_erase hmem)
  simp only [pending, hperm, Multiset.map_cons, Multiset.add_cons]

theorem ops_complete {q q' : CompletionQueue ω} {op : ω} {ok : Bool}
    (h : q.complete op ok = some q') : q'.ops = q.ops := by
  obtain ⟨rest, hq, hq'⟩ := pending_complete h
  simp only [ops, hq, hq', Multiset.map_cons]

theorem ops_next {q q' : CompletionQueue ω} {c : Completion ω} (h : q.next c = some q') :
    q.ops = c.op ::ₘ q'.ops := by
  rw [ops, pending_next h, Multiset.map_cons, ops]

end DecidableEq

end CompletionQueue
