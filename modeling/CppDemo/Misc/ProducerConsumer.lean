import CppDemo.Foundation.Transition
import Mathlib.Algebra.Group.Int.Defs
import Mathlib.Algebra.Group.Nat.Defs
import Mathlib.Data.List.Count
import Mathlib.Tactic.Common

/-!
# A producer and its consumers

A producer pushes `0, 1, …` to a queue and wakes all consumers that wait. A consumer waits until it
is notified, sleeps without the lock and then takes everything that is in the queue, so that several
consumers can be asleep at once. Every section under the lock is one step. The states are those in
which the lock is free.

The producer counts with an `int`, which comes to its end after `2 ^ 31` values. The language says
nothing about what follows then; here the counter wraps, as the machines do.

Source: `misc/producer_consumer.cpp`.

## Main definitions

* `State`, `Action`, `step` : the queue and the threads, for any number of consumers.
* `produced` : the values of the producer, in order.
* `State.Inv` : the flag says whether the queue is empty, nobody waits for what is there, and no
  value is lost.

## Main results

* `State.Inv.step` : every step keeps the invariant.
* `inOrder_of_run` : it holds in every run, and the first `2 ^ 31` values are the numbers from zero.
-/

namespace CppDemo.Misc.ProducerConsumer

open Transition

/-- Where a consumer is while it does not have the lock. -/
inductive Place
  /-- About to lock. -/
  | start
  /-- In `cv.wait`. -/
  | waiting
  /-- About to leave `cv.wait`, which locks. -/
  | woken
  /-- Asleep, or about to lock again. -/
  | asleep
  deriving DecidableEq, Repr

/-- What `notify_all` does to a consumer. -/
def Place.notify : Place → Place
  | waiting => woken
  | place => place

structure State where
  buffer : List Int32
  notified : Bool
  /-- `i` of the producer. -/
  i : Int32
  consumers : List Place
  /-- What has been consumed, in order. -/
  consumed : List Int32
  deriving DecidableEq, Repr

def init (n : Nat) : State where
  buffer := []
  notified := false
  i := 0
  consumers := List.replicate n .start
  consumed := []

inductive Action
  | produce
  /-- `cv.wait` of a consumer ends without a call of `notify_all`. -/
  | spurious (c : Nat)
  /-- A consumer locks and looks at `notified`. -/
  | look (c : Nat)
  /-- A consumer locks and takes what is in the queue. -/
  | consume (c : Nat)
  deriving DecidableEq, Repr

def State.produce (s : State) : State :=
  { s with
    buffer := s.buffer ++ [s.i]
    notified := true
    i := s.i + 1
    consumers := s.consumers.map Place.notify }

/-- The consumer `c` goes to `place`. -/
def State.move (s : State) (c : Nat) (place : Place) : State :=
  { s with consumers := s.consumers.set c place }

/-- Values are taken from the front of the queue until it is empty: what is left, and what has been
consumed. -/
def drain : List Int32 → List Int32 → List Int32 × List Int32
  | [], consumed => ([], consumed)
  | v :: buffer, consumed => drain buffer (consumed ++ [v])

def State.consume (s : State) : State :=
  let (buffer, consumed) := drain s.buffer s.consumed
  { s with buffer, notified := false, consumed }

def step (s : State) : Action → Option State
  | .produce => some s.produce
  | .spurious c => if s.consumers[c]? = some .waiting then some (s.move c .woken) else none
  | .look c =>
    if s.consumers[c]? = some .start ∨ s.consumers[c]? = some .woken then
      some (s.move c (if s.notified then .asleep else .waiting))
    else none
  | .consume c =>
    if s.consumers[c]? = some .asleep then some (s.consume.move c .start) else none

theorem drain_eq (buffer consumed : List Int32) :
    drain buffer consumed = ([], consumed ++ buffer) := by
  induction buffer generalizing consumed with
  | nil => rw [drain, List.append_nil]
  | cons v buffer ih => rw [drain, ih, List.append_assoc, List.singleton_append]

/-- All that is in the queue is consumed, in order. -/
theorem State.consume_eq (s : State) :
    s.consume = { s with buffer := [], notified := false, consumed := s.consumed ++ s.buffer } := by
  rw [State.consume, drain_eq]

/-- What a step does. -/
theorem step_cases {s t : State} {a : Action} (h : step s a = some t) :
    (a = .produce ∧ t = s.produce) ∨
    (∃ c place, a ≠ .produce ∧ (place = .waiting → s.notified = false) ∧ t = s.move c place) ∨
    (∃ c, a = .consume c ∧ t = s.consume.move c .start) := by
  cases a with
  | produce => exact .inl ⟨rfl, (Option.some.inj h).symm⟩
  | spurious c =>
    obtain ⟨-, h⟩ := Option.ite_none_right_eq_some.mp h
    exact .inr (.inl ⟨c, .woken, by simp, by simp, (Option.some.inj h).symm⟩)
  | look c =>
    obtain ⟨-, h⟩ := Option.ite_none_right_eq_some.mp h
    refine .inr (.inl ⟨c, _, by simp, ?_, (Option.some.inj h).symm⟩)
    cases s.notified <;> simp
  | consume c =>
    obtain ⟨-, h⟩ := Option.ite_none_right_eq_some.mp h
    exact .inr (.inr ⟨c, rfl, (Option.some.inj h).symm⟩)

/-- The values of `i` in the first `k` rounds of the producer. -/
def produced (k : Nat) : List Int32 := (List.range k).map Int32.ofNat

theorem produced_succ (k : Nat) : produced (k + 1) = produced k ++ [Int32.ofNat k] := by
  simp only [produced, List.range_succ, List.map_append, List.map_singleton]

@[simp] theorem length_produced (k : Nat) : (produced k).length = k := by simp [produced]

/-- As long as the counter has not come to its end, the values are the numbers from zero. -/
theorem map_toInt_produced_iff {k : Nat} :
    (produced k).map Int32.toInt = (List.range k).map Int.ofNat ↔ k ≤ 2 ^ 31 := by
  constructor
  · intro h
    by_contra hk
    have hmem : Int.ofNat (2 ^ 31) ∈ (List.range k).map Int.ofNat :=
      List.mem_map_of_mem (List.mem_range.mpr (Nat.lt_of_not_le hk))
    rw [← h] at hmem
    obtain ⟨i, -, hi⟩ := List.mem_map.mp hmem
    have hlt : i.toInt < 2 ^ 31 := i.toInt_lt
    rw [hi] at hlt
    exact absurd hlt (by decide)
  · intro hk
    rw [produced, List.map_map]
    refine List.map_congr_left fun i hi ↦ ?_
    exact Int32.toInt_ofNat_of_lt (Nat.lt_of_lt_of_le (List.mem_range.mp hi) hk)

/-- What holds whenever the lock is free and `k` values have been produced. -/
structure State.Inv (k : Nat) (s : State) : Prop where
  /-- The flag says whether there is something in the queue. -/
  notified : s.notified = true ↔ s.buffer ≠ []
  /-- Nobody waits while something is in the queue. -/
  awake : s.buffer ≠ [] → .waiting ∉ s.consumers
  i : s.i = Int32.ofNat k
  /-- What has been consumed and what is in the queue is all that has been produced. -/
  values : s.consumed ++ s.buffer = produced k

theorem inv_init (n : Nat) : (init n).Inv 0 where
  notified := by simp [init]
  awake h := absurd rfl h
  i := rfl
  values := rfl

/-- After `notify_all` nobody waits. -/
theorem waiting_not_mem_notify (consumers : List Place) :
    .waiting ∉ consumers.map Place.notify := by
  intro h
  obtain ⟨place, -, hplace⟩ := List.mem_map.mp h
  cases place <;> simp [Place.notify] at hplace

section Step

variable {s t : State} {k : Nat}

theorem State.Inv.produce (h : s.Inv k) : s.produce.Inv (k + 1) where
  notified := by simp [State.produce]
  awake _ := waiting_not_mem_notify s.consumers
  i := by
    have hi := h.i
    simp only [State.produce, hi, Int32.ofNat_add]
    rfl
  values := by
    simp only [State.produce]
    rw [← List.append_assoc, h.values, produced_succ, h.i]

/-- A consumer starts to wait only while the queue is empty. -/
theorem State.Inv.move (h : s.Inv k) (c : Nat) {place : Place}
    (hplace : place = .waiting → s.notified = false) : (s.move c place).Inv k where
  notified := h.notified
  awake hbuffer hmem := by
    rcases List.mem_or_eq_of_mem_set hmem with hmem | rfl
    · exact h.awake hbuffer hmem
    · exact absurd (h.notified.mpr hbuffer) (by simp [hplace rfl])
  i := h.i
  values := h.values

theorem State.Inv.consume (h : s.Inv k) : s.consume.Inv k := by
  rw [State.consume_eq]
  exact ⟨by simp, fun hbuffer ↦ absurd rfl hbuffer, h.i, by simpa using h.values⟩

/-- Every step keeps the invariant, with one value more if it is one of the producer. -/
theorem State.Inv.step {a : Action} (h : s.Inv k) (hstep : step s a = some t) :
    t.Inv (k + [a].count .produce) := by
  rw [List.count_singleton]
  obtain ⟨rfl, rfl⟩ | ⟨c, place, ha, hplace, rfl⟩ | ⟨c, rfl, rfl⟩ := step_cases hstep
  · exact h.produce
  · rw [if_neg (by simpa using ha)]
    exact h.move c hplace
  · exact h.consume.move c (by simp)

/-- In every run the values that have been produced are accounted for. -/
theorem inv_of_run {n : Nat} {as : List Action} (hrun : run step (init n) as = some s) :
    s.Inv (as.count .produce) := by
  refine run_history (P := fun as t ↦ t.Inv (as.count .produce)) (fun as u a v h hstep ↦ ?_) hrun
    (inv_init n)
  rw [List.count_append]
  exact h.step hstep

end Step

/-- In every run, whenever the lock is free, the flag says whether there is something in the queue,
nobody waits for what is there, and the values that have been consumed and those in the queue are
all the values that have been produced, in order. Up to `2 ^ 31` of them are `0, 1, …`. -/
theorem inOrder_of_run {n : Nat} {as : List Action} {s : State}
    (hrun : run step (init n) as = some s) :
    (s.notified = true ↔ s.buffer ≠ []) ∧
      (∀ c : Nat, s.consumers[c]? = some Place.waiting → s.buffer = []) ∧
      s.consumed ++ s.buffer = produced (as.count .produce) ∧
      (as.count .produce ≤ 2 ^ 31 → (s.consumed ++ s.buffer).map Int32.toInt =
        (List.range (as.count .produce)).map Int.ofNat) := by
  have hinv : s.Inv (as.count .produce) := inv_of_run hrun
  refine ⟨hinv.notified, fun c hc ↦ ?_, hinv.values, fun hk ↦ ?_⟩
  · by_contra hbuffer
    exact hinv.awake hbuffer (List.mem_of_getElem? hc)
  · rw [hinv.values]
    exact map_toInt_produced_iff.mpr hk

/-- Two consumers are asleep at once while the producer goes on. -/
def twoAsleep : List Action :=
  [.look 0, .look 1, .produce, .look 0, .look 1, .produce, .consume 1, .look 1, .spurious 1,
    .consume 0, .produce]

theorem inOrder_of_run_twoAsleep :
    ∃ s, run step (init 2) twoAsleep = some s ∧
      (s.notified = true ↔ s.buffer ≠ []) ∧
      (∀ c : Nat, s.consumers[c]? = some Place.waiting → s.buffer = []) ∧
      s.consumed ++ s.buffer = produced (twoAsleep.count .produce) ∧
      (twoAsleep.count .produce ≤ 2 ^ 31 → (s.consumed ++ s.buffer).map Int32.toInt =
        (List.range (twoAsleep.count .produce)).map Int.ofNat) :=
  ⟨_, rfl, inOrder_of_run (n := 2) rfl⟩

/-- The producer can always go on. -/
theorem exists_run_produce (s : State) (k : Nat) :
    ∃ t, run step s (List.replicate k .produce) = some t := by
  induction k generalizing s with
  | zero => exact ⟨s, rfl⟩
  | succ k ih =>
    obtain ⟨t, ht⟩ := ih s.produce
    exact ⟨t, (run_cons step).mpr ⟨s.produce, rfl, ht⟩⟩

/-- The value after the largest `int` is not the next number. -/
theorem not_inOrder_of_run :
    ¬ ∀ (n : Nat) (as : List Action) (s : State), run step (init n) as = some s →
      (s.notified = true ↔ s.buffer ≠ []) ∧
        (∀ c : Nat, s.consumers[c]? = some Place.waiting → s.buffer = []) ∧
        (s.consumed ++ s.buffer).map Int32.toInt =
          (List.range (as.count .produce)).map Int.ofNat := by
  intro h
  obtain ⟨s, hrun⟩ := exists_run_produce (init 2) (2 ^ 31 + 1)
  obtain ⟨-, -, hvalues⟩ := h 2 _ s hrun
  rw [(inv_of_run hrun).values, map_toInt_produced_iff, List.count_replicate_self] at hvalues
  exact absurd hvalues (Nat.not_succ_le_self _)

end CppDemo.Misc.ProducerConsumer
