import CppDemo.Abseil.Inventory
import Mathlib.Algebra.Order.BigOperators.Group.List

/-!
# The end of the test

Before `stop` is set the producers and consumers go on forever, and afterwards each of them leaves
its loop at the next look at `stop`. A thread may then be on its way to the lock, so that it may
still change the inventory once, whatever `stop` says. Nobody is left behind: `LockWhenWithTimeout`
gives up waiting for its condition, and whoever holds the lock gets to `Unlock`.

Source: `abseil/abseil_sync.cpp`, lines 31–71.

## Main definitions

* `Thread.left` : how many statements a thread still runs once `stop` is set.
* `Thread.updates` : how often it still changes the inventory.
* `Shape` : the main thread, which sets `stop`, and the workers.

## Main results

* `Role.next_left` : every statement of a worker leaves less to do.
* `hasStopped_of_stuck` : no thread waits forever for another one.
* `finishes_of_run` : the threads stop if nobody can go on, and once `stop` is set after a number of
  statements.
-/

namespace CppDemo.Abseil.Inventory

open Transition

/-- The thread has come to its end. -/
def Thread.hasStopped : Thread → Bool
  | main stopped => stopped
  | worker _ _ place => place = .stopped

/-- The statements from a place on if `stop` is set. -/
def Place.left : Place → Nat
  | locking => 7
  | update => 6
  | expect => 5
  | record => 4
  | print => 3
  | unlock => 2
  | loop => 1
  | stopped => 0

def Thread.left : Thread → Nat
  | main stopped => if stopped then 0 else 1
  | worker _ _ place => place.left

/-- The changes of the inventory from a place on if `stop` is set. -/
def Place.updates : Place → Nat
  | locking | update => 1
  | loop | expect | record | print | unlock | stopped => 0

def Thread.updates : Thread → Nat
  | main _ => 0
  | worker _ _ place => place.updates

theorem Place.left_le (place : Place) : place.left ≤ 7 := by
  cases place <;> simp [left]

theorem Place.updates_le (place : Place) : place.updates ≤ 1 := by
  cases place <;> simp [updates]

/-- Once `stop` is set, every statement of a worker leaves less to do. -/
theorem Role.next_left {role : Role} {i : Nat} {place place' : Place} {a : Action} {x x' : Shared}
    (hstop : x.stop = true) (hnext : role.next i place a x = some (place', x')) :
    x'.stop = true ∧ place'.left < place.left ∧
      |x'.inventory - x.inventory| + place'.updates ≤ place.updates := by
  cases place <;> rcases a with _ | ⟨_ | _⟩ <;>
    simp only [next, hstop, reduceCtorEq, Option.some.injEq, Prod.mk.injEq, if_true,
      Option.ite_none_right_eq_some] at hnext
  case locking.lockWhenWithTimeout.true =>
    obtain ⟨-, rfl, rfl⟩ := hnext
    simp [hstop, Place.left, Place.updates]
  case update.go =>
    obtain ⟨rfl, rfl⟩ := hnext
    have hchange := role.abs_sub_update x.inventory
    rw [abs_sub_comm] at hchange
    simp [hchange, Place.left, Place.updates]
  all_goals
    obtain ⟨rfl, rfl⟩ := hnext
    simp [hstop, Place.left, Place.updates]

/-! ### The threads of the test -/

/-- The main thread, which sets `stop`, and `n` workers. -/
structure Shape (n : Nat) (s : Monitor.State Thread Shared) : Prop where
  threads : ∃ workers, s.threads = .main s.shared.stop :: workers ∧ workers.length = n ∧
    ∀ p ∈ workers, ∃ role i place, p = .worker role i place

variable {producers consumers n : Nat} {s t : Monitor.State Thread Shared} {a : Nat × Action}

theorem shape_init : Shape (producers + consumers) (init producers consumers) where
  threads := by
    refine ⟨_, rfl, by simp, fun p hp ↦ ?_⟩
    rcases List.mem_append.mp hp with hp | hp <;> obtain ⟨i, -, rfl⟩ := List.mem_map.mp hp
    · exact ⟨_, _, _, rfl⟩
    · exact ⟨_, _, _, rfl⟩

/-- The workers do not touch `stop`. -/
theorem Role.next_stop {role : Role} {i : Nat} {place place' : Place} {b : Action} {x x' : Shared}
    (hnext : role.next i place b x = some (place', x')) : x'.stop = x.stop := by
  cases place <;> rcases b with _ | ⟨_ | _⟩ <;>
    simp only [next, reduceCtorEq, Option.some.injEq, Prod.mk.injEq,
      Option.ite_none_right_eq_some] at hnext
  case loop.go =>
    split_ifs at hnext <;> obtain ⟨-, rfl⟩ := Prod.mk.inj (Option.some.inj hnext) <;> rfl
  case locking.lockWhenWithTimeout.true =>
    obtain ⟨-, -, rfl⟩ := hnext
    rfl
  all_goals
    obtain ⟨-, rfl⟩ := hnext
    rfl

/-- What a thread does that goes on: the main thread sets `stop`, and a worker its own place. -/
theorem Shape.thread_cases (h : Shape n s) {u : Nat} {b : Action} {p p' : Thread} {x : Shared}
    (hp : s.threads[u]? = some p) (hnext : next p b s.shared = some (p', x)) :
    (u = 0 ∧ s.shared.stop = false ∧ p' = .main true ∧ x.stop = true) ∨
      ∃ k role i place place', u = k + 1 ∧ p = .worker role i place ∧ p' = .worker role i place' ∧
        role.next i place b s.shared = some (place', x) := by
  obtain ⟨workers, hthreads, -, hworkers⟩ := h.threads
  rw [hthreads] at hp
  cases u with
  | zero =>
    obtain rfl : .main s.shared.stop = p := by simpa using hp
    cases hstop : s.shared.stop <;> cases b <;> simp only [hstop, next, reduceCtorEq,
      Option.some.injEq, Prod.mk.injEq] at hnext
    obtain ⟨rfl, rfl⟩ := hnext
    exact .inl ⟨rfl, rfl, rfl, rfl⟩
  | succ k =>
    obtain ⟨role, i, place, rfl⟩ := hworkers p (List.mem_of_getElem? hp)
    obtain ⟨⟨place', y⟩, hrole, hmap⟩ := Option.map_eq_some_iff.mp hnext
    obtain ⟨rfl, rfl⟩ := Prod.mk.inj hmap
    exact .inr ⟨k, role, i, place, place', rfl, rfl, rfl, hrole⟩

theorem Shape.step (h : Shape n s) (hstep : program.step s a = some t) : Shape n t := by
  obtain ⟨u, b⟩ := a
  obtain ⟨workers, hthreads, hlength, hworkers⟩ := h.threads
  obtain ⟨p, p', x, holder, hp, hnext, -, rfl⟩ := Monitor.step_cases hstep
  rcases h.thread_cases hp hnext with
    ⟨rfl, -, rfl, hstop⟩ | ⟨k, role, i, place, place', rfl, rfl, rfl, hrole⟩
  · exact ⟨workers, by simp [hthreads, hstop], hlength, hworkers⟩
  · refine ⟨workers.set k (.worker role i place'), ?_, by rwa [List.length_set], fun q hq ↦ ?_⟩
    · simp [hthreads, Role.next_stop hrole]
    · rcases List.mem_or_eq_of_mem_set hq with hq | rfl
      · exact hworkers q hq
      · exact ⟨role, i, place', rfl⟩

/-! ### The end -/

/-- A measure of the places that is at most `c` for a worker. -/
theorem Shape.sum_le (h : Shape n s) (hstop : s.shared.stop = true) {c : Nat} (μ : Thread → Nat)
    (hmain : μ (.main true) = 0) (hworker : ∀ role i place, μ (.worker role i place) ≤ c) :
    (s.threads.map μ).sum ≤ n * c := by
  obtain ⟨workers, hthreads, rfl, hworkers⟩ := h.threads
  have hle : (workers.map μ).sum ≤ (workers.map μ).length * c := by
    refine List.sum_le_card_nsmul _ c fun k hk ↦ ?_
    obtain ⟨p, hp, rfl⟩ := List.mem_map.mp hk
    obtain ⟨role, i, place, rfl⟩ := hworkers p hp
    exact hworker role i place
  rw [hthreads, hstop, List.map_cons, List.sum_cons, hmain, Nat.zero_add]
  rwa [List.length_map] at hle

/-- Once `stop` is set, every statement leaves less to do. -/
theorem Shape.left_lt (h : Shape n s) (hstop : s.shared.stop = true)
    (hstep : program.step s a = some t) :
    t.shared.stop = true ∧ (t.threads.map Thread.left).sum < (s.threads.map Thread.left).sum ∧
      |t.shared.inventory - s.shared.inventory| + (t.threads.map Thread.updates).sum ≤
        (s.threads.map Thread.updates).sum := by
  obtain ⟨u, b⟩ := a
  obtain ⟨p, p', hp, hnext, hsum⟩ := Monitor.sum_of_step hstep
  obtain ⟨-, hrunning, -⟩ | ⟨k, role, i, place, place', rfl, rfl, rfl, hrole⟩ :=
    h.thread_cases hp hnext
  · exact absurd hstop (by simp [hrunning])
  · obtain ⟨hstop', hlt, hchange⟩ := Role.next_left hstop hrole
    have hleft := hsum Thread.left
    have hupdates := hsum Thread.updates
    simp only [Thread.left, Thread.updates] at hleft hupdates
    refine ⟨hstop', by omega, ?_⟩
    omega

/-- At the places under the lock a worker can always go on. -/
theorem Role.exists_next {place : Place} (hinside : place.inside = true) (role : Role) (i : Nat)
    (x : Shared) : ∃ place' x', role.next i place .go x = some (place', x') := by
  cases place <;> first | exact ⟨_, _, rfl⟩ | cases hinside

/-- Outside of its sections a thread has come to its end, or can go on while the lock is free. -/
theorem Thread.hasStopped_or_next {p : Thread} (houtside : p.inside = false) (x : Shared) :
    p.hasStopped = true ∨ ∃ b p' x', next p b x = some (p', x') := by
  cases p with
  | main stopped =>
    cases stopped with
    | true => exact .inl rfl
    | false => exact .inr ⟨.go, _, _, rfl⟩
  | worker role i place =>
    cases place with
    | stopped => exact .inl rfl
    | loop =>
      refine .inr ⟨.go, ?_⟩
      simp only [next, Role.next]
      split_ifs <;> exact ⟨_, _, rfl⟩
    | locking =>
      -- The patience of the thread is at an end.
      exact .inr ⟨.lockWhenWithTimeout false, _, _, rfl⟩
    | update | expect | record | print | unlock => cases houtside

theorem sound_of_run {as : List (Nat × Action)}
    (hrun : run program.step (init producers consumers) as = some s) :
    Monitor.Sound outline s := by
  refine Monitor.sound_of_run hrun (Monitor.sound_init (fun p ↦ inside_eq_false_of_mem_init) ?_)
  exact ⟨⟨by decide, by decide, by simp⟩, rfl⟩

/-- No thread waits forever for another one. -/
theorem hasStopped_of_stuck {as : List (Nat × Action)}
    (hrun : run program.step (init producers consumers) as = some s)
    (hstuck : Stuck program.step (fun _ ↦ True) s) : ∀ p ∈ s.threads, p.hasStopped = true := by
  have hsound := sound_of_run hrun
  have hno {u : Nat} {b : Action} {p p' : Thread} {x : Shared} (hp : s.threads[u]? = some p)
      (hnext : next p b s.shared = some (p', x)) (hlock : p.inside = true ∨ s.holder = none) :
      False := by
    obtain ⟨s', hs'⟩ := Monitor.exists_step (M := program) hp hnext hlock
    exact absurd (hstuck (u, b) trivial) (by simp [hs'])
  have hfree : s.holder = none := by
    by_contra hheld
    obtain ⟨u, hu⟩ := Option.ne_none_iff_exists'.mp hheld
    obtain ⟨p, hp, -⟩ := hsound.held u hu
    have hinside : p.inside = true := (hsound.inside_iff u p hp).mpr hu
    cases p with
    | main => cases hinside
    | worker role i place =>
      obtain ⟨place', x', hnext⟩ := Role.exists_next hinside role i s.shared
      exact hno hp (congrArg (Option.map _) hnext) (.inl hinside)
  intro p hp
  obtain ⟨u, hu⟩ := List.mem_iff_getElem?.mp hp
  have houtside : p.inside = false := hsound.inside_eq_false hu (by simp [hfree])
  refine (Thread.hasStopped_or_next houtside s.shared).resolve_right ?_
  rintro ⟨b, p', x', hnext⟩
  exact hno hu hnext (.inr hfree)

/-- In every reachable state in which no thread can go on, all threads have stopped. Once `stop` is
set, whatever the order of the statements and whoever gives up waiting, the threads together run a
number of statements at most, and each worker changes the inventory at most once more. -/
theorem finishes_of_run {as : List (Nat × Action)}
    (hs : run program.step (init producers consumers) as = some s) :
    (Stuck program.step (fun _ ↦ True) s → ∀ p ∈ s.threads, p.hasStopped = true) ∧
      ∀ bs t, s.shared.stop = true → run program.step s bs = some t →
        bs.length ≤ 7 * (producers + consumers) ∧
          |t.shared.inventory - s.shared.inventory| ≤ producers + consumers := by
  have hshape : Shape (producers + consumers) s :=
    run_invariant (fun _ _ _ h hstep ↦ h.step hstep) hs shape_init
  let Kept (u : Monitor.State Thread Shared) : Prop :=
    Shape (producers + consumers) u ∧ u.shared.stop = true
  have hkept : ∀ u a v, Kept u → program.step u a = some v → Kept v := fun u a v h hstep ↦
    ⟨h.1.step hstep, (h.1.left_lt h.2 hstep).1⟩
  refine ⟨hasStopped_of_stuck hs, fun bs t hstop ht ↦ ⟨?_, ?_⟩⟩
  · have hlength := length_add_le_of_run (μ := fun u ↦ (u.threads.map Thread.left).sum) hkept
      (fun u a v h hstep ↦ (h.1.left_lt h.2 hstep).2.1) ht ⟨hshape, hstop⟩
    have hleft := hshape.sum_le hstop Thread.left rfl fun _ _ place ↦ place.left_le
    omega
  · have hchange : |t.shared.inventory - s.shared.inventory| + (t.threads.map Thread.updates).sum ≤
        (s.threads.map Thread.updates).sum := by
      refine (run_invariant (P := fun u ↦ Kept u ∧
        |u.shared.inventory - s.shared.inventory| + (u.threads.map Thread.updates).sum ≤
          (s.threads.map Thread.updates).sum) (fun u a v h hstep ↦ ?_) ht
        ⟨⟨hshape, hstop⟩, by simp⟩).2
      refine ⟨hkept u a v h.1 hstep, ?_⟩
      have hlast := (h.1.1.left_lt h.1.2 hstep).2.2
      have htriangle := abs_sub_le v.shared.inventory u.shared.inventory s.shared.inventory
      have hfirst := h.2
      omega
    have hupdates := hshape.sum_le hstop Thread.updates rfl fun _ _ place ↦ place.updates_le
    omega

/-- Both workers are on their way to the lock when `stop` is set. -/
def untilStop : List (Nat × Action) := [(1, .go), (2, .go), (0, .go)]

/-- The producer raises the inventory once more, and the consumer lowers it again. -/
def afterStop : List (Nat × Action) :=
  [(1, .lockWhenWithTimeout true), (1, .go), (1, .go), (1, .go), (1, .go), (1, .go),
    (2, .lockWhenWithTimeout true), (2, .go), (1, .go), (2, .go), (2, .go), (2, .go), (2, .go),
    (2, .go)]

theorem finishes_of_run_afterStop :
    ∃ s, run program.step (init 1 1) untilStop = some s ∧ s.shared.stop = true ∧
      (Stuck program.step (fun _ ↦ True) s → ∀ p ∈ s.threads, p.hasStopped = true) ∧
      ∃ t, run program.step s afterStop = some t ∧ afterStop.length ≤ 7 * (1 + 1) ∧
        |t.shared.inventory - s.shared.inventory| ≤ (1 : Nat) + (1 : Nat) := by
  obtain ⟨hstuck, hfinishes⟩ := finishes_of_run (s := _)
    (show run program.step (init 1 1) untilStop = some _ from rfl)
  exact ⟨_, rfl, rfl, hstuck, _, rfl, hfinishes afterStop _ rfl rfl⟩

end CppDemo.Abseil.Inventory
