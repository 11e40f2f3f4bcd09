import CppDemo.Foundation.Monitor
import Mathlib.Algebra.Order.Ring.Abs
import Mathlib.Algebra.Order.Ring.Int

/-!
# Producers and consumers of a bounded inventory

Any number of producers raise the inventory and any number of consumers lower it, each under the
lock, which it takes when its condition holds or when its patience is at an end. In the second case
it goes on to the unlock at once. `print_inventory` expects the inventory to differ by one from what
it was at the call before.

Source: `abseil/abseil_sync.cpp`, lines 22–72.

## Main definitions

* `Thread`, `Shared`, `program` : the statements of the threads, one at a time.
* `outline` : what holds at each place under the lock.

## Main results

* `bounded_of_run` : in every run the inventory stays within its bounds, and the expectation of
  `print_inventory` is met at each call.
-/

namespace CppDemo.Abseil.Inventory

open Transition

inductive Role
  | producer
  | consumer
  deriving DecidableEq, Repr

namespace Role

/-- The condition of a lock. -/
def condition : Role → Int → Bool
  | producer, inv => inv < 30
  | consumer, inv => inv > 0

/-- `++inventory` or `--inventory`. -/
def update : Role → Int → Int
  | producer, inventory => inventory + 1
  | consumer, inventory => inventory - 1

/-- The name of a thread. -/
def name (i : Nat) : Role → String
  | producer => "p" ++ toString i
  | consumer => "c" ++ toString i

end Role

/-- The next statement of a producer or a consumer. -/
inductive Place
  /-- `while (!stop)`. -/
  | loop
  /-- `LockWhenWithTimeout`, which waits. -/
  | locking
  /-- `++inventory` or `--inventory`. -/
  | update
  /-- `EXPECT_EQ` of `print_inventory`. -/
  | expect
  /-- `last = inventory`. -/
  | record
  /-- The output of `print_inventory`. -/
  | print
  /-- `Unlock`. -/
  | unlock
  | stopped
  deriving DecidableEq, Repr

/-- A thread of the test. -/
inductive Thread
  /-- The main thread, before and after `stop = true`. -/
  | main (stopped : Bool)
  | worker (role : Role) (i : Nat) (place : Place)
  deriving DecidableEq, Repr

structure Shared where
  inventory : Int := 0
  stop : Bool := false
  /-- The static variable of `print_inventory`. -/
  last : Int := 0
  /-- The values of `last` and `inventory` at each `EXPECT_EQ`. -/
  expected : List (Int × Int) := []
  output : List String := []
  deriving DecidableEq, Repr

inductive Action
  | go
  /-- `LockWhenWithTimeout` returns. -/
  | lockWhenWithTimeout (result : Bool)
  deriving DecidableEq, Repr

/-- The statements of a producer or a consumer. -/
def Role.next (role : Role) (i : Nat) : Place → Action → Shared → Option (Place × Shared)
  | .loop, .go, x =>
    if x.stop then some (.stopped, { x with output := x.output ++ [role.name i ++ " stoped\n"] })
    else some (.locking, x)
  | .locking, .lockWhenWithTimeout true, x =>
    if role.condition x.inventory then some (.update, x) else none
  | .locking, .lockWhenWithTimeout false, x => some (.unlock, x)
  | .update, .go, x => some (.expect, { x with inventory := role.update x.inventory })
  | .expect, .go, x => some (.record, { x with expected := x.expected ++ [(x.last, x.inventory)] })
  | .record, .go, x => some (.print, { x with last := x.inventory })
  | .print, .go, x =>
    let line := role.name i ++ " inventory: " ++ toString x.last ++ "\n"
    some (.unlock, { x with output := x.output ++ [line] })
  | .unlock, .go, x => some (.loop, x)
  | _, _, _ => none

/-- The statements of the test. -/
def next : Thread → Action → Shared → Option (Thread × Shared)
  | .main false, .go, x => some (.main true, { x with stop := true })
  | .main _, _, _ => none
  | .worker role i place, a, x =>
    (role.next i place a x).map fun (place, x) ↦ (.worker role i place, x)

/-- The places between the return of `LockWhenWithTimeout` and that of `Unlock`. -/
def Place.inside : Place → Bool
  | loop | locking | stopped => false
  | update | expect | record | print | unlock => true

def Thread.inside : Thread → Bool
  | main _ => false
  | worker _ _ place => place.inside

/-- The threads of the test and the mutex `lk`. -/
def program : Monitor Thread Action Shared where
  inside := Thread.inside
  next := next

/-- The start of the test, with any numbers of producers and consumers. -/
def init (producers consumers : Nat) : Monitor.State Thread Shared :=
  Monitor.init {} <| .main false ::
    ((List.range producers).map fun i ↦ .worker .producer i .loop) ++
    ((List.range consumers).map fun i ↦ .worker .consumer i .loop)

/-! ### The proof outline -/

/-- The inventory is within its bounds, and all expectations have been met. -/
structure Shared.Bounded (x : Shared) : Prop where
  nonneg : 0 ≤ x.inventory
  le : x.inventory ≤ 30
  expected : ∀ e ∈ x.expected, |e.1 - e.2| = 1

/-- What a thread knows at a place under the lock. -/
def Role.Knows (role : Role) (x : Shared) : Place → Prop
  | .update => x.last = x.inventory ∧ role.condition x.inventory = true
  | .expect | .record => x.inventory = role.update x.last
  | _ => x.last = x.inventory

/-- The assertion while the thread that holds the lock, if there is one, is at a place. -/
def assertion : Option Thread → Shared → Prop
  | some (.worker role _ place), x => x.Bounded ∧ role.Knows x place
  | _, x => x.Bounded ∧ x.last = x.inventory

/-- The update keeps the inventory within its bounds if the condition holds. -/
theorem Role.update_mem {role : Role} {inv : Int} (h : role.condition inv = true)
    (hnonneg : 0 ≤ inv) (hle : inv ≤ 30) : 0 ≤ role.update inv ∧ role.update inv ≤ 30 := by
  cases role <;> simp only [condition, decide_eq_true_eq] at h <;> simp only [update] <;> omega

/-- An update changes the inventory by one. -/
theorem Role.abs_sub_update (role : Role) (inv : Int) : |inv - role.update inv| = 1 := by
  cases role with
  | producer => rw [update, sub_add_cancel_left, abs_neg, abs_one]
  | consumer => rw [update, sub_sub_cancel, abs_one]

/-- An expectation is recorded that is met. -/
theorem Shared.Bounded.expect {x : Shared} (h : x.Bounded) (hmet : |x.last - x.inventory| = 1) :
    Shared.Bounded { x with expected := x.expected ++ [(x.last, x.inventory)] } where
  nonneg := h.nonneg
  le := h.le
  expected e he := by
    rcases List.mem_append.mp he with he | he
    · exact h.expected e he
    · rw [List.mem_singleton.mp he]
      exact hmet

/-- From each of its places a worker comes to the next one with what it has to know there. -/
theorem Role.next_knows {role : Role} {i : Nat} {place place' : Place} {a : Action} {x x' : Shared}
    (hx : x.Bounded) (h : role.Knows x place) (hnext : role.next i place a x = some (place', x')) :
    x'.Bounded ∧ role.Knows x' place' := by
  cases place <;> rcases a with _ | ⟨_ | _⟩ <;>
    simp only [next, reduceCtorEq, Option.some.injEq, Prod.mk.injEq, Option.ite_none_right_eq_some]
      at hnext
  case loop.go =>
    split_ifs at hnext <;> obtain ⟨rfl, rfl⟩ := hnext <;>
      exact ⟨⟨hx.nonneg, hx.le, hx.expected⟩, h⟩
  case locking.lockWhenWithTimeout.false =>
    obtain ⟨rfl, rfl⟩ := hnext
    exact ⟨hx, h⟩
  case locking.lockWhenWithTimeout.true =>
    obtain ⟨hcondition, rfl, rfl⟩ := hnext
    exact ⟨hx, h, hcondition⟩
  case update.go =>
    obtain ⟨rfl, rfl⟩ := hnext
    obtain ⟨hlast, hcondition⟩ := h
    obtain ⟨hnonneg, hle⟩ := role.update_mem hcondition hx.nonneg hx.le
    exact ⟨⟨hnonneg, hle, hx.expected⟩, by rw [Knows, ← hlast]⟩
  case expect.go =>
    obtain ⟨rfl, rfl⟩ := hnext
    refine ⟨hx.expect ?_, h⟩
    rw [show x.inventory = role.update x.last from h]
    exact role.abs_sub_update x.last
  case record.go =>
    obtain ⟨rfl, rfl⟩ := hnext
    exact ⟨⟨hx.nonneg, hx.le, hx.expected⟩, rfl⟩
  case print.go =>
    obtain ⟨rfl, rfl⟩ := hnext
    exact ⟨⟨hx.nonneg, hx.le, hx.expected⟩, h⟩
  case unlock.go =>
    obtain ⟨rfl, rfl⟩ := hnext
    exact ⟨hx, h⟩

/-- A statement outside of the section of a thread leaves `inventory`, `last` and the record of the
expectations as they are. -/
theorem next_of_outside {p p' : Thread} {a : Action} {x x' : Shared} (hp : p.inside = false)
    (hp' : p'.inside = false) (hnext : next p a x = some (p', x')) :
    x'.inventory = x.inventory ∧ x'.last = x.last ∧ x'.expected = x.expected := by
  cases p with
  | main stopped =>
    cases stopped <;> cases a <;> simp only [next, reduceCtorEq, Option.some.injEq,
      Prod.mk.injEq] at hnext
    obtain ⟨-, rfl⟩ := hnext
    exact ⟨rfl, rfl, rfl⟩
  | worker role i place =>
    obtain ⟨⟨place', y⟩, hrole, h⟩ := Option.map_eq_some_iff.mp hnext
    obtain ⟨rfl, rfl⟩ := Prod.mk.inj h
    -- `stop` is read, or the lock is about to be taken
    cases place <;> cases hp
    case worker.loop.refl =>
      cases a <;> simp only [Role.next, reduceCtorEq] at hrole
      split_ifs at hrole <;> obtain ⟨-, rfl⟩ := Prod.mk.inj (Option.some.inj hrole) <;>
        exact ⟨rfl, rfl, rfl⟩
    case worker.locking.refl =>
      rcases a with _ | ⟨_ | _⟩ <;>
        simp only [Role.next, reduceCtorEq, Option.some.injEq, Prod.mk.injEq,
          Option.ite_none_right_eq_some] at hrole
      · obtain ⟨rfl, -⟩ := hrole
        cases hp'
      · obtain ⟨-, rfl, -⟩ := hrole
        cases hp'
    case worker.stopped.refl => cases hrole

/-- Outside of its section a worker relies on what holds while the lock is free. -/
theorem assertion_heldAt (role : Role) (i : Nat) (place : Place) (x : Shared) :
    assertion (program.heldAt (.worker role i place)) x ↔ x.Bounded ∧ role.Knows x place := by
  cases place <;> rfl

/-- The outline of the test. -/
def outline : program.Outline where
  assertion := assertion
  own {p p' a x x'} hnext h := by
    cases p with
    | main stopped =>
      cases stopped <;> cases a <;> simp only [program, next, reduceCtorEq, Option.some.injEq,
        Prod.mk.injEq] at hnext
      obtain ⟨rfl, rfl⟩ := hnext
      exact ⟨⟨h.1.nonneg, h.1.le, h.1.expected⟩, h.2⟩
    | worker role i place =>
      obtain ⟨⟨place', y⟩, hrole, hmap⟩ := Option.map_eq_some_iff.mp hnext
      obtain ⟨rfl, rfl⟩ := Prod.mk.inj hmap
      rw [assertion_heldAt] at h ⊢
      exact role.next_knows h.1 h.2 hrole
  interfere {q p p' a x x'} hp hp' hnext h := by
    obtain ⟨hinventory, hlast, hexpected⟩ := next_of_outside hp hp' hnext
    have hbounded : x.Bounded → x'.Bounded := fun hx ↦
      ⟨hinventory ▸ hx.nonneg, hinventory ▸ hx.le, hexpected ▸ hx.expected⟩
    cases q with
    | main _ => exact ⟨hbounded h.1, by rw [hlast, hinventory]; exact h.2⟩
    | worker role i place =>
      refine ⟨hbounded h.1, ?_⟩
      cases place <;> simp only [Role.Knows, hinventory, hlast] <;> exact h.2

/-- Nobody is inside at the start of the test. -/
theorem inside_eq_false_of_mem_init {producers consumers : Nat} {p : Thread}
    (hp : p ∈ (init producers consumers).threads) : p.inside = false := by
  simp only [init, Monitor.init, List.mem_append, List.mem_cons, List.mem_map] at hp
  rcases hp with (rfl | ⟨i, -, rfl⟩) | ⟨i, -, rfl⟩ <;> rfl

/-- In every run, whenever the lock is free, the inventory is within its bounds and is what
`print_inventory` has seen last, and at every call `print_inventory` finds that the inventory has
changed by one. -/
theorem bounded_of_run {producers consumers : Nat} {as : List (Nat × Action)}
    {s : Monitor.State Thread Shared}
    (hrun : run program.step (init producers consumers) as = some s) :
    (s.holder = none →
      0 ≤ s.shared.inventory ∧ s.shared.inventory ≤ 30 ∧ s.shared.last = s.shared.inventory) ∧
      ∀ e ∈ s.shared.expected, |e.1 - e.2| = 1 := by
  have hsound : Monitor.Sound outline s := by
    refine Monitor.sound_of_run hrun (Monitor.sound_init (fun p ↦ inside_eq_false_of_mem_init) ?_)
    exact ⟨⟨by decide, by decide, by simp⟩, rfl⟩
  refine ⟨fun hfree ↦ ?_,
    hsound.of_assertion (P := fun x ↦ ∀ e ∈ x.expected, |e.1 - e.2| = 1) fun p x hx ↦ ?_⟩
  · obtain ⟨hbounded, hlast⟩ := hsound.free hfree
    exact ⟨hbounded.nonneg, hbounded.le, hlast⟩
  · rcases p with _ | ⟨_ | ⟨role, i, place⟩⟩ <;> exact hx.1.expected

/-- A consumer times out while a producer has the lock, comes back for the item and takes it. -/
def oneItem : List (Nat × Action) :=
  [(3, .go), (1, .go), (1, .lockWhenWithTimeout true), (1, .go), (1, .go), (1, .go), (1, .go),
    (1, .go), (3, .lockWhenWithTimeout false), (3, .go), (3, .go), (3, .lockWhenWithTimeout true),
    (3, .go), (3, .go), (3, .go), (3, .go), (3, .go), (0, .go), (2, .go), (3, .go)]

theorem bounded_of_run_oneItem :
    ∃ s, run program.step (init 2 1) oneItem = some s ∧
      (s.holder = none →
        0 ≤ s.shared.inventory ∧ s.shared.inventory ≤ 30 ∧ s.shared.last = s.shared.inventory) ∧
      ∀ e ∈ s.shared.expected, |e.1 - e.2| = 1 :=
  ⟨_, rfl, @bounded_of_run 2 1 oneItem _ rfl⟩

end CppDemo.Abseil.Inventory
