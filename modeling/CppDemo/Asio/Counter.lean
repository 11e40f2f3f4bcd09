import CppDemo.Foundation.Transition
import Mathlib.Data.List.TakeDrop
import Mathlib.Data.List.Range
import Mathlib.Tactic.Common

/-!
# A counter with two timers

Two timers count down together. The handler of each prints the count, lowers it and waits again
unless it has reached zero. A strand runs the handlers one at a time. The handler that reaches zero
leaves a wait of the other timer behind, whose handler does nothing.

Source: `asio/timer/timer5.cpp`.

## Main definitions

* `Counter.print1`, `Counter.print2` : the two handlers.
* `Counter.step` : the strand runs the handler of a wait that is pending.
* `Counter.Phase` : the states of a run, with the number of handlers that have run.

## Main results

* `Counter.Phase.step` : every handler leads to the next phase.
* `Counter.countsDown_of_run` : every run prints the counts in order, and ends with its last
  handler.
-/

namespace CppDemo.Asio

open Transition

inductive Timer
  | timer1
  | timer2
  deriving DecidableEq, Repr

def Timer.other : Timer → Timer
  | timer1 => timer2
  | timer2 => timer1

structure Counter where
  count : Int
  /-- How many waits of a timer are pending. -/
  waits : Timer → Nat
  /-- What has been printed, in order. -/
  printed : List (Timer × Int)

namespace Counter

/-- `async_wait`. -/
def asyncWait (self : Counter) (timer : Timer) : Counter :=
  { self with waits := Function.update self.waits timer (self.waits timer + 1) }

/-- The constructor. -/
def ofCount (count : Int) : Counter :=
  let self : Counter := { count, waits := fun _ ↦ 0, printed := [] }
  (self.asyncWait .timer1).asyncWait .timer2

/-- The handler of a timer. -/
def print (timer : Timer) (self : Counter) : Counter :=
  if self.count = 0 then self
  else
    let self :=
      { self with count := self.count - 1, printed := self.printed ++ [(timer, self.count)] }
    if self.count ≠ 0 then self.asyncWait timer else self

def print1 : Counter → Counter := print .timer1

def print2 : Counter → Counter := print .timer2

/-- A wait of the timer is over. -/
def expire (self : Counter) (timer : Timer) : Counter :=
  { self with waits := Function.update self.waits timer (self.waits timer - 1) }

/-- The handler that a timer is given. -/
def handler : Timer → Counter → Counter
  | .timer1 => print1
  | .timer2 => print2

/-- The strand runs the handler of a timer, if a wait of the timer is pending. -/
def step (self : Counter) (timer : Timer) : Option Counter :=
  if 0 < self.waits timer then some (handler timer (self.expire timer)) else none

theorem handler_eq (timer : Timer) : handler timer = print timer := by
  cases timer <;> rfl

theorem step_eq_some {self next : Counter} {timer : Timer} :
    self.step timer = some next ↔
      0 < self.waits timer ∧ print timer (self.expire timer) = next := by
  rw [step, Option.ite_none_right_eq_some, Option.some.injEq, handler_eq]

theorem print_of_eq_zero {self : Counter} (h : self.count = 0) (timer : Timer) :
    print timer self = self := if_pos h

/-- A handler that does not reach zero waits again. -/
theorem print_of_one_lt {self : Counter} (h : 1 < self.count) (timer : Timer) :
    print timer self =
      asyncWait ⟨self.count - 1, self.waits, self.printed ++ [(timer, self.count)]⟩ timer := by
  have hcount : self.count ≠ 0 := by omega
  have hnext : self.count - 1 ≠ 0 := by omega
  simp only [print, if_neg hcount, if_pos hnext]

theorem print_of_eq_one {self : Counter} (h : self.count = 1) (timer : Timer) :
    print timer self = ⟨0, self.waits, self.printed ++ [(timer, 1)]⟩ := by
  simp [print, h]

/-- The counts from `count` down to one. -/
def countdown (count : Nat) : List Int := (List.range count).map fun k : Nat ↦ (count : Int) - k

theorem length_countdown (count : Nat) : (countdown count).length = count := by
  rw [countdown, List.length_map, List.length_range]

theorem take_countdown_succ {count k : Nat} (h : k < count) :
    (countdown count).take (k + 1) = (countdown count).take k ++ [(count : Int) - k] := by
  have hk : k < (countdown count).length := by rwa [length_countdown]
  rw [List.take_succ_eq_append_getElem hk]
  simp [countdown]

/-- Only `timer` waits. -/
def onlyWaits (timer : Timer) : Timer → Nat := Function.update (fun _ ↦ 0) timer 1

/-- The states of a run of a counter from `count` down, with the number of handlers that have
run. -/
inductive Phase (count : Nat) : Nat → Counter → Prop
  /-- Both timers wait. -/
  | both {k : Nat} {printed : List (Timer × Int)} (hk : k < count)
      (hprinted : printed.map Prod.snd = (countdown count).take k) :
      Phase count k ⟨(count : Int) - k, fun _ ↦ 1, printed⟩
  /-- The count is zero, and one timer still waits. -/
  | one (timer : Timer) {printed : List (Timer × Int)}
      (hprinted : printed.map Prod.snd = countdown count) :
      Phase count count ⟨0, onlyWaits timer, printed⟩
  /-- No timer waits. -/
  | none {printed : List (Timer × Int)} (hprinted : printed.map Prod.snd = countdown count) :
      Phase count (count + 1) ⟨0, fun _ ↦ 0, printed⟩

/-- One wait of each timer. -/
theorem ofCount_waits (count : Int) (timer : Timer) : (ofCount count).waits timer = 1 := by
  cases timer <;> rfl

theorem phase_ofCount {count : Nat} (h : 0 < count) : Phase count 0 (ofCount count) := by
  have hinit : ofCount count = ⟨(count : Int) - (0 : Nat), fun _ ↦ 1, []⟩ := by
    rw [← funext (ofCount_waits count), Int.natCast_zero, Int.sub_zero]
    rfl
  rw [hinit]
  exact .both h rfl

variable {count k : Nat} {self next : Counter}

/-- When both timers wait and one expires, the other one still waits. -/
theorem expire_both (count : Int) (printed : List (Timer × Int)) (timer : Timer) :
    expire ⟨count, fun _ ↦ 1, printed⟩ timer = ⟨count, onlyWaits timer.other, printed⟩ := by
  have hwaits : Function.update (fun _ : Timer ↦ 1) timer 0 = onlyWaits timer.other := by
    funext other
    cases timer <;> cases other <;> rfl
  rw [← hwaits]
  rfl

/-- When the only timer that waits expires, no timer waits. -/
theorem expire_onlyWaits (count : Int) (printed : List (Timer × Int)) (timer : Timer) :
    expire ⟨count, onlyWaits timer, printed⟩ timer = ⟨count, fun _ ↦ 0, printed⟩ := by
  simp [expire, onlyWaits]

/-- When the timer that does not wait is armed, both timers wait. -/
theorem asyncWait_other (count : Int) (printed : List (Timer × Int)) (timer : Timer) :
    asyncWait ⟨count, onlyWaits timer.other, printed⟩ timer = ⟨count, fun _ ↦ 1, printed⟩ := by
  have hwaits : Function.update (onlyWaits timer.other) timer (onlyWaits timer.other timer + 1) =
      fun _ ↦ 1 := by
    funext other
    cases timer <;> cases other <;> rfl
  rw [← hwaits]
  rfl

theorem onlyWaits_pos {timer other : Timer} (h : 0 < onlyWaits timer other) : other = timer := by
  by_contra hne
  rw [onlyWaits, Function.update_of_ne hne] at h
  exact Nat.lt_irrefl 0 h

/-- Every handler leads to the next phase. -/
theorem Phase.step (h : Phase count k self) {timer : Timer} (hstep : self.step timer = some next) :
    Phase count (k + 1) next := by
  obtain ⟨hwaits, rfl⟩ := step_eq_some.mp hstep
  cases h with
  | @both k printed hk hprinted =>
    have hnext : (printed ++ [(timer, (count : Int) - k)]).map Prod.snd =
        (countdown count).take (k + 1) := by
      rw [List.map_append, hprinted, take_countdown_succ hk, List.map_singleton]
    rw [expire_both]
    rcases Nat.lt_or_ge (k + 1) count with hlt | hge
    · -- The count does not reach zero, and the timer waits again.
      have hone : 1 < (count : Int) - k := by omega
      have hcount : (count : Int) - k - 1 = count - (k + 1 : Nat) := by omega
      rw [print_of_one_lt hone, asyncWait_other, hcount]
      exact .both hlt hnext
    · -- This handler prints one, and only the other timer still waits.
      obtain rfl : count = k + 1 := by omega
      have hone : ((k + 1 : Nat) : Int) - k = 1 := by omega
      rw [hone] at hnext ⊢
      rw [print_of_eq_one rfl]
      rw [List.take_of_length_le (Nat.le_of_eq (length_countdown _))] at hnext
      exact .one timer.other hnext
  | one last hprinted =>
    obtain rfl := onlyWaits_pos hwaits
    rw [expire_onlyWaits, print_of_eq_zero rfl]
    exact .none hprinted
  | none hprinted => exact absurd hwaits (Nat.lt_irrefl 0)

/-- A run goes through the phases. -/
theorem Phase.run (h : Phase count k self) {timers : List Timer}
    (hrun : run Counter.step self timers = some next) : Phase count (k + timers.length) next := by
  refine run_history (P := fun timers next ↦ Phase count (k + timers.length) next)
    (fun timers _ timer _ hphase hstep ↦ ?_) hrun h
  rw [List.length_append, List.length_singleton, ← Nat.add_assoc]
  exact hphase.step hstep

/-- In every phase the counts have been printed in order, and some timer waits in all but the
last. -/
theorem Phase.countsDown (h : Phase count k self) :
    0 ≤ self.count ∧ self.printed.map Prod.snd = (countdown count).take k ∧ k ≤ count + 1 ∧
      (k = count + 1 ↔ ∀ timer, self.waits timer = 0) := by
  have htake {m : Nat} (hm : count ≤ m) : (countdown count).take m = countdown count :=
    List.take_of_length_le ((length_countdown count).le.trans hm)
  cases h with
  | both hk hprinted =>
    refine ⟨by simp only; omega, hprinted, by omega, iff_of_false (by omega) fun h ↦ ?_⟩
    exact absurd (h .timer1) Nat.one_ne_zero
  | one timer hprinted =>
    refine ⟨Int.le_refl 0, hprinted.trans (htake (Nat.le_refl _)).symm, by omega,
      iff_of_false (by omega) fun h ↦ ?_⟩
    have hone : onlyWaits timer timer = 1 := Function.update_self ..
    exact absurd (hone.symm.trans (h timer)) Nat.one_ne_zero
  | none hprinted =>
    exact ⟨Int.le_refl 0, hprinted.trans (htake (Nat.le_succ _)).symm, Nat.le_refl _,
      iff_of_true rfl fun _ ↦ rfl⟩

/-- In every run of a counter from `count` down, the handlers that have run have printed as many
counts from `count` down to one, the count is not negative, and no wait is pending exactly if
`count + 1` handlers have run. -/
theorem countsDown_of_run {count : Nat} (hcount : 0 < count) {timers : List Timer} {self : Counter}
    (hrun : Transition.run step (ofCount count) timers = some self) :
    0 ≤ self.count ∧ self.printed.map Prod.snd = (countdown count).take timers.length ∧
      timers.length ≤ count + 1 ∧
      (timers.length = count + 1 ↔ ∀ timer, self.waits timer = 0) := by
  have hphase := (phase_ofCount hcount).run hrun
  rw [Nat.zero_add] at hphase
  exact hphase.countsDown

/-- Both counts are printed by the second timer. -/
def secondFirst : List Timer := [.timer2, .timer2, .timer1]

theorem countsDown_of_run_secondFirst :
    ∃ self, Transition.run step (ofCount (2 : Nat)) secondFirst = some self ∧
      0 ≤ self.count ∧ self.printed.map Prod.snd = (countdown 2).take secondFirst.length ∧
      secondFirst.length ≤ 2 + 1 ∧
      (secondFirst.length = 2 + 1 ↔ ∀ timer, self.waits timer = 0) := by
  obtain ⟨self, hself⟩ : ∃ self, Transition.run step (ofCount (2 : Nat)) secondFirst = some self :=
    ⟨_, rfl⟩
  exact ⟨self, hself, countsDown_of_run (by decide) hself⟩

end Counter

end CppDemo.Asio
