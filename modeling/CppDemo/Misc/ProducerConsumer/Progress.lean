import CppDemo.Foundation.Progress
import CppDemo.Misc.ProducerConsumer

/-!
# Every consumer keeps the queue going

A consumer that is about to look at the flag may find that there is nothing to do, and may then be
put to sleep by `cv.wait` for as long as nothing is produced. While something is in the queue, no
consumer is blocked, and two sections of any one of them under the lock are enough for everything
that is in the queue to be consumed. So no value stays in the queue while a consumer goes on,
however often the others are chosen instead.

Source: `misc/producer_consumer.cpp`, the lambda `consumer`.

## Main definitions

* `Action.isOf` : the sections of a consumer under the lock.
* `State.sections` : how many sections of a consumer it takes until the first values are consumed.

## Main results

* `State.Inv.sections_le` : a section of the consumer lowers the number, and nothing raises it.
* `consumed_of_run` : what has been produced is consumed after two sections of one consumer.
-/

namespace CppDemo.Misc.ProducerConsumer

open Transition

/-- A section of the consumer `c` under the lock. -/
def Action.isOf (c : Nat) : Action → Bool
  | produce | spurious _ => false
  | look d | consume d => d = c

/-- How many sections of the consumer `c` it takes until the first `k` values are consumed. -/
def State.sections (s : State) (k c : Nat) : Nat :=
  if k ≤ s.consumed.length then 0 else if s.consumers[c]? = some .asleep then 1 else 2

variable {s t : State} {a : Action} {n k c : Nat}

theorem State.sections_of_le (h : k ≤ s.consumed.length) (c : Nat) : s.sections k c = 0 := if_pos h

theorem State.sections_of_lt (h : s.consumed.length < k) (c : Nat) :
    s.sections k c = if s.consumers[c]? = some .asleep then 1 else 2 :=
  if_neg (Nat.not_le.mpr h)

theorem State.sections_le_two (s : State) (k c : Nat) : s.sections k c ≤ 2 := by
  unfold State.sections
  split_ifs <;> omega

theorem State.sections_pos (s : State) (h : s.consumed.length < k) (c : Nat) :
    0 < s.sections k c := by
  rw [State.sections_of_lt h]
  split_ifs <;> omega

/-- While one of the first values is not consumed, it is in the queue. -/
theorem State.Inv.buffer_ne_nil (h : s.Inv n) (hk : k ≤ n) (hlt : s.consumed.length < k) :
    s.buffer ≠ [] := by
  intro hnil
  have hlength := congrArg List.length h.values
  rw [hnil, List.append_nil, length_produced] at hlength
  omega

theorem notify_eq_asleep {place : Place} : place.notify = .asleep ↔ place = .asleep := by
  cases place <;> simp [Place.notify]

/-- Nobody starts to sleep or stops sleeping when something is produced. -/
theorem State.sections_produce (s : State) (k c : Nat) :
    s.produce.sections k c = s.sections k c := by
  have hasleep : s.produce.consumers[c]? = some .asleep ↔ s.consumers[c]? = some .asleep := by
    simp [State.produce, notify_eq_asleep]
  simp only [State.sections, hasleep]
  rfl

/-- What another consumer does makes no difference. -/
theorem State.sections_move_of_ne (s : State) (k : Nat) {c d : Nat} (hne : d ≠ c) (place : Place) :
    (s.move d place).sections k c = s.sections k c := by
  simp only [State.sections, State.move, List.getElem?_set_ne hne]

/-- A consumer that looks while something is in the queue falls asleep. -/
theorem State.Inv.sections_look (h : s.Inv n) (hk : k ≤ n) {d : Nat}
    (hd : s.consumers[d]? = some .start ∨ s.consumers[d]? = some .woken) (c : Nat) :
    (s.move d (if s.notified then .asleep else .waiting)).sections k c ≤
      s.sections k c - [Action.look d].countP (Action.isOf c) := by
  rcases Nat.lt_or_ge s.consumed.length k with hlt | hge
  · have hnotified : s.notified = true := h.notified.mpr (h.buffer_ne_nil hk hlt)
    by_cases hdc : d = c
    · subst hdc
      have hlength : d < s.consumers.length := by
        obtain hd | hd := hd <;> exact (List.getElem?_eq_some_iff.mp hd).1
      have hnot : s.consumers[d]? ≠ some .asleep := by
        obtain hd | hd := hd <;> simp [hd]
      rw [State.sections_of_lt hlt, if_neg hnot]
      rw [State.sections_of_lt (s := s.move d _) hlt]
      simp [State.move, hnotified, hlength, Action.isOf]
    · rw [s.sections_move_of_ne k hdc]
      simp [Action.isOf, hdc]
  · rw [State.sections_of_le (s := s.move d _) hge]
    exact Nat.zero_le _

/-- A section of the consumer lowers the number, and no step raises it. -/
theorem State.Inv.sections_le (h : s.Inv n) (hk : k ≤ n)
    (hstep : ProducerConsumer.step s a = some t) (c : Nat) :
    t.sections k c ≤ s.sections k c - [a].countP (Action.isOf c) := by
  cases a with
  | produce =>
    obtain rfl := Option.some.inj hstep
    rw [State.sections_produce]
    simp [Action.isOf]
  | spurious d =>
    obtain ⟨hd, hstep⟩ := Option.ite_none_right_eq_some.mp hstep
    obtain rfl := Option.some.inj hstep
    -- Nobody waits while something is in the queue.
    have hle : k ≤ s.consumed.length := by
      by_contra hlt
      exact h.awake (h.buffer_ne_nil hk (Nat.lt_of_not_le hlt)) (List.mem_of_getElem? hd)
    rw [State.sections_of_le (s := s.move d .woken) hle]
    exact Nat.zero_le _
  | look d =>
    obtain ⟨hd, hstep⟩ := Option.ite_none_right_eq_some.mp hstep
    obtain rfl := Option.some.inj hstep
    exact h.sections_look hk hd c
  | consume d =>
    obtain ⟨-, hstep⟩ := Option.ite_none_right_eq_some.mp hstep
    obtain rfl := Option.some.inj hstep
    have hle : k ≤ (s.consume.move d .start).consumed.length := by
      have hlength := congrArg List.length h.values
      simp only [State.move, State.consume_eq]
      rw [hlength, length_produced]
      exact hk
    rw [State.sections_of_le hle]
    exact Nat.zero_le _

theorem length_consumers_of_step (hstep : step s a = some t) :
    t.consumers.length = s.consumers.length := by
  obtain ⟨-, rfl⟩ | ⟨c, place, -, -, rfl⟩ | ⟨c, -, rfl⟩ := step_cases hstep
  · simp [State.produce]
  · simp [State.move]
  · simp [State.move, State.consume_eq]

/-- The first values that have been consumed are the first ones that have been produced. -/
theorem State.Inv.consumed_produced (h : s.Inv n) (hk : k ≤ s.consumed.length) :
    produced k <+: s.consumed := by
  have hall : s.consumed <+: produced n := h.values ▸ List.prefix_append _ _
  have hle : k ≤ n := Nat.le_trans hk (by simpa using hall.length_le)
  have hprefix : produced k <+: produced n := by
    have htake := List.take_prefix k (List.range n)
    rw [List.take_range, Nat.min_eq_left hle] at htake
    exact htake.map Int32.ofNat
  exact List.prefix_of_prefix_length_le hprefix hall (by simpa using hk)

/-- While something is in the queue, every consumer can go on. -/
theorem State.Inv.enabled (h : s.Inv n) (hbuffer : s.buffer ≠ []) (hc : c < s.consumers.length) :
    ∃ a, Action.isOf c a = true ∧ (ProducerConsumer.step s a).isSome = true := by
  have hplace : s.consumers[c]? = some s.consumers[c] := List.getElem?_eq_getElem hc
  cases hcons : s.consumers[c] with
  | start => exact ⟨.look c, by simp [Action.isOf], by simp [ProducerConsumer.step, hplace, hcons]⟩
  | waiting => exact absurd (hcons ▸ List.getElem_mem hc) (h.awake hbuffer)
  | woken => exact ⟨.look c, by simp [Action.isOf], by simp [ProducerConsumer.step, hplace, hcons]⟩
  | asleep =>
    exact ⟨.consume c, by simp [Action.isOf], by simp [ProducerConsumer.step, hplace, hcons]⟩

/-- While something is in the queue, no consumer is blocked, and whatever all the threads do next,
two sections of one consumer are enough for everything that has been produced to be consumed, in
order. -/
theorem consumed_of_run {n c : Nat} {as bs : List Action} {s t : State}
    (hs : run step (init n) as = some s) (hc : c < n) (ht : run step s bs = some t) :
    (s.buffer ≠ [] → ∃ a, Action.isOf c a = true ∧ (step s a).isSome = true) ∧
      (2 ≤ bs.countP (Action.isOf c) → produced (as.count .produce) <+: t.consumed) := by
  have hinv : s.Inv (as.count .produce) := inv_of_run hs
  have hlength : s.consumers.length = n :=
    run_invariant (P := fun s ↦ s.consumers.length = n)
      (fun _ _ _ h hstep ↦ (length_consumers_of_step hstep).trans h) hs List.length_replicate
  refine ⟨fun hbuffer ↦ hinv.enabled hbuffer (hlength.symm ▸ hc), fun hcount ↦ ?_⟩
  -- `Kept u` is kept by the run, and the measure of the values of `s` is zero at its end.
  let k := as.count .produce
  let Kept (u : State) : Prop := ∃ n, u.Inv n ∧ k ≤ n
  have hkept : ∀ u a v, Kept u → step u a = some v → Kept v := by
    rintro u a v ⟨n, h, hle⟩ hstep
    exact ⟨_, h.step hstep, Nat.le_trans hle (Nat.le_add_right n _)⟩
  have hsections : t.sections k c ≤ s.sections k c - bs.countP (Action.isOf c) := by
    refine measure_le_of_run (μ := fun u ↦ u.sections k c) hkept ?_ ht ⟨k, hinv, Nat.le_refl k⟩
    rintro u a v ⟨n, h, hle⟩ hstep
    exact h.sections_le hle hstep c
  obtain ⟨n, htinv, -⟩ : Kept t := run_invariant hkept ht ⟨k, hinv, Nat.le_refl k⟩
  have hle : k ≤ t.consumed.length := by
    have htwo : s.sections k c ≤ 2 := s.sections_le_two k c
    by_contra hlt
    have hpos := t.sections_pos (Nat.lt_of_not_le hlt) c
    omega
  exact htinv.consumed_produced hle

/-- Both consumers wait while two values are produced. -/
def twoProduced : List Action := [.look 0, .look 1, .produce, .produce]

/-- One more value is produced before the first consumer has slept. -/
def twoSections : List Action := [.look 1, .look 0, .produce, .consume 0, .consume 1]

theorem consumed_of_run_twoSections :
    ∃ s t, run step (init 2) twoProduced = some s ∧ run step s twoSections = some t ∧
      (s.buffer ≠ [] → ∃ a, Action.isOf 0 a = true ∧ (step s a).isSome = true) ∧
      (2 ≤ twoSections.countP (Action.isOf 0) →
        produced (twoProduced.count .produce) <+: t.consumed) :=
  ⟨_, _, rfl, rfl, consumed_of_run (n := 2) (c := 0) (s := _) (t := _)
    (show run step (init 2) twoProduced = some _ from rfl) (by decide)
    (show run step _ twoSections = some _ from rfl)⟩

end CppDemo.Misc.ProducerConsumer
