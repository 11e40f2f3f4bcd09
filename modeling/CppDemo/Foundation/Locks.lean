import Mathlib.Data.Multiset.AddSub
import Mathlib.Logic.Relation

/-!
# Locks

Threads hold locks and request further ones. A lock is held in one of two modes: any number of
threads share it, or one of them holds it exclusively. The locks that all threads hold together are
a multiset of pairs of a lock and a mode.

Threads can wait for each other in a circle. They do not when the locks have ranks, in any order,
such that a thread requests only locks that rank above all it holds. The ranks may be chosen anew in
every state.

## Main definitions

* `Locks.Grants` : a request does not conflict with the locks that are held.
* `Locks.Consistent` : a lock that is held exclusively is held once.
* `Locks.WaitsFor` : a thread requests a lock that another one holds.

## Main results

* `Locks.Consistent.cons`, `Locks.Consistent.mono` : granting a request and releasing locks.
* `Locks.acyclic_of_rank` : threads that request locks in the order of their ranks do not wait for
  each other in a circle.
-/

namespace Locks

variable {Λ θ : Type*}

inductive Mode
  | shared
  | exclusive
  deriving DecidableEq, Repr

/-! ### Granting and releasing -/

section Consistent

variable {held held' : Multiset (Λ × Mode)} {l : Λ} {mode : Mode} {x : Λ × Mode}

/-- A request does not conflict with the locks that are held. -/
def Grants (held : Multiset (Λ × Mode)) : Λ × Mode → Prop
  | (l, .shared) => (l, .exclusive) ∉ held
  | (l, .exclusive) => (l, .exclusive) ∉ held ∧ (l, .shared) ∉ held

instance [DecidableEq Λ] (held : Multiset (Λ × Mode)) : DecidablePred (Grants held)
  | (l, .shared) => inferInstanceAs (Decidable ((l, .exclusive) ∉ held))
  | (l, .exclusive) =>
    inferInstanceAs (Decidable ((l, .exclusive) ∉ held ∧ (l, .shared) ∉ held))

theorem Grants.exclusive_not_mem (h : Grants held (l, mode)) : (l, .exclusive) ∉ held := by
  cases mode with
  | shared => exact h
  | exclusive => exact h.1

theorem Grants.not_mem (h : Grants held (l, .exclusive)) (mode : Mode) : (l, mode) ∉ held := by
  cases mode with
  | shared => exact h.2
  | exclusive => exact h.1

/-- A lock that is held exclusively is held once. -/
def Consistent (held : Multiset (Λ × Mode)) : Prop :=
  ∀ l rest, held = (l, .exclusive) ::ₘ rest → ∀ mode, (l, mode) ∉ rest

theorem consistent_zero : Consistent (0 : Multiset (Λ × Mode)) :=
  fun _ _ h ↦ absurd h Multiset.zero_ne_cons

/-- Locks are released. -/
theorem Consistent.mono (h : Consistent held) (hle : held' ≤ held) : Consistent held' := by
  rintro l rest rfl mode hmem
  obtain ⟨d, rfl⟩ := Multiset.le_iff_exists_add.mp hle
  exact h l (rest + d) (Multiset.cons_add ..) mode (Multiset.mem_add.mpr (Or.inl hmem))

/-- A request is granted. -/
theorem Consistent.cons (h : Consistent held) (hx : Grants held x) : Consistent (x ::ₘ held) := by
  intro l rest hcons mode hmem
  rcases Multiset.cons_eq_cons.mp hcons with ⟨rfl, rfl⟩ | ⟨-, rest', rfl, rfl⟩
  · exact hx.not_mem mode hmem
  · rcases Multiset.mem_cons.mp hmem with rfl | hmem
    · exact hx.exclusive_not_mem (Multiset.mem_cons_self ..)
    · exact h l rest' rfl mode hmem

end Consistent

/-! ### Waiting in a circle -/

section WaitsFor

variable (holds requests : θ → Λ → Prop)

/-- A thread requests a lock that another one holds. -/
def WaitsFor (t u : θ) : Prop := ∃ l, requests t l ∧ holds u l

variable {holds requests} {ρ : Type*} [Preorder ρ] {rank : Λ → ρ}

/-- From one thread to the next, the locks that are requested rise in rank. -/
theorem exists_rank_le (hrank : ∀ t l l', requests t l → holds t l' → rank l' < rank l) {t u : θ}
    (h : Relation.TransGen (WaitsFor holds requests) t u) :
    ∃ l l', requests t l ∧ holds u l' ∧ rank l ≤ rank l' := by
  induction h with
  | single h =>
    obtain ⟨l, hl, hl'⟩ := h
    exact ⟨l, l, hl, hl', le_rfl⟩
  | tail _ h ih =>
    obtain ⟨l, l', hl, hl', hle⟩ := ih
    obtain ⟨l'', hrequests, hholds⟩ := h
    exact ⟨l, l'', hl, hholds, hle.trans (hrank _ _ _ hrequests hl').le⟩

/-- Threads that request only locks that rank above those they hold do not wait for each other in a
circle. -/
theorem acyclic_of_rank (hrank : ∀ t l l', requests t l → holds t l' → rank l' < rank l) (t : θ) :
    ¬Relation.TransGen (WaitsFor holds requests) t t := by
  intro h
  obtain ⟨l, l', hl, hl', hle⟩ := exists_rank_le hrank h
  exact (hrank t l l' hl hl').not_ge hle

/-- Such a thread does not request a lock that it holds. -/
theorem not_holds_of_rank (hrank : ∀ t l l', requests t l → holds t l' → rank l' < rank l) {t : θ}
    {l : Λ} (h : requests t l) : ¬holds t l :=
  fun hl ↦ acyclic_of_rank hrank t (.single ⟨l, h, hl⟩)

end WaitsFor

end Locks
