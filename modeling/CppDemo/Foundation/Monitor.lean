import CppDemo.Foundation.Progress

/-!
# Threads that share variables under a lock

Any number of threads run statements over shared variables. At some places of its program a thread
holds the lock; it waits for the lock to be free before it goes to such a place from another one,
and releases it when it leaves for one. The statements of the threads may interleave at will.

A proof outline gives an assertion for each place at which the lock is held and one for the times at
which it is free. What a thread does outside of its sections must not disturb the assertions of the
thread that holds the lock.

## Main definitions

* `Monitor` : the statements of the threads.
* `Monitor.step` : a thread runs its next statement.
* `Monitor.Outline` : the assertions of a proof outline.

## Main results

* `Monitor.Sound.step` : every step keeps the assertions of an outline.
* `Monitor.sound_of_run` : they hold in every state of a run.
* `Monitor.exists_step`, `Monitor.sum_of_step` : who can go on, and what it does to a measure of the
  places.
-/

/-- Programs of threads over the shared variables `σ`. -/
structure Monitor (π α σ : Type*) where
  /-- A thread holds the lock at this place. -/
  inside : π → Bool
  /-- The statement at a place: the next place and the variables after it, `none` if the statement
  cannot go on in this way. -/
  next : π → α → σ → Option (π × σ)

namespace Monitor

open Transition

variable {π α σ : Type*}

/-- The threads, by their places, and the thread that holds the lock. -/
structure State (π σ : Type*) where
  shared : σ
  holder : Option Nat
  threads : List π
  deriving DecidableEq, Repr

/-- Nobody holds the lock. -/
def init (shared : σ) (threads : List π) : State π σ := { shared, holder := none, threads }

variable (M : Monitor π α σ)

/-- Who holds the lock after the thread `t` has gone from `p` to `p'`, `none` if it has to wait. -/
def lock (t : Nat) (p p' : π) (holder : Option Nat) : Option (Option Nat) :=
  match M.inside p, M.inside p' with
  | false, true => if holder = none then some (some t) else none
  | true, false => some none
  | _, _ => some holder

/-- The thread `a.1` runs its next statement. -/
def step (s : State π σ) (a : Nat × α) : Option (State π σ) :=
  s.threads[a.1]?.bind fun p ↦ (M.next p a.2 s.shared).bind fun (p', shared) ↦
    (M.lock a.1 p p' s.holder).map fun holder ↦
      { shared, holder, threads := s.threads.set a.1 p' }

/-- The place whose assertion a statement at `p` relies on: `p` itself inside of a section, and
none, for the free lock, outside. -/
def heldAt (p : π) : Option π := if M.inside p then some p else none

/-- The assertions of a proof outline. -/
structure Outline where
  /-- What holds while the lock is free, and while a thread at some place holds it. -/
  assertion : Option π → σ → Prop
  /-- A statement leads from the assertion of its place to that of the next one. -/
  own : ∀ {p p' a x x'}, M.next p a x = some (p', x') → assertion (M.heldAt p) x →
    assertion (M.heldAt p') x'
  /-- A statement outside of a section leaves the assertion of the thread inside as it is. -/
  interfere : ∀ {q p p' a x x'}, M.inside p = false → M.inside p' = false →
    M.next p a x = some (p', x') → assertion (some q) x → assertion (some q) x'

variable {M}

/-- What a step does. -/
theorem step_cases {s s' : State π σ} {t : Nat} {a : α} (h : M.step s (t, a) = some s') :
    ∃ p p' shared holder, s.threads[t]? = some p ∧ M.next p a s.shared = some (p', shared) ∧
      M.lock t p p' s.holder = some holder ∧
      s' = { shared, holder, threads := s.threads.set t p' } := by
  obtain ⟨p, hp, h⟩ := Option.bind_eq_some_iff.mp h
  obtain ⟨⟨p', shared⟩, hnext, h⟩ := Option.bind_eq_some_iff.mp h
  obtain ⟨holder, hlock, rfl⟩ := Option.map_eq_some_iff.mp h
  exact ⟨p, p', shared, holder, hp, hnext, hlock, rfl⟩

/-- The lock goes to a thread, is released, or stays where it is. -/
theorem lock_cases {t : Nat} {p p' : π} {holder holder' : Option Nat}
    (h : M.lock t p p' holder = some holder') :
    (M.inside p = false ∧ M.inside p' = true ∧ holder = none ∧ holder' = some t) ∨
      (M.inside p = true ∧ M.inside p' = false ∧ holder' = none) ∨
      (M.inside p = M.inside p' ∧ holder' = holder) := by
  rw [lock] at h
  cases hp : M.inside p <;> cases hp' : M.inside p' <;> rw [hp, hp'] at h
  · exact .inr (.inr ⟨rfl, (Option.some.inj h).symm⟩)
  · obtain ⟨hfree, h⟩ := Option.ite_none_right_eq_some.mp h
    exact .inl ⟨rfl, rfl, hfree, (Option.some.inj h).symm⟩
  · exact .inr (.inl ⟨rfl, rfl, (Option.some.inj h).symm⟩)
  · exact .inr (.inr ⟨rfl, (Option.some.inj h).symm⟩)

/-- What holds in every state of a run. -/
structure Sound (O : M.Outline) (s : State π σ) : Prop where
  /-- The threads inside their sections are those that hold the lock. -/
  inside_iff : ∀ t p, s.threads[t]? = some p → (M.inside p = true ↔ s.holder = some t)
  free : s.holder = none → O.assertion none s.shared
  held : ∀ t, s.holder = some t → ∃ p, s.threads[t]? = some p ∧ O.assertion (some p) s.shared

variable {O : M.Outline} {s s' : State π σ} {t : Nat} {a : α}

theorem sound_init {shared : σ} {threads : List π} (hthreads : ∀ p ∈ threads, M.inside p = false)
    (hshared : O.assertion none shared) : Sound O (init shared threads) where
  inside_iff t p hp := by simp [init, hthreads p (List.mem_of_getElem? hp)]
  free _ := hshared
  held t ht := absurd ht (by simp [init])

/-- A thread that does not hold the lock is outside of its sections. -/
theorem Sound.inside_eq_false (h : Sound O s) {p : π} (hp : s.threads[t]? = some p)
    (ht : s.holder ≠ some t) : M.inside p = false := by
  rw [← Bool.not_eq_true, h.inside_iff t p hp]
  exact ht

/-- The thread that holds the lock meets the assertion of its place. -/
theorem Sound.assertion_of_holder (h : Sound O s) {p : π} (hp : s.threads[t]? = some p)
    (ht : s.holder = some t) : O.assertion (some p) s.shared := by
  obtain ⟨q, hq, hassertion⟩ := h.held t ht
  obtain rfl : q = p := Option.some.inj (hq.symm.trans hp)
  exact hassertion

/-- What all assertions imply holds in every state. -/
theorem Sound.of_assertion {P : σ → Prop} (h : Sound O s) (hP : ∀ p x, O.assertion p x → P x) :
    P s.shared := by
  cases hholder : s.holder with
  | none => exact hP _ _ (h.free hholder)
  | some t =>
    obtain ⟨p, -, hassertion⟩ := h.held t hholder
    exact hP _ _ hassertion

section Step

variable {p p' : π} {x : σ}

/-- The place of a thread after the thread `t` has gone to `p'`. -/
theorem eq_or_getElem?_of_set {threads : List π} {u : Nat} {q : π}
    (h : (threads.set t p')[u]? = some q) : (t = u ∧ q = p') ∨ (t ≠ u ∧ threads[u]? = some q) := by
  rw [List.getElem?_set] at h
  split_ifs at h with htu hlt
  · exact .inl ⟨htu, (Option.some.inj h).symm⟩
  · exact .inr ⟨htu, h⟩

theorem getElem?_set_of_some {threads : List π} (hp : threads[t]? = some p) :
    (threads.set t p')[t]? = some p' :=
  List.getElem?_set_self (List.getElem?_eq_some_iff.mp hp).1

/-- A thread takes the lock. -/
theorem Sound.acquire (h : Sound O s) (hp : s.threads[t]? = some p) (hout : M.inside p = false)
    (hin : M.inside p' = true) (hfree : s.holder = none)
    (hnext : M.next p a s.shared = some (p', x)) :
    Sound O { shared := x, holder := some t, threads := s.threads.set t p' } := by
  have hown := O.own hnext
  simp only [heldAt, hout, hin, if_true, Bool.false_eq_true, if_false] at hown
  refine ⟨fun u q hq ↦ ?_, fun hnone ↦ absurd hnone (by simp), fun u hu ↦ ?_⟩
  · obtain ⟨rfl, rfl⟩ | ⟨htu, hq⟩ := eq_or_getElem?_of_set hq
    · simp [hin]
    · -- the lock was free, so that nobody else is inside
      have hqout := h.inside_eq_false hq (by simp [hfree])
      simp [hqout, htu]
  · obtain rfl : t = u := Option.some.inj hu
    exact ⟨p', getElem?_set_of_some hp, hown (h.free hfree)⟩

/-- The thread that holds the lock releases it. -/
theorem Sound.release (h : Sound O s) (hp : s.threads[t]? = some p) (hin : M.inside p = true)
    (hout : M.inside p' = false) (hnext : M.next p a s.shared = some (p', x)) :
    Sound O { shared := x, holder := none, threads := s.threads.set t p' } := by
  have hholder : s.holder = some t := (h.inside_iff t p hp).mp hin
  have hown := O.own hnext
  simp only [heldAt, hout, hin, if_true, Bool.false_eq_true, if_false] at hown
  refine ⟨fun u q hq ↦ ?_, fun _ ↦ hown (h.assertion_of_holder hp hholder),
    fun u hu ↦ absurd hu (by simp)⟩
  obtain ⟨rfl, rfl⟩ | ⟨htu, hq⟩ := eq_or_getElem?_of_set hq
  · simp [hout]
  · have hqout := h.inside_eq_false hq (by simp [hholder, htu])
    simp [hqout]

/-- A thread stays inside of its section, or outside of it. -/
theorem Sound.stay (h : Sound O s) (hp : s.threads[t]? = some p)
    (hsame : M.inside p = M.inside p') (hnext : M.next p a s.shared = some (p', x)) :
    Sound O { shared := x, holder := s.holder, threads := s.threads.set t p' } := by
  have hown := O.own hnext
  refine ⟨fun u q hq ↦ ?_, fun hnone ↦ ?_, fun u hu ↦ ?_⟩
  · obtain ⟨rfl, rfl⟩ | ⟨-, hq⟩ := eq_or_getElem?_of_set hq
    · exact hsame ▸ h.inside_iff t p hp
    · exact h.inside_iff u q hq
  · replace hnone : s.holder = none := hnone
    have hout := h.inside_eq_false hp (by simp [hnone])
    simp only [heldAt, ← hsame, hout, Bool.false_eq_true, if_false] at hown
    exact hown (h.free hnone)
  · replace hu : s.holder = some u := hu
    by_cases htu : t = u
    · subst htu
      have hin : M.inside p = true := (h.inside_iff t p hp).mpr hu
      simp only [heldAt, ← hsame, hin, if_true] at hown
      exact ⟨p', getElem?_set_of_some hp, hown (h.assertion_of_holder hp hu)⟩
    · -- another thread holds the lock
      have hout := h.inside_eq_false hp fun ht ↦ htu (Option.some.inj (ht.symm.trans hu))
      obtain ⟨q, hq, hassertion⟩ := h.held u hu
      exact ⟨q, (List.getElem?_set_ne htu).trans hq,
        O.interfere hout (hsame ▸ hout) hnext hassertion⟩

end Step

/-- Every step keeps the assertions. -/
theorem Sound.step (h : Sound O s) (hstep : M.step s (t, a) = some s') : Sound O s' := by
  obtain ⟨p, p', x, holder, hp, hnext, hlock, rfl⟩ := step_cases hstep
  obtain ⟨hout, hin, hfree, rfl⟩ | ⟨hin, hout, rfl⟩ | ⟨hsame, rfl⟩ := lock_cases hlock
  · exact h.acquire hp hout hin hfree hnext
  · exact h.release hp hin hout hnext
  · exact h.stay hp hsame hnext

/-- The assertions of an outline hold in every state of a run. -/
theorem sound_of_run {as : List (Nat × α)} (hrun : run M.step s as = some s') (h : Sound O s) :
    Sound O s' :=
  run_invariant (fun _ _ _ h hstep ↦ h.step hstep) hrun h

/-! ### Progress -/

/-- A thread can run a statement that is possible if it holds the lock or nobody does. -/
theorem exists_step {s : State π σ} {t : Nat} {a : α} {p p' : π} {x : σ}
    (hp : s.threads[t]? = some p) (hnext : M.next p a s.shared = some (p', x))
    (hlock : M.inside p = true ∨ s.holder = none) : ∃ s', M.step s (t, a) = some s' := by
  have hholder : ∃ holder, M.lock t p p' s.holder = some holder := by
    rw [lock]
    rcases hlock with hin | hfree
    · cases hin' : M.inside p' <;> simp [hin]
    · cases hin : M.inside p <;> cases hin' : M.inside p' <;> simp [hfree]
  obtain ⟨holder, hholder⟩ := hholder
  exact ⟨{ shared := x, holder, threads := s.threads.set t p' },
    by simp [step, hp, hnext, hholder]⟩

/-- A measure of the places changes by what the statement of the thread changes. -/
theorem sum_of_step {s s' : State π σ} {t : Nat} {a : α} (h : M.step s (t, a) = some s') :
    ∃ p p', s.threads[t]? = some p ∧ M.next p a s.shared = some (p', s'.shared) ∧
      ∀ μ : π → Nat, (s'.threads.map μ).sum + μ p = (s.threads.map μ).sum + μ p' := by
  obtain ⟨p, p', x, holder, hp, hnext, -, rfl⟩ := step_cases h
  exact ⟨p, p', hp, hnext, fun μ ↦ sum_map_set μ hp p'⟩

end Monitor
