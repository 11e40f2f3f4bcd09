import Mathlib.Data.Option.Basic
import Mathlib.Tactic.Common

/-!
# Runs of a labelled transition system

A labelled transition system is a function `step : σ → α → Option σ`: `step s a` is the state after
the action `a`, or `none` when `a` is not enabled in `s`. A *run* is a list of actions, each enabled
in the state the earlier ones lead to. Nondeterminism is carried by the labels, so that a run can be
evaluated.

A condition `C : σ → α → Prop` on steps holds *along* a run when each step that the run takes meets
it. Invariants are proved step by step, either for all runs or for the runs along which a condition
holds.

## Main definitions

* `Transition.run` : the state that a list of actions leads to.
* `Transition.Along` : every step of a run meets a condition.
* `Transition.NoneAfter` : after a step that meets a condition there are no actions of some kind.

## Main results

* `Transition.run_invariant` : a property kept by each step holds in every state of a run.
* `Transition.run_invariant_along` : the same for the runs whose steps meet a condition.
* `Transition.run_history` : a relation between the actions so far and the state, kept by each step.
* `Transition.run_iff_noneAfter` : a property that is lost just by an action of some kind after a
  step of another kind.
* `Transition.run_simulation` : a relation that each step carries over is carried over by each run.
* `Transition.run_rel` : two systems whose steps agree up to a relation have the same runs.
-/

namespace Transition

variable {σ α : Type*} (step : σ → α → Option σ)

/-- The state that the actions `as` lead to from `s`, `none` if one of them is not enabled. -/
def run : σ → List α → Option σ
  | s, [] => some s
  | s, a :: as => (step s a).bind fun t ↦ run t as

/-- Every step taken by the actions `as` from `s` meets `C`. -/
def Along (C : σ → α → Prop) : σ → List α → Prop
  | _, [] => True
  | s, a :: as => C s a ∧ ∀ t, step s a = some t → Along C t as

/-- After a step that meets `P`, the actions `as` from `s` have none that meets `Q`. -/
def NoneAfter (P : σ → α → Prop) (Q : α → Prop) : σ → List α → Prop
  | _, [] => True
  | s, a :: as => (P s a → ∀ b ∈ as, ¬Q b) ∧ ∀ t, step s a = some t → NoneAfter P Q t as

@[simp] theorem run_nil (s : σ) : run step s [] = some s := rfl

theorem run_cons {s t : σ} {a : α} {as : List α} :
    run step s (a :: as) = some t ↔ ∃ u, step s a = some u ∧ run step u as = some t :=
  Option.bind_eq_some_iff

theorem run_append {s t : σ} {as bs : List α} :
    run step s (as ++ bs) = some t ↔ ∃ u, run step s as = some u ∧ run step u bs = some t := by
  induction as generalizing s with
  | nil => simp
  | cons a as ih =>
    rw [List.cons_append, run_cons]
    constructor
    · rintro ⟨v, hv, h⟩
      obtain ⟨u, hu, h⟩ := ih.mp h
      exact ⟨u, (run_cons step).mpr ⟨v, hv, hu⟩, h⟩
    · rintro ⟨u, hu, h⟩
      obtain ⟨v, hv, hu⟩ := (run_cons step).mp hu
      exact ⟨v, hv, ih.mpr ⟨u, hu, h⟩⟩

theorem along_cons {C : σ → α → Prop} {s t : σ} {a : α} {as : List α} (h : step s a = some t) :
    Along step C s (a :: as) ↔ C s a ∧ Along step C t as := by
  simp only [Along, h, Option.some.injEq, forall_eq']

instance decidableAlong (C : σ → α → Prop) [∀ s a, Decidable (C s a)] :
    ∀ s as, Decidable (Along step C s as)
  | _, [] => isTrue trivial
  | s, a :: as =>
    match h : step s a with
    | none => decidable_of_iff (C s a) (by simp [Along, h])
    | some t =>
      have := decidableAlong C t as
      decidable_of_iff (C s a ∧ Along step C t as) (along_cons step h).symm

/-- One more step at the end of a run. -/
theorem run_snoc {s t u : σ} {as : List α} {a : α} (h : run step s as = some t)
    (ha : step t a = some u) : run step s (as ++ [a]) = some u :=
  (run_append step).mpr ⟨t, h, (run_cons step).mpr ⟨u, ha, rfl⟩⟩

variable {step}

/-- A property kept by every step that meets `C` is kept by every run along which `C` holds. -/
theorem run_invariant_along {C : σ → α → Prop} {P : σ → Prop}
    (hstep : ∀ s a t, P s → C s a → step s a = some t → P t) {s t : σ} {as : List α}
    (hC : Along step C s as) (hrun : run step s as = some t) (hs : P s) : P t := by
  induction as generalizing s with
  | nil =>
    obtain rfl : s = t := by simpa only [run_nil, Option.some.injEq] using hrun
    exact hs
  | cons a as ih =>
    obtain ⟨u, hu, hrun⟩ := (run_cons step).mp hrun
    exact ih (hC.2 u hu) hrun (hstep s a u hs hC.1 hu)

/-- A condition that every step meets holds along every run. -/
theorem along_of_forall {C : σ → α → Prop} (hC : ∀ s a, C s a) (s : σ) (as : List α) :
    Along step C s as := by
  induction as generalizing s with
  | nil => trivial
  | cons a as ih => exact ⟨hC s a, fun t _ ↦ ih t⟩

/-- A condition on actions that all actions of a run meet holds along the run. -/
theorem along_of_mem {C : σ → α → Prop} {as : List α} (hC : ∀ a ∈ as, ∀ s, C s a) (s : σ) :
    Along step C s as := by
  induction as generalizing s with
  | nil => trivial
  | cons a as ih =>
    exact ⟨hC a List.mem_cons_self s, fun t _ ↦ ih (fun b hb ↦ hC b (List.mem_cons_of_mem a hb)) t⟩

/-- A property kept by every step is kept by every run. -/
theorem run_invariant {P : σ → Prop} (hstep : ∀ s a t, P s → step s a = some t → P t)
    {s t : σ} {as : List α} (hrun : run step s as = some t) (hs : P s) : P t :=
  run_invariant_along (C := fun _ _ ↦ True) (fun s a t h _ ↦ hstep s a t h)
    (along_of_forall (fun _ _ ↦ trivial) s as) hrun hs

/-- A relation between the actions so far and the state that is kept by every step holds at the end
of a run. -/
theorem run_history {P : List α → σ → Prop} {s t : σ} {as : List α}
    (hstep : ∀ as u a v, P as u → step u a = some v → P (as ++ [a]) v)
    (hrun : run step s as = some t) (hs : P [] s) : P as t := by
  have hgeneral : ∀ bs u, P bs u → run step u as = some t → P (bs ++ as) t := by
    clear hrun
    induction as with
    | nil =>
      intro bs u hu hrun
      obtain rfl : u = t := by simpa only [run_nil, Option.some.injEq] using hrun
      rwa [List.append_nil]
    | cons a as ih =>
      intro bs u hu hrun
      obtain ⟨v, hv, hrun⟩ := (run_cons step).mp hrun
      have hlast := ih (bs ++ [a]) v (hstep bs u a v hu hv) hrun
      rwa [List.append_assoc] at hlast
  exact hgeneral [] s hs hrun

/-- A step that meets `P` ends `G`, and an action that meets `Q` keeps `F` only while `G` holds.
Then `F` holds at the end of a run if and only if no action that meets `Q` comes after a step that
meets `P`, or after the start if `G` does not hold there. -/
theorem run_iff_noneAfter {I F G : σ → Prop} {P : σ → α → Prop} {Q : α → Prop}
    (hI : ∀ s a t, I s → step s a = some t → I t)
    (hG : ∀ s a t, I s → step s a = some t → (G t ↔ G s ∧ ¬P s a))
    (hF : ∀ s a t, I s → step s a = some t → (F t ↔ F s ∧ (Q a → G s))) {s t : σ} {as : List α}
    (hrun : run step s as = some t) (hs : I s) :
    F t ↔ F s ∧ (¬G s → ∀ b ∈ as, ¬Q b) ∧ NoneAfter step P Q s as := by
  induction as generalizing s with
  | nil =>
    obtain rfl : s = t := by simpa only [run_nil, Option.some.injEq] using hrun
    simp [NoneAfter]
  | cons a as ih =>
    obtain ⟨u, hu, hrun⟩ := (run_cons step).mp hrun
    have hGu := hG s a u hs hu
    have hFu := hF s a u hs hu
    simp only [ih hrun (hI s a u hs hu), hFu, hGu, NoneAfter, List.forall_mem_cons, hu,
      Option.some.injEq, forall_eq']
    tauto

/-- If a second system can follow each step of the first one with the same action, it can follow
each run. -/
theorem run_simulation {τ : Type*} {step' : τ → α → Option τ} {R : σ → τ → Prop}
    (hstep : ∀ s u a t, R s u → step s a = some t → ∃ v, step' u a = some v ∧ R t v) {s t : σ}
    {u : τ} {as : List α} (hrun : run step s as = some t) (hR : R s u) :
    ∃ v, run step' u as = some v ∧ R t v := by
  induction as generalizing s u with
  | nil =>
    obtain rfl : s = t := by simpa only [run_nil, Option.some.injEq] using hrun
    exact ⟨u, rfl, hR⟩
  | cons a as ih =>
    obtain ⟨s', hs, hrun⟩ := (run_cons step).mp hrun
    obtain ⟨u', hu, hR⟩ := hstep s u a s' hR hs
    obtain ⟨v, hv, hR⟩ := ih hrun hR
    exact ⟨v, (run_cons step').mpr ⟨u', hu, hv⟩, hR⟩

/-- If two systems have the same actions in related states, which lead to related states again, then
they have the same runs. -/
theorem run_rel {τ : Type*} {step' : τ → α → Option τ} {R : σ → τ → Prop}
    (hstep : ∀ s u a, R s u → Option.Rel R (step s a) (step' u a)) {s : σ} {u : τ} (hR : R s u)
    (as : List α) : Option.Rel R (run step s as) (run step' u as) := by
  induction as generalizing s u with
  | nil => exact .some hR
  | cons a as ih =>
    have hfirst := hstep s u a hR
    rw [run, run]
    generalize step s a = x at hfirst
    generalize step' u a = y at hfirst
    cases hfirst with
    | none => exact .none
    | some h => exact ih h

end Transition
