import CppDemo.Foundation.Transition
import Mathlib.Algebra.Order.Ring.Nat

/-!
# Runs that come to an end

A measure that every step lowers bounds the length of the runs. Where in addition the only states in
which nothing can happen are those in which everything is done, every run that goes on as long as it
can gets everything done. Steps of some kind may raise the measure by a constant; they then count
for more than one.

A measure that no step raises, and that the steps of some kind lower until it is zero, is zero after
enough steps of that kind, whatever happens between them.

## Main definitions

* `Transition.Stuck` : no action of some kind is enabled.

## Main results

* `Transition.length_add_le_of_run` : a run is no longer than the measure goes down.
* `Transition.length_add_le_of_run_credit` : the same where some of the steps may raise it.
* `Transition.measure_le_of_run` : the steps of a kind lower the measure by at least their number.
-/

namespace Transition

variable {σ α : Type*} (step : σ → α → Option σ)

/-- No action that meets `Q` is enabled in `s`. -/
def Stuck (Q : α → Prop) (s : σ) : Prop := ∀ a, Q a → step s a = none

variable {step} {s t : σ}

/-- A run is no longer than the measure goes down, where some of the steps may raise it. -/
theorem length_add_le_of_run_credit {I : σ → Prop} {μ : σ → Nat} {c : Nat} {q : α → Bool}
    (hI : ∀ s a t, I s → step s a = some t → I t)
    (hμ : ∀ s a t, I s → step s a = some t → μ t < μ s + c * [a].countP q) {as : List α}
    (hrun : run step s as = some t) (hs : I s) : as.length + μ t ≤ μ s + c * as.countP q := by
  induction as generalizing s with
  | nil =>
    obtain rfl : s = t := by simpa only [run_nil, Option.some.injEq] using hrun
    simp
  | cons a as ih =>
    obtain ⟨u, hu, hrun⟩ := (run_cons step).mp hrun
    have hlt := hμ s a u hs hu
    have hle := ih hrun (hI s a u hs hu)
    have hcount : (a :: as).countP q = [a].countP q + as.countP q := by
      rw [← List.countP_append, List.singleton_append]
    rw [List.length_cons, hcount, Nat.mul_add]
    omega

/-- A run is no longer than the measure goes down. -/
theorem length_add_le_of_run {I : σ → Prop} {μ : σ → Nat}
    (hI : ∀ s a t, I s → step s a = some t → I t)
    (hμ : ∀ s a t, I s → step s a = some t → μ t < μ s) {as : List α}
    (hrun : run step s as = some t) (hs : I s) : as.length + μ t ≤ μ s := by
  have hle := length_add_le_of_run_credit (c := 0) (q := fun _ ↦ false) hI
    (fun s a t h hstep ↦ by simpa using hμ s a t h hstep) hrun hs
  simpa using hle

/-- The steps that meet `q` lower the measure by at least their number, until it is zero. -/
theorem measure_le_of_run {I : σ → Prop} {μ : σ → Nat} {q : α → Bool}
    (hI : ∀ s a t, I s → step s a = some t → I t)
    (hμ : ∀ s a t, I s → step s a = some t → μ t ≤ μ s - [a].countP q) {as : List α}
    (hrun : run step s as = some t) (hs : I s) : μ t ≤ μ s - as.countP q := by
  induction as generalizing s with
  | nil =>
    obtain rfl : s = t := by simpa only [run_nil, Option.some.injEq] using hrun
    simp
  | cons a as ih =>
    obtain ⟨u, hu, hrun⟩ := (run_cons step).mp hrun
    have hfirst := hμ s a u hs hu
    have hrest := ih hrun (hI s a u hs hu)
    have hcount : (a :: as).countP q = [a].countP q + as.countP q := by
      rw [← List.countP_append, List.singleton_append]
    omega

/-- When one of several parties goes on, the sum of their measures changes by what its measure
does. -/
theorem sum_map_set {β : Type*} (μ : β → Nat) {parties : List β} {i : Nat} {old : β}
    (h : parties[i]? = some old) (new : β) :
    ((parties.set i new).map μ).sum + μ old = (parties.map μ).sum + μ new := by
  induction parties generalizing i with
  | nil => simp at h
  | cons party parties ih =>
    cases i with
    | zero =>
      obtain rfl : party = old := by simpa using h
      simp only [List.set_cons_zero, List.map_cons, List.sum_cons]
      omega
    | succ i =>
      have hrest := ih (by simpa using h)
      simp only [List.set_cons_succ, List.map_cons, List.sum_cons]
      omega

end Transition
