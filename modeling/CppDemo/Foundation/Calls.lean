import Mathlib.Data.Multiset.Filter

/-!
# Concurrent calls of a procedure

Several calls of one procedure are under way at once, each given by its place in the code. A call is
*busy* at some of the places. A procedure that is guarded, so that a call only goes on when no other
is about to, has at most one busy call at a time, the *sole* one.

## Main definitions

* `Calls.active` : the busy calls.
* `Calls.Sole` : at most one call is busy, and where it is.

## Main results

* `Calls.exists_cons_of_getElem?` : a call that moves leaves the others where they are.
* `Calls.Sole.of_cons` : a busy call is the sole one.
-/

namespace Calls

variable {π : Type*}

/-- A call that moves leaves the others where they are. -/
theorem exists_cons_of_getElem? {calls : List π} {i : Nat} {pc : π} (h : calls[i]? = some pc)
    (pc' : π) : ∃ rest : Multiset π,
      (calls : Multiset π) = pc ::ₘ rest ∧ (calls.set i pc' : Multiset π) = pc' ::ₘ rest := by
  induction calls generalizing i with
  | nil => simp at h
  | cons c calls ih =>
    cases i with
    | zero =>
      obtain rfl : c = pc := by simpa using h
      exact ⟨calls, rfl, rfl⟩
    | succ i =>
      obtain ⟨rest, hcalls, hset⟩ := ih (by simpa using h)
      refine ⟨c ::ₘ rest, ?_, ?_⟩
      · rw [← Multiset.cons_coe, hcalls, Multiset.cons_swap]
      · rw [List.set_cons_succ, ← Multiset.cons_coe, hset, Multiset.cons_swap]

/-- One more call. -/
theorem coe_concat (calls : List π) (pc : π) :
    ((calls ++ [pc] : List π) : Multiset π) = pc ::ₘ calls :=
  Multiset.coe_eq_coe.mpr (List.perm_append_singleton pc calls)

variable (busy : π → Bool)

/-- The busy calls. -/
def active (calls : Multiset π) : Multiset π := calls.filter (busy · = true)

/-- At most one call is busy, at the place `sole`. -/
def Sole (calls : Multiset π) (sole : Option π) : Prop := active busy calls = sole.toList

variable {busy} {calls rest : Multiset π} {pc : π} {sole : Option π}

theorem active_cons_of_busy (hpc : busy pc = true) : active busy (pc ::ₘ rest) =
    pc ::ₘ active busy rest :=
  Multiset.filter_cons_of_pos rest hpc

theorem active_cons_of_idle (hpc : busy pc = false) : active busy (pc ::ₘ rest) =
    active busy rest :=
  Multiset.filter_cons_of_neg rest (by simp [hpc])

theorem sole_none : Sole busy calls none ↔ ∀ pc ∈ calls, busy pc = false := by
  simp only [Sole, active, Option.toList_none, Multiset.coe_nil, Multiset.filter_eq_nil,
    Bool.not_eq_true]

/-- A call that is not busy does not count. -/
theorem sole_cons_of_idle (hpc : busy pc = false) :
    Sole busy (pc ::ₘ rest) sole ↔ Sole busy rest sole := by
  rw [Sole, Sole, active_cons_of_idle hpc]

namespace Sole

/-- A busy call is the sole one. -/
theorem of_cons (h : Sole busy (pc ::ₘ rest) sole) (hpc : busy pc = true) :
    sole = some pc ∧ Sole busy rest none := by
  rw [Sole, active_cons_of_busy hpc] at h
  cases sole with
  | none => exact absurd h Multiset.cons_ne_zero
  | some b =>
    obtain ⟨rfl, hrest⟩ := (Multiset.singleton_eq_cons_iff _).mp h.symm
    exact ⟨rfl, hrest⟩

theorem of_mem (h : Sole busy calls sole) (hmem : pc ∈ calls) (hpc : busy pc = true) :
    sole = some pc := by
  obtain ⟨rest, rfl⟩ := Multiset.exists_cons_of_mem hmem
  exact (h.of_cons hpc).1

/-- The sole call is one of the calls. -/
theorem mem (h : Sole busy calls (some pc)) : pc ∈ calls := by
  have hmem : pc ∈ active busy calls := h ▸ Multiset.mem_singleton_self pc
  exact Multiset.mem_of_mem_filter hmem

/-- A call becomes busy when no other is. -/
theorem cons (h : Sole busy rest none) (hpc : busy pc = true) :
    Sole busy (pc ::ₘ rest) (some pc) := by
  rw [Sole, active_cons_of_busy hpc, h]
  rfl

/-- A call moves while no other is busy. -/
theorem move (h : Sole busy rest none) :
    Sole busy (pc ::ₘ rest) (if busy pc then some pc else none) := by
  cases hpc : busy pc with
  | true => exact h.cons hpc
  | false => exact (sole_cons_of_idle hpc).mpr h

end Sole

end Calls
