import Mathlib.Algebra.Group.Defs
import Mathlib.Data.Nat.Log
import Mathlib.Tactic.Ring

/-!
# Fast powers

The loop that squares `a` for every binary digit of `n` and multiplies `r` by it where the digit is
one. It computes `r * a ^ n` in every monoid. The factors that it multiplies are powers of `a` as
well. The largest of them come from the last square, which is not used any more.

## Main definitions

* `FastPower.loop` : the loop.
* `FastPower.factors` : the pairs of factors that it multiplies, in order.

## Main results

* `FastPower.loop_eq` : the result of the loop.
* `FastPower.exists_factors_of_loop` : the result is one of the products.
* `FastPower.exists_of_mem_factors` : the factors are powers, with a bound on their exponents.
* `FastPower.last_mem_factors` : the factors of the last square.
-/

namespace CppDemo.FastPower

variable {α : Type*}

section Mul

variable [Mul α]

/-- Multiply `r` by `a` for the digits of `n` that are one, and square `a` for every digit. -/
def loop (n : Nat) (r a : α) : α :=
  if 0 < n then loop (n / 2) (if n % 2 = 1 then r * a else r) (a * a) else r
termination_by n

/-- The pairs that the loop multiplies, in order. -/
def factors (n : Nat) (r a : α) : List (α × α) :=
  if 0 < n then
    (if n % 2 = 1 then [(r, a)] else []) ++
      (a, a) :: factors (n / 2) (if n % 2 = 1 then r * a else r) (a * a)
  else []
termination_by n

theorem loop_zero (r a : α) : loop 0 r a = r := by
  rw [loop, if_neg (Nat.lt_irrefl 0)]

theorem loop_of_pos {n : Nat} (h : 0 < n) (r a : α) :
    loop n r a = loop (n / 2) (if n % 2 = 1 then r * a else r) (a * a) := by
  rw [loop, if_pos h]

theorem factors_zero (r a : α) : factors 0 r a = [] := by
  rw [factors, if_neg (Nat.lt_irrefl 0)]

theorem factors_of_pos {n : Nat} (h : 0 < n) (r a : α) :
    factors n r a = (if n % 2 = 1 then [(r, a)] else []) ++
      (a, a) :: factors (n / 2) (if n % 2 = 1 then r * a else r) (a * a) := by
  rw [factors, if_pos h]

/-- The result is the product of a pair that the loop multiplies. -/
theorem exists_factors_of_loop {n : Nat} (h : 0 < n) (r a : α) :
    ∃ x y, (x, y) ∈ factors n r a ∧ loop n r a = x * y := by
  induction n using Nat.strong_induction_on generalizing r a with
  | h n ih =>
    rw [loop_of_pos h, factors_of_pos h]
    rcases Nat.lt_or_ge n 2 with hn | hn
    · obtain rfl : n = 1 := by omega
      exact ⟨r, a, List.mem_cons_self, loop_zero _ _⟩
    · obtain ⟨x, y, hmem, hloop⟩ := ih (n / 2) (Nat.div_lt_self h Nat.one_lt_two) (by omega)
        (if n % 2 = 1 then r * a else r) (a * a)
      exact ⟨x, y, List.mem_append_right _ (List.mem_cons_of_mem _ hmem), hloop⟩

end Mul

section Monoid

variable [Monoid α]

/-- The loop computes a power. -/
theorem loop_eq (n : Nat) (r a : α) : loop n r a = r * a ^ n := by
  induction n using Nat.strong_induction_on generalizing r a with
  | h n ih =>
    rcases Nat.eq_zero_or_pos n with rfl | hn
    · rw [loop_zero, pow_zero, mul_one]
    · rw [loop_of_pos hn, ih (n / 2) (Nat.div_lt_self hn Nat.one_lt_two), ← pow_two, ← pow_mul]
      split_ifs with hodd
      · have hsucc : n = 2 * (n / 2) + 1 := by omega
        conv_rhs => rw [hsucc, pow_succ', ← mul_assoc]
      · have heven : n = 2 * (n / 2) := by omega
        conv_rhs => rw [heven]

/-- The number of digits drops by one with each division. -/
theorem pow_log2_div_two {n : Nat} (h : 2 ≤ n) : 2 ^ n.log2 = 2 * 2 ^ (n / 2).log2 := by
  rw [Nat.log2_def, if_pos h, pow_succ, Nat.mul_comm]

/-- The factors of the last square. -/
theorem last_mem_factors {n : Nat} (h : 0 < n) (r a : α) :
    (a ^ 2 ^ n.log2, a ^ 2 ^ n.log2) ∈ factors n r a := by
  induction n using Nat.strong_induction_on generalizing r a with
  | h n ih =>
    rw [factors_of_pos h]
    refine List.mem_append_right _ ?_
    rcases Nat.lt_or_ge n 2 with hn | hn
    · obtain rfl : n = 1 := by omega
      have hlog : Nat.log2 1 = 0 := by simp [Nat.log2_def]
      rw [hlog, pow_zero, pow_one]
      exact List.mem_cons_self
    · have hlast := ih (n / 2) (Nat.div_lt_self h Nat.one_lt_two) (by omega)
        (if n % 2 = 1 then r * a else r) (a * a)
      have hpow : (a * a) ^ 2 ^ (n / 2).log2 = a ^ 2 ^ n.log2 := by
        rw [← pow_two, ← pow_mul, ← pow_log2_div_two hn]
      rw [hpow] at hlast
      exact List.mem_cons_of_mem _ hlast

/-- The factors of a run are powers of the first factor. The sum of their exponents is at most that
of the result or that of the last square. -/
theorem exists_of_mem_factors {b : α} {n i j : Nat} {x y : α}
    (h : (x, y) ∈ factors n (b ^ i) (b ^ j)) :
    ∃ p q, x = b ^ p ∧ y = b ^ q ∧ (p + q ≤ i + n * j ∨ p + q ≤ 2 * 2 ^ n.log2 * j) := by
  induction n using Nat.strong_induction_on generalizing i j with
  | h n ih =>
    rcases Nat.eq_zero_or_pos n with rfl | hn
    · simp [factors_zero] at h
    have hlog : n < 2 * 2 ^ n.log2 := by
      rw [← pow_succ']
      exact Nat.lt_log2_self
    rw [factors_of_pos hn, List.mem_append, List.mem_cons] at h
    rcases h with h | h | h
    · obtain ⟨-, h⟩ : n % 2 = 1 ∧ (x, y) = (b ^ i, b ^ j) := by simpa using h
      obtain ⟨rfl, rfl⟩ := Prod.mk.inj h
      refine ⟨i, j, rfl, rfl, Or.inl ?_⟩
      have hle : 1 * j ≤ n * j := Nat.mul_le_mul_right j hn
      omega
    · obtain ⟨rfl, rfl⟩ := Prod.mk.inj h
      refine ⟨j, j, rfl, rfl, Or.inr ?_⟩
      have hle : 2 * j ≤ 2 * 2 ^ n.log2 * j := Nat.mul_le_mul_right j (by omega)
      omega
    · rcases Nat.lt_or_ge n 2 with htwo | htwo
      · rw [show n / 2 = 0 by omega, factors_zero] at h
        exact absurd h List.not_mem_nil
      have hr : (if n % 2 = 1 then b ^ i * b ^ j else b ^ i) = b ^ (i + n % 2 * j) := by
        rcases Nat.mod_two_eq_zero_or_one n with hmod | hmod
        · simp [hmod]
        · simp [hmod, pow_add]
      rw [hr, ← pow_two, ← pow_mul] at h
      obtain ⟨p, q, rfl, rfl, hle⟩ := ih (n / 2) (Nat.div_lt_self hn Nat.one_lt_two) h
      have hexp : i + n % 2 * j + n / 2 * (j * 2) = i + n * j := by
        conv_rhs => rw [← Nat.div_add_mod n 2]
        ring
      have hsquare : 2 * 2 ^ (n / 2).log2 * (j * 2) = 2 * 2 ^ n.log2 * j := by
        rw [pow_log2_div_two htwo]
        ring
      rw [hexp, hsquare] at hle
      exact ⟨p, q, rfl, rfl, hle⟩

/-- The factors of a run for `b ^ n` have the exponents of the last square at most. -/
theorem exists_of_mem_factors_one {b : α} {n : Nat} {x y : α} (h : (x, y) ∈ factors n 1 b) :
    ∃ p q, x = b ^ p ∧ y = b ^ q ∧ p + q ≤ 2 * 2 ^ n.log2 := by
  have hfactors : (x, y) ∈ factors n (b ^ 0) (b ^ 1) := by rwa [pow_zero, pow_one]
  obtain ⟨p, q, hx, hy, hle⟩ := exists_of_mem_factors hfactors
  refine ⟨p, q, hx, hy, ?_⟩
  have hlog : n < 2 * 2 ^ n.log2 := by
    rw [← pow_succ']
    exact Nat.lt_log2_self
  omega

end Monoid

end CppDemo.FastPower
