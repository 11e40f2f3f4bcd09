import CppDemo.Misc.Fibonacci.MatrixFastPower
import Mathlib.Tactic.Positivity

/-!
# The numbers that `f4` computes on the way

`f4` squares its matrix once more after the last digit of `n` that is one. The numbers of this last
square are the largest ones, although nothing is made of them. So they have to fit into `int` as
well, or there is an overflow on the way to a result that does fit.

Source: `misc/matrix_fast_power.cpp`.

## Main definitions

* `Matrix.numbers` : the products and sums that `operator*` computes.
* `numbers` : the products and sums that `f4` computes.
* `lastIndex` : the index of the Fibonacci number that the last square holds.

## Main results

* `f4_mem_numbers` : the result is one of the numbers.
* `numbers_le_iff` : all numbers are bounded exactly if the largest one of the last square is.
-/

namespace CppDemo.Misc.Fibonacci

open FastPower

/-- The numbers on the way to the sum of two products. -/
def sumNumbers (x y z w : Int) : List Int := [x * y, z * w, x * y + z * w]

theorem sumNumbers_le {x y z w bound : Int} (hx : 0 ≤ x) (hy : 0 ≤ y) (hz : 0 ≤ z) (hw : 0 ≤ w)
    (hsum : x * y + z * w ≤ bound) : ∀ v ∈ sumNumbers x y z w, v ≤ bound := by
  have hxy : 0 ≤ x * y := Int.mul_nonneg hx hy
  have hzw : 0 ≤ z * w := Int.mul_nonneg hz hw
  simp only [sumNumbers, List.forall_mem_cons]
  exact ⟨by omega, by omega, hsum, List.forall_mem_nil _⟩

namespace Matrix

/-- The products and sums that `operator*` computes. -/
def numbers (a b : Matrix Int) : List Int :=
  sumNumbers a.a00 b.a00 a.a01 b.a10 ++ sumNumbers a.a00 b.a01 a.a01 b.a11 ++
    sumNumbers a.a10 b.a00 a.a11 b.a10 ++ sumNumbers a.a10 b.a01 a.a11 b.a11

/-- No entry is negative. -/
structure Nonneg (a : Matrix Int) : Prop where
  a00 : 0 ≤ a.a00
  a01 : 0 ≤ a.a01
  a10 : 0 ≤ a.a10
  a11 : 0 ≤ a.a11

/-- No entry is larger than `bound`. -/
structure AtMost (a : Matrix Int) (bound : Int) : Prop where
  a00 : a.a00 ≤ bound
  a01 : a.a01 ≤ bound
  a10 : a.a10 ≤ bound
  a11 : a.a11 ≤ bound

theorem nonneg_pow_fibonacci (n : Nat) : ((fibonacci : Matrix Int) ^ n).Nonneg := by
  cases n with
  | zero => exact ⟨by simp, by simp, by simp, by simp⟩
  | succ n =>
    rw [pow_fibonacci]
    exact ⟨by positivity, by positivity, by positivity, by positivity⟩

theorem atMost_pow_fibonacci {n m : Nat} (h : n ≤ m) :
    ((fibonacci : Matrix Int) ^ n).AtMost (m + 1).fib := by
  have hmono : ∀ k ≤ m + 1, (k.fib : Int) ≤ (m + 1).fib := fun k hk ↦
    Int.ofNat_le.mpr (Nat.fib_mono hk)
  cases n with
  | zero =>
    have hone : (1 : Int) ≤ (m + 1).fib := hmono 1 (by omega)
    exact ⟨by simpa using hone, by simp, by simp, by simpa using hone⟩
  | succ n =>
    rw [pow_fibonacci]
    exact ⟨hmono _ (by omega), hmono _ (by omega), hmono _ (by omega), hmono _ (by omega)⟩

/-- The numbers on the way to a product are at most as large as the product. -/
theorem numbers_le {a b : Matrix Int} {bound : Int} (ha : a.Nonneg) (hb : b.Nonneg)
    (hab : (a * b).AtMost bound) : ∀ v ∈ a.numbers b, v ≤ bound := by
  simp only [numbers, List.forall_mem_append]
  exact ⟨⟨⟨sumNumbers_le ha.a00 hb.a00 ha.a01 hb.a10 hab.a00,
    sumNumbers_le ha.a00 hb.a01 ha.a01 hb.a11 hab.a01⟩,
    sumNumbers_le ha.a10 hb.a00 ha.a11 hb.a10 hab.a10⟩,
    sumNumbers_le ha.a10 hb.a01 ha.a11 hb.a11 hab.a11⟩

/-- The first entry of a product is one of the numbers. -/
theorem mul_a00_mem_numbers (a b : Matrix Int) : (a * b).a00 ∈ a.numbers b := by
  simp [numbers, sumNumbers]

end Matrix

/-- The products and sums that `f4` computes over integers, in order. -/
def numbers (n : Int) : List Int :=
  if n ≤ 0 then []
  else (factors (n - 1).toNat (1 : Matrix Int) .fibonacci).flatMap fun (a, b) ↦ a.numbers b

/-- The index of the Fibonacci number that the last square holds, where `f4` raises to the power
`n - 1`. -/
def lastIndex (n : Int) : Nat := 2 * 2 ^ (n - 1).toNat.log2 + 1

/-- No number is larger than the one of the last square. -/
theorem numbers_le_fib (n : Int) : ∀ v ∈ numbers n, v ≤ (lastIndex n).fib := by
  intro v hv
  rw [numbers] at hv
  split_ifs at hv with hn
  · exact absurd hv List.not_mem_nil
  obtain ⟨⟨a, b⟩, hab, hv⟩ := List.mem_flatMap.mp hv
  obtain ⟨p, q, rfl, rfl, hle⟩ := exists_of_mem_factors_one hab
  refine Matrix.numbers_le (Matrix.nonneg_pow_fibonacci p) (Matrix.nonneg_pow_fibonacci q) ?_ v hv
  rw [← pow_add]
  exact Matrix.atMost_pow_fibonacci hle

/-- The number of the last square is computed unless there is no square. -/
theorem fib_mem_numbers {n : Int} (h : 2 ≤ n) : ((lastIndex n).fib : Int) ∈ numbers n := by
  have hlast := last_mem_factors (show 0 < (n - 1).toNat by omega) (1 : Matrix Int) .fibonacci
  have hmem := Matrix.mul_a00_mem_numbers (.fibonacci ^ 2 ^ (n - 1).toNat.log2)
    (.fibonacci ^ 2 ^ (n - 1).toNat.log2)
  rw [← pow_add, ← two_mul, Matrix.pow_fibonacci_a00] at hmem
  rw [numbers, if_neg (by omega)]
  exact List.mem_flatMap.mpr ⟨_, hlast, hmem⟩

/-- The result is one of the numbers unless there is nothing to multiply. -/
theorem f4_mem_numbers {n : Int} (h : 2 ≤ n) : f4 Int n ∈ numbers n := by
  obtain ⟨a, b, hmem, hloop⟩ := exists_factors_of_loop (show 0 < (n - 1).toNat by omega)
    (1 : Matrix Int) .fibonacci
  rw [f4, if_neg (by omega), hloop, numbers, if_neg (by omega)]
  exact List.mem_flatMap.mpr ⟨_, hmem, Matrix.mul_a00_mem_numbers a b⟩

/-- For every width `w`, all numbers that `f4` computes fit into `w` bits, exactly if there is
nothing to multiply or the largest number of the last square fits. -/
theorem numbers_le_iff (w : Nat) {n : Int} (h : 1 ≤ n) :
    (∀ v ∈ numbers n, v ≤ 2 ^ (w - 1) - 1) ↔
      n = 1 ∨ ((lastIndex n).fib : Int) ≤ 2 ^ (w - 1) - 1 := by
  constructor
  · intro hall
    rcases eq_or_lt_of_le h with hone | htwo
    · exact Or.inl hone.symm
    · exact Or.inr (hall _ (fib_mem_numbers htwo))
  · rintro (rfl | hfits) v hv
    · simp [numbers, factors_zero] at hv
    · exact (numbers_le_fib n v hv).trans hfits

theorem numbers_le_iff_six :
    (∀ v ∈ numbers 6, v ≤ 2 ^ (32 - 1) - 1) ↔
      (6 : Int) = 1 ∨ ((lastIndex 6).fib : Int) ≤ 2 ^ (32 - 1) - 1 :=
  numbers_le_iff 32 (by decide)

/-- The result for 33 fits into `int`, and the last square, of the 65th Fibonacci number, does
not. -/
theorem not_numbers_le_thirtyThree : ¬∀ (w : Nat) (n : Int), 32 ≤ w → 1 ≤ n →
    (n.toNat.fib : Int) ≤ 2 ^ (w - 1) - 1 → ∀ v ∈ numbers n, v ≤ 2 ^ (w - 1) - 1 := by
  intro h
  have hfits := h 32 33 (by decide) (by decide) (by decide) _ (fib_mem_numbers (by decide))
  have hlast : lastIndex 33 = 65 := by decide
  rw [hlast] at hfits
  exact absurd hfits (by decide)

end CppDemo.Misc.Fibonacci
