import CppDemo.Foundation.FastPower
import Mathlib.Data.Nat.Fib.Basic
import Mathlib.Data.Nat.Cast.Basic

/-!
# Fibonacci numbers by powers of a matrix

`f4` raises a matrix to a power by squaring and multiplying. It is written for any semiring, so that
it can be run over machine integers and over integers without a bound.

Source: `misc/matrix_fast_power.cpp`.

## Main definitions

* `Matrix` : two rows and two columns, with the product of the source.
* `f4` : the function of the source.

## Main results

* `Matrix.pow_fibonacci` : the powers of the matrix.
* `f4_eq` : the result is a Fibonacci number.
-/

namespace CppDemo.Misc.Fibonacci

variable {α : Type*}

/-- `matrix`. -/
@[ext]
structure Matrix (α : Type*) where
  a00 : α
  a01 : α
  a10 : α
  a11 : α
  deriving DecidableEq, Repr

namespace Matrix

/-- `operator*`. -/
instance [Add α] [Mul α] : Mul (Matrix α) where
  mul a b :=
    { a00 := a.a00 * b.a00 + a.a01 * b.a10
      a01 := a.a00 * b.a01 + a.a01 * b.a11
      a10 := a.a10 * b.a00 + a.a11 * b.a10
      a11 := a.a10 * b.a01 + a.a11 * b.a11 }

instance [Zero α] [One α] : One (Matrix α) where
  one := { a00 := 1, a01 := 0, a10 := 0, a11 := 1 }

section

variable [Add α] [Mul α] (a b : Matrix α)

@[simp] theorem mul_a00 : (a * b).a00 = a.a00 * b.a00 + a.a01 * b.a10 := rfl
@[simp] theorem mul_a01 : (a * b).a01 = a.a00 * b.a01 + a.a01 * b.a11 := rfl
@[simp] theorem mul_a10 : (a * b).a10 = a.a10 * b.a00 + a.a11 * b.a10 := rfl
@[simp] theorem mul_a11 : (a * b).a11 = a.a10 * b.a01 + a.a11 * b.a11 := rfl

end

section

variable [Zero α] [One α]

@[simp] theorem one_a00 : (1 : Matrix α).a00 = 1 := rfl
@[simp] theorem one_a01 : (1 : Matrix α).a01 = 0 := rfl
@[simp] theorem one_a10 : (1 : Matrix α).a10 = 0 := rfl
@[simp] theorem one_a11 : (1 : Matrix α).a11 = 1 := rfl

/-- The matrix that is raised to a power. -/
def fibonacci : Matrix α := { a00 := 1, a01 := 1, a10 := 1, a11 := 0 }

end

instance [CommSemiring α] : Monoid (Matrix α) where
  mul_assoc a b c := by ext <;> simp <;> ring
  one_mul a := by ext <;> simp
  mul_one a := by ext <;> simp

variable [CommSemiring α]

/-- The powers of the matrix hold Fibonacci numbers. -/
theorem pow_fibonacci (n : Nat) :
    (fibonacci : Matrix α) ^ (n + 1) =
      { a00 := (n + 2).fib, a01 := (n + 1).fib, a10 := (n + 1).fib, a11 := n.fib } := by
  induction n with
  | zero => 
    ext <;> simp [fibonacci]
  | succ n ih =>
    rw [pow_succ, ih]
    ext <;> simp [fibonacci, Nat.fib_add_two] <;> ring

theorem pow_fibonacci_a00 (n : Nat) : ((fibonacci : Matrix α) ^ n).a00 = (n + 1).fib := by
  cases n with
  | zero => simp
  | succ n => rw [pow_fibonacci]

end Matrix

/-- `f4` for the arithmetic of a semiring. -/
def f4 (α : Type*) [CommSemiring α] (n : Int) : α :=
  if n ≤ 0 then 0 else (FastPower.loop (n - 1).toNat (1 : Matrix α) Matrix.fibonacci).a00

/-- `f4` computes Fibonacci numbers. -/
theorem f4_eq [CommSemiring α] {n : Int} (h : 1 ≤ n) : f4 α n = n.toNat.fib := by
  have hn : (n - 1).toNat + 1 = n.toNat := by omega
  rw [f4, if_neg (by omega), FastPower.loop_eq, one_mul, Matrix.pow_fibonacci_a00, hn]

end CppDemo.Misc.Fibonacci
