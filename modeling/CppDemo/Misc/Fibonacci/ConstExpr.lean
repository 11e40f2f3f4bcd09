import CppDemo.Misc.Fibonacci.MatrixFastPower
import Mathlib.Data.BitVec
import Mathlib.Data.Int.ModEq

/-!
# Fibonacci numbers by recursion

`f1` and `f2` have the same body: they call themselves twice, and their sums are taken modulo
`2 ^ 64`. The sums and products of `f4` are taken modulo `2 ^ 32`. The results are the same modulo
`2 ^ 32`.

Source: `misc/const_expr.cpp`, lines 6–10, and `misc/matrix_fast_power.cpp`.

## Main definitions

* `f1`, `f2` : the functions of the source, with the depth of calls that is allowed.

## Main results

* `recursive_eq` : a depth of `n` is enough, and the result is a Fibonacci number.
* `f4_modEq` : `f4` agrees with `f1` and `f2`.
-/

namespace CppDemo.Misc.Fibonacci

/-- The body of `f1` and `f2`, `none` if it needs more than `depth` nested calls. -/
def recursive : Nat → Int → Option (BitVec 64)
  | 0, _ => none
  | depth + 1, n =>
    if n = 1 ∨ n = 2 then some 1
    else
      match recursive depth (n - 1), recursive depth (n - 2) with
      | some x, some y => some (x + y)
      | _, _ => none

def f1 (depth : Nat) (n : Int) : Option (BitVec 64) := recursive depth n

/-- `f2` can be evaluated by the compiler. -/
def f2 (depth : Nat) (n : Int) : Option (BitVec 64) := recursive depth n

/-- A Fibonacci number is the sum of the two before it. -/
theorem recursive_eq {depth : Nat} {n : Int} (h : 1 ≤ n) (hdepth : n.toNat ≤ depth) :
    recursive depth n = some (n.toNat.fib : BitVec 64) := by
  induction depth generalizing n with
  | zero => omega
  | succ depth ih =>
    rw [recursive]
    split_ifs with hn
    · rcases hn with rfl | rfl <;> rfl
    · obtain ⟨k, rfl⟩ : ∃ k : Nat, n = k + 3 := ⟨(n - 3).toNat, by omega⟩
      rw [ih (by omega) (by omega), ih (by omega) (by omega)]
      have h1 : ((k : Int) + 3 - 1).toNat = k + 2 := by omega
      have h2 : ((k : Int) + 3 - 2).toNat = k + 1 := by omega
      have h3 : ((k : Int) + 3).toNat = k + 1 + 2 := by omega
      rw [h1, h2, h3, Nat.fib_add_two (n := k + 1), Nat.cast_add]
      exact congrArg some (add_comm _ _)

/-- A number of `w` bits stands for a number modulo `2 ^ w`, read with a sign or without. -/
theorem toInt_natCast_modEq (w k : Nat) : (k : BitVec w).toInt ≡ k [ZMOD 2 ^ w] := by
  have hcast : ((2 ^ w : Nat) : Int) = 2 ^ w := by simp
  rw [BitVec.toInt_eq_toNat_bmod, ← hcast]
  calc
    Int.bmod (k : BitVec w).toNat (2 ^ w) ≡ (k : BitVec w).toNat [ZMOD (2 ^ w : Nat)] :=
      Int.bmod_emod
    _ ≡ k [ZMOD (2 ^ w : Nat)] := by
      rw [BitVec.natCast_eq_ofNat, BitVec.toNat_ofNat]
      exact Int.natCast_modEq_iff.mpr (Nat.mod_modEq k _)

theorem toNat_natCast_modEq {v w : Nat} (h : v ≤ w) (k : Nat) :
    ((k : BitVec w).toNat : Int) ≡ k [ZMOD 2 ^ v] := by
  have hdvd : (2 ^ v : Nat) ∣ 2 ^ w := pow_dvd_pow 2 h
  have hmod : (k : BitVec w).toNat ≡ k [MOD 2 ^ v] := by
    rw [BitVec.natCast_eq_ofNat, BitVec.toNat_ofNat]
    exact (Nat.mod_modEq k _).of_dvd hdvd
  exact_mod_cast Int.natCast_modEq_iff.mpr hmod

/-- For every positive `n`, `f1` and `f2` return a number, and `f4` returns the same number modulo
`2 ^ 32`, which is the Fibonacci number of `n`. -/
theorem f4_modEq {n : Int} (h : 1 ≤ n) :
    ∃ v : BitVec 64,
      (∀ depth, n.toNat ≤ depth → f1 depth n = some v ∧ f2 depth n = some v) ∧
      (f4 (BitVec 32) n).toInt ≡ v.toNat [ZMOD 2 ^ 32] ∧
      (f4 (BitVec 32) n).toInt ≡ n.toNat.fib [ZMOD 2 ^ 32] := by
  have hf4 : (f4 (BitVec 32) n).toInt ≡ n.toNat.fib [ZMOD 2 ^ 32] := by
    rw [f4_eq h]
    exact toInt_natCast_modEq 32 _
  exact ⟨n.toNat.fib, fun depth hdepth ↦ ⟨recursive_eq h hdepth, recursive_eq h hdepth⟩,
    hf4.trans (toNat_natCast_modEq (by decide) _).symm, hf4⟩

theorem f4_modEq_six :
    ∃ v : BitVec 64,
      (∀ depth, Int.toNat 6 ≤ depth → f1 depth 6 = some v ∧ f2 depth 6 = some v) ∧
      (f4 (BitVec 32) 6).toInt ≡ v.toNat [ZMOD 2 ^ 32] ∧
      (f4 (BitVec 32) 6).toInt ≡ (Int.toNat 6).fib [ZMOD 2 ^ 32] :=
  f4_modEq (show (1 : Int) ≤ 6 by decide)

end CppDemo.Misc.Fibonacci
