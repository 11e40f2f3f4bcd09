import Mathlib.Data.List.Perm.Basic
import Mathlib.Data.Set.Defs
import Mathlib.Tactic.Common

/-!
# Blocks of memory

A block is a range of addresses, empty if its size is zero. Allocators hand out blocks that share no
byte with the live ones. Blocks of size zero are handed out at addresses of their own, so that two
live blocks can always be told apart by their addresses.

## Main definitions

* `Block` : an address and a number of bytes.
* `Block.Apart` : two blocks share no byte and are not at the same address.

## Main results

* `Block.Apart.notMem_bytes` : such blocks do not overlap.
* `Block.rel_of_mem_erase` : a block of a list of pairwise related ones is related to the others.
* `Block.exists_apart` : there is a block of any size apart from given ones.
-/

structure Block where
  addr : Nat
  size : Nat
  deriving DecidableEq, Repr

namespace Block

/-- The addresses of the bytes of a block. -/
def bytes (b : Block) : Set Nat := {a | b.addr ≤ a ∧ a < b.addr + b.size}

/-- Two blocks share no byte and are not at the same address. -/
def Apart (b c : Block) : Prop :=
  b.addr ≠ c.addr ∧ (b.addr + b.size ≤ c.addr ∨ c.addr + c.size ≤ b.addr)

instance (b c : Block) : Decidable (b.Apart c) :=
  inferInstanceAs (Decidable (_ ∧ (_ ∨ _)))

theorem Apart.symm {b c : Block} (h : b.Apart c) : c.Apart b := ⟨h.1.symm, h.2.symm⟩

/-- Blocks that are apart do not overlap. -/
theorem Apart.notMem_bytes {b c : Block} (h : b.Apart c) {a : Nat} (ha : a ∈ b.bytes) :
    a ∉ c.bytes := by
  intro hc
  obtain ⟨hbstart, hbend⟩ := ha
  obtain ⟨hcstart, hcend⟩ := hc
  rcases h.2 with h | h <;> omega

/-- In a list of pairwise related blocks, a block is related to all others. -/
theorem rel_of_mem_erase {β : Type*} [DecidableEq β] {R : β → β → Prop}
    (hsymm : ∀ b c, R b c → R c b) {l : List β} (h : l.Pairwise R) {b c : β} (hb : b ∈ l)
    (hc : c ∈ l.erase b) : R b c := by
  have hperm := (List.perm_cons_erase hb).pairwise h fun h ↦ hsymm _ _ h
  exact (List.pairwise_cons.mp hperm).1 c hc

/-- There is a block of any size apart from given ones. -/
theorem exists_apart (blocks : List Block) (size : Nat) :
    ∃ b : Block, b.size = size ∧ ∀ c ∈ blocks, b.Apart c := by
  have hbound : ∃ a, ∀ c ∈ blocks, c.addr + c.size < a := by
    induction blocks with
    | nil => exact ⟨0, by simp⟩
    | cons c blocks ih =>
      obtain ⟨a, ha⟩ := ih
      refine ⟨a + c.addr + c.size + 1, fun d hd ↦ ?_⟩
      rcases List.mem_cons.mp hd with rfl | hd
      · omega
      · have := ha d hd
        omega
  obtain ⟨a, ha⟩ := hbound
  refine ⟨⟨a, size⟩, rfl, fun c hc ↦ ?_⟩
  have := ha c hc
  simp only [Apart]
  omega

end Block
