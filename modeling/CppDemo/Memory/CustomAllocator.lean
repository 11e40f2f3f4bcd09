import CppDemo.Foundation.Block
import CppDemo.Foundation.Transition
import Mathlib.Order.Nat

/-!
# A vector over an allocator that counts bytes

`MyAllocator` passes the number of elements it is asked for to `malloc`, which counts bytes. A
vector keeps its elements in a block of the allocator; when the block is full it asks for one of a
larger capacity, constructs the new element there, moves the others and gives the old block back.
How much the capacity grows is up to the vector.

Source: `memory/custom_allocator.cpp`.

## Main definitions

* `MyAllocator.allocate`, `MyAllocator.deallocate` : the allocator.
* `State`, `step` : a vector over it, with the blocks it was given and the elements it constructed.
* `State.InBlocks` : every block has room for the elements it was requested for, and every element
  lies in its block.

## Main results

* `heap_of_run` : a vector has one block at a time.
* `inBlocks_iff` : all is well for elements of one byte as long as `malloc` finds memory, and while
  there is no element.
-/

namespace CppDemo.Memory

open Transition

/-- A block of `size` bytes at the address that is answered, or a null pointer. -/
def malloc (size : Nat) (answer : Option Nat) : Option Block :=
  answer.map fun addr ↦ { addr, size }

namespace MyAllocator

/-- `allocate`, which is asked for `size` elements. -/
def allocate (size : Nat) (answer : Option Nat) : Option Block := malloc size answer

/-- The blocks that are left. -/
def deallocate (heap : List Block) : Option Block → List Block
  | some p => heap.erase p
  | none => heap

end MyAllocator

/-- A vector, the heap, and what has happened so far. -/
structure State where
  data : Option Block := none
  size : Nat := 0
  capacity : Nat := 0
  /-- The blocks that have been allocated and not freed. -/
  heap : List Block := []
  /-- The calls of `allocate`, with the block that was returned. -/
  requests : List (Nat × Option Block) := []
  /-- The elements that have been constructed: the block and the index in it. -/
  constructed : List (Option Block × Nat) := []
  deriving DecidableEq, Repr

/-- The next capacity, and what `malloc` answers to the request for it. -/
structure Growth where
  capacity : Nat
  answer : Option Nat
  deriving DecidableEq, Repr

/-- A call, with the growth that takes place if the vector is full. -/
inductive Action
  | pushBack (growth : Growth)
  | emplaceBack (growth : Growth)
  deriving DecidableEq, Repr

def Action.growth : Action → Growth
  | pushBack growth | emplaceBack growth => growth

namespace State

/-- An element is constructed behind the others. -/
def construct (s : State) : State :=
  { s with size := s.size + 1, constructed := s.constructed ++ [(s.data, s.size)] }

/-- The elements move to a new block, in which the one behind them has been constructed. -/
def grow (s : State) (growth : Growth) : State :=
  let data := MyAllocator.allocate growth.capacity growth.answer
  { data
    size := s.size + 1
    capacity := growth.capacity
    heap := MyAllocator.deallocate (data.toList ++ s.heap) s.data
    requests := s.requests ++ [(growth.capacity, data)]
    constructed := s.constructed ++ (data, s.size) :: (List.range s.size).map fun i ↦ (data, i) }

end State

/-- `push_back` and `emplace_back`. A larger capacity has room for one more element. -/
def step (s : State) (a : Action) : Option State :=
  if s.size = s.capacity then
    if s.size < a.growth.capacity then some (s.grow a.growth) else none
  else some s.construct

/-- What a step does. -/
theorem step_cases {s t : State} {a : Action} (h : step s a = some t) :
    (s.size = s.capacity ∧ s.size < a.growth.capacity ∧ t = s.grow a.growth) ∨
      (s.size ≠ s.capacity ∧ t = s.construct) := by
  rw [step] at h
  split_ifs at h with hfull hcapacity
  · exact .inl ⟨hfull, hcapacity, (Option.some.inj h).symm⟩
  · exact .inr ⟨hfull, (Option.some.inj h).symm⟩

/-- A vector has one block at a time, and frees it when it moves. -/
theorem heap_of_run {as : List Action} {s : State} (hrun : run step {} as = some s) :
    s.heap = s.data.toList := by
  refine run_invariant (P := fun s : State ↦ s.heap = s.data.toList)
    (fun s a t hs hstep ↦ ?_) hrun rfl
  obtain ⟨-, -, rfl⟩ | ⟨-, rfl⟩ := step_cases hstep
  · simp only [State.grow, hs]
    cases hdata : s.data with
    | none => simp [MyAllocator.deallocate]
    | some p =>
      cases MyAllocator.allocate a.growth.capacity a.growth.answer with
      | none => simp [MyAllocator.deallocate]
      | some q =>
        by_cases hqp : q = p
        · simp [MyAllocator.deallocate, hqp]
        · simp [MyAllocator.deallocate, List.erase_cons_tail, hqp]
  · exact hs

/-! ### Room for the elements -/

/-- A block with room for `n` elements of the given size. -/
def HasRoom (sizeofT n : Nat) (block : Block) : Prop := n * sizeofT ≤ block.size

namespace State

/-- Each block that has been returned has room for the elements it was requested for, and each
element has been constructed in a block that reaches beyond it. -/
def InBlocks (s : State) (sizeofT : Nat) : Prop :=
  (∀ r ∈ s.requests, ∀ block, r.2 = some block → HasRoom sizeofT r.1 block) ∧
    ∀ e ∈ s.constructed, ∃ block, e.1 = some block ∧ HasRoom sizeofT (e.2 + 1) block

end State

/-- `malloc` finds memory if it is called. -/
def FindsMemory (s : State) (a : Action) : Prop := s.size = s.capacity → a.growth.answer ≠ none

/-- What holds in every state if elements have one byte and `malloc` always finds memory. -/
structure State.Inv (s : State) : Prop where
  size_le : s.size ≤ s.capacity
  /-- The vector has a block of as many bytes as its capacity. -/
  data : 0 < s.capacity → ∃ block, s.data = some block ∧ block.size = s.capacity
  inBlocks : s.InBlocks 1

theorem inv_init : State.Inv {} where
  size_le := le_rfl
  data h := absurd h (by decide)
  inBlocks := ⟨by simp, by simp⟩

theorem State.Inv.construct {s : State} (h : s.Inv) (hfull : s.size ≠ s.capacity) :
    s.construct.Inv := by
  have hlt : s.size < s.capacity := lt_of_le_of_ne h.size_le hfull
  obtain ⟨block, hdata, hblock⟩ := h.data (by omega)
  refine ⟨hlt, h.data, h.inBlocks.1, fun e he ↦ ?_⟩
  rcases List.mem_append.mp he with he | he
  · exact h.inBlocks.2 e he
  · obtain rfl := List.mem_singleton.mp he
    refine ⟨block, hdata, ?_⟩
    simp only [HasRoom]
    omega

theorem State.Inv.grow {s : State} (h : s.Inv) {growth : Growth} (hlt : s.size < growth.capacity)
    (hanswer : growth.answer ≠ none) : (s.grow growth).Inv := by
  obtain ⟨addr, haddr⟩ := Option.ne_none_iff_exists'.mp hanswer
  have hdata : MyAllocator.allocate growth.capacity growth.answer =
      some { addr, size := growth.capacity } := by
    rw [haddr]
    rfl
  refine ⟨hlt, fun _ ↦ ⟨_, hdata, rfl⟩, fun r hr block hblock ↦ ?_, fun e he ↦ ?_⟩
  · rcases List.mem_append.mp hr with hr | hr
    · exact h.inBlocks.1 r hr block hblock
    · obtain rfl := List.mem_singleton.mp hr
      obtain rfl := Option.some.inj (hdata.symm.trans hblock)
      simp only [HasRoom]
      omega
  · rcases List.mem_append.mp he with he | he
    · exact h.inBlocks.2 e he
    · have hle : e.1 = MyAllocator.allocate growth.capacity growth.answer ∧ e.2 ≤ s.size := by
        rcases List.mem_cons.mp he with rfl | he
        · exact ⟨rfl, le_rfl⟩
        · obtain ⟨i, hi, rfl⟩ := List.mem_map.mp he
          exact ⟨rfl, (List.mem_range.mp hi).le⟩
      refine ⟨_, hle.1.trans hdata, ?_⟩
      simp only [HasRoom]
      omega

/-- The calls and the elements of an earlier state are those of a later one, too. -/
theorem subset_of_run {s t : State} {as : List Action} (hrun : run step s as = some t) :
    s.requests ⊆ t.requests ∧ s.constructed ⊆ t.constructed := by
  refine run_invariant (P := fun t ↦ s.requests ⊆ t.requests ∧ s.constructed ⊆ t.constructed)
    (fun u a v hu hstep ↦ ?_) hrun ⟨List.Subset.refl _, List.Subset.refl _⟩
  obtain ⟨-, -, rfl⟩ | ⟨-, rfl⟩ := step_cases hstep
  · exact ⟨List.subset_append_of_subset_left _ hu.1, List.subset_append_of_subset_left _ hu.2⟩
  · exact ⟨hu.1, List.subset_append_of_subset_left _ hu.2⟩

/-- If all elements lie in blocks, `malloc` has found memory. -/
theorem findsMemory_of_inBlocks {sizeofT : Nat} {s t : State} {as : List Action}
    (hrun : run step s as = some t) (h : t.InBlocks sizeofT) : Along step FindsMemory s as := by
  induction as generalizing s with
  | nil => trivial
  | cons a as ih =>
    obtain ⟨u, hu, hrun⟩ := (run_cons step).mp hrun
    refine (along_cons step hu).mpr ⟨fun hfull hnone ↦ ?_, ih hrun⟩
    obtain ⟨-, -, rfl⟩ | ⟨hne, -⟩ := step_cases hu
    · have hmem := (subset_of_run hrun).2 (List.mem_append_right _ List.mem_cons_self)
      obtain ⟨block, hblock, -⟩ := h.2 _ hmem
      simp [MyAllocator.allocate, malloc, hnone] at hblock
    · exact hne hfull

/-- Once there is an element, its block has been requested by a number of elements, and has that
many bytes. -/
theorem sizeof_eq_one_of_inBlocks {sizeofT : Nat} (hsizeof : 0 < sizeofT) {t : State} {a : Action}
    {as : List Action} (hrun : run step {} (a :: as) = some t) (h : t.InBlocks sizeofT) :
    sizeofT = 1 := by
  have hfinds := (findsMemory_of_inBlocks hrun h).1 rfl
  obtain ⟨u, hu, hrun⟩ := (run_cons step).mp hrun
  obtain ⟨-, hlt, rfl⟩ | ⟨hne, -⟩ := step_cases hu
  · obtain ⟨addr, haddr⟩ := Option.ne_none_iff_exists'.mp hfinds
    have hmem := (subset_of_run hrun).1 (List.mem_append_right _ List.mem_cons_self)
    have hroom := h.1 _ hmem ⟨addr, a.growth.capacity⟩
      (by rw [MyAllocator.allocate, malloc, haddr, Option.map_some])
    have hle : a.growth.capacity * sizeofT ≤ a.growth.capacity * 1 := by
      rw [Nat.mul_one]
      exact hroom
    have hle := Nat.le_of_mul_le_mul_left hle (Nat.zero_lt_of_lt hlt)
    omega
  · exact absurd rfl hne

/-- All blocks have room for their elements if and only if no element has been appended, or elements
have one byte and `malloc` has found memory whenever it was called. -/
theorem inBlocks_iff {sizeofT : Nat} (hsizeof : 0 < sizeofT) {as : List Action} {s : State}
    (hrun : run step {} as = some s) :
    s.InBlocks sizeofT ↔ as = [] ∨ (sizeofT = 1 ∧ Along step FindsMemory {} as) := by
  constructor
  · intro h
    cases as with
    | nil => exact .inl rfl
    | cons a as =>
      exact .inr ⟨sizeof_eq_one_of_inBlocks hsizeof hrun h, findsMemory_of_inBlocks hrun h⟩
  · rintro (rfl | ⟨rfl, hfinds⟩)
    · obtain rfl := Option.some.inj hrun
      exact ⟨by simp, by simp⟩
    · refine (run_invariant_along (P := State.Inv) (fun s a t hs ha hstep ↦ ?_) hfinds hrun
        inv_init).inBlocks
      obtain ⟨hfull, hlt, rfl⟩ | ⟨hne, rfl⟩ := step_cases hstep
      · exact hs.grow hlt (ha hfull)
      · exact hs.construct hne

/-- The calls of `main` come in pairs; the first two of them, where `malloc` finds memory. -/
def pair : List Action := [.pushBack ⟨1, some 4096⟩, .emplaceBack ⟨2, some 8192⟩]

theorem inBlocks_iff_pair :
    ∃ s, run step {} pair = some s ∧
      (s.InBlocks 1 ↔ pair = [] ∨ (1 = 1 ∧ Along step FindsMemory {} pair)) :=
  ⟨_, rfl, @inBlocks_iff 1 (by decide) pair _ rfl⟩

/-- A vector of elements of four bytes constructs the first one in a block of one byte. -/
theorem exists_not_inBlocks :
    ¬ ∀ sizeofT : Nat, 1 ≤ sizeofT → ∀ as s, run step {} as = some s → s.InBlocks sizeofT := by
  intro h
  have hblocks := (h 4 (by decide) [.pushBack ⟨1, some 4096⟩] _ rfl).1
  have hroom : 1 * 4 ≤ 1 := hblocks (1, some ⟨4096, 1⟩) (by decide) _ rfl
  exact absurd hroom (by decide)

end CppDemo.Memory
