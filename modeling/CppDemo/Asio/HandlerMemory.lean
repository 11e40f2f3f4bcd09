import CppDemo.Foundation.Block
import CppDemo.Foundation.Transition
import Mathlib.Algebra.Group.Nat.Defs
import Mathlib.Order.Nat

/-!
# Memory for the handlers of a connection

A `handler_memory` has storage of its own for one block, which it hands out to a small enough
request while nobody has it; all other requests go to `::operator new`. A block is taken back by
its address. Which blocks are live, and where they come from, is recorded beside the object.

`::operator new` answers with a block of at least the requested size that shares no byte and no
address with a live block and with the storage inside the `handler_memory`, or it throws.

Source: `asio/allocation/allocation.cpp`, lines 9–78, of which
`asio/buffer/reference_counted_buffer.cpp` has a copy.

## Main definitions

* `HandlerMemory.allocate`, `HandlerMemory.deallocate` : the two operations.
* `HandlerMemory.step` : a caller allocates, or releases a block that is live.
* `HandlerAllocator.allocate` : memory for a number of elements.

## Main results

* `HandlerMemory.State.Inv.step` : every step keeps the invariant.
* `HandlerMemory.blocks_of_run` : in every run the live blocks are apart, and each one is released
  to where it comes from.
* `HandlerAllocator.allocate_enough_iff` : there is room for all elements if and only if the product
  of their size and their number does not overflow.
-/

namespace CppDemo.Asio

open Transition

/-- `sizeof(storage_)`. -/
def sizeofStorage : UInt64 := 1024

structure HandlerMemory where
  /-- `&storage_`. -/
  storage : Nat
  inUse : Bool := false
  deriving DecidableEq, Repr

/-- Where a block comes from, or is released to. -/
inductive Origin
  | storage
  | heap
  deriving DecidableEq, Repr

namespace HandlerMemory

/-- The storage of the object as a block. -/
def inline (self : HandlerMemory) : Block := { addr := self.storage, size := sizeofStorage.toNat }

/-- The block that is handed out, `none` if `::operator new` throws. -/
def allocate (self : HandlerMemory) (size : UInt64) (operatorNew : UInt64 → Option Block) :
    Option (HandlerMemory × Block × Origin) :=
  if !self.inUse && size < sizeofStorage then
    some ({ self with inUse := true }, self.inline, .storage)
  else (operatorNew size).map fun block ↦ (self, block, .heap)

/-- A block is released, in the second case to `::operator delete`. -/
def deallocate (self : HandlerMemory) (pointer : Nat) : HandlerMemory × Origin :=
  if pointer = self.storage then ({ self with inUse := false }, .storage) else (self, .heap)

/-! ### Histories of calls -/

/-- A result of `allocate` that has not been released. -/
structure Live where
  block : Block
  /-- The size that was requested. -/
  size : UInt64
  origin : Origin
  deriving DecidableEq, Repr

structure State where
  memory : HandlerMemory
  live : List Live
  /-- The blocks that have been released, and to where. -/
  released : List (Live × Origin)
  deriving DecidableEq, Repr

def init (storage : Nat) : State := { memory := { storage }, live := [], released := [] }

inductive Action
  /-- `::operator new` answers with a block or throws, if it is called. -/
  | allocate (size : UInt64) (answer : Option Block)
  | deallocate (pointer : Nat)
  deriving DecidableEq, Repr

namespace State

/-- What `::operator new` may answer to a request. -/
def MayAnswer (s : State) (size : UInt64) (block : Block) : Prop :=
  size.toNat ≤ block.size ∧ block.Apart s.memory.inline ∧
    (s.live.all fun b ↦ block.Apart b.block) = true

instance (s : State) (size : UInt64) (block : Block) : Decidable (s.MayAnswer size block) :=
  inferInstanceAs (Decidable (_ ∧ _ ∧ _ = true))

/-- The state after a call of `allocate`. -/
def allocate (s : State) (size : UInt64) (answer : Option Block) : State :=
  match s.memory.allocate size fun _ ↦ answer with
  | none => s
  | some (memory, block, origin) => { s with memory, live := ⟨block, size, origin⟩ :: s.live }

/-- The state after the release of a live block. -/
def release (s : State) (b : Live) : State :=
  let (memory, origin) := s.memory.deallocate b.block.addr
  { memory, live := s.live.erase b, released := s.released ++ [(b, origin)] }

end State

/-- A call. Only pointers to live blocks are released. -/
def step (s : State) : Action → Option State
  | .allocate size none => some (s.allocate size none)
  | .allocate size (some block) =>
    if s.MayAnswer size block then some (s.allocate size (some block)) else none
  | .deallocate pointer =>
    (s.live.find? fun b ↦ b.block.addr = pointer).map fun b ↦ s.release b

/-- What a step does: a call fails, takes the storage or a block of the heap, or releases a live
block. -/
theorem step_cases {s t : State} {a : Action} (h : step s a = some t) :
    t = s ∨
      (∃ size : UInt64, s.memory.inUse = false ∧ size < sizeofStorage ∧
        t = { s with memory := { s.memory with inUse := true },
                     live := ⟨s.memory.inline, size, .storage⟩ :: s.live }) ∨
      (∃ size block, s.MayAnswer size block ∧
        t = { s with live := ⟨block, size, .heap⟩ :: s.live }) ∨
      ∃ b ∈ s.live, t = s.release b := by
  cases a with
  | allocate size answer =>
    by_cases hinline : s.memory.inUse = false ∧ size < sizeofStorage
    · have ht : t = s.allocate size answer := by
        cases answer with
        | none => exact (Option.some.inj h).symm
        | some block => exact (Option.some.inj (Option.ite_none_right_eq_some.mp h).2).symm
      refine .inr (.inl ⟨size, hinline.1, hinline.2, ht.trans ?_⟩)
      simp [State.allocate, HandlerMemory.allocate, hinline.1, hinline.2]
    · have hnew : (!s.memory.inUse && decide (size < sizeofStorage)) = false := by
        simpa using hinline
      cases answer with
      | none =>
        refine .inl ((Option.some.inj h).symm.trans ?_)
        simp [State.allocate, HandlerMemory.allocate, hnew]
      | some block =>
        obtain ⟨hanswer, h⟩ := Option.ite_none_right_eq_some.mp h
        refine .inr (.inr (.inl ⟨size, block, hanswer, (Option.some.inj h).symm.trans ?_⟩))
        simp [State.allocate, HandlerMemory.allocate, hnew]
  | deallocate pointer =>
    obtain ⟨b, hb, rfl⟩ := Option.map_eq_some_iff.mp h
    exact .inr (.inr (.inr ⟨b, List.mem_of_find?_eq_some hb, rfl⟩))

/-! ### The live blocks -/

namespace State

/-- What holds in every state of a history. -/
structure Inv (s : State) : Prop where
  apart : s.live.Pairwise fun b c ↦ b.block.Apart c.block
  storage : ∀ b ∈ s.live, b.origin = .storage → b.block = s.memory.inline
  heap : ∀ b ∈ s.live, b.origin = .heap → b.block.Apart s.memory.inline
  inUse : s.memory.inUse = true ↔ ∃ b ∈ s.live, b.origin = .storage
  size_le : ∀ b ∈ s.live, b.size.toNat ≤ b.block.size
  released : ∀ r ∈ s.released,
    r.2 = r.1.origin ∧ (r.2 = .heap → r.1.block.addr ≠ s.memory.storage)

variable {s : State}

theorem inv_init (storage : Nat) : (init storage).Inv where
  apart := .nil
  storage := by simp [init]
  heap := by simp [init]
  inUse := by simp [init]
  size_le := by simp [init]
  released := by simp [init]

/-- A live block is at the address of the storage if and only if it is the storage. -/
theorem Inv.addr_eq_iff (h : s.Inv) {b : Live} (hb : b ∈ s.live) :
    b.block.addr = s.memory.storage ↔ b.origin = .storage := by
  constructor
  · intro haddr
    cases horigin : b.origin with
    | storage => rfl
    | heap => exact absurd haddr (h.heap b hb horigin).1
  · intro horigin
    rw [h.storage b hb horigin]
    rfl

/-- While the storage is not in use, all live blocks are apart from it. -/
theorem Inv.apart_inline (h : s.Inv) (hfree : s.memory.inUse = false) {b : Live}
    (hb : b ∈ s.live) : b.block.Apart s.memory.inline := by
  cases horigin : b.origin with
  | storage => exact absurd (h.inUse.mpr ⟨b, hb, horigin⟩) (by simp [hfree])
  | heap => exact h.heap b hb horigin

/-- A block is handed out that is apart from the live ones. -/
theorem Inv.add (h : s.Inv) {b : Live} {inUse : Bool}
    (hapart : ∀ c ∈ s.live, b.block.Apart c.block)
    (hstorage : b.origin = .storage → b.block = s.memory.inline)
    (hheap : b.origin = .heap → b.block.Apart s.memory.inline)
    (hsize : b.size.toNat ≤ b.block.size)
    (hinUse : inUse = true ↔ b.origin = .storage ∨ s.memory.inUse = true) :
    Inv { s with memory := { s.memory with inUse }, live := b :: s.live } where
  apart := List.pairwise_cons.mpr ⟨hapart, h.apart⟩
  storage := List.forall_mem_cons.mpr ⟨hstorage, h.storage⟩
  heap := List.forall_mem_cons.mpr ⟨hheap, h.heap⟩
  inUse := by simp only [hinUse, h.inUse, List.exists_mem_cons_iff]
  size_le := List.forall_mem_cons.mpr ⟨hsize, h.size_le⟩
  released := h.released

/-- The storage is handed out. -/
theorem Inv.useStorage (h : s.Inv) {size : UInt64} (hfree : s.memory.inUse = false)
    (hsize : size < sizeofStorage) :
    Inv { s with memory := { s.memory with inUse := true },
                 live := ⟨s.memory.inline, size, .storage⟩ :: s.live } :=
  h.add (fun _ hc ↦ (h.apart_inline hfree hc).symm) (fun _ ↦ rfl) (fun hheap ↦ by cases hheap)
    (UInt64.lt_iff_toNat_lt.mp hsize).le (by simp)

/-- A block of the heap is handed out. -/
theorem Inv.useHeap (h : s.Inv) {size : UInt64} {block : Block} (hanswer : s.MayAnswer size block) :
    Inv { s with live := ⟨block, size, .heap⟩ :: s.live } := by
  obtain ⟨hsize, hinline, hlive⟩ := hanswer
  exact h.add (b := ⟨block, size, .heap⟩)
    (fun c hc ↦ of_decide_eq_true (List.all_eq_true.mp hlive c hc))
    (fun hstorage ↦ by cases hstorage) (fun _ ↦ hinline) hsize (by simp)

/-- The other live blocks are apart from the one that is released. -/
theorem Inv.apart_of_mem_erase (h : s.Inv) {b c : Live} (hb : b ∈ s.live)
    (hc : c ∈ s.live.erase b) : b.block.Apart c.block :=
  Block.rel_of_mem_erase (R := fun b c : Live ↦ b.block.Apart c.block) (fun _ _ ↦ Block.Apart.symm)
    h.apart hb hc

/-- `deallocate` gives a live block back to where it comes from. -/
theorem Inv.deallocate_eq (h : s.Inv) {b : Live} (hb : b ∈ s.live) :
    s.memory.deallocate b.block.addr =
      match b.origin with
      | .storage => ({ s.memory with inUse := false }, .storage)
      | .heap => (s.memory, .heap) := by
  have hiff := h.addr_eq_iff hb
  cases horigin : b.origin with
  | storage => rw [deallocate, if_pos (hiff.mpr horigin)]
  | heap => rw [deallocate, if_neg (by simp [hiff, horigin])]

/-- After the release of a block of the storage, no other block of it is live. -/
theorem Inv.origin_eq_heap (h : s.Inv) {b c : Live} (hb : b ∈ s.live)
    (horigin : b.origin = .storage) (hc : c ∈ s.live.erase b) : c.origin = .heap := by
  cases horiginc : c.origin with
  | heap => rfl
  | storage =>
    have hblock : b.block = c.block :=
      (h.storage b hb horigin).trans (h.storage c (List.mem_of_mem_erase hc) horiginc).symm
    exact absurd (congrArg Block.addr hblock) (h.apart_of_mem_erase hb hc).1

/-- A block is taken from the live ones and given back to where it comes from. -/
theorem Inv.remove (h : s.Inv) {b : Live} (hb : b ∈ s.live) {inUse : Bool}
    (hinUse : inUse = true ↔ ∃ c ∈ s.live.erase b, c.origin = .storage) :
    Inv { memory := { s.memory with inUse }, live := s.live.erase b,
          released := s.released ++ [(b, b.origin)] } where
  apart := h.apart.sublist List.erase_sublist
  storage c hc := h.storage c (List.mem_of_mem_erase hc)
  heap c hc := h.heap c (List.mem_of_mem_erase hc)
  inUse := hinUse
  size_le c hc := h.size_le c (List.mem_of_mem_erase hc)
  released r hr := by
    rcases List.mem_append.mp hr with hr | hr
    · exact h.released r hr
    · rw [List.mem_singleton.mp hr]
      exact ⟨rfl, fun hheap ↦ (h.heap b hb hheap).1⟩

/-- A live block is released. -/
theorem Inv.release (h : s.Inv) {b : Live} (hb : b ∈ s.live) : (s.release b).Inv := by
  rw [State.release, h.deallocate_eq hb]
  cases horigin : b.origin with
  | storage =>
    have hnone : false = true ↔ ∃ c ∈ s.live.erase b, c.origin = .storage := by
      simp only [Bool.false_eq_true, false_iff]
      rintro ⟨c, hc, hstorage⟩
      exact absurd ((h.origin_eq_heap hb horigin hc).symm.trans hstorage) (by decide)
    have hremove := h.remove hb hnone
    rwa [horigin] at hremove
  | heap =>
    have hsame : s.memory.inUse = true ↔ ∃ c ∈ s.live.erase b, c.origin = .storage := by
      refine h.inUse.trans ⟨?_, ?_⟩
      · rintro ⟨c, hc, hstorage⟩
        have hne : c ≠ b := fun hcb ↦ by simp [hcb, horigin] at hstorage
        exact ⟨c, (List.mem_erase_of_ne hne).mpr hc, hstorage⟩
      · rintro ⟨c, hc, hstorage⟩
        exact ⟨c, List.mem_of_mem_erase hc, hstorage⟩
    have hremove := h.remove hb hsame
    rwa [horigin] at hremove

/-- Every step keeps the invariant. -/
theorem Inv.step {t : State} {a : Action} (h : s.Inv) (hstep : step s a = some t) : t.Inv := by
  obtain rfl | ⟨size, hfree, hsize, rfl⟩ | ⟨size, block, hanswer, rfl⟩ | ⟨b, hb, rfl⟩ :=
    step_cases hstep
  · exact h
  · exact h.useStorage hfree hsize
  · exact h.useHeap hanswer
  · exact h.release hb

end State

theorem storage_of_run {s t : State} {as : List Action} (hrun : run step s as = some t) :
    t.memory.storage = s.memory.storage := by
  refine run_invariant (P := fun t ↦ t.memory.storage = s.memory.storage)
    (fun u a v hu hstep ↦ ?_) hrun rfl
  obtain rfl | ⟨size, -, -, rfl⟩ | ⟨size, block, -, rfl⟩ | ⟨b, -, rfl⟩ := step_cases hstep
  · exact hu
  · exact hu
  · exact hu
  · simp only [State.release, deallocate]
    split_ifs <;> exact hu

/-- In every history of calls that releases only live blocks, the storage is in use if and only if
the block at its address is live, live blocks do not overlap, each has the size that was requested,
and each block has been released to where it came from; what is given to `::operator delete` is not
the storage. -/
theorem blocks_of_run {storage : Nat} {as : List Action} {s : State}
    (hrun : run step (init storage) as = some s) :
    (s.memory.inUse = true ↔ ∃ b ∈ s.live, b.block.addr = storage) ∧
      s.live.Pairwise (fun b c ↦ ∀ a ∈ b.block.bytes, a ∉ c.block.bytes) ∧
      (∀ b ∈ s.live, b.size.toNat ≤ b.block.size) ∧
      ∀ r ∈ s.released, r.2 = r.1.origin ∧ (r.2 = .heap → r.1.block.addr ≠ storage) := by
  have hinv : s.Inv :=
    run_invariant (fun _ _ _ h hstep ↦ h.step hstep) hrun (State.inv_init storage)
  obtain rfl : s.memory.storage = storage := storage_of_run hrun
  refine ⟨hinv.inUse.trans ⟨?_, ?_⟩, hinv.apart.imp fun h _ ↦ h.notMem_bytes, hinv.size_le,
    hinv.released⟩
  · rintro ⟨b, hb, horigin⟩
    exact ⟨b, hb, (hinv.addr_eq_iff hb).mpr horigin⟩
  · rintro ⟨b, hb, haddr⟩
    exact ⟨b, hb, (hinv.addr_eq_iff hb).mp haddr⟩

/-- The storage is taken, a second block comes from the heap, and the storage is released first. A
large request goes to the heap although the storage is free. -/
def crossed : List Action :=
  [.allocate 100 none, .allocate 200 (some ⟨8192, 200⟩), .deallocate 4096,
    .allocate 2000 (some ⟨16384, 2000⟩), .allocate 1023 none, .deallocate 8192]

theorem blocks_of_run_crossed :
    ∃ s, run step (init 4096) crossed = some s ∧
      (s.memory.inUse = true ↔ ∃ b ∈ s.live, b.block.addr = 4096) ∧
      s.live.Pairwise (fun b c ↦ ∀ a ∈ b.block.bytes, a ∉ c.block.bytes) ∧
      (∀ b ∈ s.live, b.size.toNat ≤ b.block.size) ∧
      ∀ r ∈ s.released, r.2 = r.1.origin ∧ (r.2 = .heap → r.1.block.addr ≠ 4096) :=
  ⟨_, rfl, @blocks_of_run 4096 crossed _ rfl⟩

end HandlerMemory

/-! ### Memory for a number of elements -/

namespace HandlerAllocator

open HandlerMemory

/-- `sizeof(T) * n` bytes, computed in `size_t`. -/
def allocate (sizeofT : UInt64) (memory : HandlerMemory) (n : UInt64)
    (operatorNew : UInt64 → Option Block) : Option (HandlerMemory × Block × Origin) :=
  memory.allocate (sizeofT * n) operatorNew

/-- `allocate` fails or hands out a block with room for all elements, whatever `::operator new`
answers. -/
def Enough (s : State) (sizeofT n : UInt64) : Prop :=
  ∀ operatorNew : UInt64 → Option Block,
    (∀ size block, operatorNew size = some block → s.MayAnswer size block) →
    ∀ memory block origin,
      allocate sizeofT s.memory n operatorNew = some (memory, block, origin) →
        sizeofT.toNat * n.toNat ≤ block.size

/-- A block that `allocate` hands out has the size that was requested. -/
theorem toNat_le_size {memory memory' : HandlerMemory} {size : UInt64}
    {operatorNew : UInt64 → Option Block} {block : Block} {origin : Origin}
    (hnew : ∀ block, operatorNew size = some block → size.toNat ≤ block.size)
    (h : memory.allocate size operatorNew = some (memory', block, origin)) :
    size.toNat ≤ block.size := by
  rw [HandlerMemory.allocate] at h
  split_ifs at h with hinline
  · simp only [Bool.and_eq_true, decide_eq_true_eq] at hinline
    simp only [Option.some.injEq, Prod.mk.injEq] at h
    obtain ⟨-, rfl, -⟩ := h
    exact (UInt64.lt_iff_toNat_lt.mp hinline.2).le
  · obtain ⟨block', hblock, h⟩ := Option.map_eq_some_iff.mp h
    simp only [Prod.mk.injEq] at h
    obtain ⟨-, rfl, -⟩ := h
    exact hnew block' hblock

/-- `::operator new` can answer every request with a block of just the requested size. -/
theorem exists_operatorNew (s : State) :
    ∃ operatorNew : UInt64 → Option Block, ∀ size, ∃ block, operatorNew size = some block ∧
      block.size = size.toNat ∧ s.MayAnswer size block := by
  have hblock : ∀ size : UInt64, ∃ block : Block, block.size = size.toNat ∧
      s.MayAnswer size block := by
    intro size
    obtain ⟨block, hsize, hapart⟩ :=
      Block.exists_apart (s.memory.inline :: s.live.map Live.block) size.toNat
    refine ⟨block, hsize, hsize.ge, hapart _ List.mem_cons_self, List.all_eq_true.mpr fun b hb ↦ ?_⟩
    exact decide_eq_true (hapart _ (List.mem_cons_of_mem _ (List.mem_map_of_mem hb)))
  choose answer hanswer using hblock
  exact ⟨fun size ↦ some (answer size), fun size ↦ ⟨answer size, rfl, hanswer size⟩⟩

/-- There is room for all elements if and only if the number of bytes does not overflow. -/
theorem allocate_enough_iff (s : State) (sizeofT n : UInt64) :
    Enough s sizeofT n ↔ sizeofT.toNat * n.toNat < 2 ^ 64 := by
  constructor
  · intro h
    obtain ⟨operatorNew, hnew⟩ := exists_operatorNew s
    have hmay : ∀ size block, operatorNew size = some block → s.MayAnswer size block := by
      intro size block hblock
      obtain ⟨block', hblock', -, hmay⟩ := hnew size
      obtain rfl : block' = block := Option.some.inj (hblock'.symm.trans hblock)
      exact hmay
    -- no block that is handed out has `2 ^ 64` bytes
    cases hinline : !s.memory.inUse && decide (sizeofT * n < sizeofStorage) with
    | true =>
      have hallocate : allocate sizeofT s.memory n operatorNew =
          some ({ s.memory with inUse := true }, s.memory.inline, .storage) := by
        rw [allocate, HandlerMemory.allocate, if_pos hinline]
      have hle : _ ≤ sizeofStorage.toNat := h operatorNew hmay _ _ _ hallocate
      exact hle.trans_lt sizeofStorage.toNat_lt
    | false =>
      obtain ⟨block, hblock, hsize, -⟩ := hnew (sizeofT * n)
      have hallocate : allocate sizeofT s.memory n operatorNew = some (s.memory, block, .heap) := by
        rw [allocate, HandlerMemory.allocate, if_neg (by simp [hinline]), hblock]
        rfl
      have hle := h operatorNew hmay _ _ _ hallocate
      exact (hsize ▸ hle).trans_lt (sizeofT * n).toNat_lt
  · intro hlt operatorNew hnew memory block origin hallocate
    have hmul : (sizeofT * n).toNat = sizeofT.toNat * n.toNat % 2 ^ 64 := UInt64.toNat_mul ..
    rw [← Nat.mod_eq_of_lt hlt, ← hmul]
    exact toNat_le_size (fun block hblock ↦ (hnew _ block hblock).1) hallocate

/-- `2 ^ 63` elements of two bytes are given the storage. -/
theorem exists_not_enough :
    ¬ ∀ (s : State) (sizeofT n : UInt64), 1 ≤ sizeofT → Enough s sizeofT n := by
  intro h
  have hle : _ ≤ 1024 := h (init 4096) 2 9223372036854775808 (by decide) (fun _ ↦ none)
    (fun _ _ hblock ↦ absurd hblock (by simp)) _ _ _ rfl
  exact absurd hle (by decide)

end HandlerAllocator

end CppDemo.Asio
