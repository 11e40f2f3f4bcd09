import Mathlib.Data.Multiset.AddSub
import Mathlib.Data.Multiset.Count
import Mathlib.Tactic.Common

/-!
# Objects behind shared pointers

An object that is made for `shared_ptr`s has a count of those that own it, and is destroyed when the
count reaches zero. Whether the counts are right is stated with the multiset of the owners: each
`shared_ptr`, wherever it is kept, is one occurrence of the object that it points to. A piece of
code that copies, moves and drops pointers is then followed by what it does to the multiset.

Often an object is owned by the operation that it has started, at most one at a time, while the code
that runs keeps some pointers itself for as long as a function lasts.

## Main definitions

* `Shared` : an object with the count of its owners.
* `Shared.make`, `Shared.retain`, `Shared.release`, `Shared.update` : what becomes of the objects.
* `Shared.Counted` : the counts are those of a multiset of owners.
* `Shared.Balanced` : the owners are operations, one for an object, and pointers that are held.

## Main results

* `Shared.Counted.make`, `Shared.Counted.retain`, `Shared.Counted.release` : pointers are made,
  copied and dropped.
* `Shared.Counted.useCount_pos_iff` : an object is alive if and only if it has an owner.
* `Shared.Balanced.start`, `Shared.Balanced.take` : a pointer goes to an operation and comes back.
* `Shared.Balanced.useCount_eq` : between two handlers, an object is alive if and only if it has an
  operation.
-/

/-- An object and the number of the `shared_ptr`s that own it. -/
structure Shared (β : Type*) where
  value : β
  owners : Nat
  deriving Repr

namespace Shared

variable {β : Type*}

/-- A new object, with one owner. -/
def make (objects : List (Shared β)) (value : β) : List (Shared β) := objects ++ [⟨value, 1⟩]

/-- A pointer to the object `i` is copied. -/
def retain (objects : List (Shared β)) (i : Nat) : List (Shared β) :=
  objects.modify i fun o ↦ { o with owners := o.owners + 1 }

/-- A pointer to the object `i` is dropped. -/
def release (objects : List (Shared β)) (i : Nat) : List (Shared β) :=
  objects.modify i fun o ↦ { o with owners := o.owners - 1 }

/-- The object `i` is changed. -/
def update (objects : List (Shared β)) (i : Nat) (f : β → β) : List (Shared β) :=
  objects.modify i fun o ↦ { o with value := f o.value }

/-- How many pointers own the object `i`. -/
def useCount (objects : List (Shared β)) (i : Nat) : Nat := (objects[i]?).elim 0 owners

/-- The object `i`, whether or not it is alive. -/
def value? (objects : List (Shared β)) (i : Nat) : Option β := (objects[i]?).map value

/-- The counts of the objects are the numbers of their owners. -/
def Counted (objects : List (Shared β)) (pointers : Multiset Nat) : Prop :=
  ∀ i, useCount objects i = pointers.count i

variable {objects : List (Shared β)} {pointers : Multiset Nat} {i j : Nat}

/-! ### The objects -/

theorem getElem?_make (objects : List (Shared β)) (value : β) (j : Nat) :
    (make objects value)[j]? = if j = objects.length then some ⟨value, 1⟩ else objects[j]? := by
  rw [make, List.getElem?_append]
  split_ifs with hlt hj hj
  · exact absurd hlt (hj ▸ Nat.lt_irrefl _)
  · rfl
  · simp [hj]
  · have hgt : objects.length < j := by omega
    rw [List.getElem?_eq_none (Nat.le_of_lt hgt), List.getElem?_eq_none]
    exact Nat.sub_pos_of_lt hgt

theorem value?_make (objects : List (Shared β)) (value : β) (j : Nat) :
    value? (make objects value) j =
      if j = objects.length then some value else value? objects j := by
  simp only [value?, getElem?_make]
  split_ifs <;> rfl

theorem value?_retain (objects : List (Shared β)) (i j : Nat) :
    value? (retain objects i) j = value? objects j := by
  simp only [value?, retain, List.getElem?_modify, Option.map_eq_map, Option.map_map]
  congr 1
  funext o
  by_cases hij : i = j <;> simp [hij]

theorem value?_release (objects : List (Shared β)) (i j : Nat) :
    value? (release objects i) j = value? objects j := by
  simp only [value?, release, List.getElem?_modify, Option.map_eq_map, Option.map_map]
  congr 1
  funext o
  by_cases hij : i = j <;> simp [hij]

theorem value?_update (objects : List (Shared β)) (i : Nat) (f : β → β) (j : Nat) :
    value? (update objects i f) j = (value? objects j).map fun v ↦ if i = j then f v else v := by
  simp only [value?, update, List.getElem?_modify, Option.map_eq_map, Option.map_map]
  congr 1
  funext o
  by_cases hij : i = j <;> simp [hij]

/-! ### The counts -/

theorem useCount_make (objects : List (Shared β)) (value : β) (j : Nat) :
    useCount (make objects value) j =
      if j = objects.length then 1 else useCount objects j := by
  simp only [useCount, getElem?_make]
  split_ifs <;> rfl

theorem useCount_update (objects : List (Shared β)) (i : Nat) (f : β → β) (j : Nat) :
    useCount (update objects i f) j = useCount objects j := by
  simp only [useCount, update, List.getElem?_modify]
  cases objects[j]? with
  | none => rfl
  | some o => by_cases hij : i = j <;> simp [hij]

theorem useCount_of_ne_retain (hij : i ≠ j) :
    useCount (retain objects i) j = useCount objects j := by
  simp [useCount, retain, hij]

theorem useCount_of_ne_release (hij : i ≠ j) :
    useCount (release objects i) j = useCount objects j := by
  simp [useCount, release, hij]

theorem useCount_retain_self (h : 0 < useCount objects i) :
    useCount (retain objects i) i = useCount objects i + 1 := by
  simp only [useCount, retain, List.getElem?_modify_eq] at h ⊢
  cases hi : objects[i]? with
  | none => simp [hi] at h
  | some o => rfl

theorem useCount_release_self (objects : List (Shared β)) (i : Nat) :
    useCount (release objects i) i = useCount objects i - 1 := by
  simp only [useCount, release, List.getElem?_modify_eq]
  cases objects[i]? <;> rfl

theorem useCount_eq_zero_of_le (h : objects.length ≤ i) : useCount objects i = 0 := by
  rw [useCount, List.getElem?_eq_none h]
  rfl

theorem exists_value?_of_pos (h : 0 < useCount objects i) : ∃ v, value? objects i = some v := by
  rw [useCount] at h
  rw [value?]
  cases hi : objects[i]? with
  | none => simp [hi] at h
  | some o => exact ⟨o.value, rfl⟩

/-! ### Pointers and owners -/

namespace Counted

theorem nil : Counted ([] : List (Shared β)) 0 := fun _ ↦ by simp [useCount]

/-- An object is alive if and only if it has an owner. -/
theorem useCount_pos_iff (h : Counted objects pointers) :
    0 < useCount objects i ↔ i ∈ pointers := by
  rw [h i, Multiset.count_pos]

/-- A pointer to a new object is the first one to it. -/
theorem make (h : Counted objects pointers) (value : β) :
    Counted (make objects value) (objects.length ::ₘ pointers) := by
  intro j
  rw [useCount_make, Multiset.count_cons]
  by_cases hj : j = objects.length
  · have hzero : pointers.count j = 0 := by
      rw [← h j, useCount_eq_zero_of_le (Nat.le_of_eq hj.symm)]
    rw [if_pos hj, if_pos hj, hzero]
  · rw [if_neg hj, if_neg hj, Nat.add_zero, h j]

theorem retain (h : Counted objects pointers) (hi : i ∈ pointers) :
    Counted (retain objects i) (i ::ₘ pointers) := by
  intro j
  rw [Multiset.count_cons, ← h j]
  by_cases hij : i = j
  · subst hij
    rw [if_pos rfl, useCount_retain_self (h.useCount_pos_iff.mpr hi)]
  · rw [useCount_of_ne_retain hij, if_neg (Ne.symm hij), Nat.add_zero]

theorem release (h : Counted objects (i ::ₘ pointers)) : Counted (release objects i) pointers := by
  intro j
  have hj := h j
  rw [Multiset.count_cons] at hj
  by_cases hij : i = j
  · subst hij
    rw [useCount_release_self, hj, if_pos rfl, Nat.add_sub_cancel]
  · rw [useCount_of_ne_release hij, hj, if_neg (Ne.symm hij), Nat.add_zero]

theorem update (h : Counted objects pointers) (i : Nat) (f : β → β) :
    Counted (update objects i f) pointers := fun j ↦ (useCount_update objects i f j).trans (h j)

end Counted

/-! ### Operations that own objects -/

/-- The objects are owned by the operations `ops`, of which each has its own object, and by the
pointers `held`. -/
structure Balanced (objects : List (Shared β)) (ops : List Nat) (held : Multiset Nat) : Prop where
  counted : Counted objects (held + (ops : Multiset Nat))
  sole : ops.Nodup

namespace Balanced

variable {ops rest : List Nat} {held : Multiset Nat}

theorem nil : Balanced ([] : List (Shared β)) [] 0 := ⟨Counted.nil, List.nodup_nil⟩

theorem pos_of_mem_held (h : Balanced objects ops held) (hi : i ∈ held) : 0 < useCount objects i :=
  h.counted.useCount_pos_iff.mpr (Multiset.mem_add.mpr (.inl hi))

theorem pos_of_mem_ops (h : Balanced objects ops held) (hi : i ∈ ops) : 0 < useCount objects i :=
  h.counted.useCount_pos_iff.mpr (Multiset.mem_add.mpr (.inr hi))

/-- The last pointer to an object is held by no operation. -/
theorem not_mem_ops_of_useCount_eq_one (h : Balanced objects ops (i ::ₘ held))
    (hone : useCount objects i = 1) : i ∉ ops := by
  intro hi
  have hcount := h.counted i
  rw [Multiset.cons_add, Multiset.count_cons_self, hone] at hcount
  have hpos : 0 < (held + (ops : Multiset Nat)).count i :=
    Multiset.count_pos.mpr (Multiset.mem_add.mpr (.inr hi))
  omega

theorem make (h : Balanced objects ops held) (value : β) :
    Balanced (make objects value) ops (objects.length ::ₘ held) where
  counted := by
    rw [Multiset.cons_add]
    exact h.counted.make value
  sole := h.sole

/-- A new object has no operation. -/
theorem length_not_mem (h : Balanced objects ops held) : objects.length ∉ ops := fun hmem ↦ by
  have hpos := h.pos_of_mem_ops hmem
  rw [useCount_eq_zero_of_le (Nat.le_refl _)] at hpos
  exact Nat.lt_irrefl 0 hpos

theorem retain (h : Balanced objects ops held) (hi : i ∈ held) :
    Balanced (retain objects i) ops (i ::ₘ held) where
  counted := by
    rw [Multiset.cons_add]
    exact h.counted.retain (Multiset.mem_add.mpr (.inl hi))
  sole := h.sole

theorem release (h : Balanced objects ops (i ::ₘ held)) :
    Balanced (release objects i) ops held where
  counted := by
    have hcounted := h.counted
    rw [Multiset.cons_add] at hcounted
    exact hcounted.release
  sole := h.sole

theorem update (h : Balanced objects ops held) (i : Nat) (f : β → β) :
    Balanced (update objects i f) ops held := ⟨h.counted.update i f, h.sole⟩

/-- An object that has no operation gets one, to which a pointer is moved. -/
theorem start (h : Balanced objects ops (i ::ₘ held)) (hi : i ∉ ops) :
    Balanced objects (ops ++ [i]) held where
  counted := by
    have hmove : i ::ₘ held + (ops : Multiset Nat) =
        held + ((ops ++ [i] : List Nat) : Multiset Nat) := by
      rw [← Multiset.coe_add, Multiset.coe_singleton, ← Multiset.add_assoc, Multiset.cons_add,
        ← Multiset.singleton_add]
      exact Multiset.add_comm _ _
    exact hmove ▸ h.counted
  sole := by
    refine List.nodup_append.mpr ⟨h.sole, List.nodup_singleton i, fun a ha b hb hab ↦ hi ?_⟩
    rwa [← List.mem_singleton.mp hb, ← hab]

/-- An operation is over, and the code that runs has its pointer. -/
theorem take (h : Balanced objects ops held) (hops : ops.Perm (i :: rest)) :
    Balanced objects rest (i ::ₘ held) ∧ i ∉ rest := by
  obtain ⟨hnot, hsole⟩ := List.nodup_cons.mp (hops.nodup_iff.mp h.sole)
  have hmove : held + (ops : Multiset Nat) = i ::ₘ held + (rest : Multiset Nat) := by
    rw [Multiset.coe_eq_coe.mpr hops, ← Multiset.cons_coe, Multiset.add_cons, Multiset.cons_add]
  exact ⟨⟨hmove ▸ h.counted, hsole⟩, hnot⟩

/-- While nobody holds a pointer, an object has as many owners as operations, at most one. -/
theorem useCount_eq (h : Balanced objects ops 0) (i : Nat) :
    useCount objects i = ops.count i ∧ ops.count i ≤ 1 := by
  have hcount := h.counted i
  rw [Multiset.zero_add, Multiset.coe_count] at hcount
  exact ⟨hcount, List.nodup_iff_count_le_one.mp h.sole i⟩

end Balanced

end Shared
