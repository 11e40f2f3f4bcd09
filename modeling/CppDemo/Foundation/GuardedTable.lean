import CppDemo.Foundation.Transition
import Mathlib.Computability.Language

/-!
# Machines given by a table of guarded rows

A machine with control states `q` and data `σ` is given by a table. Each row has a source, a target,
a guard and an action; in a state the machine takes the first row of that source whose guard holds,
runs its action and goes to its target. It is stuck when there is no such row.

The languages of such machines are built from classes of symbols, of which the star consists of the
words all of whose symbols are in the class.

## Main definitions

* `GuardedTable.fire` : the step of the machine.
* `SymbolClass.symbols` : the words of one symbol from a class.

## Main results

* `GuardedTable.exists_row_of_fire` : every step takes a row of the table.
* `GuardedTable.run_loop` : a state with a row back to itself reads a word of accepted symbols.
* `SymbolClass.mem_kstar_range` : the star of a language of words with a description.
* `SymbolClass.mem_kstar_symbols` : the star of a class of symbols.
-/

/-- A row of a table. -/
structure GuardedRow (q σ ε : Type*) where
  source : q
  target : q
  action : σ → ε → σ
  guard : σ → ε → Bool

namespace GuardedTable

variable {q σ ε : Type*} [DecidableEq q]

/-- The first row of the source `m.1` whose guard holds is taken. -/
def fire (table : List (GuardedRow q σ ε)) (m : q × σ) (e : ε) : Option (q × σ) :=
  (table.find? fun row ↦ row.source = m.1 && row.guard m.2 e).map fun row ↦
    (row.target, row.action m.2 e)

@[simp] theorem fire_nil (m : q × σ) (e : ε) : fire ([] : List (GuardedRow q σ ε)) m e = none := rfl

theorem fire_cons (row : GuardedRow q σ ε) (table : List (GuardedRow q σ ε)) (m : q × σ) (e : ε) :
    fire (row :: table) m e = if row.source = m.1 ∧ row.guard m.2 e = true then
      some (row.target, row.action m.2 e) else fire table m e := by
  unfold fire
  rw [List.find?_cons]
  by_cases h : row.source = m.1 ∧ row.guard m.2 e = true
  · simp [h]
  · have hfalse : (decide (row.source = m.1) && row.guard m.2 e) = false := by
      simpa using h
    simp only [hfalse, h, ↓reduceIte]

/-- Every step takes a row of the table. -/
theorem exists_row_of_fire {table : List (GuardedRow q σ ε)} {m m' : q × σ} {e : ε}
    (h : fire table m e = some m') :
    ∃ row ∈ table, row.source = m.1 ∧ (row.target, row.action m.2 e) = m' := by
  obtain ⟨row, hrow, hm⟩ := Option.map_eq_some_iff.mp h
  have hguard := List.find?_some hrow
  rw [Bool.and_eq_true, decide_eq_true_eq] at hguard
  exact ⟨row, List.mem_of_find?_eq_some hrow, hguard.1, hm⟩

/-- A state that each symbol of a word leads back to reads the word. -/
theorem run_loop {table : List (GuardedRow q σ ε)} {s : q} {f : σ → ε → σ} {w : List ε} {x : σ}
    (h : ∀ x, ∀ e ∈ w, fire table (s, x) e = some (s, f x e)) :
    Transition.run (fire table) (s, x) w = some (s, w.foldl f x) := by
  induction w generalizing x with
  | nil => rfl
  | cons e w ih =>
    exact (Transition.run_cons _).mpr ⟨_, h x e List.mem_cons_self,
      ih fun y d hd ↦ h y d (List.mem_cons_of_mem e hd)⟩

end GuardedTable

namespace SymbolClass

open Computability

variable {α : Type*} {P : α → Prop}

/-- The words of one symbol that satisfies `P`. -/
def symbols (P : α → Prop) : Language α := {w | ∃ c, P c ∧ w = [c]}

theorem mem_symbols {w : List α} : w ∈ symbols P ↔ ∃ c, P c ∧ w = [c] := Iff.rfl

theorem mem_symbols_eq {w : List α} {c : α} : w ∈ symbols (· = c) ↔ w = [c] := by
  simp [mem_symbols]

/-- If the words of `l` are those that some `x` describes, the words of its star are those that a
list of them describes. -/
theorem mem_kstar_range {β : Type*} {l : Language α} {f : β → List α}
    (h : ∀ w, w ∈ l ↔ ∃ x, f x = w) {w : List α} : w ∈ l∗ ↔ ∃ xs : List β, xs.flatMap f = w := by
  rw [Language.mem_kstar]
  constructor
  · rintro ⟨words, rfl, hwords⟩
    induction words with
    | nil => exact ⟨[], rfl⟩
    | cons w words ih =>
      obtain ⟨x, rfl⟩ := (h w).mp (hwords w List.mem_cons_self)
      obtain ⟨xs, hxs⟩ := ih fun v hv ↦ hwords v (List.mem_cons_of_mem _ hv)
      exact ⟨x :: xs, by rw [List.flatMap_cons, hxs, List.flatten_cons]⟩
  · rintro ⟨xs, rfl⟩
    refine ⟨xs.map f, (List.flatMap_def ..), fun w hw ↦ ?_⟩
    obtain ⟨x, -, rfl⟩ := List.mem_map.mp hw
    exact (h _).mpr ⟨x, rfl⟩

/-- The star of a class of symbols consists of the words over the class. -/
theorem mem_kstar_symbols {w : List α} : w ∈ (symbols P)∗ ↔ ∀ c ∈ w, P c := by
  have hsymbol : ∀ w, w ∈ symbols P ↔ ∃ c : {c // P c}, [c.1] = w := fun w ↦
    ⟨fun ⟨c, hc, hw⟩ ↦ ⟨⟨c, hc⟩, hw.symm⟩, fun ⟨c, hw⟩ ↦ ⟨c.1, c.2, hw.symm⟩⟩
  have hmap : ∀ cs : List {c // P c}, (cs.flatMap fun c ↦ [c.1]) = cs.map Subtype.val := fun cs ↦
    List.map_eq_flatMap.symm
  simp only [mem_kstar_range hsymbol, hmap]
  constructor
  · rintro ⟨cs, rfl⟩ c hc
    obtain ⟨c, -, rfl⟩ := List.mem_map.mp hc
    exact c.2
  · intro h
    exact ⟨w.attachWith P h, by simp⟩

end SymbolClass
