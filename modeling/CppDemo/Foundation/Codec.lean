import Mathlib.Data.List.Basic
import Mathlib.Data.Set.Function

/-!
# Codecs

A codec reads a value from a text and writes a value as a text. Its law says that a text is read as
a value exactly if the value is valid and is written as that text. So a valid value is read back
from its text, a text that is read is written back, and no two valid values have one text.

Codecs compose. The pieces of a text between separators are one codec, the items of a list read one
by one are another.

## Main definitions

* `Codec` : a reader and a writer with their law.
* `Codec.comp`, `Codec.each`, `Codec.pieces` : composition, lists of items, separated pieces.
* `Codec.separated`, `Codec.separatedOrEmpty` : items between separators.

## Main results

* `Codec.parse_unparse`, `Codec.unparse_parse`, `Codec.unparse_injOn` : the round trips.
-/

namespace CppDemo

variable {α β γ : Type*}

/-- A codec between texts and values. -/
structure Codec (α β : Type*) where
  parse : α → Option β
  unparse : β → α
  /-- The values that are read. -/
  Valid : β → Prop
  parse_eq_some_iff : ∀ text v, parse text = some v ↔ Valid v ∧ unparse v = text

namespace Codec

section

variable (c : Codec α β)

theorem parse_unparse {v : β} (h : c.Valid v) : c.parse (c.unparse v) = some v :=
  (c.parse_eq_some_iff _ _).mpr ⟨h, rfl⟩

theorem unparse_parse {text : α} {v : β} (h : c.parse text = some v) : c.unparse v = text :=
  ((c.parse_eq_some_iff _ _).mp h).2

theorem valid_of_parse {text : α} {v : β} (h : c.parse text = some v) : c.Valid v :=
  ((c.parse_eq_some_iff _ _).mp h).1

theorem unparse_injOn : Set.InjOn c.unparse {v | c.Valid v} := by
  intro v hv w hw heq
  have hparse : some v = some w := by rw [← c.parse_unparse hv, heq, c.parse_unparse hw]
  exact Option.some.inj hparse

end

/-- Read with one codec and what it gives with another. -/
def comp (c : Codec α β) (d : Codec β γ) : Codec α γ where
  parse text := (c.parse text).bind d.parse
  unparse v := c.unparse (d.unparse v)
  Valid v := d.Valid v ∧ c.Valid (d.unparse v)
  parse_eq_some_iff text v := by
    rw [Option.bind_eq_some_iff]
    constructor
    · rintro ⟨b, hb, hv⟩
      obtain rfl := d.unparse_parse hv
      exact ⟨⟨d.valid_of_parse hv, c.valid_of_parse hb⟩, c.unparse_parse hb⟩
    · rintro ⟨⟨hd, hc⟩, rfl⟩
      exact ⟨d.unparse v, c.parse_unparse hc, d.parse_unparse hd⟩

/-- Read every item of a list. -/
def each (c : Codec α β) : Codec (List α) (List β) where
  parse texts := texts.mapM c.parse
  unparse vs := vs.map c.unparse
  Valid vs := ∀ v ∈ vs, c.Valid v
  parse_eq_some_iff texts vs := by
    induction texts generalizing vs with
    | nil => cases vs <;> simp
    | cons text texts ih =>
        simp only [List.mapM_cons, Option.bind_eq_bind, Option.bind_eq_some_iff, ih,
          c.parse_eq_some_iff, Option.pure_def, Option.some.injEq]
        constructor
        · rintro ⟨v, ⟨hv, rfl⟩, vs, ⟨hvs, rfl⟩, rfl⟩
          exact ⟨List.forall_mem_cons.mpr ⟨hv, hvs⟩, rfl⟩
        · rintro ⟨hvalid, hmap⟩
          obtain ⟨v, vs, rfl, rfl, rfl⟩ := List.map_eq_cons_iff.mp hmap
          obtain ⟨hv, hvs⟩ := List.forall_mem_cons.mp hvalid
          exact ⟨v, ⟨hv, rfl⟩, vs, ⟨hvs, rfl⟩, rfl⟩

@[simp] theorem each_parse_nil (c : Codec α β) : c.each.parse [] = some [] := rfl

theorem each_parse_cons (c : Codec α β) (text : α) (texts : List α) :
    c.each.parse (text :: texts) =
      (c.parse text).bind fun v ↦ (c.each.parse texts).map (v :: ·) := by
  simp only [each, List.mapM_cons, Option.bind_eq_bind, Option.pure_def]
  congr 1
  funext v
  rw [Option.map_eq_bind]
  rfl

/-! ### Separators -/

section Separators

variable [DecidableEq α] (sep : α)

theorem not_mem_of_mem_splitOn (text : List α) : ∀ w ∈ text.splitOn sep, sep ∉ w := by
  induction text with
  | nil => simp
  | cons x text ih =>
      rw [List.splitOn_cons_eq_if_modifyHead]
      split_ifs with h
      · exact List.forall_mem_cons.mpr ⟨List.not_mem_nil, ih⟩
      · obtain ⟨w, ws, hws⟩ := List.exists_cons_of_ne_nil (List.splitOn_ne_nil sep text)
        rw [hws] at ih ⊢
        obtain ⟨hw, hws⟩ := List.forall_mem_cons.mp ih
        refine List.forall_mem_cons.mpr ⟨fun hmem ↦ ?_, hws⟩
        rcases List.mem_cons.mp hmem with rfl | hmem
        · exact h (beq_self_eq_true _)
        · exact hw hmem

/-- The pieces of a text between separators. There is at least one. -/
def pieces : Codec (List α) (List (List α)) where
  parse text := some (text.splitOn sep)
  unparse ws := [sep].intercalate ws
  Valid ws := ws ≠ [] ∧ ∀ w ∈ ws, sep ∉ w
  parse_eq_some_iff text ws := by
    rw [Option.some.injEq]
    constructor
    · rintro rfl
      exact ⟨⟨List.splitOn_ne_nil sep text, not_mem_of_mem_splitOn sep text⟩,
        List.intercalate_splitOn sep⟩
    · rintro ⟨⟨hne, hws⟩, rfl⟩
      exact List.splitOn_intercalate sep hws hne

/-- Read the items of a text between separators. -/
def separated (c : Codec (List α) β) : Codec (List α) (List β) := (pieces sep).comp c.each

theorem separated_parse (c : Codec (List α) β) (text : List α) :
    (c.separated sep).parse text = c.each.parse (text.splitOn sep) := rfl

/-- Read the items of a text between separators, the empty text as no item. No item may be read
from the empty text, since a list of that one item would have the empty text too. -/
def separatedOrEmpty (c : Codec (List α) β) (hc : c.parse [] = none) :
    Codec (List α) (List β) where
  parse text := if text = [] then some [] else (c.separated sep).parse text
  unparse vs := [sep].intercalate (vs.map c.unparse)
  Valid vs := ∀ v ∈ vs, c.Valid v ∧ sep ∉ c.unparse v
  parse_eq_some_iff text vs := by
    have hvalid : (c.separated sep).Valid vs ↔
        vs ≠ [] ∧ ∀ v ∈ vs, c.Valid v ∧ sep ∉ c.unparse v := by
      simp only [separated, comp, each, pieces, ne_eq, List.map_eq_nil_iff, List.forall_mem_map]
      grind
    have hlaw := (c.separated sep).parse_eq_some_iff text vs
    rw [hvalid] at hlaw
    change _ ↔ _ ∧ [sep].intercalate (vs.map c.unparse) = text at hlaw
    split_ifs with htext
    · have hnone : (c.separated sep).parse text = none := by
        rw [htext, separated_parse, List.splitOn_nil, each_parse_cons, hc, Option.bind_none]
      rw [hnone] at hlaw
      constructor
      · rintro ⟨⟩
        exact ⟨List.forall_mem_nil _, htext.symm⟩
      · rintro ⟨hvs, heq⟩
        by_contra hne
        exact absurd (hlaw.mpr ⟨⟨fun h ↦ hne (congrArg some h.symm), hvs⟩, heq⟩)
          (Option.some_ne_none vs).symm
    · rw [hlaw]
      refine ⟨fun ⟨⟨_, hvs⟩, heq⟩ ↦ ⟨hvs, heq⟩, fun ⟨hvs, heq⟩ ↦ ⟨⟨?_, hvs⟩, heq⟩⟩
      rintro rfl
      exact htext heq.symm

end Separators

end Codec

end CppDemo
