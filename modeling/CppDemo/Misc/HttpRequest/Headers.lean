import CppDemo.Misc.HttpRequest.Head

/-!
# The headers of a request

At the end of a header line `onHeaderLineFinish` splits the text that `buffer_` points to at its
first colon and adds the two parts as a header. `temp_` is cleared before the first header line but
not between two header lines, so that the text of the second line stands behind the text of the
first. The headers are those of the lines if there is at most one line; from the second line on they
are not.

Source: `misc/fsmlite_test.cpp`, lines 57–59, 111–125 and 172–181.

## Main definitions

* `headerOf` : the header that a text stands for.

## Main results

* `headerList_iff` : the headers are those of the lines exactly if there is at most one line.
-/

namespace CppDemo.Misc.HttpRequest

/-- The header that a text stands for: what is before its first colon, and what is after it. -/
def headerOf (lib : HttpLibrary) (text : Bytes) : Header where
  name := lib.trim (text.takeWhile (· ≠ colon))
  value := if colon ∈ text then lib.trim (text.dropWhile (· ≠ colon)).tail else []

/-- The header list after the bytes `w`. -/
def headerListAfter (lib : HttpLibrary) (w : Bytes) : Option (List Header) :=
  (feed lib (init lib) w).map fun m ↦ m.2.request.headerList

/-- The bytes of a text that are not white space. -/
def visible (s : Bytes) : Bytes := s.filter fun c ↦ !isspace c

@[simp] theorem visible_append (s t : Bytes) : visible (s ++ t) = visible s ++ visible t :=
  List.filter_append ..

theorem IsTrim.visible {s t : Bytes} (h : IsTrim s t) : visible t = visible s := by
  obtain ⟨before, after, rfl, hbefore, hafter⟩ := h.parts
  have hnil : ∀ w : Bytes, (∀ c ∈ w, isspace c = true) → HttpRequest.visible w = [] := fun w hw ↦
    List.filter_eq_nil_iff.mpr fun c hc ↦ by simp [hw c hc]
  simp [hnil before hbefore, hnil after hafter]

/-- A letter is not white space. -/
theorem isspace_of_isalpha {c : UInt8} (hc : isalpha c = true) : isspace c = false := by
  grind [isalpha, isspace]

theorem ne_colon_of_isalpha {c : UInt8} (hc : isalpha c = true) : c ≠ colon := by
  grind [isalpha, colon]

theorem visible_length_le_of_suffix {s t : Bytes} (h : s <:+ t) :
    (visible s).length ≤ (visible t).length :=
  (h.filter _).length_le

section Headers

variable {lib : HttpLibrary}

theorem trim_nil (hlib : lib.Documented) : lib.trim [] = [] := by
  obtain ⟨before, after, h, -, -⟩ := (hlib.trim []).parts
  simpa using (List.append_eq_nil_iff.mp (List.append_eq_nil_iff.mp h.symm).1).2

/-- Without a colon there is nothing after it. -/
theorem headerOf_value (hlib : lib.Documented) (s : Bytes) :
    (headerOf lib s).value = lib.trim (s.dropWhile (· ≠ colon)).tail := by
  by_cases h : colon ∈ s
  · exact if_pos h
  · have hall : ∀ c ∈ s, decide (c ≠ colon) = true := fun c hc ↦
      decide_eq_true fun hcolon ↦ h (hcolon ▸ hc)
    rw [List.dropWhile_eq_nil_iff.mpr hall, List.tail_nil, trim_nil hlib]
    exact if_neg h

theorem visible_headerOf_name (hlib : lib.Documented) (s : Bytes) :
    visible (headerOf lib s).name = visible (s.takeWhile (· ≠ colon)) :=
  (hlib.trim _).visible

theorem visible_headerOf_value (hlib : lib.Documented) (s : Bytes) :
    visible (headerOf lib s).value = visible (s.dropWhile (· ≠ colon)).tail := by
  rw [headerOf_value hlib, (hlib.trim _).visible]

/-- The two parts of a split text. -/
theorem SplitsAtColon.getD {split : Bytes → List Bytes} (h : SplitsAtColon split) (s : Bytes) :
    (split s).getD 0 [] = s.takeWhile (· ≠ colon) ∧
      (if (split s).length > 1 then (split s).getD 1 [] else []) =
        (s.dropWhile (· ≠ colon)).tail := by
  by_cases hcolon : colon ∈ s
  · obtain ⟨before, after, rfl, hbefore⟩ := List.eq_append_cons_of_mem hcolon
    have hall : ∀ c ∈ before, decide (c ≠ colon) = true := fun c hc ↦
      decide_eq_true fun hc' ↦ hbefore (hc' ▸ hc)
    rw [h.parts before after hbefore, List.takeWhile_append_of_pos hall,
      List.dropWhile_append_of_pos hall, List.takeWhile_cons_of_neg (by simp),
      List.dropWhile_cons_of_neg (by simp), List.append_nil]
    exact ⟨rfl, rfl⟩
  · have hall : ∀ c ∈ s, decide (c ≠ colon) = true := fun c hc ↦
      decide_eq_true fun hc' ↦ hcolon (hc' ▸ hc)
    rw [h.whole s hcolon, List.takeWhile_eq_self_iff.mpr hall, List.dropWhile_eq_nil_iff.mpr hall]
    exact ⟨rfl, rfl⟩

/-- A text with a name adds its header. -/
theorem addedHeaders_eq (hlib : lib.Documented) {s : Bytes}
    (h : visible (headerOf lib s).name ≠ []) : addedHeaders lib s = [headerOf lib s] := by
  have hpos : (lib.trim (s.takeWhile (· ≠ colon))).length > 0 :=
    List.length_pos_of_ne_nil fun hnil ↦ h (congrArg visible hnil)
  obtain ⟨hname, hvalue⟩ := hlib.strSplit.getD s
  simp only [addedHeaders, hname, hvalue, if_pos hpos, ← headerOf_value hlib s]
  rfl

namespace HeaderLine

variable (l : HeaderLine)

theorem takeWhile_text (s : Bytes) : (l.text ++ s).takeWhile (· ≠ colon) =
    l.first :: (l.rest ++ s).takeWhile (· ≠ colon) :=
  List.takeWhile_cons_of_pos (by simpa using ne_colon_of_isalpha l.first_valid)

theorem dropWhile_text (s : Bytes) : (l.text ++ s).dropWhile (· ≠ colon) =
    (l.rest ++ s).dropWhile (· ≠ colon) :=
  List.dropWhile_cons_of_pos (by simpa using ne_colon_of_isalpha l.first_valid)

theorem visible_text : visible l.text = l.first :: visible l.rest :=
  List.filter_cons_of_pos (by simp [isspace_of_isalpha l.first_valid])

/-- The name of a text that starts with a line is not empty. -/
theorem visible_name_ne_nil (hlib : lib.Documented) (s : Bytes) :
    visible (headerOf lib (l.text ++ s)).name ≠ [] := by
  rw [visible_headerOf_name hlib, l.takeWhile_text, visible,
    List.filter_cons_of_pos (by simp [isspace_of_isalpha l.first_valid])]
  exact List.cons_ne_nil _ _

/-- Behind another line a line stands for another header: it becomes a part of the value if the
first line has a colon, and else its name becomes longer. -/
theorem headerOf_append_ne (hlib : lib.Documented) (k : HeaderLine) :
    headerOf lib (l.text ++ k.text) ≠ headerOf lib k.text := by
  intro h
  by_cases hcolon : colon ∈ l.text
  · obtain ⟨before, after, hl, hbefore⟩ := List.eq_append_cons_of_mem hcolon
    have hall : ∀ c ∈ before, decide (c ≠ colon) = true := fun c hc ↦
      decide_eq_true fun hc' ↦ hbefore (hc' ▸ hc)
    have hvalue := congrArg (fun h : Header ↦ (visible h.value).length) h
    have htail : ((l.text ++ k.text).dropWhile (· ≠ colon)).tail = after ++ k.text := by
      rw [hl, List.append_assoc, List.dropWhile_append_of_pos hall, List.cons_append,
        List.dropWhile_cons_of_neg (by simp), List.tail_cons]
    have hsuffix : (k.rest.dropWhile (· ≠ colon)).tail <:+ k.rest :=
      (List.tail_suffix _).trans (List.dropWhile_suffix _)
    have hk : k.text.dropWhile (· ≠ colon) = k.rest.dropWhile (· ≠ colon) := by
      simpa using k.dropWhile_text []
    have hle := visible_length_le_of_suffix hsuffix
    simp only [visible_headerOf_value hlib, htail, hk, visible_append, k.visible_text,
      List.length_append, List.length_cons] at hvalue
    omega
  · have hall : ∀ c ∈ l.text, decide (c ≠ colon) = true := fun c hc ↦
      decide_eq_true fun hc' ↦ hcolon (hc' ▸ hc)
    have hname := congrArg (fun h : Header ↦ (visible h.name).length) h
    simp only [visible_headerOf_name hlib, List.takeWhile_append_of_pos hall, visible_append,
      l.visible_text, List.length_append, List.length_cons] at hname
    omega

end HeaderLine

private theorem inits_eq_cons {α : Type*} (as : List α) : as.inits = [] :: as.inits.tail := by
  cases as <;> rfl

/-- Every header is that of all lines up to its own, one after the other. -/
theorem headersOf_eq (hlib : lib.Documented) (ls : List HeaderLine) :
    headersOf lib [] ls = ls.inits.tail.map fun ls ↦ headerOf lib (textOf ls) := by
  induction ls using List.reverseRecOn with
  | nil => rfl
  | append_singleton ls l ih =>
    have hname : visible (headerOf lib (textOf ls ++ l.text)).name ≠ [] := by
      cases ls with
      | nil => simpa [textOf] using l.visible_name_ne_nil hlib []
      | cons k ls => simpa [textOf] using k.visible_name_ne_nil hlib (textOf ls ++ l.text)
    rw [headersOf_append, ih, List.nil_append, addedHeaders_eq hlib hname, List.inits_append,
      inits_eq_cons ls]
    simp [textOf]

/-- The headers are those of the lines exactly if there is at most one line. -/
theorem headerList_iff (hlib : lib.Documented) (r : RequestLine) (ls : List HeaderLine) :
    headerListAfter lib (linesBytes r ls) = some (ls.map fun l ↦ headerOf lib l.text) ↔
      ls.length ≤ 1 := by
  have hlist : headerListAfter lib (linesBytes r ls) =
      some (ls.inits.tail.map fun ls ↦ headerOf lib (textOf ls)) := by
    rw [headerListAfter, feed_lines hlib, ← headersOf_eq hlib]
    simp [linesParser, hlib.headerList]
  rw [hlist, Option.some.injEq]
  rcases ls with _ | ⟨l, _ | ⟨k, ls⟩⟩
  · simp
  · simp [textOf]
  · have hne := l.headerOf_append_ne hlib k
    obtain ⟨rest, hrest⟩ : ∃ rest, ls.inits = [] :: rest := ⟨_, inits_eq_cons ls⟩
    simp [textOf, hne, hrest]

/-- A request line for `/`. -/
def getLine : RequestLine where
  method := ascii "GET"
  uri := ascii "/"
  protocol := ascii "HTTP"
  major := ascii "1"
  minor := ascii "1"
  method_valid := Or.inl rfl
  uri_valid := List.all_eq_true.mp rfl
  protocol_valid := rfl
  major_valid := List.all_eq_true.mp rfl
  minor_valid := List.all_eq_true.mp rfl

/-- The lines `A:1` and `B:2`. -/
def twoLines : List HeaderLine :=
  [⟨65, ascii ":1", rfl, by simp [ascii, carriageReturn, newLine]⟩,
    ⟨66, ascii ":2", rfl, by simp [ascii, carriageReturn, newLine]⟩]

theorem headerList_iff_twoLines : plainLibrary.Documented ∧
    (headerListAfter plainLibrary (linesBytes getLine twoLines) =
      some (twoLines.map fun l ↦ headerOf plainLibrary l.text) ↔ twoLines.length ≤ 1) :=
  ⟨plainLibrary_documented, headerList_iff plainLibrary_documented getLine twoLines⟩

/-- The headers of the two lines are `A: 1` and `A: 1B:2`. -/
theorem not_headerList_twoLines : ¬∀ lib : HttpLibrary, lib.Documented →
    ∀ (r : RequestLine) (ls : List HeaderLine), headerListAfter lib (linesBytes r ls) =
      some (ls.map fun l ↦ headerOf lib l.text) := by
  intro h
  have hlist : headerListAfter plainLibrary (linesBytes getLine twoLines) =
      some [⟨ascii "A", ascii "1"⟩, ⟨ascii "A", ascii "1B:2"⟩] := by decide
  have hclaim := hlist.symm.trans (h plainLibrary plainLibrary_documented getLine twoLines)
  revert hclaim
  decide

end Headers

end CppDemo.Misc.HttpRequest
