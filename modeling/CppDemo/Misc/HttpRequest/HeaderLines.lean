import CppDemo.Misc.HttpRequest.Headers

/-!
# Every header line yields a header

`onHeaderLineFinish` drops a line whose name is empty after trimming. It never does: the text that
`buffer_` points to starts with a letter from the first byte of a header line on, whether it is
cleared between two lines or not. Of the library, only what `trim` and `strSplit` do matters for
that.

Source: `misc/fsmlite_test.cpp`, lines 111–125 and 172–181.

## Main definitions

* `FinishesLine`, `finishedLines` : a step that runs `onHeaderLineFinish`, and their number in a
  run.
* `TextInv` : what holds of the text while header lines are read.

## Main results

* `headerList_of_step` : the header list changes at the end of a line only.
* `header_of_line_of_feed` : each line that is finished yields a header with a name.
-/

namespace CppDemo.Misc.HttpRequest

open Transition HttpRequestParser

/-- The step that reads `c` runs `onHeaderLineFinish`. -/
def FinishesLine (m : Machine) (c : UInt8) : Prop := m.1 = .expectingNewline2 ∧ newLine = c

instance (m : Machine) (c : UInt8) : Decidable (FinishesLine m c) :=
  inferInstanceAs (Decidable (_ ∧ _))

/-- How often a run reads the end of a header line. -/
def finishedLines (lib : HttpLibrary) : Machine → Bytes → Nat
  | _, [] => 0
  | m, c :: w =>
    match step lib m c with
    | none => 0
    | some m' => (if FinishesLine m c then 1 else 0) + finishedLines lib m' w

/-- A text that starts with a letter. -/
def StartsAlpha (s : Bytes) : Prop := ∃ c, s.head? = some c ∧ isalpha c = true

theorem StartsAlpha.append {s : Bytes} (h : StartsAlpha s) (t : Bytes) : StartsAlpha (s ++ t) := by
  obtain ⟨c, hc, halpha⟩ := h
  exact ⟨c, by rw [List.head?_append, hc, Option.some_or], halpha⟩

/-- What holds of the text while header lines are read. -/
def TextInv : Machine → Prop
  | (.headerLineStart, self) => self.text = [] ∨ StartsAlpha self.text
  | (.headerLine, self) => StartsAlpha self.text
  | (.expectingNewline2, self) => StartsAlpha self.text
  | _ => True

section HeaderLines

variable {lib : HttpLibrary} {m m' : Machine} {c : UInt8}

@[simp] theorem text_appendToBuffer (self : HttpRequestParser) (c : UInt8) :
    (self.appendToBuffer c).text = self.text ++ [c] :=
  text_setText ..

/-- The end of a line leaves the text as it is. -/
theorem text_onHeaderLineFinish (self : HttpRequestParser) (c : UInt8) :
    (self.onHeaderLineFinish lib c).text = self.text := by
  rw [onHeaderLineFinish_eq]
  obtain ⟨request, temp, buffer⟩ := self
  cases buffer <;> rfl

/-- The states in which header lines are read. -/
def ParseState.readsLines : ParseState → Bool
  | .headerLineStart | .headerLine | .expectingNewline2 => true
  | _ => false

theorem textInv_of_readsLines_eq_false (h : m.1.readsLines = false) : TextInv m := by
  obtain ⟨state, self⟩ := m
  cases state <;> trivial

/-- Header lines are read behind the request line and behind each other. -/
theorem readsLines_of_step (hs : step lib m c = some m') (h : m'.1.readsLines = true) :
    m.1 = .expectingNewline1 ∨ m.1.readsLines = true := by
  have htable : ∀ row ∈ transitionTable lib, row.target.readsLines = true →
      row.source = .expectingNewline1 ∨ row.source.readsLines = true := by
    simp [transitionTable, ParseState.readsLines]
  obtain ⟨row, hrow, hsource, rfl⟩ := GuardedTable.exists_row_of_fire hs
  exact hsource ▸ htable row hrow h

/-- Every step keeps `TextInv`. -/
theorem TextInv.step (h : TextInv m) (hs : step lib m c = some m') : TextInv m' := by
  cases hlines : m'.1.readsLines with
  | false => exact textInv_of_readsLines_eq_false hlines
  | true =>
    have hsource := readsLines_of_step hs hlines
    obtain ⟨state, self⟩ := m
    cases state <;> simp only [ParseState.readsLines, reduceCtorEq, Bool.false_eq_true, or_self]
      at hsource
    case expectingNewline1 =>
      rw [step_expectingNewline1] at hs
      split_ifs at hs <;> obtain rfl := Option.some.inj hs
      · exact .inl rfl
      · cases hlines
    case headerLineStart =>
      rw [step_headerLineStart] at hs
      split_ifs at hs with hreturn hc <;> obtain rfl := Option.some.inj hs
      · cases hlines
      · change StartsAlpha (self.appendToBuffer c).text
        rw [text_appendToBuffer]
        rcases h with hnil | halpha
        · exact ⟨c, by rw [hnil]; rfl, hc⟩
        · exact halpha.append [c]
      · cases hlines
    case headerLine =>
      rw [step_headerLine] at hs
      split_ifs at hs <;> obtain rfl := Option.some.inj hs
      · exact h
      · cases hlines
      · change StartsAlpha (self.appendToBuffer c).text
        rw [text_appendToBuffer]
        exact StartsAlpha.append h [c]
    case expectingNewline2 =>
      rw [step_expectingNewline2] at hs
      split_ifs at hs <;> obtain rfl := Option.some.inj hs
      · -- the next line starts behind this one
        refine .inr ?_
        rw [text_onHeaderLineFinish]
        exact h
      · cases hlines

@[simp] theorem headerList_setText (self : HttpRequestParser) (text : Bytes) :
    (self.setText text).request.headerList = self.request.headerList := by
  obtain ⟨request, temp, buffer⟩ := self
  cases buffer <;> rfl

@[simp] theorem headerList_appendToBuffer (self : HttpRequestParser) (c : UInt8) :
    (self.appendToBuffer c).request.headerList = self.request.headerList :=
  headerList_setText ..

@[simp] theorem headerList_clearTemp (self : HttpRequestParser) :
    self.clearTemp.request.headerList = self.request.headerList := rfl

@[simp] theorem headerList_onBodyFinish (self : HttpRequestParser) (c : UInt8) :
    (self.onBodyFinish lib c).request.headerList = self.request.headerList := by
  simp [onBodyFinish]

/-- The header list changes at the end of a line only. -/
theorem headerList_of_step (hs : step lib m c = some m') :
    m'.2.request.headerList = m.2.request.headerList ++
      if FinishesLine m c then addedHeaders lib m.2.text else [] := by
  obtain ⟨state, self⟩ := m
  by_cases hfinishes : FinishesLine (state, self) c
  · obtain ⟨rfl, hc⟩ := hfinishes
    rw [step_expectingNewline2, if_pos hc] at hs
    obtain rfl := Option.some.inj hs
    rw [if_pos ⟨rfl, hc⟩, onHeaderLineFinish_eq]
  · rw [if_neg hfinishes, List.append_nil]
    cases state
    case expectingNewline2 =>
      rw [step_expectingNewline2, if_neg fun hc ↦ hfinishes ⟨rfl, hc⟩] at hs
      exact Option.some.inj hs ▸ rfl
    case finish => simp at hs
    case error => simp at hs
    -- no other action adds a header
    all_goals
      simp only [step_start, step_method, step_uri, step_http, step_major, step_minor,
        step_expectingNewline1, step_headerLineStart, step_headerLine, step_expectingNewline3,
        step_expectingBody] at hs
      split_ifs at hs <;> obtain rfl := Option.some.inj hs <;> simp

/-- The part before the first colon of a text that starts with a letter, trimmed, is not empty. -/
theorem trim_name_ne_nil (htrim : ∀ s, IsTrim s (lib.trim s))
    (hsplit : SplitsAtColon lib.strSplit) {s : Bytes} (h : StartsAlpha s) :
    lib.trim ((lib.strSplit s).getD 0 []) ≠ [] := by
  obtain ⟨c, hc, halpha⟩ := h
  obtain ⟨t, rfl⟩ : ∃ t, s = c :: t := by
    cases s with
    | nil => cases hc
    | cons d t => exact ⟨t, by rw [Option.some.inj hc]⟩
  intro hnil
  have hvisible := (htrim ((lib.strSplit (c :: t)).getD 0 [])).visible
  rw [hnil, (hsplit.getD _).1,
    List.takeWhile_cons_of_pos (by simpa using ne_colon_of_isalpha halpha), visible, visible,
    List.filter_cons_of_pos (by simp [isspace_of_isalpha halpha])] at hvisible
  exact List.cons_ne_nil _ _ hvisible.symm

/-- A text that starts with a letter yields a header. -/
theorem length_addedHeaders (htrim : ∀ s, IsTrim s (lib.trim s))
    (hsplit : SplitsAtColon lib.strSplit) {s : Bytes} (h : StartsAlpha s) :
    (addedHeaders lib s).length = 1 := by
  have hpos : (lib.trim ((lib.strSplit s).getD 0 [])).length > 0 :=
    List.length_pos_of_ne_nil (trim_name_ne_nil htrim hsplit h)
  simp only [addedHeaders, if_pos hpos, List.length_singleton]

theorem TextInv.startsAlpha (h : TextInv m) (hc : FinishesLine m c) : StartsAlpha m.2.text := by
  obtain ⟨state, self⟩ := m
  obtain ⟨rfl, -⟩ := hc
  exact h

/-- The text invariant holds in every state of a run. -/
theorem TextInv.feed {w : Bytes} (h : TextInv m) (hfeed : feed lib m w = some m') : TextInv m' :=
  run_invariant (fun _ _ _ h hs ↦ h.step hs) hfeed h

/-- A run adds a header for each line that it finishes. -/
theorem length_headerList_of_feed (htrim : ∀ s, IsTrim s (lib.trim s))
    (hsplit : SplitsAtColon lib.strSplit) {w : Bytes} (h : TextInv m)
    (hfeed : feed lib m w = some m') :
    m'.2.request.headerList.length =
      m.2.request.headerList.length + finishedLines lib m w := by
  induction w generalizing m with
  | nil =>
    obtain rfl := Option.some.inj hfeed
    rfl
  | cons c w ih =>
    obtain ⟨m₁, hs, hfeed⟩ := (run_cons _).mp hfeed
    have hadded : (if FinishesLine m c then addedHeaders lib m.2.text else []).length =
        if FinishesLine m c then 1 else 0 := by
      split_ifs with hc
      · exact length_addedHeaders htrim hsplit (h.startsAlpha hc)
      · rfl
    rw [ih (h.step hs) hfeed, headerList_of_step hs, List.length_append, hadded, finishedLines, hs,
      Nat.add_assoc]

/-- In every state that the parser reaches, `onHeaderLineFinish` finds a text that starts with a
letter and a name that is not empty, and the number of headers that have been added is that of the
header lines that have been finished. -/
theorem header_of_line_of_feed (htrim : ∀ s, IsTrim s (lib.trim s))
    (hsplit : SplitsAtColon lib.strSplit) {w : Bytes}
    (hfeed : feed lib (init lib) w = some m) :
    (∀ c, FinishesLine m c → m.2.text ≠ [] ∧
      (∃ d, m.2.text.head? = some d ∧ isalpha d = true) ∧
      (lib.trim ((lib.strSplit m.2.text).getD 0 [])).length > 0) ∧
      m.2.request.headerList.length =
        lib.request.headerList.length + finishedLines lib (init lib) w := by
  have hinit : TextInv (init lib) := trivial
  refine ⟨fun c hc ↦ ?_, length_headerList_of_feed htrim hsplit hinit hfeed⟩
  have halpha := (hinit.feed hfeed).startsAlpha hc
  refine ⟨fun hnil ↦ ?_, halpha,
    List.length_pos_of_ne_nil (trim_name_ne_nil htrim hsplit halpha)⟩
  obtain ⟨d, hd, -⟩ := halpha
  rw [hnil] at hd
  cases hd

/-- A request line and two header lines, of which the second one lacks its last byte. -/
def openLine : Bytes := ascii "GET / HTTP/1.1\r\nA:1\r\nB:2\r"

theorem header_of_line_of_feed_openLine :
    ∃ m, feed plainLibrary (init plainLibrary) openLine = some m ∧ FinishesLine m newLine ∧
      (∀ c, FinishesLine m c → m.2.text ≠ [] ∧
        (∃ d, m.2.text.head? = some d ∧ isalpha d = true) ∧
        (plainLibrary.trim ((plainLibrary.strSplit m.2.text).getD 0 [])).length > 0) ∧
      m.2.request.headerList.length = plainLibrary.request.headerList.length +
        finishedLines plainLibrary (init plainLibrary) openLine :=
  ⟨_, rfl, ⟨rfl, rfl⟩, header_of_line_of_feed (w := openLine) plainLibrary_documented.trim
    plainLibrary_documented.strSplit rfl⟩

end HeaderLines

end CppDemo.Misc.HttpRequest
