import CppDemo.Misc.HttpRequest.Headers
import CppDemo.Misc.HttpRequest.Language
import Mathlib.Algebra.Group.Int.Defs

/-!
# The version of a request

The guards `isValidMajor` and `isValidMinor` read the digits before and after the dot and assign
their value to a copy of the request, which is then dropped. The request keeps the version that it
was constructed with. The guards do not ask for a digit either, so that there may be none on either
side of the dot.

Source: `misc/fsmlite_test.cpp`, lines 87–109 and 166–171.

## Main definitions

* `majorDigits`, `minorDigits` : the digits before and after the dot of the request line.
* `RecordsVersion` : the request line has a version, and the request holds it.

## Main results

* `version_of_feed` : the parser does not change the version.
* `recordsVersion_iff` : the version is recorded exactly if it is that of a new request.
-/

namespace CppDemo.Misc.HttpRequest

open Transition HttpRequestParser

/-- The request line of a head, without its end. -/
def requestLine (head : Bytes) : Bytes := head.takeWhile (· ≠ carriageReturn)

/-- The digits after the dot. -/
def minorDigits (head : Bytes) : Bytes := (requestLine head).rtakeWhile isdigit

/-- The digits before the dot. -/
def majorDigits (head : Bytes) : Bytes :=
  ((requestLine head).rdropWhile isdigit).dropLast.rtakeWhile isdigit

/-- Every value that fits in `int` and that digits denote is `version`. -/
def Denotes (digits : Bytes) (version : Int) : Prop :=
  decimal digits < 2 ^ 31 → version = decimal digits

/-- The request line has digits before and after its dot, and from its end on the request holds the
numbers that they denote. -/
def RecordsVersion (lib : HttpLibrary) (head : Bytes) : Prop :=
  majorDigits head ≠ [] ∧ minorDigits head ≠ [] ∧
    ∀ w m, feed lib (init lib) (requestLine head ++ carriageReturn :: w) = some m →
      Denotes (majorDigits head) m.2.request.httpVersionMajor ∧
        Denotes (minorDigits head) m.2.request.httpVersionMinor

variable {lib : HttpLibrary}

theorem setText_version (self : HttpRequestParser) (text : Bytes) :
    (self.setText text).request.httpVersionMajor = self.request.httpVersionMajor ∧
      (self.setText text).request.httpVersionMinor = self.request.httpVersionMinor := by
  obtain ⟨request, temp, buffer⟩ := self
  cases buffer <;> exact ⟨rfl, rfl⟩

/-- No action changes the version. -/
theorem version_of_step {m m' : Machine} {c : UInt8} (h : step lib m c = some m') :
    m'.2.request.httpVersionMajor = m.2.request.httpVersionMajor ∧
      m'.2.request.httpVersionMinor = m.2.request.httpVersionMinor := by
  have hrows : ∀ row ∈ transitionTable lib, ∀ self c,
      (row.action self c).request.httpVersionMajor = self.request.httpVersionMajor ∧
        (row.action self c).request.httpVersionMinor = self.request.httpVersionMinor := by
    simp [transitionTable, appendToBuffer, errorAction, noAction, onMethodFinish, onUriFinish,
      onHttpFinish, onMajorFinish, onMinorFinish, onHeaderLineStart, onBodyStart, onBodyFinish,
      clearTemp, onHeaderLineFinish_eq, setText_version]
  obtain ⟨row, hrow, -, rfl⟩ := GuardedTable.exists_row_of_fire h
  exact hrows row hrow m.2 c

/-- The parser does not change the version. -/
theorem version_of_feed {m m' : Machine} {w : Bytes} (h : feed lib m w = some m') :
    m'.2.request.httpVersionMajor = m.2.request.httpVersionMajor ∧
      m'.2.request.httpVersionMinor = m.2.request.httpVersionMinor := by
  refine run_invariant (P := fun m' : Machine ↦
    m'.2.request.httpVersionMajor = m.2.request.httpVersionMajor ∧
      m'.2.request.httpVersionMinor = m.2.request.httpVersionMinor) (fun m₁ c m₂ ih hs ↦ ?_) h
    ⟨rfl, rfl⟩
  obtain ⟨hmajor, hminor⟩ := version_of_step hs
  exact ⟨hmajor.trans ih.1, hminor.trans ih.2⟩

/-! ### The request line -/

/-- A request line ends at its first carriage return. -/
theorem ne_carriageReturn_of_mem_text (r : RequestLine) :
    ∀ c ∈ r.text, decide (c ≠ carriageReturn) = true := by
  have hof : ∀ {p : UInt8 → Bool} {s : Bytes}, (∀ c ∈ s, p c = true) → p carriageReturn = false →
      carriageReturn ∉ s := fun hs hp hmem ↦ absurd (hs _ hmem) (by simp [hp])
  have hmethod : carriageReturn ∉ r.method := by
    rcases r.method_valid with h | h <;> simp [h, ascii, carriageReturn]
  have huri := hof r.uri_valid (by decide)
  have hprotocol := hof (isalpha_of_protocol r.protocol_valid) (by decide)
  have hmajor := hof r.major_valid (by decide)
  have hminor := hof r.minor_valid (by decide)
  have hmarks : carriageReturn ≠ space ∧ carriageReturn ≠ slash ∧ carriageReturn ≠ dot := by
    decide
  rintro c hc
  rw [decide_eq_true_eq]
  rintro rfl
  simp [RequestLine.text, Target.bytes, hmethod, huri, hprotocol, hmajor, hminor, hmarks] at hc

theorem requestLine_bytes (h : Head) : requestLine h.bytes = h.line.text := by
  have hbytes : h.bytes = h.line.text ++ carriageReturn :: (newLine ::
      h.headers.flatMap HeaderLine.bytes ++ [carriageReturn, newLine]) := by
    simp [Head.bytes, linesBytes, RequestLine.bytes]
  rw [requestLine, hbytes, List.takeWhile_append_of_pos (ne_carriageReturn_of_mem_text h.line),
    List.takeWhile_cons_of_neg (by simp), List.append_nil]

/-! ### The version of an accepted head -/

/-- The version is recorded exactly if the request line has one and it is that of a new request. -/
theorem recordsVersion_iff (hlib : lib.Documented) {head : Bytes} (hhead : LeavesHead lib head) :
    RecordsVersion lib head ↔ majorDigits head ≠ [] ∧ minorDigits head ≠ [] ∧
      Denotes (majorDigits head) lib.request.httpVersionMajor ∧
        Denotes (minorDigits head) lib.request.httpVersionMinor := by
  obtain ⟨h, rfl⟩ := head_of_leavesHead hlib hhead
  refine and_congr_right fun _ ↦ and_congr_right fun _ ↦ ⟨fun hall ↦ ?_, fun hversion w m hm ↦ ?_⟩
  · have hline := feed_requestLine hlib h.line
    rw [RequestLine.bytes, ← requestLine_bytes h] at hline
    exact hall _ _ hline
  · obtain ⟨hmajor, hminor⟩ := version_of_feed hm
    rw [hmajor, hminor]
    exact hversion

/-- A request line for `/` whose version has the minor digit `c`. -/
def getVersion (c : UInt8) (hc : isdigit c = true) : RequestLine :=
  { getLine with
    minor := [c]
    minor_valid := List.forall_mem_singleton.mpr hc }

theorem recordsVersion_iff_get :
    let head := ascii "GET / HTTP/1.1\r\n\r\n"
    LeavesHead plainLibrary head ∧ (RecordsVersion plainLibrary head ↔
      majorDigits head ≠ [] ∧ minorDigits head ≠ [] ∧ Denotes (majorDigits head) 1 ∧
        Denotes (minorDigits head) 1) := by
  have hhead : LeavesHead plainLibrary (ascii "GET / HTTP/1.1\r\n\r\n") :=
    leavesHead_bytes plainLibrary_documented ⟨getVersion 49 rfl, []⟩
  exact ⟨hhead, recordsVersion_iff plainLibrary_documented hhead⟩

/-- A request of version 1.0 is parsed as one of version 1.1. -/
theorem not_recordsVersion_get : ¬∀ lib : HttpLibrary, lib.Documented →
    ∀ head, LeavesHead lib head → RecordsVersion lib head := by
  intro hclaim
  have hhead : LeavesHead plainLibrary (ascii "GET / HTTP/1.0\r\n\r\n") :=
    leavesHead_bytes plainLibrary_documented ⟨getVersion 48 rfl, []⟩
  obtain ⟨-, -, hversion⟩ := hclaim plainLibrary plainLibrary_documented _ hhead
  have hline := feed_requestLine plainLibrary_documented (getVersion 48 rfl)
  obtain ⟨-, hminor⟩ := hversion [newLine] _ hline
  have hone : (1 : Int) = 0 := hminor (by decide)
  exact absurd hone (by decide)

end CppDemo.Misc.HttpRequest
