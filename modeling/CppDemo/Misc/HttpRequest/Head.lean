import CppDemo.Misc.HttpRequest.Parser

/-!
# The head of a request

A head is a request line, header lines and an empty line. `Reads` relates what the parser has read
to its state, for every state up to the end of the head: it tells what part of a head the bytes are
and what the request, `temp_` and `buffer_` hold. Every step that does not fail leads from one such
state to another or reads the last byte of a head.

Source: `misc/fsmlite_test.cpp`, lines 47–125 and 154–187.

## Main definitions

* `RequestLine`, `HeaderLine`, `Head` : the parts of a head.
* `Reads` : what the parser has read and where that takes it.

## Main results

* `Reads.step` : every step keeps `Reads`, fails, or leaves the head.
* `feed_head` : the parser reads every head.
-/

namespace CppDemo.Misc.HttpRequest

/-! ### Heads -/

/-- A byte that the parser accepts in a uri. -/
def isUriChar (c : UInt8) : Bool := isalpha c || isnumber c || ispunct c

/-- A method and a uri. -/
structure Target where
  method : Bytes
  uri : Bytes
  method_valid : method = ascii "GET" ∨ method = ascii "POST"
  uri_valid : ∀ c ∈ uri, isUriChar c = true

/-- A request line. -/
structure RequestLine extends Target where
  protocol : Bytes
  major : Bytes
  minor : Bytes
  protocol_valid : protocol.map tolower = ascii "http"
  major_valid : ∀ c ∈ major, isdigit c = true
  minor_valid : ∀ c ∈ minor, isdigit c = true

/-- A header line. -/
structure HeaderLine where
  first : UInt8
  rest : Bytes
  first_valid : isalpha first = true
  rest_valid : ∀ c ∈ rest, c ≠ carriageReturn ∧ c ≠ newLine

/-- A head. -/
structure Head where
  line : RequestLine
  headers : List HeaderLine

namespace Target

def bytes (t : Target) : Bytes := t.method ++ space :: t.uri

end Target

namespace RequestLine

/-- The line without its end. -/
def text (r : RequestLine) : Bytes :=
  r.toTarget.bytes ++ space :: r.protocol ++ slash :: r.major ++ dot :: r.minor

def bytes (r : RequestLine) : Bytes := r.text ++ [carriageReturn, newLine]

end RequestLine

namespace HeaderLine

/-- The line without its end. -/
def text (l : HeaderLine) : Bytes := l.first :: l.rest

def bytes (l : HeaderLine) : Bytes := l.text ++ [carriageReturn, newLine]

end HeaderLine

/-- A request line and the header lines after it. -/
def linesBytes (r : RequestLine) (ls : List HeaderLine) : Bytes :=
  r.bytes ++ ls.flatMap HeaderLine.bytes

def Head.bytes (h : Head) : Bytes := linesBytes h.line h.headers ++ [carriageReturn, newLine]

/-! ### What the parser holds -/

/-- What `onHeaderLineFinish` adds to the header list when the buffer holds `text`. -/
def addedHeaders (lib : HttpLibrary) (text : Bytes) : List Header :=
  let parts := lib.strSplit text
  let name := lib.trim (parts.getD 0 [])
  if name.length > 0 then
    [⟨name, lib.trim (if parts.length > 1 then parts.getD 1 [] else [])⟩]
  else []

/-- The headers that lines add when the buffer holds `seen` before them. -/
def headersOf (lib : HttpLibrary) (seen : Bytes) : List HeaderLine → List Header
  | [] => []
  | l :: ls => addedHeaders lib (seen ++ l.text) ++ headersOf lib (seen ++ l.text) ls

/-- The texts of lines, one after the other. -/
def textOf (ls : List HeaderLine) : Bytes := ls.flatMap HeaderLine.text

theorem onHeaderLineFinish_eq (lib : HttpLibrary) (self : HttpRequestParser) (c : UInt8) :
    self.onHeaderLineFinish lib c = { self with request := { self.request with
      headerList := self.request.headerList ++ addedHeaders lib self.text } } := by
  simp only [HttpRequestParser.onHeaderLineFinish, addedHeaders]
  split_ifs <;> simp

theorem headersOf_append (lib : HttpLibrary) (seen : Bytes) (ls : List HeaderLine)
    (l : HeaderLine) : headersOf lib seen (ls ++ [l]) =
      headersOf lib seen ls ++ addedHeaders lib (seen ++ textOf ls ++ l.text) := by
  induction ls generalizing seen with
  | nil => simp [headersOf, textOf]
  | cons k ls ih => simp [headersOf, ih, textOf]

/-- The request after the method and the uri. -/
def targetRequest (lib : HttpLibrary) (t : Target) : Request :=
  { lib.request with method := t.method, uri := t.uri }

/-- The parser after a request line and header lines. -/
def linesParser (lib : HttpLibrary) (r : RequestLine) (ls : List HeaderLine) :
    HttpRequestParser where
  request := { targetRequest lib r.toTarget with
    headerList := lib.request.headerList ++ headersOf lib [] ls }
  temp := textOf ls
  buffer := .temp

/-- What the parser has read when it is in a state of the head. -/
inductive Reads (lib : HttpLibrary) : Bytes → Machine → Prop
  | start : Reads lib [] (init lib)
  | method {m : Bytes} (hne : m ≠ []) (hm : ∀ c ∈ m, isalpha c = true) :
      Reads lib m (.method, ⟨{ lib.request with method := m }, [], .method⟩)
  | uri (t : Target) : Reads lib t.bytes (.uri, ⟨targetRequest lib t, [], .uri⟩)
  | http (t : Target) {p : Bytes} (hp : ∀ c ∈ p, isalpha c = true) :
      Reads lib (t.bytes ++ space :: p) (.http, ⟨targetRequest lib t, p, .temp⟩)
  | major (t : Target) {p d : Bytes} (hp : p.map tolower = ascii "http")
      (hd : ∀ c ∈ d, isdigit c = true) :
      Reads lib (t.bytes ++ space :: p ++ slash :: d) (.major, ⟨targetRequest lib t, d, .temp⟩)
  | minor (t : Target) {p d e : Bytes} (hp : p.map tolower = ascii "http")
      (hd : ∀ c ∈ d, isdigit c = true) (he : ∀ c ∈ e, isdigit c = true) :
      Reads lib (t.bytes ++ space :: p ++ slash :: d ++ dot :: e)
        (.minor, ⟨targetRequest lib t, e, .temp⟩)
  | expectingNewline1 (r : RequestLine) :
      Reads lib (r.text ++ [carriageReturn])
        (.expectingNewline1, ⟨targetRequest lib r.toTarget, [], .temp⟩)
  | headerLineStart (r : RequestLine) (ls : List HeaderLine) :
      Reads lib (linesBytes r ls) (.headerLineStart, linesParser lib r ls)
  | headerLine (r : RequestLine) (ls : List HeaderLine) (l : HeaderLine) :
      Reads lib (linesBytes r ls ++ l.text)
        (.headerLine, { linesParser lib r ls with temp := textOf ls ++ l.text })
  | expectingNewline2 (r : RequestLine) (ls : List HeaderLine) (l : HeaderLine) :
      Reads lib (linesBytes r ls ++ l.text ++ [carriageReturn])
        (.expectingNewline2, { linesParser lib r ls with temp := textOf ls ++ l.text })
  | expectingNewline3 (r : RequestLine) (ls : List HeaderLine) :
      Reads lib (linesBytes r ls ++ [carriageReturn])
        (.expectingNewline3, linesParser lib r ls)

/-- The parser has left the head. -/
def ParseState.leftHead (s : ParseState) : Prop := s = .finish ∨ s = .expectingBody

theorem Reads.not_leftHead {lib : HttpLibrary} {w : Bytes} {m : Machine} (h : Reads lib w m) :
    ¬m.1.leftHead := by
  cases h <;> simp [ParseState.leftHead, init]

/-- What a step that reads `c` after `w` can lead to: an error, a state of the head, or, after the
last byte of a head, a state beyond it. -/
def Continues (lib : HttpLibrary) (w : Bytes) (c : UInt8) (m : Machine) : Prop :=
  m.1 = .error ∨ Reads lib (w ++ [c]) m ∨ m.1.leftHead ∧ ∃ head : Head, head.bytes = w ++ [c]

private theorem Reads.cast {lib : HttpLibrary} {w w' : Bytes} {m m' : Machine}
    (h : Reads lib w m) (hw : w = w') (hm : m = m') : Reads lib w' m' := hw ▸ hm ▸ h

private theorem forall_mem_snoc {P : UInt8 → Prop} {w : Bytes} {c : UInt8} (hw : ∀ d ∈ w, P d)
    (hc : P c) : ∀ d ∈ w ++ [c], P d := by
  intro d hd
  rcases List.mem_append.mp hd with hd | hd
  · exact hw d hd
  · exact List.mem_singleton.mp hd ▸ hc

section Step

variable {lib : HttpLibrary} {c : UInt8} {m' : Machine}

private theorem continues_start (hlib : lib.Documented) (hs : step lib (init lib) c = some m') :
    Continues lib [] c m' := by
  rw [init, step_start] at hs
  split_ifs at hs with hc
  · obtain rfl := Option.some.inj hs
    refine Or.inr (Or.inl ((Reads.method (m := [c]) (by simp) (by simpa using hc)).cast rfl ?_))
    simp only [HttpRequestParser.appendToBuffer, HttpRequestParser.setText,
      HttpRequestParser.text, hlib.method, List.nil_append]
  · exact Or.inl (Option.some.inj hs ▸ rfl)

private theorem continues_method (hlib : lib.Documented) {m : Bytes}
    (hm : ∀ c ∈ m, isalpha c = true)
    (hs : step lib (.method, ⟨{ lib.request with method := m }, [], .method⟩) c = some m') :
    Continues lib m c m' := by
  rw [step_method] at hs
  split_ifs at hs with hc hvalid
  · obtain rfl := Option.some.inj hs
    exact Or.inr (Or.inl (.method (by simp) (forall_mem_snoc hm hc)))
  · obtain rfl := Option.some.inj hs
    simp only [HttpRequestParser.isValidMethod, Bool.and_eq_true, Bool.or_eq_true,
      decide_eq_true_eq] at hvalid
    obtain ⟨rfl, hget⟩ := hvalid
    refine Or.inr (Or.inl ((Reads.uri ⟨m, [], hget.imp Eq.symm Eq.symm, by simp⟩).cast rfl ?_))
    simp only [targetRequest, ← hlib.uri]
  · exact Or.inl (Option.some.inj hs ▸ rfl)

private theorem continues_uri (t : Target)
    (hs : step lib (.uri, ⟨targetRequest lib t, [], .uri⟩) c = some m') :
    Continues lib t.bytes c m' := by
  rw [step_uri] at hs
  split_ifs at hs with hc hspace
  · obtain rfl := Option.some.inj hs
    exact Or.inr (Or.inl ((Reads.uri ⟨t.method, t.uri ++ [c], t.method_valid,
      forall_mem_snoc t.uri_valid hc⟩).cast (by simp [Target.bytes]) rfl))
  · obtain rfl := Option.some.inj hs
    subst hspace
    exact Or.inr (Or.inl ((Reads.http t (p := []) (by simp)).cast rfl rfl))
  · exact Or.inl (Option.some.inj hs ▸ rfl)

private theorem continues_http (hlib : lib.Documented) (t : Target) {p : Bytes}
    (hp : ∀ c ∈ p, isalpha c = true)
    (hs : step lib (.http, ⟨targetRequest lib t, p, .temp⟩) c = some m') :
    Continues lib (t.bytes ++ space :: p) c m' := by
  rw [step_http] at hs
  split_ifs at hs with hc hvalid
  · obtain rfl := Option.some.inj hs
    exact Or.inr (Or.inl ((Reads.http t (forall_mem_snoc hp hc)).cast (by simp) rfl))
  · obtain rfl := Option.some.inj hs
    simp only [HttpRequestParser.isValidHttp, Bool.and_eq_true, decide_eq_true_eq,
      hlib.toLowerCase] at hvalid
    obtain ⟨rfl, hhttp⟩ := hvalid
    exact Or.inr (Or.inl ((Reads.major t (d := []) hhttp.symm (by simp)).cast (by simp) rfl))
  · exact Or.inl (Option.some.inj hs ▸ rfl)

private theorem continues_major (t : Target) {p d : Bytes} (hp : p.map tolower = ascii "http")
    (hd : ∀ c ∈ d, isdigit c = true)
    (hs : step lib (.major, ⟨targetRequest lib t, d, .temp⟩) c = some m') :
    Continues lib (t.bytes ++ space :: p ++ slash :: d) c m' := by
  rw [step_major] at hs
  split_ifs at hs with hc hdot
  · obtain rfl := Option.some.inj hs
    exact Or.inr (Or.inl ((Reads.major t hp (forall_mem_snoc hd hc)).cast (by simp) rfl))
  · obtain rfl := Option.some.inj hs
    subst hdot
    exact Or.inr (Or.inl ((Reads.minor t (e := []) hp hd (by simp)).cast (by simp) rfl))
  · exact Or.inl (Option.some.inj hs ▸ rfl)

private theorem continues_minor (t : Target) {p d e : Bytes} (hp : p.map tolower = ascii "http")
    (hd : ∀ c ∈ d, isdigit c = true) (he : ∀ c ∈ e, isdigit c = true)
    (hs : step lib (.minor, ⟨targetRequest lib t, e, .temp⟩) c = some m') :
    Continues lib (t.bytes ++ space :: p ++ slash :: d ++ dot :: e) c m' := by
  rw [step_minor] at hs
  split_ifs at hs with hc hreturn
  · obtain rfl := Option.some.inj hs
    exact Or.inr (Or.inl ((Reads.minor t hp hd (forall_mem_snoc he hc)).cast (by simp) rfl))
  · obtain rfl := Option.some.inj hs
    subst hreturn
    exact Or.inr (Or.inl (Reads.expectingNewline1 ⟨t, p, d, e, hp, hd, he⟩))
  · exact Or.inl (Option.some.inj hs ▸ rfl)

private theorem continues_expectingNewline1 (r : RequestLine)
    (hs : step lib (.expectingNewline1, ⟨targetRequest lib r.toTarget, [], .temp⟩) c = some m') :
    Continues lib (r.text ++ [carriageReturn]) c m' := by
  rw [step_expectingNewline1] at hs
  split_ifs at hs with hc
  · obtain rfl := Option.some.inj hs
    subst hc
    refine Or.inr (Or.inl ((Reads.headerLineStart r []).cast ?_ ?_))
    · simp [linesBytes, RequestLine.bytes]
    · simp [linesParser, headersOf, textOf, targetRequest, HttpRequestParser.clearTemp]
  · exact Or.inl (Option.some.inj hs ▸ rfl)

private theorem continues_headerLineStart (r : RequestLine) (ls : List HeaderLine)
    (hs : step lib (.headerLineStart, linesParser lib r ls) c = some m') :
    Continues lib (linesBytes r ls) c m' := by
  rw [step_headerLineStart] at hs
  split_ifs at hs with hreturn hc
  · obtain rfl := Option.some.inj hs
    subst hreturn
    exact Or.inr (Or.inl (.expectingNewline3 r ls))
  · obtain rfl := Option.some.inj hs
    exact Or.inr (Or.inl (.headerLine r ls ⟨c, [], hc, by simp⟩))
  · exact Or.inl (Option.some.inj hs ▸ rfl)

private theorem continues_headerLine (r : RequestLine) (ls : List HeaderLine) (l : HeaderLine)
    (hs : step lib (.headerLine, { linesParser lib r ls with temp := textOf ls ++ l.text }) c =
      some m') : Continues lib (linesBytes r ls ++ l.text) c m' := by
  rw [step_headerLine] at hs
  split_ifs at hs with hreturn hline
  · obtain rfl := Option.some.inj hs
    subst hreturn
    exact Or.inr (Or.inl (.expectingNewline2 r ls l))
  · exact Or.inl (Option.some.inj hs ▸ rfl)
  · obtain rfl := Option.some.inj hs
    have hrest := forall_mem_snoc l.rest_valid (c := c) ⟨Ne.symm hreturn, Ne.symm hline⟩
    refine Or.inr (Or.inl ((Reads.headerLine r ls ⟨l.first, l.rest ++ [c], l.first_valid,
      hrest⟩).cast ?_ ?_))
    · simp [HeaderLine.text]
    · simp [HeaderLine.text, HttpRequestParser.appendToBuffer, HttpRequestParser.setText,
        HttpRequestParser.text, linesParser]

private theorem continues_expectingNewline2 (r : RequestLine) (ls : List HeaderLine)
    (l : HeaderLine)
    (hs : step lib (.expectingNewline2,
      { linesParser lib r ls with temp := textOf ls ++ l.text }) c = some m') :
    Continues lib (linesBytes r ls ++ l.text ++ [carriageReturn]) c m' := by
  rw [step_expectingNewline2] at hs
  split_ifs at hs with hc
  · obtain rfl := Option.some.inj hs
    subst hc
    refine Or.inr (Or.inl ((Reads.headerLineStart r (ls ++ [l])).cast ?_ ?_))
    · simp [linesBytes, HeaderLine.bytes]
    · rw [onHeaderLineFinish_eq]
      simp [linesParser, headersOf_append, textOf, HttpRequestParser.text]
  · exact Or.inl (Option.some.inj hs ▸ rfl)

private theorem continues_expectingNewline3 (r : RequestLine) (ls : List HeaderLine)
    (hs : step lib (.expectingNewline3, linesParser lib r ls) c = some m') :
    Continues lib (linesBytes r ls ++ [carriageReturn]) c m' := by
  have hbytes : newLine = c → ∃ head : Head,
      head.bytes = linesBytes r ls ++ [carriageReturn] ++ [c] :=
    fun hc ↦ ⟨⟨r, ls⟩, by simp [Head.bytes, hc]⟩
  rw [step_expectingNewline3] at hs
  split_ifs at hs with hbody hc
  · obtain rfl := Option.some.inj hs
    simp only [HttpRequestParser.isNeedBody, Bool.and_eq_true, decide_eq_true_eq] at hbody
    exact Or.inr (Or.inr ⟨Or.inr rfl, hbytes hbody.1.1⟩)
  · obtain rfl := Option.some.inj hs
    exact Or.inr (Or.inr ⟨Or.inl rfl, hbytes hc⟩)
  · exact Or.inl (Option.some.inj hs ▸ rfl)

/-- Every step from a state of the head fails, leads to another one, or reads the last byte of a
head. -/
theorem Reads.step (hlib : lib.Documented) {w : Bytes} {m : Machine} (h : Reads lib w m)
    (hs : step lib m c = some m') : Continues lib w c m' := by
  cases h with
  | start => exact continues_start hlib hs
  | method _ hm => exact continues_method hlib hm hs
  | uri t => exact continues_uri t hs
  | http t hp => exact continues_http hlib t hp hs
  | major t hp hd => exact continues_major t hp hd hs
  | minor t hp hd he => exact continues_minor t hp hd he hs
  | expectingNewline1 r => exact continues_expectingNewline1 r hs
  | headerLineStart r ls => exact continues_headerLineStart r ls hs
  | headerLine r ls l => exact continues_headerLine r ls l hs
  | expectingNewline2 r ls l => exact continues_expectingNewline2 r ls l hs
  | expectingNewline3 r ls => exact continues_expectingNewline3 r ls hs

end Step

/-! ### Runs -/

section Feed

open Transition HttpRequestParser

variable {lib : HttpLibrary}

/-- The parser does not come back to the head. -/
theorem leftHead_of_feed {m m' : Machine} {w : Bytes} (hm : m.1.leftHead)
    (h : feed lib m w = some m') : m'.1.leftHead := by
  refine run_invariant (P := fun m : Machine ↦ m.1.leftHead) (fun m c m' hm hs ↦ ?_) h hm
  obtain ⟨state, self⟩ := m
  rcases hm with rfl | rfl
  · simp at hs
  · rw [step_expectingBody] at hs
    split_ifs at hs
    · exact Option.some.inj hs ▸ Or.inr rfl
    · exact Option.some.inj hs ▸ Or.inl rfl

/-- In every state that the parser reaches it has failed, left the head, or read a part of it. -/
theorem reads_of_feed (hlib : lib.Documented) {w : Bytes} {m : Machine}
    (h : feed lib (init lib) w = some m) : m.1 = .error ∨ m.1.leftHead ∨ Reads lib w m := by
  refine run_history (P := fun w m ↦ m.1 = .error ∨ m.1.leftHead ∨ Reads lib w m)
    (fun w m₀ c m hm hs ↦ ?_) h (Or.inr (Or.inr .start))
  rcases hm with herror | hleft | hreads
  · obtain ⟨state, self⟩ := m₀
    obtain rfl : state = .error := herror
    simp at hs
  · exact Or.inr (Or.inl (leftHead_of_feed (w := [c]) hleft ((run_cons _).mpr ⟨_, hs, rfl⟩)))
  · rcases hreads.step hlib hs with herror | hreads | ⟨hleft, -⟩
    · exact Or.inl herror
    · exact Or.inr (Or.inr hreads)
    · exact Or.inr (Or.inl hleft)

/-- One word after the other. -/
private theorem feed_append {m m₁ m₂ : Machine} {v w : Bytes} (h₁ : feed lib m v = some m₁)
    (h₂ : feed lib m₁ w = some m₂) : feed lib m (v ++ w) = some m₂ :=
  (run_append _).mpr ⟨_, h₁, h₂⟩

private theorem feed_cons {m m₁ m₂ : Machine} {c : UInt8} {w : Bytes}
    (h₁ : step lib m c = some m₁) (h₂ : feed lib m₁ w = some m₂) :
    feed lib m (c :: w) = some m₂ :=
  (run_cons _).mpr ⟨_, h₁, h₂⟩

@[simp] theorem text_setText (self : HttpRequestParser) (text : Bytes) :
    (self.setText text).text = text := by
  obtain ⟨request, temp, buffer⟩ := self
  cases buffer <;> rfl

@[simp] theorem setText_setText (self : HttpRequestParser) (text text' : Bytes) :
    (self.setText text).setText text' = self.setText text' := by
  obtain ⟨request, temp, buffer⟩ := self
  cases buffer <;> rfl

/-- Appending the bytes of a word one by one appends the word. -/
theorem foldl_appendToBuffer (self : HttpRequestParser) (w : Bytes) :
    w.foldl appendToBuffer self = self.setText (self.text ++ w) := by
  induction w generalizing self with
  | nil =>
    obtain ⟨request, temp, buffer⟩ := self
    cases buffer <;> simp [setText, HttpRequestParser.text]
  | cons c w ih =>
    rw [List.foldl_cons, ih, appendToBuffer, text_setText, setText_setText, List.append_assoc]
    rfl

/-- A state with a row back to itself reads a word into the buffer. -/
private theorem feed_loop {state : ParseState} {w : Bytes} (self : HttpRequestParser)
    (h : ∀ self, ∀ c ∈ w, step lib (state, self) c = some (state, self.appendToBuffer c)) :
    feed lib (state, self) w = some (state, self.setText (self.text ++ w)) := by
  rw [← foldl_appendToBuffer]
  exact GuardedTable.run_loop h

private theorem isalpha_of_method {m : Bytes} (hm : m = ascii "GET" ∨ m = ascii "POST") :
    ∀ c ∈ m, isalpha c = true := by
  rcases hm with rfl | rfl <;> exact List.all_eq_true.mp rfl

private theorem isalpha_of_tolower {c : UInt8} (h : isalpha (tolower c) = true) :
    isalpha c = true := by
  grind [isalpha, tolower]

/-- The letters of `http` in either case are letters. -/
theorem isalpha_of_protocol {p : Bytes} (hp : p.map tolower = ascii "http") :
    ∀ c ∈ p, isalpha c = true := by
  intro c hc
  have hmem : tolower c ∈ ascii "http" := hp ▸ List.mem_map_of_mem hc
  have hall : ∀ d ∈ ascii "http", isalpha d = true := List.all_eq_true.mp rfl
  exact isalpha_of_tolower (hall _ hmem)

/-- The parser reads every method. -/
private theorem feed_method (hlib : lib.Documented) (t : Target) :
    feed lib (init lib) t.method =
      some (.method, ⟨{ lib.request with method := t.method }, [], .method⟩) := by
  have halpha := isalpha_of_method t.method_valid
  cases hm : t.method with
  | nil => rcases t.method_valid with h | h <;> simp [hm, ascii] at h
  | cons c m =>
    rw [hm] at halpha
    refine feed_cons ((step_start lib _ c).trans (if_pos (halpha c (by simp)))) ?_
    refine (feed_loop _ fun self d hd ↦ ?_).trans ?_
    · rw [step_method, if_pos (halpha d (by simp [hd]))]
    · have hmethod : (⟨lib.request, [], .method⟩ : HttpRequestParser).text = [] := hlib.method
      rw [appendToBuffer, text_setText, setText_setText, hmethod]
      rfl

/-- The parser reads every method and uri. -/
private theorem feed_target (hlib : lib.Documented) (t : Target) :
    feed lib (init lib) t.bytes = some (.uri, ⟨targetRequest lib t, [], .uri⟩) := by
  have hspace : step lib (.method, ⟨{ lib.request with method := t.method }, [], .method⟩) space =
      some (.uri, ⟨{ lib.request with method := t.method }, [], .uri⟩) := by
    rw [step_method, if_neg (by decide), if_pos]
    simp only [isValidMethod, decide_true, Bool.true_and, Bool.or_eq_true, decide_eq_true_eq]
    exact t.method_valid.imp Eq.symm Eq.symm
  refine feed_append (feed_method hlib t) (feed_cons hspace ?_)
  refine (feed_loop _ fun self d hd ↦ ?_).trans ?_
  · rw [step_uri]
    exact if_pos (t.uri_valid d hd)
  · have huri : (⟨{ lib.request with method := t.method }, [], .uri⟩ :
        HttpRequestParser).text = [] := hlib.uri
    rw [huri]
    rfl

/-- In the states that read into `temp_`, a word of the looping class is read into it. -/
private theorem feed_temp {state : ParseState} {w : Bytes} (request : Request)
    (h : ∀ self, ∀ c ∈ w, step lib (state, self) c = some (state, self.appendToBuffer c)) :
    feed lib (state, ⟨request, [], .temp⟩) w = some (state, ⟨request, w, .temp⟩) :=
  feed_loop _ h

/-- The parser reads every request line. -/
theorem feed_requestLine (hlib : lib.Documented) (r : RequestLine) :
    feed lib (init lib) r.bytes = some (.headerLineStart, linesParser lib r []) := by
  have hprotocol : feed lib (.http, ⟨targetRequest lib r.toTarget, [], .temp⟩) r.protocol =
      some (.http, ⟨targetRequest lib r.toTarget, r.protocol, .temp⟩) := by
    refine feed_temp _ fun self c hc ↦ ?_
    rw [step_http, if_pos (isalpha_of_protocol r.protocol_valid c hc)]
  have hmajor : feed lib (.major, ⟨targetRequest lib r.toTarget, [], .temp⟩) r.major =
      some (.major, ⟨targetRequest lib r.toTarget, r.major, .temp⟩) := by
    refine feed_temp _ fun self c hc ↦ ?_
    rw [step_major, if_pos (r.major_valid c hc)]
  have hminor : feed lib (.minor, ⟨targetRequest lib r.toTarget, [], .temp⟩) r.minor =
      some (.minor, ⟨targetRequest lib r.toTarget, r.minor, .temp⟩) := by
    refine feed_temp _ fun self c hc ↦ ?_
    rw [step_minor, if_pos (r.minor_valid c hc)]
  have hspace : step lib (.uri, ⟨targetRequest lib r.toTarget, [], .uri⟩) space =
      some (.http, ⟨targetRequest lib r.toTarget, [], .temp⟩) := by
    have hchar : ¬isUriChar space = true := by decide
    exact (step_uri lib _ space).trans ((if_neg hchar).trans (if_pos rfl))
  have hslash : step lib (.http, ⟨targetRequest lib r.toTarget, r.protocol, .temp⟩) slash =
      some (.major, ⟨targetRequest lib r.toTarget, [], .temp⟩) := by
    rw [step_http, if_neg (by decide), if_pos]
    · rfl
    · simp [isValidHttp, hlib.toLowerCase, r.protocol_valid]
  have hdot : step lib (.major, ⟨targetRequest lib r.toTarget, r.major, .temp⟩) dot =
      some (.minor, ⟨targetRequest lib r.toTarget, [], .temp⟩) := by
    rw [step_major, if_neg (by decide), if_pos rfl]
    rfl
  have hreturn : step lib (.minor, ⟨targetRequest lib r.toTarget, r.minor, .temp⟩)
      carriageReturn =
        some (.expectingNewline1, ⟨targetRequest lib r.toTarget, [], .temp⟩) := by
    rw [step_minor, if_neg (by decide), if_pos rfl]
    rfl
  have hline : step lib (.expectingNewline1, ⟨targetRequest lib r.toTarget, [], .temp⟩) newLine =
      some (.headerLineStart, linesParser lib r []) := by
    rw [step_expectingNewline1, if_pos rfl]
    simp [clearTemp, linesParser, headersOf, textOf, targetRequest]
  have htext : feed lib (init lib) r.text =
      some (.minor, ⟨targetRequest lib r.toTarget, r.minor, .temp⟩) :=
    feed_append (feed_append (feed_append (feed_target hlib r.toTarget)
      (feed_cons hspace hprotocol)) (feed_cons hslash hmajor)) (feed_cons hdot hminor)
  exact feed_append htext (feed_cons hreturn (feed_cons hline rfl))

/-- The parser reads every header line. -/
private theorem feed_headerLine (r : RequestLine) (ls : List HeaderLine) (l : HeaderLine) :
    feed lib (.headerLineStart, linesParser lib r ls) l.bytes =
      some (.headerLineStart, linesParser lib r (ls ++ [l])) := by
  have hfirst : step lib (.headerLineStart, linesParser lib r ls) l.first = some (.headerLine,
      { linesParser lib r ls with temp := textOf ls ++ [l.first] }) := by
    have hne : carriageReturn ≠ l.first := fun h ↦ by
      have := l.first_valid
      simp [← h, isalpha, carriageReturn] at this
    rw [step_headerLineStart, if_neg hne, if_pos l.first_valid]
    rfl
  have hrest : feed lib (.headerLine, { linesParser lib r ls with temp := textOf ls ++ [l.first] })
      l.rest = some (.headerLine, { linesParser lib r ls with temp := textOf ls ++ l.text }) := by
    refine (feed_loop _ fun self c hc ↦ ?_).trans ?_
    · obtain ⟨hreturn, hline⟩ := l.rest_valid c hc
      rw [step_headerLine, if_neg hreturn.symm, if_neg hline.symm]
    · simp [setText, HttpRequestParser.text, linesParser, HeaderLine.text]
  have hreturn : step lib (.headerLine, { linesParser lib r ls with temp := textOf ls ++ l.text })
      carriageReturn = some (.expectingNewline2,
        { linesParser lib r ls with temp := textOf ls ++ l.text }) := by
    rw [step_headerLine, if_pos rfl]
  have hline : step lib (.expectingNewline2,
      { linesParser lib r ls with temp := textOf ls ++ l.text }) newLine =
        some (.headerLineStart, linesParser lib r (ls ++ [l])) := by
    rw [step_expectingNewline2, if_pos rfl, onHeaderLineFinish_eq]
    simp [linesParser, headersOf_append, textOf, HttpRequestParser.text]
  exact feed_append (feed_cons hfirst hrest) (feed_cons hreturn (feed_cons hline rfl))

/-- The parser reads every request line with header lines. -/
theorem feed_lines (hlib : lib.Documented) (r : RequestLine) (ls : List HeaderLine) :
    feed lib (init lib) (linesBytes r ls) = some (.headerLineStart, linesParser lib r ls) := by
  induction ls using List.reverseRecOn with
  | nil => simpa [linesBytes] using feed_requestLine hlib r
  | append_singleton ls l ih =>
    have hbytes : linesBytes r (ls ++ [l]) = linesBytes r ls ++ l.bytes := by simp [linesBytes]
    rw [hbytes]
    exact feed_append ih (feed_headerLine r ls l)

/-- The parser reads every head up to its last byte. -/
theorem feed_emptyLine (hlib : lib.Documented) (r : RequestLine) (ls : List HeaderLine) :
    feed lib (init lib) (linesBytes r ls ++ [carriageReturn]) =
      some (.expectingNewline3, linesParser lib r ls) := by
  have hreturn : step lib (.headerLineStart, linesParser lib r ls) carriageReturn =
      some (.expectingNewline3, linesParser lib r ls) := by
    rw [step_headerLineStart, if_pos rfl]
  exact feed_append (feed_lines hlib r ls) (feed_cons hreturn rfl)

/-- The parser reads every head, and leaves it with its last byte. -/
theorem feed_head (hlib : lib.Documented) (h : Head) :
    ∃ m, feed lib (init lib) h.bytes = some m ∧ m.1.leftHead := by
  have hbytes : h.bytes = linesBytes h.line h.headers ++ [carriageReturn] ++ [newLine] := by
    simp [Head.bytes]
  have hend := feed_emptyLine hlib h.line h.headers
  have hline := step_expectingNewline3 lib (linesParser lib h.line h.headers) newLine
  rw [hbytes]
  cases hbody : (linesParser lib h.line h.headers).isNeedBody lib newLine with
  | true =>
    rw [if_pos hbody] at hline
    exact ⟨_, feed_append hend (feed_cons hline rfl), Or.inr rfl⟩
  | false =>
    rw [if_neg (by simp [hbody]), if_pos rfl] at hline
    exact ⟨_, feed_append hend (feed_cons hline rfl), Or.inl rfl⟩

end Feed

end CppDemo.Misc.HttpRequest
