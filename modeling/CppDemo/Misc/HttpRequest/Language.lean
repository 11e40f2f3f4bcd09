import CppDemo.Misc.HttpRequest.Head

/-!
# The language of the head

The parser leaves the head, that is, reaches the end of the request or starts to read a body, with
the last byte of a word exactly when the word is in the language

`(GET|POST) SP U* SP [hH][tT][tT][pP] / D* . D* CR LF (A N* CR LF)* CR LF`,

where `U` is a letter, a digit or a punctuation mark, `D` a digit, `A` a letter and `N` any byte but
CR and LF.

Source: `misc/fsmlite_test.cpp`, lines 47–109, 154–187 and 208–219.

## Main definitions

* `headLanguage` : the language.
* `LeavesHead` : the parser leaves the head with the last byte of a word.

## Main results

* `mem_headLanguage` : the words of the language are the heads.
* `leavesHead_iff` : the parser leaves the head exactly with the words of the language.
-/

namespace CppDemo.Misc.HttpRequest

open Computability SymbolClass

/-! ### The words of the language -/

def targetLanguage : Language UInt8 :=
  ({ascii "GET"} + {ascii "POST"}) * symbols (· = space) * (symbols (isUriChar · = true))∗

def protocolLanguage : Language UInt8 :=
  symbols (· ∈ ascii "hH") * symbols (· ∈ ascii "tT") * symbols (· ∈ ascii "tT") *
    symbols (· ∈ ascii "pP")

def requestLineLanguage : Language UInt8 :=
  targetLanguage * symbols (· = space) * protocolLanguage * symbols (· = slash) *
    (symbols (isdigit · = true))∗ * symbols (· = dot) * (symbols (isdigit · = true))∗ *
    symbols (· = carriageReturn) * symbols (· = newLine)

def headerLineLanguage : Language UInt8 :=
  symbols (isalpha · = true) * (symbols fun c ↦ c ≠ carriageReturn ∧ c ≠ newLine)∗ *
    symbols (· = carriageReturn) * symbols (· = newLine)

def headLanguage : Language UInt8 :=
  requestLineLanguage * headerLineLanguage∗ * symbols (· = carriageReturn) *
    symbols (· = newLine)

theorem mem_targetLanguage {w : Bytes} : w ∈ targetLanguage ↔ ∃ t : Target, t.bytes = w := by
  simp only [targetLanguage, Language.mem_mul, Language.mem_add, mem_symbols_eq, mem_kstar_symbols]
  constructor
  · rintro ⟨_, ⟨m, hm, _, rfl, rfl⟩, u, hu, rfl⟩
    exact ⟨⟨m, u, hm, hu⟩, by simp [Target.bytes]⟩
  · rintro ⟨t, rfl⟩
    exact ⟨_, ⟨t.method, t.method_valid, _, rfl, rfl⟩, t.uri, t.uri_valid, by simp [Target.bytes]⟩

/-- The letters of `http` are the bytes that `tolower` takes to them. -/
private theorem tolower_eq_letter (c : UInt8) :
    (tolower c = 104 ↔ c ∈ ascii "hH") ∧ (tolower c = 116 ↔ c ∈ ascii "tT") ∧
      (tolower c = 112 ↔ c ∈ ascii "pP") := by
  have hh : ascii "hH" = [104, 72] := rfl
  have ht : ascii "tT" = [116, 84] := rfl
  have hp : ascii "pP" = [112, 80] := rfl
  grind [tolower]

theorem mem_protocolLanguage {p : Bytes} :
    p ∈ protocolLanguage ↔ p.map tolower = ascii "http" := by
  have hhttp : ascii "http" = [104, 116, 116, 112] := rfl
  simp only [protocolLanguage, Language.mem_mul, mem_symbols, hhttp]
  constructor
  · rintro ⟨_, ⟨_, ⟨_, ⟨a, ha, rfl⟩, _, ⟨b, hb, rfl⟩, rfl⟩, _, ⟨c, hc, rfl⟩, rfl⟩, _, ⟨d, hd, rfl⟩,
      rfl⟩
    simp [(tolower_eq_letter a).1.mpr ha, (tolower_eq_letter b).2.1.mpr hb,
      (tolower_eq_letter c).2.1.mpr hc, (tolower_eq_letter d).2.2.mpr hd]
  · intro hp
    obtain ⟨a, b, c, d, rfl⟩ : ∃ a b c d, p = [a, b, c, d] :=
      List.length_eq_four.mp (by simpa using congrArg List.length hp)
    simp only [List.map_cons, List.map_nil, List.cons.injEq, and_true] at hp
    obtain ⟨ha, hb, hc, hd⟩ := hp
    exact ⟨_, ⟨_, ⟨_, ⟨a, (tolower_eq_letter a).1.mp ha, rfl⟩, _,
      ⟨b, (tolower_eq_letter b).2.1.mp hb, rfl⟩, rfl⟩, _,
      ⟨c, (tolower_eq_letter c).2.1.mp hc, rfl⟩, rfl⟩, _,
      ⟨d, (tolower_eq_letter d).2.2.mp hd, rfl⟩, rfl⟩

theorem mem_requestLineLanguage {w : Bytes} :
    w ∈ requestLineLanguage ↔ ∃ r : RequestLine, r.bytes = w := by
  simp only [requestLineLanguage, Language.mem_mul, mem_symbols_eq, mem_kstar_symbols,
    mem_targetLanguage, mem_protocolLanguage]
  constructor
  · rintro ⟨_, ⟨_, ⟨_, ⟨_, ⟨_, ⟨_, ⟨_, ⟨_, ⟨t, rfl⟩, _, rfl, rfl⟩, p, hp, rfl⟩, _, rfl, rfl⟩,
      d, hd, rfl⟩, _, rfl, rfl⟩, e, he, rfl⟩, _, rfl, rfl⟩, _, rfl, rfl⟩
    exact ⟨⟨t, p, d, e, hp, hd, he⟩, by simp [RequestLine.bytes, RequestLine.text]⟩
  · rintro ⟨r, rfl⟩
    exact ⟨_, ⟨_, ⟨_, ⟨_, ⟨_, ⟨_, ⟨_, ⟨_, ⟨r.toTarget, rfl⟩, _, rfl, rfl⟩, r.protocol,
      r.protocol_valid, rfl⟩, _, rfl, rfl⟩, r.major, r.major_valid, rfl⟩, _, rfl, rfl⟩,
      r.minor, r.minor_valid, rfl⟩, _, rfl, rfl⟩, _, rfl,
      by simp [RequestLine.bytes, RequestLine.text]⟩

theorem mem_headerLineLanguage (w : Bytes) :
    w ∈ headerLineLanguage ↔ ∃ l : HeaderLine, l.bytes = w := by
  simp only [headerLineLanguage, Language.mem_mul, mem_symbols_eq, mem_kstar_symbols]
  constructor
  · rintro ⟨_, ⟨_, ⟨_, ⟨c, hc, rfl⟩, v, hv, rfl⟩, _, rfl, rfl⟩, _, rfl, rfl⟩
    exact ⟨⟨c, v, hc, hv⟩, by simp [HeaderLine.bytes, HeaderLine.text]⟩
  · rintro ⟨l, rfl⟩
    exact ⟨_, ⟨_, ⟨_, ⟨l.first, l.first_valid, rfl⟩, l.rest, l.rest_valid, rfl⟩, _, rfl, rfl⟩,
      _, rfl, by simp [HeaderLine.bytes, HeaderLine.text]⟩

/-- The words of the language are the heads. -/
theorem mem_headLanguage {w : Bytes} : w ∈ headLanguage ↔ ∃ h : Head, h.bytes = w := by
  simp only [headLanguage, Language.mem_mul, mem_symbols_eq, mem_requestLineLanguage,
    mem_kstar_range mem_headerLineLanguage]
  constructor
  · rintro ⟨_, ⟨_, ⟨_, ⟨r, rfl⟩, _, ⟨ls, rfl⟩, rfl⟩, _, rfl, rfl⟩, _, rfl, rfl⟩
    exact ⟨⟨r, ls⟩, by simp [Head.bytes, linesBytes]⟩
  · rintro ⟨h, rfl⟩
    exact ⟨_, ⟨_, ⟨_, ⟨h.line, rfl⟩, _, ⟨h.headers, rfl⟩, rfl⟩, _, rfl, rfl⟩, _, rfl,
      by simp [Head.bytes, linesBytes]⟩

/-! ### What the parser accepts -/

/-- The parser leaves the head with the last byte of `w`. -/
def LeavesHead (lib : HttpLibrary) (w : Bytes) : Prop :=
  (∃ m, feed lib (init lib) w = some m ∧ m.1.leftHead) ∧
    ∀ v, v <+: w → v ≠ w → ∀ m, feed lib (init lib) v = some m → ¬m.1.leftHead

section LeavesHead

open Transition

variable {lib : HttpLibrary}

/-- The parser leaves the head with a step that reads the last byte of a head. -/
theorem head_of_leavesHead (hlib : lib.Documented) {w : Bytes} (h : LeavesHead lib w) :
    ∃ h : Head, h.bytes = w := by
  obtain ⟨⟨m, hm, hleft⟩, hfirst⟩ := h
  induction w using List.reverseRecOn with
  | nil =>
    obtain rfl : init lib = m := by simpa [feed] using hm
    simp [ParseState.leftHead, init] at hleft
  | append_singleton w c _ =>
    obtain ⟨m₀, h₀, h⟩ := (run_append (step lib)).mp hm
    obtain ⟨m₁, hs, h⟩ := (run_cons (step lib)).mp h
    obtain rfl : m₁ = m := by simpa using h
    have hin : ¬m₀.1.leftHead := hfirst w (List.prefix_append w [c]) (by simp) m₀ h₀
    rcases reads_of_feed hlib h₀ with herror | hleft₀ | hreads
    · obtain ⟨state, self⟩ := m₀
      obtain rfl : state = .error := herror
      simp at hs
    · exact absurd hleft₀ hin
    · rcases hreads.step hlib hs with herror | hreads | ⟨-, hhead⟩
      · simp [ParseState.leftHead, herror] at hleft
      · exact absurd hleft hreads.not_leftHead
      · exact hhead

/-- A proper prefix of a head stays in the head: what leads from it to the end of the head would
lead from one of the states beyond the head to the state that reads its last byte. -/
theorem not_leftHead_of_prefix (hlib : lib.Documented) (h : Head) {v : Bytes}
    (hv : v <+: h.bytes) (hne : v ≠ h.bytes) {m : Machine} (hm : feed lib (init lib) v = some m) :
    ¬m.1.leftHead := by
  intro hleft
  have hend := feed_emptyLine hlib h.line h.headers
  have hbytes : h.bytes = linesBytes h.line h.headers ++ [carriageReturn] ++ [newLine] := by
    simp [Head.bytes]
  obtain ⟨u, hu⟩ : v <+: linesBytes h.line h.headers ++ [carriageReturn] := by
    rw [hbytes] at hv hne
    exact (List.prefix_concat_iff.mp hv).resolve_left hne
  rw [← hu] at hend
  obtain ⟨m₀, h₀, hrest⟩ := (run_append (step lib)).mp hend
  obtain rfl : m₀ = m := Option.some.inj (h₀.symm.trans hm)
  simpa [ParseState.leftHead] using leftHead_of_feed hleft hrest

/-- The parser leaves every head with its last byte. -/
theorem leavesHead_bytes (hlib : lib.Documented) (h : Head) : LeavesHead lib h.bytes :=
  ⟨feed_head hlib h, fun _ hv hne _ hm ↦ not_leftHead_of_prefix hlib h hv hne hm⟩

/-- The parser leaves the head exactly with the words of the language. -/
theorem leavesHead_iff (hlib : lib.Documented) (w : Bytes) :
    LeavesHead lib w ↔ w ∈ headLanguage := by
  rw [mem_headLanguage]
  constructor
  · exact head_of_leavesHead hlib
  · rintro ⟨h, rfl⟩
    exact leavesHead_bytes hlib h

/-- A request for `/` without headers. -/
theorem leavesHead_iff_get :
    plainLibrary.Documented ∧ (LeavesHead plainLibrary (ascii "GET / HTTP/1.1\r\n\r\n") ↔
      ascii "GET / HTTP/1.1\r\n\r\n" ∈ headLanguage) :=
  ⟨plainLibrary_documented, leavesHead_iff plainLibrary_documented _⟩

end LeavesHead

end CppDemo.Misc.HttpRequest
