import CppDemo.Misc.HttpRequest.Body
import CppDemo.Misc.HttpRequest.Headers

/-!
# Whole requests

`main` feeds the parser one byte at a time until it is in `Error` or in `Finish`. A message is a
head and a body, which has the length that the parser computes from the headers that it holds. From
the second header line on these are not the headers of the lines, and a number that does not fit in
`int` is no length either, so that this need not be the length that the lines announce. The loop
ends in `Finish` exactly if what it is given starts with a message, and has then read this message.
It ends in `Error` only if no message can start like that.

Source: `misc/fsmlite_test.cpp`, lines 127–149 and 182–220.

## Main definitions

* `parseLoop` : the loop of `main`.
* `bodyLength` : how many bytes the parser reads after a head.
* `Message`, `Message.parser` : a whole request, and the parser after it.

## Main results

* `describes_of_feed` : what the parser has read, in every state that it reaches.
* `parseLoop_eq_some_iff` : the loop finishes exactly with messages.
* `parseLoop_outcome` : the loop never stops without reason, and reports no error too early.
* `Message.bytes_append_inj` : a stream starts with one message at most.
-/

namespace CppDemo.Misc.HttpRequest

open Transition HttpRequestParser

/-! ### The loop of `main` -/

/-- How the loop ends. -/
structure Outcome where
  error : Bool
  machine : Machine
  /-- What the loop has not looked at. -/
  unread : Bytes
  deriving DecidableEq, Repr

/-- The loop over the bytes of a request; `none` if the table has no row for a byte. -/
def parseLoop (lib : HttpLibrary) : Machine → Bytes → Option Outcome
  | m, [] => some ⟨false, m, []⟩
  | m, c :: reqBuf =>
    match step lib m c with
    | none => none
    | some m =>
      if m.1 = .error then some ⟨true, m, reqBuf⟩
      else if m.1 = .finish then some ⟨false, m, reqBuf⟩
      else parseLoop lib m reqBuf

/-- The loop goes on. -/
def ParseState.open (s : ParseState) : Prop := s ≠ .error ∧ s ≠ .finish

section Loop

variable {lib : HttpLibrary} {m m' : Machine} {c : UInt8} {w : Bytes}

/-- There is a row for every byte. -/
theorem exists_step (lib : HttpLibrary) (hm : m.1.open) (c : UInt8) :
    ∃ m', step lib m c = some m' := by
  obtain ⟨state, self⟩ := m
  obtain ⟨herror, hfinish⟩ := hm
  cases state with
  | error => exact absurd rfl herror
  | finish => exact absurd rfl hfinish
  | start => rw [step_start]; split_ifs <;> exact ⟨_, rfl⟩
  | method => rw [step_method]; split_ifs <;> exact ⟨_, rfl⟩
  | uri => rw [step_uri]; split_ifs <;> exact ⟨_, rfl⟩
  | http => rw [step_http]; split_ifs <;> exact ⟨_, rfl⟩
  | major => rw [step_major]; split_ifs <;> exact ⟨_, rfl⟩
  | minor => rw [step_minor]; split_ifs <;> exact ⟨_, rfl⟩
  | expectingNewline1 => rw [step_expectingNewline1]; split_ifs <;> exact ⟨_, rfl⟩
  | headerLineStart => rw [step_headerLineStart]; split_ifs <;> exact ⟨_, rfl⟩
  | headerLine => rw [step_headerLine]; split_ifs <;> exact ⟨_, rfl⟩
  | expectingNewline2 => rw [step_expectingNewline2]; split_ifs <;> exact ⟨_, rfl⟩
  | expectingNewline3 => rw [step_expectingNewline3]; split_ifs <;> exact ⟨_, rfl⟩
  | expectingBody => rw [step_expectingBody]; split_ifs <;> exact ⟨_, rfl⟩

/-- Before a step the loop goes on. -/
theorem open_of_step (h : step lib m c = some m') : m.1.open := by
  obtain ⟨state, self⟩ := m
  refine ⟨?_, ?_⟩ <;> rintro rfl <;> simp at h

/-- The loop reads a part of what it is given, and stops before its end only in `Error` or
`Finish`. -/
theorem exists_parseLoop (lib : HttpLibrary) (hm : m.1.open) (w : Bytes) :
    ∃ o read, parseLoop lib m w = some o ∧ w = read ++ o.unread ∧
      feed lib m read = some o.machine ∧ (o.error = true ↔ o.machine.1 = .error) ∧
      (o.machine.1.open → o.unread = []) := by
  induction w generalizing m with
  | nil =>
    refine ⟨⟨false, m, []⟩, [], rfl, rfl, rfl, ?_, fun _ ↦ rfl⟩
    simpa using hm.1
  | cons c w ih =>
    obtain ⟨m', hs⟩ := exists_step lib hm c
    have hfeed : feed lib m [c] = some m' := (run_cons _).mpr ⟨m', hs, rfl⟩
    rw [parseLoop, hs]
    by_cases herror : m'.1 = .error
    · exact ⟨⟨true, m', w⟩, [c], if_pos herror, rfl, hfeed, by simp [herror],
        fun hopen ↦ absurd herror hopen.1⟩
    by_cases hfinish : m'.1 = .finish
    · exact ⟨⟨false, m', w⟩, [c], by simp [hfinish], rfl, hfeed, by simp [hfinish],
        fun hopen ↦ absurd hfinish hopen.2⟩
    obtain ⟨o, read, hloop, rfl, hread, hrest⟩ := ih ⟨herror, hfinish⟩
    refine ⟨o, c :: read, ?_, rfl, (run_cons _).mpr ⟨m', hs, hread⟩, hrest⟩
    simp only [if_neg herror, if_neg hfinish, hloop]

/-- The loop finishes as soon as the parser does. -/
theorem parseLoop_append (h : feed lib m w = some m') (hm : m.1.open) (hm' : m'.1 = .finish)
    (rest : Bytes) : parseLoop lib m (w ++ rest) = some ⟨false, m', rest⟩ := by
  induction w generalizing m with
  | nil =>
    obtain rfl := Option.some.inj h
    exact absurd hm' hm.2
  | cons c w ih =>
    obtain ⟨m₁, hs, h⟩ := (run_cons _).mp h
    rw [List.cons_append, parseLoop, hs]
    cases w with
    | nil =>
      obtain rfl := Option.some.inj h
      simp [hm']
    | cons d w =>
      obtain ⟨m₂, hs₂, -⟩ := (run_cons _).mp h
      have hopen := open_of_step hs₂
      simp only [if_neg hopen.1, if_neg hopen.2]
      exact ih h hopen

theorem open_init (lib : HttpLibrary) : (init lib).1.open := by
  constructor <;> simp [init]

end Loop

/-! ### Messages -/

section Messages

variable (lib : HttpLibrary)

/-- The parser after a head. -/
def Head.parser (h : Head) : HttpRequestParser := linesParser lib h.line h.headers

/-- How many bytes the parser takes for the body behind a head: what `atoi` makes of the content
length of the headers that it holds, if that is positive and the method is `POST`. -/
def bodyLength (h : Head) : Nat :=
  if (h.parser lib).isNeedBody lib newLine then ((h.parser lib).bodySize lib).toNatClampNeg else 0

/-- A whole request. -/
structure Message where
  head : Head
  body : Bytes
  body_length : body.length = bodyLength lib head

namespace Message

variable {lib} (m : Message lib)

def bytes : Bytes := m.head.bytes ++ m.body

/-- The request that the parser holds after a message. -/
def request : Request :=
  let request := (m.head.parser lib).request
  if bodyLength lib m.head = 0 then request
  else { request with body := some (m.body,
    (lib.get request.headerList (ascii "Content-Type")).getD (ascii "text/plain")) }

end Message

end Messages

section Describes

variable {lib : HttpLibrary} {h : Head} {self : HttpRequestParser} {c : UInt8}

theorem bodyLength_of_need (hneed : (h.parser lib).isNeedBody lib newLine = true) :
    bodyLength lib h = ((h.parser lib).bodySize lib).toNatClampNeg := if_pos hneed

theorem bodyLength_pos_iff :
    0 < bodyLength lib h ↔ (h.parser lib).isNeedBody lib newLine = true := by
  rw [bodyLength]
  split_ifs with hneed
  · exact iff_of_true ((isNeedBody_iff _).mp hneed).2 hneed
  · exact iff_of_false (Nat.lt_irrefl 0) hneed

/-- The parser after a message. -/
def Message.parser (m : Message lib) : HttpRequestParser :=
  if bodyLength lib m.head = 0 then m.head.parser lib
  else { m.head.parser lib with request := m.request, temp := [], buffer := .temp }

theorem Message.parser_request (m : Message lib) : m.parser.request = m.request := by
  unfold parser request
  split_ifs <;> rfl

/-- What the parser has read when it is in some state. -/
inductive Describes (lib : HttpLibrary) : Bytes → Machine → Prop
  | head {w : Bytes} {m : Machine} (hreads : Reads lib w m) : Describes lib w m
  | body (h : Head) (part : Bytes) (hlt : part.length < bodyLength lib h) :
      Describes lib (h.bytes ++ part) (.expectingBody, bodyParser (h.parser lib) part)
  | finish (m : Message lib) : Describes lib m.bytes (.finish, m.parser)
  | error (w : Bytes) (self : HttpRequestParser) : Describes lib w (.error, self)

/-- What the line feed at the end of a head leads to. -/
theorem describes_of_head (h : Head) {m' : Machine}
    (hs : step lib (.expectingNewline3, h.parser lib) newLine = some m') :
    Describes lib h.bytes m' := by
  rw [step_expectingNewline3] at hs
  split_ifs at hs with hneed hline
  · obtain rfl := Option.some.inj hs
    have hbody := Describes.body h [] (bodyLength_pos_iff.mpr hneed)
    rwa [List.append_nil] at hbody
  · obtain rfl := Option.some.inj hs
    have hzero : bodyLength lib h = 0 := if_neg hneed
    have hfinish := Describes.finish (⟨h, [], hzero.symm⟩ : Message lib)
    rw [Message.parser, if_pos hzero, Message.bytes, List.append_nil] at hfinish
    exact hfinish
  · exact absurd rfl hline

/-- What a byte of the body leads to. -/
theorem describes_of_body (h : Head) {part : Bytes} (hlt : part.length < bodyLength lib h)
    {m' : Machine}
    (hs : step lib (.expectingBody, bodyParser (h.parser lib) part) c = some m') :
    Describes lib (h.bytes ++ part ++ [c]) m' := by
  have hsize := bodyLength_of_need (bodyLength_pos_iff.mp (Nat.zero_lt_of_lt hlt))
  rcases Nat.lt_or_eq_of_le (Nat.succ_le_of_lt hlt) with hmore | hlast
  · rw [step_bodyByte (h.parser lib) c (hsize ▸ hmore)] at hs
    obtain rfl := Option.some.inj hs
    have hnext := Describes.body h (part ++ [c]) (by simpa using hmore)
    rwa [← List.append_assoc] at hnext
  · rw [step_lastByte (h.parser lib) c (hlast.trans hsize)] at hs
    obtain rfl := Option.some.inj hs
    have hlength : (part ++ [c]).length = bodyLength lib h := by
      rw [List.length_append, List.length_singleton]
      exact hlast
    have hfinish := Describes.finish (⟨h, part ++ [c], hlength⟩ : Message lib)
    rw [Message.parser, if_neg (by simp only; omega), Message.bytes, Message.request,
      if_neg (by simp only; omega), ← List.append_assoc] at hfinish
    exact hfinish

/-- What the parser has read, in every state that it reaches. -/
theorem describes_of_feed (hlib : lib.Documented) {w : Bytes} {m : Machine}
    (hw : feed lib (init lib) w = some m) : Describes lib w m := by
  induction w using List.reverseRecOn generalizing m with
  | nil =>
    obtain rfl := Option.some.inj hw
    exact .head .start
  | append_singleton w c ih =>
    obtain ⟨m₀, h₀, h⟩ := (run_append (step lib)).mp hw
    obtain ⟨m₁, hs, h⟩ := (run_cons (step lib)).mp h
    obtain rfl : m₁ = m := Option.some.inj h
    have hbefore := ih h₀
    cases hbefore with
    | head hreads =>
      rcases hreads.step hlib hs with herror | hreads | ⟨-, head, hbytes⟩
      · obtain ⟨state, self⟩ := m₁
        obtain rfl : state = .error := herror
        exact .error _ _
      · exact .head hreads
      · -- The head has been read up to its last byte, which is a line feed.
        have hsplit : linesBytes head.line head.headers ++ [carriageReturn] ++ [newLine] =
            w ++ [c] := by
          rw [← hbytes]
          simp [Head.bytes]
        obtain ⟨rfl, hc⟩ := List.append_inj' hsplit rfl
        obtain rfl : newLine = c := by simpa using hc
        have hend := feed_emptyLine hlib head.line head.headers
        obtain rfl := Option.some.inj (h₀.symm.trans hend)
        rw [← hbytes]
        exact describes_of_head head hs
    | body head part hlt => exact describes_of_body head hlt hs
    | finish m => simp at hs
    | error w self => simp at hs

/-- A parser that has finished has read a message. -/
theorem exists_message_of_feed (hlib : lib.Documented) {w : Bytes}
    (hw : feed lib (init lib) w = some (.finish, self)) :
    ∃ m : Message lib, w = m.bytes ∧ self = m.parser := by
  cases describes_of_feed hlib hw with
  | head hreads => exact absurd (.inl rfl) hreads.not_leftHead
  | finish m => exact ⟨m, rfl, rfl⟩

/-! ### Reading a message -/

/-- The parser reads every message, and finishes with its last byte. -/
theorem feed_message (hlib : lib.Documented) (m : Message lib) :
    feed lib (init lib) m.bytes = some (.finish, m.parser) := by
  obtain ⟨head, body, hlength⟩ := m
  have hend := feed_emptyLine hlib head.line head.headers
  have hline := step_expectingNewline3 lib (head.parser lib) newLine
  have hbytes : head.bytes =
      linesBytes head.line head.headers ++ [carriageReturn] ++ [newLine] := by
    simp [Head.bytes]
  by_cases hneed : (head.parser lib).isNeedBody lib newLine = true
  · rw [if_pos hneed] at hline
    have hpos := bodyLength_pos_iff.mpr hneed
    obtain rfl | ⟨part, c, rfl⟩ := body.eq_nil_or_concat'
    · rw [List.length_nil] at hlength
      omega
    rw [List.length_append, List.length_singleton, bodyLength_of_need hneed] at hlength
    have hpart := feed_body (head.parser lib) (Nat.lt_of_succ_le hlength.le)
    have hlast := step_lastByte (head.parser lib) c hlength
    have hhead := run_snoc (step lib) hend hline
    rw [← hbytes] at hhead
    have hfeed := run_snoc (step lib) ((run_append (step lib)).mpr ⟨_, hhead, hpart⟩) hlast
    rw [List.append_assoc] at hfeed
    rw [Message.parser, if_neg hpos.ne', Message.request, if_neg hpos.ne']
    exact hfeed
  · have hzero : bodyLength lib head = 0 := if_neg hneed
    rw [if_neg hneed, if_pos rfl] at hline
    obtain rfl : body = [] := List.length_eq_zero_iff.mp (hlength.trans hzero)
    rw [Message.parser, if_pos hzero, Message.bytes, List.append_nil, hbytes]
    exact run_snoc (step lib) hend hline

/-- The loop reads a message, and nothing behind it. -/
theorem parseLoop_bytes_append (hlib : lib.Documented) (m : Message lib) (rest : Bytes) :
    parseLoop lib (init lib) (m.bytes ++ rest) = some ⟨false, (.finish, m.parser), rest⟩ :=
  parseLoop_append (feed_message hlib m) (open_init lib) rfl rest

/-- The loop finishes exactly if it is given a message and more. It then holds the request of the
message and has read nothing of what follows. -/
theorem parseLoop_eq_some_iff (hlib : lib.Documented) (w rest : Bytes) (self : HttpRequestParser) :
    parseLoop lib (init lib) w = some ⟨false, (.finish, self), rest⟩ ↔
      ∃ m : Message lib, w = m.bytes ++ rest ∧ self = m.parser := by
  constructor
  · intro hloop
    obtain ⟨o, read, ho, rfl, hread, -⟩ := exists_parseLoop lib (open_init lib) w
    obtain rfl := Option.some.inj (hloop.symm.trans ho)
    obtain ⟨m, rfl, rfl⟩ := exists_message_of_feed hlib hread
    exact ⟨m, rfl, rfl⟩
  · rintro ⟨m, rfl, rfl⟩
    exact parseLoop_bytes_append hlib m rest

/-- The next request stays unread. -/
theorem parseLoop_eq_some_iff_get :
    let w := ascii "GET / HTTP/1.1\r\n\r\nGET"
    plainLibrary.Documented ∧ (parseLoop plainLibrary (init plainLibrary) w =
        some ⟨false, (.finish, linesParser plainLibrary getLine []), ascii "GET"⟩ ↔
      ∃ m : Message plainLibrary, w = m.bytes ++ ascii "GET" ∧
        linesParser plainLibrary getLine [] = m.parser) :=
  ⟨plainLibrary_documented, parseLoop_eq_some_iff plainLibrary_documented _ _ _⟩

/-- Two streams that start with messages start with the same one, and go on with the same bytes. -/
theorem Message.bytes_append_inj (hlib : lib.Documented) {m n : Message lib} {v w : Bytes}
    (h : m.bytes ++ v = n.bytes ++ w) : m.bytes = n.bytes ∧ m.request = n.request ∧ v = w := by
  have hm := parseLoop_bytes_append hlib m v
  have hn := parseLoop_bytes_append hlib n w
  rw [← h] at hn
  have heq := Option.some.inj (hm.symm.trans hn)
  obtain rfl : v = w := congrArg Outcome.unread heq
  have hparser : m.parser = n.parser := congrArg (fun o : Outcome ↦ o.machine.2) heq
  refine ⟨List.append_cancel_right h, ?_, rfl⟩
  rw [← m.parser_request, ← n.parser_request, hparser]

/-- A request for `/`. -/
def getMessage : Message plainLibrary := ⟨⟨getLine, []⟩, [], rfl⟩

theorem Message.bytes_append_inj_get :
    getMessage.bytes ++ [space] = getMessage.bytes ++ [space] ∧
      (getMessage.bytes = getMessage.bytes ∧ getMessage.request = getMessage.request ∧
        [space] = [space]) :=
  ⟨rfl, Message.bytes_append_inj plainLibrary_documented rfl⟩

/-- Before the parser has finished it has not read a message. -/
theorem not_bytes_prefix (hlib : lib.Documented) {read : Bytes} {m' : Machine}
    (hread : feed lib (init lib) read = some m') (hm' : m'.1 ≠ .finish) (m : Message lib) :
    ¬m.bytes <+: read := by
  rintro ⟨u, rfl⟩
  obtain ⟨m₁, h₁, h₂⟩ := (run_append (step lib)).mp hread
  obtain rfl := Option.some.inj (h₁.symm.trans (feed_message hlib m))
  cases u with
  | nil => exact hm' (Option.some.inj h₂ ▸ rfl)
  | cons c u =>
    obtain ⟨m₂, hs, -⟩ := (run_cons (step lib)).mp h₂
    simp at hs

/-- No message starts with what has led to an error. -/
theorem not_prefix_bytes (hlib : lib.Documented) {read : Bytes}
    (hread : feed lib (init lib) read = some (.error, self)) (m : Message lib) :
    ¬read <+: m.bytes := by
  rintro ⟨u, hu⟩
  have hfeed := feed_message hlib m
  rw [← hu] at hfeed
  obtain ⟨m₁, h₁, h₂⟩ := (run_append (step lib)).mp hfeed
  obtain rfl := Option.some.inj (h₁.symm.trans hread)
  cases u with
  | nil => cases h₂
  | cons c u =>
    obtain ⟨m₂, hs, -⟩ := (run_cons (step lib)).mp h₂
    simp at hs

/-- The loop always comes to one of three ends. In `Finish` it has read a message. In `Error` it has
read bytes that no message starts with, whatever may follow them. Otherwise it has read everything,
and does not start with a message. -/
theorem parseLoop_outcome (hlib : lib.Documented) (w : Bytes) :
    ∃ o read, parseLoop lib (init lib) w = some o ∧ w = read ++ o.unread ∧
      (o.error = false ∧ (∃ m : Message lib, read = m.bytes ∧ o.machine = (.finish, m.parser)) ∨
        o.error = true ∧ (∀ (m : Message lib) (v : Bytes), ¬m.bytes <+: read ++ v) ∨
        o.error = false ∧ o.unread = [] ∧ ∀ m : Message lib, ¬m.bytes <+: w) := by
  obtain ⟨o, read, ho, rfl, hread, herror, hopen⟩ := exists_parseLoop lib (open_init lib) w
  refine ⟨o, read, ho, rfl, ?_⟩
  obtain ⟨error, ⟨state, self⟩, unread⟩ := o
  simp only at herror hopen hread ⊢
  by_cases hfinish : state = .finish
  · subst hfinish
    obtain ⟨m, rfl, rfl⟩ := exists_message_of_feed hlib hread
    exact .inl ⟨by simpa using herror, m, rfl, rfl⟩
  by_cases hstate : state = .error
  · subst hstate
    refine .inr (.inl ⟨herror.mpr rfl, fun m v hprefix ↦ ?_⟩)
    rcases List.prefix_or_prefix_of_prefix hprefix (List.prefix_append read v) with h | h
    · exact not_bytes_prefix hlib hread (by simp) m h
    · exact not_prefix_bytes hlib hread m h
  · obtain rfl := hopen ⟨hstate, hfinish⟩
    refine .inr (.inr ⟨by simpa [hstate] using herror, rfl, fun m ↦ ?_⟩)
    rw [List.append_nil]
    exact not_bytes_prefix hlib hread hfinish m

/-- A method of the wrong name is not seen before its end. -/
theorem parseLoop_outcome_put :
    let w := ascii "PUT / HTTP/1.1\r\n\r\n"
    ∃ o read, parseLoop plainLibrary (init plainLibrary) w = some o ∧ w = read ++ o.unread ∧
      (o.error = false ∧ (∃ m : Message plainLibrary, read = m.bytes ∧
          o.machine = (.finish, m.parser)) ∨
        o.error = true ∧ (∀ (m : Message plainLibrary) (v : Bytes), ¬m.bytes <+: read ++ v) ∨
        o.error = false ∧ o.unread = [] ∧ ∀ m : Message plainLibrary, ¬m.bytes <+: w) :=
  parseLoop_outcome plainLibrary_documented _

end Describes

end CppDemo.Misc.HttpRequest
