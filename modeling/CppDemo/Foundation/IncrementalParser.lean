import Mathlib.Data.List.Induction
import Mathlib.Tactic.Common

/-!
# Parsers that are fed in chunks

A message stands at the front of a stream, and its bytes come in chunks. A parser keeps a state from
one chunk to the next. It says of each chunk that the message goes on beyond it, that it ends in it
at some offset, or that there is no message.

What it should say is given by a judgement of the bytes that have come so far, in which chunks have
no place. A parser recognizes a judgement if it gives the same answers however the stream is cut.

## Main definitions

* `Verdict` : the judgement of the front of a stream, once there is one.
* `Undecided` : after none of these chunks there has been a judgement.
* `IncrementalParser`, `IncrementalParser.Recognizes` : parsers, and what they should do.
* `IncrementalParser.ofJudge` : the parser that keeps all bytes and judges them anew.

## Main results

* `IncrementalParser.ofJudge_recognizes` : it recognizes what it judges by.
-/

/-- The judgement of the front of a stream. -/
inductive Verdict
  /-- The message has this length. -/
  | good (length : Nat)
  | bad
  deriving DecidableEq, Repr

/-- After none of the chunks the front of the stream could be judged. -/
def Undecided {ε : Type*} (judge : List ε → Option Verdict) (chunks : List (List ε)) : Prop :=
  ∀ front, front <+: chunks → judge front.flatten = none

theorem undecided_nil {ε : Type*} {judge : List ε → Option Verdict} (hnil : judge [] = none) :
    Undecided judge [] := by
  intro front hfront
  obtain rfl := List.prefix_nil.mp hfront
  exact hnil

theorem Undecided.flatten {ε : Type*} {judge : List ε → Option Verdict} {chunks : List (List ε)}
    (h : Undecided judge chunks) : judge chunks.flatten = none :=
  h chunks List.prefix_rfl

/-- One more chunk leaves the stream undecided if it can not be judged with this chunk either. -/
theorem Undecided.snoc {ε : Type*} {judge : List ε → Option Verdict} {chunks : List (List ε)}
    {chunk : List ε} (h : Undecided judge chunks)
    (hchunk : judge (chunks.flatten ++ chunk) = none) : Undecided judge (chunks ++ [chunk]) := by
  intro front hfront
  rcases List.prefix_concat_iff.mp hfront with rfl | hbefore
  · rw [List.flatten_append, List.flatten_singleton]
    exact hchunk
  · exact h front hbefore

inductive ParseStatus
  | good
  | bad
  | indeterminate
  deriving DecidableEq, Repr

/-- A parser with states `σ` for streams of `ε`. -/
structure IncrementalParser (σ ε : Type*) where
  start : σ
  /-- The status after a chunk, the offset in it behind what has been parsed, and the state. -/
  parse : σ → List ε → ParseStatus × Nat × σ

namespace IncrementalParser

variable {σ ε : Type*}

/-- The state after chunks. -/
def after (P : IncrementalParser σ ε) (chunks : List (List ε)) : σ :=
  chunks.foldl (fun s chunk ↦ (P.parse s chunk).2.2) P.start

@[simp] theorem after_nil (P : IncrementalParser σ ε) : P.after [] = P.start := rfl

theorem after_snoc (P : IncrementalParser σ ε) (chunks : List (List ε)) (chunk : List ε) :
    P.after (chunks ++ [chunk]) = (P.parse (P.after chunks) chunk).2.2 := by
  rw [after, List.foldl_append]
  rfl

/-- Fed consecutive chunks, the parser says `indeterminate` until the front of the stream can be
judged, and then what the judgement is; the offset is that behind the message. -/
structure Recognizes (P : IncrementalParser σ ε) (judge : List ε → Option Verdict) : Prop where
  nil : judge [] = none
  indeterminate : ∀ chunks chunk, judge chunks.flatten = none →
    judge (chunks.flatten ++ chunk) = none →
      (P.parse (P.after chunks) chunk).1 = .indeterminate
  good : ∀ chunks chunk n, judge chunks.flatten = none →
    judge (chunks.flatten ++ chunk) = some (.good n) →
      (P.parse (P.after chunks) chunk).1 = .good ∧
        chunks.flatten.length + (P.parse (P.after chunks) chunk).2.1 = n
  bad : ∀ chunks chunk, judge chunks.flatten = none →
    judge (chunks.flatten ++ chunk) = some .bad → (P.parse (P.after chunks) chunk).1 = .bad

/-- The parser that keeps all bytes and judges them anew with each chunk. -/
def ofJudge (judge : List ε → Option Verdict) : IncrementalParser (List ε) ε where
  start := []
  parse seen chunk :=
    match judge (seen ++ chunk) with
    | none => (.indeterminate, chunk.length, seen ++ chunk)
    | some (.good n) => (.good, n - seen.length, seen ++ chunk)
    | some .bad => (.bad, chunk.length, seen ++ chunk)

section OfJudge

variable {judge : List ε → Option Verdict}

theorem parse_ofJudge_state (seen chunk : List ε) :
    ((ofJudge judge).parse seen chunk).2.2 = seen ++ chunk := by
  simp only [ofJudge]
  split <;> rfl

theorem after_ofJudge (chunks : List (List ε)) : (ofJudge judge).after chunks = chunks.flatten := by
  induction chunks using List.reverseRecOn with
  | nil => rfl
  | append_singleton chunks chunk ih =>
    rw [after_snoc, parse_ofJudge_state, ih, List.flatten_append, List.flatten_singleton]

/-- The parser recognizes what it judges by, if the end of a message is not behind bytes that could
not be judged. -/
theorem ofJudge_recognizes (hnil : judge [] = none)
    (hgood : ∀ seen chunk n, judge seen = none → judge (seen ++ chunk) = some (.good n) →
      seen.length ≤ n) : (ofJudge judge).Recognizes judge where
  nil := hnil
  indeterminate chunks chunk _ h := by
    rw [after_ofJudge]
    simp only [ofJudge, h]
  good chunks chunk n hseen h := by
    have hle := hgood _ _ _ hseen h
    rw [after_ofJudge]
    simp only [ofJudge, h, true_and]
    omega
  bad chunks chunk _ h := by
    rw [after_ofJudge]
    simp only [ofJudge, h]

end OfJudge

end IncrementalParser
