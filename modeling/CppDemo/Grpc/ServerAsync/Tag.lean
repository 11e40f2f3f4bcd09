import Mathlib.Data.Nat.Bitwise
import Mathlib.Tactic.Common

/-!
# Event tags of the asynchronous server

The server passes to gRPC, with each operation, a pointer-sized tag made of the id of the session
and of the kind of event, and takes both out of the tag when the operation completes. The id is
shifted left by two bits, so that ids below `2 ^ 62` survive the round trip and larger ones lose
their top bits.

Source: `grpcdemo/server_async.cc`, lines 20–39.

## Main definitions

* `SessionEvent` : the four events, with the words that stand for them.
* `tagify`, `detagify` : packing and unpacking a tag.

## Main results

* `detagify_tagify` : the round trip, for ids below `2 ^ 62`.
* `tagify_bijective` : every word is the tag of exactly one such id and one event.
-/

namespace CppDemo.Grpc.ServerAsync

/-- The kind of an event of a session. -/
inductive SessionEvent
  | connected
  | readDone
  | writeDone
  | finished
  deriving DecidableEq, Repr

namespace SessionEvent

/-- The value of the enumerator. -/
def toWord : SessionEvent → UInt64
  | connected => 0
  | readDone => 1
  | writeDone => 2
  | finished => 3

/-- The enumerator with a given value; a word above three is the value of none. -/
def ofWord? (word : UInt64) : Option SessionEvent :=
  [connected, readDone, writeDone, finished].find? fun event ↦ event.toWord = word

@[simp] theorem ofWord?_toWord (event : SessionEvent) : ofWord? event.toWord = some event := by
  cases event <;> decide

theorem toWord_injective : Function.Injective toWord := by
  intro a b h
  have := congrArg ofWord? h
  simpa only [ofWord?_toWord, Option.some.injEq] using this

@[simp] theorem toWord_inj {a b : SessionEvent} : a.toWord = b.toWord ↔ a = b :=
  toWord_injective.eq_iff

theorem toNat_toWord_lt (event : SessionEvent) : event.toWord.toNat < 4 := by
  cases event <;> decide

/-- Two bits are the value of an enumerator. -/
theorem exists_toWord_eq {word : UInt64} (h : word.toNat < 4) : ∃ event, toWord event = word := by
  obtain hword | hword | hword | hword : word.toNat = 0 ∨ word.toNat = 1 ∨ word.toNat = 2 ∨
      word.toNat = 3 := by omega
  · exact ⟨connected, UInt64.toNat_inj.mp hword.symm⟩
  · exact ⟨readDone, UInt64.toNat_inj.mp hword.symm⟩
  · exact ⟨writeDone, UInt64.toNat_inj.mp hword.symm⟩
  · exact ⟨finished, UInt64.toNat_inj.mp hword.symm⟩

end SessionEvent

/-- The number of low bits of a tag that hold the event. -/
def sessionEventBitLength : UInt64 := 2

/-- The mask of these bits. -/
def sessionEventMask : UInt64 := (1 <<< sessionEventBitLength) - 1

/-- The tag of an event of a session. -/
def tagify (sessionId : UInt64) (event : SessionEvent) : UInt64 :=
  sessionId <<< sessionEventBitLength ||| event.toWord

/-- The session id and the event word of a tag. -/
def detagify (tag : UInt64) : UInt64 × UInt64 :=
  (tag >>> sessionEventBitLength, tag &&& sessionEventMask)

theorem toNat_tagify (sessionId : UInt64) (event : SessionEvent) :
    (tagify sessionId event).toNat = (4 * sessionId.toNat) % 2 ^ 64 + event.toWord.toNat := by
  have hevent := event.toNat_toWord_lt
  have hmod : (4 * sessionId.toNat) % 2 ^ 64 = (sessionId.toNat % 2 ^ 62) <<< 2 := by
    rw [Nat.shiftLeft_eq]; omega
  have hshift : (sessionId <<< sessionEventBitLength).toNat = (4 * sessionId.toNat) % 2 ^ 64 := by
    rw [UInt64.toNat_shiftLeft, Nat.shiftLeft_eq]
    change sessionId.toNat * 4 % 2 ^ 64 = _
    rw [Nat.mul_comm]
  rw [tagify, UInt64.toNat_or, hshift, hmod]
  exact (Nat.shiftLeft_add_eq_or_of_lt (i := 2) (by simpa using hevent) _).symm

theorem toNat_detagify_fst (tag : UInt64) : (detagify tag).1.toNat = tag.toNat / 4 := by
  rw [detagify, UInt64.toNat_shiftRight, Nat.shiftRight_eq_div_pow]
  rfl

theorem toNat_detagify_snd (tag : UInt64) : (detagify tag).2.toNat = tag.toNat % 4 := by
  rw [detagify, UInt64.toNat_and]
  exact Nat.and_two_pow_sub_one_eq_mod tag.toNat 2

/-- A tag gives back the session id and the event it was made of, for ids below `2 ^ 62`. -/
theorem detagify_tagify {sessionId : UInt64} (h : sessionId.toNat < 2 ^ 62)
    (event : SessionEvent) : detagify (tagify sessionId event) = (sessionId, event.toWord) := by
  have htag := toNat_tagify sessionId event
  have hevent := event.toNat_toWord_lt
  refine Prod.ext (UInt64.toNat_inj.mp ?_) (UInt64.toNat_inj.mp ?_)
  · rw [toNat_detagify_fst, htag]
    change _ = sessionId.toNat
    omega
  · rw [toNat_detagify_snd, htag]
    change _ = event.toWord.toNat
    omega

/-- The ids of which a tag keeps all bits. -/
abbrev ShortId := {sessionId : UInt64 // sessionId.toNat < 2 ^ 62}

/-- Every word is the tag of the id and the event that are taken out of it. -/
theorem exists_detagify_eq (tag : UInt64) : ∃ (sessionId : ShortId) (event : SessionEvent),
    detagify tag = (sessionId.1, event.toWord) ∧ tagify sessionId.1 event = tag := by
  have hfst := toNat_detagify_fst tag
  have hsnd := toNat_detagify_snd tag
  have htag := tag.toNat_lt
  have hlt : (detagify tag).2.toNat < 4 := by omega
  obtain ⟨event, hevent⟩ := SessionEvent.exists_toWord_eq hlt
  refine ⟨⟨(detagify tag).1, by omega⟩, event, Prod.ext rfl hevent.symm, UInt64.toNat_inj.mp ?_⟩
  rw [toNat_tagify, hevent, hfst, hsnd]
  omega

/-- Short ids and events stand for the words, one for one, by `tagify`, and `detagify` leads
back. -/
theorem tagify_bijective :
    (∀ (sessionId : ShortId) (event : SessionEvent),
      detagify (tagify sessionId.1 event) = (sessionId.1, event.toWord)) ∧
      (∀ tag : UInt64, ∃ (sessionId : ShortId) (event : SessionEvent),
        detagify tag = (sessionId.1, event.toWord) ∧ tagify sessionId.1 event = tag) ∧
      Function.Bijective fun p : ShortId × SessionEvent ↦ tagify p.1.1 p.2 := by
  refine ⟨fun sessionId event ↦ detagify_tagify sessionId.2 event, exists_detagify_eq, ?_, ?_⟩
  · rintro ⟨sessionId, event⟩ ⟨sessionId', event'⟩ h
    -- equal tags are taken apart alike
    have hpair := congrArg detagify h
    rw [detagify_tagify sessionId.2, detagify_tagify sessionId'.2, Prod.mk.injEq,
      SessionEvent.toWord_inj] at hpair
    exact Prod.ext (Subtype.ext hpair.1) hpair.2
  · intro tag
    obtain ⟨sessionId, event, -, htag⟩ := exists_detagify_eq tag
    exact ⟨(sessionId, event), htag⟩

end CppDemo.Grpc.ServerAsync
