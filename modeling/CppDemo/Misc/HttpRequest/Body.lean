import CppDemo.Misc.HttpRequest.Head
import Mathlib.Algebra.Group.Int.Defs

/-!
# The body of a request

At the line feed that ends the head, the parser goes on to read a body if the method is `POST` and
the content length is positive. It then reads as many bytes as the content length says, whatever
they are, and hands them to `setBody` with the last of them. The content length is computed again
for every byte; the header list that it is computed from does not change. It is an `int`, and the
length of the buffer is a word of 64 bits; both are as they should be as long as the buffer is
shorter than the body.

Source: `misc/fsmlite_test.cpp`, lines 57–59, 127–149 and 182–187.

## Main definitions

* `bodiesSet` : the bodies that the parser hands to `setBody` while it reads a word.
* `ReadsBody` : the parser reads every body of a length, and hands it to `setBody` once.

## Main results

* `needMoreBody_iff` : the comparison of the two words is the comparison of the numbers.
* `readsBody_of_feed` : after the head the parser reads a body of the content length, or none.
-/

namespace CppDemo.Misc.HttpRequest

open Transition HttpRequestParser

variable (lib : HttpLibrary)

/-- The bodies handed to `setBody` while a word is read. The only action that calls it is that of
the last row, from `Expecting_body` to `Finish`. -/
def bodiesSet : Machine → Bytes → List Bytes
  | _, [] => []
  | m, c :: w =>
    match step lib m c with
    | none => []
    | some m' =>
      if m.1 = .expectingBody ∧ m'.1 = .finish then
        (m'.2.request.body.map Prod.fst).toList ++ bodiesSet m' w
      else bodiesSet m' w

/-- From the end of the head the parser reads every body of `n` bytes: it stays in `Expecting_body`
up to the last byte, is in `Finish` after it, and hands the body to `setBody` once. -/
def ReadsBody (head : Bytes) (m : Machine) (n : Nat) : Prop :=
  ∀ body : Bytes, body.length = n →
    (∀ k < n, ∃ self, feed lib m (newLine :: body.take k) = some (.expectingBody, self)) ∧
      (∃ self, feed lib m (newLine :: body) = some (.finish, self) ∧
        self.request.body.map Prod.fst = some body) ∧
      bodiesSet lib (init lib) (head ++ newLine :: body) = [body]

/-- The parser reads no body. -/
def ReadsNoBody (head : Bytes) (m : Machine) : Prop :=
  feed lib m [newLine] = some (.finish, m.2) ∧
    bodiesSet lib (init lib) (head ++ [newLine]) = []

variable {lib}

theorem bodiesSet_cons {m m' : Machine} {c : UInt8} (h : step lib m c = some m') (w : Bytes) :
    bodiesSet lib m (c :: w) = if m.1 = .expectingBody ∧ m'.1 = .finish then
      (m'.2.request.body.map Prod.fst).toList ++ bodiesSet lib m' w else bodiesSet lib m' w := by
  rw [bodiesSet, h]

theorem bodiesSet_append {m m' : Machine} {v : Bytes} (h : feed lib m v = some m') (w : Bytes) :
    bodiesSet lib m (v ++ w) = bodiesSet lib m v ++ bodiesSet lib m' w := by
  induction v generalizing m with
  | nil =>
    obtain rfl : m = m' := Option.some.inj h
    rfl
  | cons c v ih =>
    obtain ⟨m₁, hs, h⟩ := (run_cons _).mp h
    rw [List.cons_append, bodiesSet_cons hs, bodiesSet_cons hs, ih h]
    split_ifs
    · rw [List.append_assoc]
    · rfl

/-- Nothing has been handed to `setBody` before `Finish`. -/
theorem bodiesSet_eq_nil {m m' : Machine} {w : Bytes} (h : feed lib m w = some m')
    (hne : m'.1 ≠ .finish) : bodiesSet lib m w = [] := by
  induction w generalizing m with
  | nil => rfl
  | cons c w ih =>
    obtain ⟨⟨state, self⟩, hs, h⟩ := (run_cons _).mp h
    rw [bodiesSet_cons hs, if_neg, ih h]
    -- A machine in `Finish` is stuck, so that the run would end there.
    rintro ⟨-, rfl⟩
    cases w with
    | nil => exact hne (Option.some.inj h ▸ rfl)
    | cons d w =>
      obtain ⟨m₂, hs, -⟩ := (run_cons _).mp h
      simp at hs

/-! ### Reading the body -/

section Read

variable (self : HttpRequestParser)

/-- An `int` that is not negative is the same number as a word of 64 bits. -/
theorem toNat_toUInt64_toInt64 {n : Int32} (hn : 0 < n.toNatClampNeg) :
    n.toInt64.toUInt64.toNat = n.toNatClampNeg := by
  have hpos : 0 < n.toInt := Int.pos_iff_toNat_pos.mpr hn
  have hle : 0 ≤ n.toInt64 := by
    rw [Int64.le_iff_toInt_le, Int32.toInt_toInt64]
    exact hpos.le
  rw [Int64.toNat_toUInt64_of_le hle]
  exact congrArg Int.toNat n.toInt_toInt64

/-- A content length that fits in `int` is the size of the body. -/
theorem bodySize_eq (hfits : FitsInt (self.contentLength lib)) :
    (self.bodySize lib).toNatClampNeg = (self.contentLength lib).toNat := by
  have hatoi : self.bodySize lib = Int32.ofInt (self.contentLength lib) := if_pos hfits
  rw [hatoi]
  exact congrArg Int.toNat (Int32.toInt_ofInt_of_le hfits.1 hfits.2)

theorem isNeedBody_iff : self.isNeedBody lib newLine = true ↔
    self.request.method = lib.post ∧ 0 < (self.bodySize lib).toNatClampNeg := by
  have hpos : 0 < self.bodySize lib ↔ 0 < (self.bodySize lib).toNatClampNeg :=
    Int32.lt_iff_toInt_lt.trans Int.pos_iff_toNat_pos
  simp only [isNeedBody, decide_true, Bool.true_and, Bool.and_eq_true, decide_eq_true_eq, gt_iff_lt,
    hpos]

/-- As long as the buffer is shorter than the body, the comparison of unsigned words is the
comparison of the numbers. -/
theorem needMoreBody_iff (hlt : self.text.length < (self.bodySize lib).toNatClampNeg) (c : UInt8) :
    self.needMoreBody lib c = true ↔
      self.text.length + 1 < (self.bodySize lib).toNatClampNeg := by
  have hmax : (self.bodySize lib).toNatClampNeg < 2 ^ 31 := Int32.toNatClampNeg_lt _
  rw [needMoreBody, decide_eq_true_eq, UInt64.lt_iff_toNat_lt,
    toNat_toUInt64_toInt64 (Nat.zero_lt_of_lt hlt), UInt64.toNat_ofNat',
    Nat.mod_eq_of_lt (by omega)]

/-- The parser that has read a part of the body. -/
def bodyParser (body : Bytes) : HttpRequestParser :=
  { self with temp := body, buffer := .temp }

/-- A byte that is not the last one of the body is appended. -/
theorem step_bodyByte {body : Bytes} (c : UInt8)
    (hlt : body.length + 1 < (self.bodySize lib).toNatClampNeg) :
    step lib (.expectingBody, bodyParser self body) c =
      some (.expectingBody, bodyParser self (body ++ [c])) := by
  have hmore : (bodyParser self body).needMoreBody lib c = true :=
    (needMoreBody_iff (bodyParser self body) (Nat.lt_of_succ_lt hlt) c).mpr hlt
  rw [step_expectingBody, if_pos hmore]
  rfl

/-- With the last byte the parser hands the body to `setBody`. -/
theorem step_lastByte {body : Bytes} (c : UInt8)
    (hlast : body.length + 1 = (self.bodySize lib).toNatClampNeg) :
    step lib (.expectingBody, bodyParser self body) c =
      some (.finish, (bodyParser self body).onBodyFinish lib c) := by
  have hlt : body.length < (self.bodySize lib).toNatClampNeg := by omega
  have hmore : ¬(bodyParser self body).needMoreBody lib c = true := fun h ↦
    absurd ((needMoreBody_iff (bodyParser self body) hlt c).mp h) hlast.not_lt
  rw [step_expectingBody, if_neg hmore]

/-- The parser reads all but the last byte of the body. -/
theorem feed_body {body : Bytes} (hlt : body.length < (self.bodySize lib).toNatClampNeg) :
    feed lib (.expectingBody, bodyParser self []) body =
      some (.expectingBody, bodyParser self body) := by
  induction body using List.reverseRecOn with
  | nil => rfl
  | append_singleton body c ih =>
    rw [List.length_append, List.length_singleton] at hlt
    exact run_snoc _ (ih (Nat.lt_of_succ_lt hlt)) (step_bodyByte self c hlt)

end Read

/-- After the head the parser reads a body of the content length if the method is `POST` and the
content length is positive, and none otherwise. It does not fail after the head. -/
theorem readsBody_of_feed {head : Bytes} {self : HttpRequestParser}
    (h : feed lib (init lib) head = some (.expectingNewline3, self))
    (hfits : FitsInt (self.contentLength lib)) :
    (self.request.method = lib.post ∧ 0 < self.contentLength lib →
        ReadsBody lib head (.expectingNewline3, self) (self.contentLength lib).toNat) ∧
      (¬(self.request.method = lib.post ∧ 0 < self.contentLength lib) →
        ReadsNoBody lib head (.expectingNewline3, self)) ∧
      ∀ w m, feed lib (.expectingNewline3, self) (newLine :: w) = some m → m.1 ≠ .error := by
  have hsize := bodySize_eq self hfits
  have hneed : self.isNeedBody lib newLine = true ↔
      self.request.method = lib.post ∧ 0 < self.contentLength lib := by
    rw [isNeedBody_iff, hsize, Int.pos_iff_toNat_pos]
  have hstep := step_expectingNewline3 lib self newLine
  refine ⟨fun hbody body hlen ↦ ?_, fun hbody ↦ ?_, fun w m hm ↦ ?_⟩
  · rw [if_pos (hneed.mpr hbody)] at hstep
    rw [← hsize] at hlen ⊢
    have hpart : ∀ part : Bytes, part.length < (self.bodySize lib).toNatClampNeg →
        feed lib (.expectingNewline3, self) (newLine :: part) =
          some (.expectingBody, bodyParser self part) := fun part hpart ↦
      (run_cons _).mpr ⟨_, hstep, feed_body self hpart⟩
    obtain rfl | ⟨part, c, rfl⟩ := body.eq_nil_or_concat'
    · rw [← hlen, List.length_nil] at hsize
      have hpos := hbody.2
      omega
    rw [List.length_append, List.length_singleton] at hlen
    have hlast := step_lastByte self c hlen
    have hfeed := hpart part (by omega)
    refine ⟨fun k hk ↦ ⟨_, hpart _ ?_⟩, ⟨_, run_snoc _ hfeed hlast, rfl⟩, ?_⟩
    · rw [List.length_take]
      omega
    · have hhead : feed lib (init lib) (head ++ newLine :: part) = some _ :=
        (run_append _).mpr ⟨_, h, hfeed⟩
      rw [← List.cons_append, ← List.append_assoc, bodiesSet_append hhead,
        bodiesSet_eq_nil hhead (by simp), bodiesSet_cons hlast, if_pos ⟨rfl, rfl⟩]
      rfl
  · rw [if_neg fun h ↦ hbody (hneed.mp h), if_pos rfl] at hstep
    have hfeed : feed lib (.expectingNewline3, self) [newLine] = some (.finish, self) :=
      (run_cons _).mpr ⟨_, hstep, rfl⟩
    refine ⟨hfeed, ?_⟩
    rw [bodiesSet_append h, bodiesSet_eq_nil h (by simp), bodiesSet_cons hstep]
    rfl
  · obtain ⟨m₁, hs, hm⟩ := (run_cons _).mp hm
    have hleft : m₁.1.leftHead := by
      rw [hstep] at hs
      split_ifs at hs
      · exact Option.some.inj hs ▸ Or.inr rfl
      · exact Option.some.inj hs ▸ Or.inl rfl
      · contradiction
    intro herror
    simpa [ParseState.leftHead, herror] using leftHead_of_feed hleft hm

/-- The parser after the head of a request with a body of two bytes. -/
def postParser : HttpRequestParser where
  request :=
    { plainLibrary.request with
      method := ascii "POST"
      uri := ascii "/"
      headerList := [⟨ascii "Content-Length", ascii "2"⟩] }
  temp := ascii "Content-Length:2"
  buffer := .temp

theorem readsBody_of_feed_post :
    let head := ascii "POST / HTTP/1.1\r\nContent-Length:2\r\n\r"
    feed plainLibrary (init plainLibrary) head = some (.expectingNewline3, postParser) ∧
      ReadsBody plainLibrary head (.expectingNewline3, postParser) 2 := by
  have hfeed : feed plainLibrary (init plainLibrary)
      (ascii "POST / HTTP/1.1\r\nContent-Length:2\r\n\r") =
        some (.expectingNewline3, postParser) := by decide
  exact ⟨hfeed, (readsBody_of_feed hfeed (by decide)).1 (by decide)⟩

end CppDemo.Misc.HttpRequest
