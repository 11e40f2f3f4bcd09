import CppDemo.Misc.HttpRequest.Head

/-!
# The method and the uri of a request

All states of the parser append through `buffer_`. It points to the method up to the first space, to
the uri up to the second one and to `temp_` from then on, so that no header line and no body can
change the method or the uri.

Source: `misc/fsmlite_test.cpp`, lines 40–77, 82–149 and 154–187.

## Main definitions

* `methodOf`, `uriOf` : the bytes before the first space, and those between the first two spaces.
* `HoldsTarget` : where `buffer_` points in each state, and what it has been given so far.

## Main results

* `target_of_step` : a step after the uri changes neither the method nor the uri.
* `target_of_feed` : after the uri the request has the method and the uri of the bytes read.
-/

namespace CppDemo.Misc.HttpRequest

open Transition HttpRequestParser

/-- The bytes before the first space. -/
def methodOf (w : Bytes) : Bytes := w.takeWhile (· ≠ space)

/-- The bytes between the first and the second space. -/
def uriOf (w : Bytes) : Bytes := (w.dropWhile (· ≠ space)).tail.takeWhile (· ≠ space)

/-- The states that come after `Uri`, other than `Error`. -/
def ParseState.afterUri : ParseState → Bool
  | .error | .start | .method | .uri => false
  | _ => true

namespace Target

variable (t : Target)

/-- Neither a method nor a uri has a space in it. -/
theorem ne_space : (∀ c ∈ t.method, decide (c ≠ space) = true) ∧
    ∀ c ∈ t.uri, decide (c ≠ space) = true := by
  constructor
  · rcases t.method_valid with h | h <;> rw [h] <;> exact List.all_eq_true.mp rfl
  · intro c hc
    have huri := t.uri_valid c hc
    rw [decide_eq_true_eq]
    rintro rfl
    simp [isUriChar, isalpha, isnumber, isdigit, ispunct, space] at huri

/-- The method and the uri are read off the bytes. -/
theorem parts (rest : Bytes) : methodOf (t.bytes ++ space :: rest) = t.method ∧
    uriOf (t.bytes ++ space :: rest) = t.uri := by
  obtain ⟨hmethod, huri⟩ := t.ne_space
  rw [bytes, List.append_assoc, List.cons_append]
  constructor
  · rw [methodOf, List.takeWhile_append_of_pos hmethod, List.takeWhile_cons_of_neg (by simp),
      List.append_nil]
  · rw [uriOf, List.dropWhile_append_of_pos hmethod, List.dropWhile_cons_of_neg (by simp),
      List.tail_cons, List.takeWhile_append_of_pos huri, List.takeWhile_cons_of_neg (by simp),
      List.append_nil]

end Target

/-- The request has the method and the uri of `t`. -/
def HttpRequestParser.HasTarget (self : HttpRequestParser) (t : Target) : Prop :=
  self.request.method = t.method ∧ self.request.uri = t.uri

/-- What the parser holds in each state when it has read `w`. -/
def HoldsTarget (w : Bytes) (m : Machine) : Prop :=
  match m.1 with
  | .error => True
  | .start => m.2.buffer = .method ∧ w = [] ∧ m.2.request.method = [] ∧ m.2.request.uri = []
  | .method => m.2.buffer = .method ∧ m.2.request.method = w ∧ m.2.request.uri = []
  | .uri => m.2.buffer = .uri ∧ ∃ t : Target, w = t.bytes ∧ m.2.HasTarget t
  | _ => m.2.buffer = .temp ∧ ∃ (t : Target) (rest : Bytes),
      w = t.bytes ++ space :: rest ∧ m.2.HasTarget t

section Step

variable {lib : HttpLibrary} {w : Bytes} {c : UInt8} {m m' : Machine}

theorem holdsTarget_of_afterUri (h : m.1.afterUri = true) : HoldsTarget w m ↔
    m.2.buffer = .temp ∧ ∃ (t : Target) (rest : Bytes),
      w = t.bytes ++ space :: rest ∧ m.2.HasTarget t := by
  obtain ⟨state, self⟩ := m
  cases state <;> first | rfl | exact Bool.noConfusion (show false = true from h)

theorem setText_temp {self : HttpRequestParser} (h : self.buffer = .temp) (text : Bytes) :
    self.setText text = { self with temp := text } := by
  obtain ⟨request, temp, buffer⟩ := self
  obtain rfl : buffer = .temp := h
  rfl

/-- After the uri no step moves the pointer away from `temp_`, and none changes the method or the
uri. -/
theorem target_of_step (h : step lib m c = some m') (hm : m.1.afterUri = true)
    (hbuffer : m.2.buffer = .temp) : (m'.1.afterUri = true ∨ m'.1 = .error) ∧
      m'.2.buffer = .temp ∧ m'.2.request.method = m.2.request.method ∧
        m'.2.request.uri = m.2.request.uri := by
  have hrows : ∀ row ∈ transitionTable lib, row.source.afterUri = true →
      (row.target.afterUri = true ∨ row.target = .error) ∧ ∀ self c, self.buffer = .temp →
        (row.action self c).buffer = .temp ∧
          (row.action self c).request.method = self.request.method ∧
            (row.action self c).request.uri = self.request.uri := by
    simp +contextual [transitionTable, ParseState.afterUri, appendToBuffer, errorAction, noAction,
      onHttpFinish, onMajorFinish, onMinorFinish, onHeaderLineStart, onBodyStart, onBodyFinish,
      clearTemp, onHeaderLineFinish_eq, setText_temp]
  obtain ⟨row, hrow, hsource, rfl⟩ := GuardedTable.exists_row_of_fire h
  obtain ⟨htarget, haction⟩ := hrows row hrow (hsource ▸ hm)
  exact ⟨htarget, haction m.2 c hbuffer⟩

/-- Every step keeps what the parser holds. -/
theorem HoldsTarget.step (hw : HoldsTarget w m) (h : HttpRequest.step lib m c = some m') :
    HoldsTarget (w ++ [c]) m' := by
  obtain ⟨state, self⟩ := m
  by_cases hm : state.afterUri = true
  · obtain ⟨hbuffer, t, rest, rfl, hself⟩ := (holdsTarget_of_afterUri hm).mp hw
    obtain ⟨htarget, hbuffer', hmethod, huri⟩ := target_of_step h hm hbuffer
    rcases htarget with htarget | herror
    · refine (holdsTarget_of_afterUri htarget).mpr ⟨hbuffer', t, rest ++ [c], by simp, ?_⟩
      exact ⟨hmethod.trans hself.1, huri.trans hself.2⟩
    · simp [HoldsTarget, herror]
  cases state with
  | error => simp at h
  | start =>
    obtain ⟨hbuffer, rfl, hmethod, huri⟩ := hw
    rw [step_start] at h
    split_ifs at h
    all_goals obtain rfl := Option.some.inj h
    · simp_all [HoldsTarget, appendToBuffer, setText, text]
    · trivial
  | method =>
    obtain ⟨hbuffer, hmethod, huri⟩ := hw
    rw [step_method] at h
    split_ifs at h with _ hvalid
    all_goals obtain rfl := Option.some.inj h
    · simp_all [HoldsTarget, appendToBuffer, setText, text]
    · simp only [isValidMethod, Bool.and_eq_true, Bool.or_eq_true, decide_eq_true_eq] at hvalid
      obtain ⟨rfl, hvalid⟩ := hvalid
      exact ⟨rfl, ⟨self.request.method, [], hvalid.imp Eq.symm Eq.symm, by simp⟩,
        by rw [Target.bytes, ← hmethod], rfl, huri⟩
    · trivial
  | uri =>
    obtain ⟨hbuffer, t, rfl, hmethod, huri⟩ := hw
    rw [step_uri] at h
    split_ifs at h with hc hspace
    all_goals obtain rfl := Option.some.inj h
    · have hvalid : ∀ d ∈ t.uri ++ [c], isUriChar d = true := by
        simpa [or_imp, forall_and] using ⟨t.uri_valid, hc⟩
      refine ⟨?_, ⟨t.method, t.uri ++ [c], t.method_valid, hvalid⟩, by simp [Target.bytes], ?_⟩
      all_goals simp_all [appendToBuffer, setText, text, HasTarget]
    · subst hspace
      exact ⟨rfl, t, [], rfl, hmethod, huri⟩
    · trivial
  | _ => exact absurd rfl hm

theorem holdsTarget_of_feed (hmethod : lib.request.method = []) (huri : lib.request.uri = [])
    (h : feed lib (init lib) w = some m) : HoldsTarget w m :=
  run_history (fun _ _ _ _ hholds hstep ↦ hholds.step hstep) h ⟨rfl, rfl, hmethod, huri⟩

/-- Nothing that is read after the uri changes the method or the uri. -/
theorem target_of_feed_afterUri {v : Bytes} (h : feed lib m v = some m')
    (hm : m.1.afterUri = true) (hbuffer : m.2.buffer = .temp) :
    m'.2.request.method = m.2.request.method ∧ m'.2.request.uri = m.2.request.uri := by
  induction v generalizing m with
  | nil =>
    obtain rfl := Option.some.inj h
    exact ⟨rfl, rfl⟩
  | cons c v ih =>
    obtain ⟨m₁, hc, hv⟩ := (run_cons _).mp h
    obtain ⟨htarget, hbuffer₁, hmethod, huri⟩ := target_of_step hc hm hbuffer
    rcases htarget with htarget | herror
    · obtain ⟨hmethod', huri'⟩ := ih hv htarget hbuffer₁
      exact ⟨hmethod'.trans hmethod, huri'.trans huri⟩
    · -- A machine in `Error` is stuck, so that the run ends there.
      obtain ⟨state, self⟩ := m₁
      obtain rfl : state = .error := herror
      cases v with
      | nil =>
        obtain rfl := Option.some.inj hv
        exact ⟨hmethod, huri⟩
      | cons d v =>
        obtain ⟨m₂, hd, -⟩ := (run_cons _).mp hv
        simp at hd

end Step

/-- In every state after the uri the method is what stands before the first space, `GET` or `POST`,
and the uri what stands between the first two spaces, whatever is read later. -/
theorem target_of_feed {lib : HttpLibrary} (hmethod : lib.request.method = [])
    (huri : lib.request.uri = []) {w : Bytes} {m : Machine}
    (h : feed lib (init lib) w = some m) (hm : m.1.afterUri = true) :
    (m.2.request.method = methodOf w ∧ m.2.request.uri = uriOf w) ∧
      (m.2.request.method = ascii "GET" ∨ m.2.request.method = ascii "POST") ∧
      (∃ rest, w = methodOf w ++ space :: uriOf w ++ space :: rest) ∧
      ∀ v m', feed lib m v = some m' →
        m'.2.request.method = m.2.request.method ∧ m'.2.request.uri = m.2.request.uri := by
  obtain ⟨hbuffer, t, rest, rfl, hself⟩ :=
    (holdsTarget_of_afterUri hm).mp (holdsTarget_of_feed hmethod huri h)
  obtain ⟨hmethodOf, huriOf⟩ := t.parts rest
  rw [hmethodOf, huriOf]
  refine ⟨hself, ?_, ⟨rest, rfl⟩, fun v m' hv ↦ target_of_feed_afterUri hv hm hbuffer⟩
  rw [hself.1]
  exact t.method_valid

theorem target_of_feed_get :
    let w := ascii "GET /a HTTP/1.1\r\nB: c d\r\n"
    ∃ m, feed plainLibrary (init plainLibrary) w = some m ∧
      (m.2.request.method = methodOf w ∧ m.2.request.uri = uriOf w) ∧
      (m.2.request.method = ascii "GET" ∨ m.2.request.method = ascii "POST") ∧
      (∃ rest, w = methodOf w ++ space :: uriOf w ++ space :: rest) ∧
      ∀ v m', feed plainLibrary m v = some m' →
        m'.2.request.method = m.2.request.method ∧ m'.2.request.uri = m.2.request.uri :=
  have hmethod : plainLibrary.request.method = [] := rfl
  ⟨_, rfl, target_of_feed hmethod rfl rfl rfl⟩

end CppDemo.Misc.HttpRequest
