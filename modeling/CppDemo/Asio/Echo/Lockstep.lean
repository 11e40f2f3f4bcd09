import CppDemo.Asio.Echo.Connection
import CppDemo.Foundation.Transition
import Mathlib.Data.List.Induction

/-!
# The echo client and the echo server

The client reads the greeting and then, for every line of its input, writes the line, reads once
into a buffer of 128 bytes and prints what it has read. The server reads into a buffer of 1024 bytes
and answers. A reply is longer than its line by 33 bytes. The rest of a reply that does not fit into
the buffer of the client stays in the connection and is printed after a later line. The two ends
stay in lockstep exactly if no line has more than 95 bytes.

Source: `asio/allocation/client.cpp`, lines 48–117, and `asio/allocation/allocation.cpp`, lines
115–149.

## Main definitions

* `State`, `Action`, `step` : the two ends and the bytes between them.
* `InLockstep` : what the client has printed are the replies to its lines.

## Main results

* `inLockstep_iff` : every run is in lockstep exactly if no line has more than 95 bytes.
-/

namespace CppDemo.Asio.Echo

open ByteStream Transition

/-! ### The two ends -/

/-- Where the client is. -/
inductive ClientPc
  /-- About to read the greeting. -/
  | connect
  | talkToServer
  | readFromServer
  | quit
  deriving DecidableEq, Repr

/-- What the server waits for. -/
inductive ServerPc
  /-- The write of these bytes. -/
  | written (bytes : Bytes)
  | read
  | closed
  deriving DecidableEq, Repr

/-- The two ends and the bytes between them. -/
structure State where
  client : ClientPc
  /-- The lines that the client has not read yet. -/
  input : List Bytes
  /-- The text that the client prints after `connected: `. -/
  connected : Option Bytes
  /-- The texts that the client prints after `server: `, in order. -/
  printed : List Bytes
  server : ServerPc
  connection : Connection
  /-- How often `make_daytime_string` has been called. -/
  calls : Nat
  toServer : Bytes
  toClient : Bytes

/-- The size of the buffer in `readFromServer`. -/
def bufSize : Nat := 128

section Model

/- The results of `make_daytime_string`. -/
variable (daytime : Nat → Bytes)

/-- The server has accepted the client and called `start`. -/
def init (connection : Connection) (lines : List Bytes) : State where
  client := .connect
  input := lines
  connected := none
  printed := []
  server := .written (connection.doWrite 0 (daytime 0)).2
  connection := (connection.doWrite 0 (daytime 0)).1
  calls := 1
  toServer := []
  toClient := []

/-- The next line is written; an empty line or the end of the input ends the client. -/
def State.talkToServer (s : State) : State :=
  match s.input with
  | [] => { s with client := .quit }
  | line :: rest =>
    if line = [] then { s with client := .quit, input := rest }
    else { s with client := .readFromServer, input := rest, toServer := s.toServer ++ line }

/-- The client prints what it has read. -/
def State.print (s : State) (msg : Bytes) : State :=
  if s.client = .connect then { s with client := .talkToServer, connected := some msg }
  else { s with client := .talkToServer, printed := s.printed ++ [msg] }

/-- The handler of the server's read. -/
def State.doWrite (s : State) (bytes : Bytes) : State :=
  let (connection, response) :=
    (s.connection.doRead bytes).doWrite bytes.length (daytime s.calls)
  { s with connection, server := .written response, calls := s.calls + 1 }

inductive Action
  | talkToServer
  | readFromServer
  /-- The write of the server is complete. -/
  | written
  /-- The read of the server is complete. -/
  | doRead
  deriving DecidableEq

/-- The step for an action. A read of an end that the other end has closed tells so when nothing is
left to read. -/
def step (s : State) : Action → Option State
  | .talkToServer => if s.client = .talkToServer then some s.talkToServer else none
  | .readFromServer =>
    if s.client = .connect ∨ s.client = .readFromServer then
      match readSome bufSize s.toClient with
      | some (msg, rest) => some { s.print msg with toClient := rest }
      | none => if s.server = .closed then some { s with client := .quit } else none
    else none
  | .written =>
    match s.server with
    | .written bytes => some { s with server := .read, toClient := s.toClient ++ bytes }
    | _ => none
  | .doRead =>
    if s.server = .read then
      match readSome dataSize s.toServer with
      | some (bytes, rest) => some { s.doWrite daytime bytes with toServer := rest }
      | none => if s.client = .quit then some { s with server := .closed } else none
    else none

/-- The replies to lines, in order; the greeting has the first daytime. -/
def replies (lines : List Bytes) : List Bytes :=
  lines.mapIdx fun k line ↦ reply line (daytime (k + 1))

/-- What the client has printed are the replies to its lines, one after each line, and it is one for
every line when no step is left. -/
structure InLockstep (lines : List Bytes) (s : State) : Prop where
  printed : s.printed <+: replies daytime lines
  complete : (∀ a, step daytime s a = none) → s.printed = replies daytime lines

end Model

theorem replies_append (daytime : Nat → Bytes) (done : List Bytes) (line : Bytes) :
    replies daytime (done ++ [line]) =
      replies daytime done ++ [reply line (daytime (done.length + 1))] := by
  simp [replies, List.mapIdx_append]

theorem replies_prefix (daytime : Nat → Bytes) (done rest : List Bytes) :
    replies daytime done <+: replies daytime (done ++ rest) := by
  rw [replies, replies, List.mapIdx_append]
  exact List.prefix_append _ _

/-! ### The states of a run in lockstep -/

section States

variable (daytime : Nat → Bytes) (connection : Connection) (done rest : List Bytes) (line : Bytes)

/-- The greeting of the server. -/
def greeting : Bytes := reply [] (daytime 0)

def greetingState : State :=
  ⟨.connect, rest, none, [], .written (greeting daytime), connection, 1, [], []⟩

def greetedState : State :=
  ⟨.connect, rest, none, [], .read, connection, 1, [], greeting daytime⟩

/-- Between two lines. -/
def idleState : State :=
  ⟨.talkToServer, rest, some (greeting daytime), replies daytime done, .read, connection,
    done.length + 1, [], []⟩

def askedState : State :=
  ⟨.readFromServer, rest, some (greeting daytime), replies daytime done, .read, connection,
    done.length + 1, line, []⟩

def answeringState : State :=
  ⟨.readFromServer, rest, some (greeting daytime), replies daytime done,
    .written (reply line (daytime (done.length + 1))), connection, done.length + 2, [], []⟩

def answeredState : State :=
  ⟨.readFromServer, rest, some (greeting daytime), replies daytime done, .read, connection,
    done.length + 2, [], reply line (daytime (done.length + 1))⟩

def quitState : State :=
  ⟨.quit, [], some (greeting daytime), replies daytime done, .read, connection, done.length + 1, [],
    []⟩

def closedState : State :=
  ⟨.quit, [], some (greeting daytime), replies daytime done, .closed, connection, done.length + 1,
    [], []⟩

end States

section Steps

variable {daytime : Nat → Bytes} {connection : Connection} {done rest : List Bytes} {line : Bytes}

theorem init_eq (hdaytime : ∀ n, (daytime n).length = 25) (connection : Connection)
    (lines : List Bytes) : init daytime connection lines =
      greetingState daytime (connection.doWrite 0 (daytime 0)).1 lines := by
  have hgreeting : (connection.doWrite 0 (daytime 0)).2 = greeting daytime :=
    connection.doWrite_snd (by simp [length_reply, hdaytime, dataSize])
  simp only [init, greetingState, hgreeting]

theorem step_greetingState : step daytime (greetingState daytime connection rest) .written =
    some (greetedState daytime connection rest) := rfl

theorem step_readFromServer {s : State} {msg left : Bytes}
    (hclient : s.client = .connect ∨ s.client = .readFromServer)
    (hread : readSome bufSize s.toClient = some (msg, left)) :
    step daytime s .readFromServer = some { s.print msg with toClient := left } := by
  simp only [step, hclient, hread, ↓reduceIte]

theorem step_doRead {s : State} {bytes left : Bytes} (hserver : s.server = .read)
    (hread : readSome dataSize s.toServer = some (bytes, left)) :
    step daytime s .doRead = some { s.doWrite daytime bytes with toServer := left } := by
  simp only [step, hserver, hread, ↓reduceIte]

theorem step_greetedState (hdaytime : ∀ n, (daytime n).length = 25) :
    step daytime (greetedState daytime connection rest) .readFromServer =
      some (idleState daytime connection [] rest) := by
  have hlength : (greeting daytime).length ≤ bufSize := by
    simp [greeting, length_reply, hdaytime, bufSize]
  exact step_readFromServer (Or.inl rfl) (readSome_of_le (reply_ne_nil _ _) hlength)

theorem step_idleState (hline : line ≠ []) :
    step daytime (idleState daytime connection done (line :: rest)) .talkToServer =
      some (askedState daytime connection done rest line) := by
  simp [step, idleState, State.talkToServer, askedState, hline]

theorem step_idleState_nil :
    step daytime (idleState daytime connection done []) .talkToServer =
      some (quitState daytime connection done) := rfl

theorem step_askedState (hdaytime : ∀ n, (daytime n).length = 25) (connection : Connection)
    (done rest : List Bytes) (hline : line ≠ []) (hlength : line.length ≤ 900) : ∃ connection',
      step daytime (askedState daytime connection done rest line) .doRead =
        some (answeringState daytime connection' done rest line) := by
  have hread : readSome dataSize line = some (line, []) :=
    readSome_of_le hline (Nat.le_trans hlength (by decide))
  have hreply : (reply line (daytime (done.length + 1))).length ≤ dataSize := by
    rw [length_reply, hdaytime, dataSize]
    omega
  refine ⟨((connection.doRead line).doWrite line.length (daytime (done.length + 1))).1, ?_⟩
  rw [step_doRead rfl hread, answeringState, ← connection.doWrite_doRead hreply]
  rfl

theorem step_answeringState :
    step daytime (answeringState daytime connection done rest line) .written =
      some (answeredState daytime connection done rest line) := rfl

/-- The client prints as much of the reply as its buffer takes. -/
theorem step_answeredState :
    step daytime (answeredState daytime connection done rest line) .readFromServer =
      some { idleState daytime connection (done ++ [line]) rest with
        printed := replies daytime done ++
          [(reply line (daytime (done.length + 1))).take bufSize]
        toClient := (reply line (daytime (done.length + 1))).drop bufSize } := by
  refine (step_readFromServer (Or.inr rfl) (readSome_of_ne_nil _ (reply_ne_nil _ _))).trans ?_
  simp [answeredState, State.print, idleState]

/-- A reply that fits into the buffer of the client is printed whole. -/
theorem step_answeredState_of_le (hdaytime : ∀ n, (daytime n).length = 25)
    (hlength : line.length ≤ 95) :
    step daytime (answeredState daytime connection done rest line) .readFromServer =
      some (idleState daytime connection (done ++ [line]) rest) := by
  have hreply : (reply line (daytime (done.length + 1))).length ≤ bufSize := by
    rw [length_reply, hdaytime, bufSize]
    omega
  rw [step_answeredState, List.take_of_length_le hreply, List.drop_of_length_le hreply,
    ← replies_append]
  rfl

theorem step_quitState : step daytime (quitState daytime connection done) .doRead =
    some (closedState daytime connection done) := rfl

end Steps

/-! ### Runs of short lines -/

/-- The states of a run in lockstep, with the number of steps that lead there. -/
inductive Phase (daytime : Nat → Bytes) (lines : List Bytes) : Nat → State → Prop
  | greeting (connection : Connection) :
      Phase daytime lines 0 (greetingState daytime connection lines)
  | greeted (connection : Connection) :
      Phase daytime lines 1 (greetedState daytime connection lines)
  | idle (connection : Connection) {done rest : List Bytes} (h : done ++ rest = lines) :
      Phase daytime lines (4 * done.length + 2) (idleState daytime connection done rest)
  | asked (connection : Connection) {done rest : List Bytes} {line : Bytes}
      (h : done ++ line :: rest = lines) :
      Phase daytime lines (4 * done.length + 3) (askedState daytime connection done rest line)
  | answering (connection : Connection) {done rest : List Bytes} {line : Bytes}
      (h : done ++ line :: rest = lines) :
      Phase daytime lines (4 * done.length + 4) (answeringState daytime connection done rest line)
  | answered (connection : Connection) {done rest : List Bytes} {line : Bytes}
      (h : done ++ line :: rest = lines) :
      Phase daytime lines (4 * done.length + 5) (answeredState daytime connection done rest line)
  | quit (connection : Connection) :
      Phase daytime lines (4 * lines.length + 3) (quitState daytime connection lines)
  | closed (connection : Connection) :
      Phase daytime lines (4 * lines.length + 4) (closedState daytime connection lines)

section Phase

variable {daytime : Nat → Bytes} {lines : List Bytes} {n : Nat} {s t : State}

/-- In every phase one action is possible, and it leads to the next phase. -/
theorem Phase.step (hdaytime : ∀ n, (daytime n).length = 25)
    (hlines : ∀ line ∈ lines, line ≠ [] ∧ line.length ≤ 95) (hs : Phase daytime lines n s)
    {a : Action} (h : step daytime s a = some t) : Phase daytime lines (n + 1) t := by
  cases hs with
  | greeting connection =>
    cases a with
    | written =>
      obtain rfl := Option.some.inj (step_greetingState.symm.trans h)
      exact .greeted connection
    | talkToServer | readFromServer | doRead => simp [Echo.step, greetingState] at h
  | greeted connection =>
    cases a with
    | readFromServer =>
      obtain rfl := Option.some.inj ((step_greetedState hdaytime).symm.trans h)
      exact (Phase.idle connection rfl : Phase daytime lines (4 * [].length + 2) _)
    | talkToServer | written | doRead => simp [Echo.step, greetedState] at h
  | @idle connection done rest hdone =>
    cases a with
    | talkToServer =>
      cases rest with
      | nil =>
        obtain rfl : done = lines := (List.append_nil done).symm.trans hdone
        obtain rfl := Option.some.inj (step_idleState_nil.symm.trans h)
        exact .quit connection
      | cons line rest =>
        have hline := (hlines line (by simp [← hdone])).1
        obtain rfl := Option.some.inj ((step_idleState hline).symm.trans h)
        exact .asked connection hdone
    | readFromServer | written | doRead => simp [Echo.step, idleState] at h
  | @asked connection done rest line hdone =>
    cases a with
    | doRead =>
      obtain ⟨hline, hlength⟩ := hlines line (by simp [← hdone])
      obtain ⟨connection', hstep⟩ := step_askedState hdaytime connection done rest hline (by omega)
      obtain rfl := Option.some.inj (hstep.symm.trans h)
      exact .answering connection' hdone
    | talkToServer | readFromServer | written => simp [Echo.step, askedState] at h
  | answering connection hdone =>
    cases a with
    | written =>
      obtain rfl := Option.some.inj (step_answeringState.symm.trans h)
      exact .answered connection hdone
    | talkToServer | readFromServer | doRead => simp [Echo.step, answeringState] at h
  | @answered connection done rest line hdone =>
    cases a with
    | readFromServer =>
      have hlength := (hlines line (by simp [← hdone])).2
      obtain rfl := Option.some.inj ((step_answeredState_of_le hdaytime hlength).symm.trans h)
      have hidle : Phase daytime lines _ (idleState daytime connection (done ++ [line]) rest) :=
        .idle connection (by simpa using hdone)
      rwa [List.length_append, List.length_singleton] at hidle
    | talkToServer | written | doRead => simp [Echo.step, answeredState] at h
  | quit connection =>
    cases a with
    | doRead =>
      obtain rfl := Option.some.inj (step_quitState.symm.trans h)
      exact .closed connection
    | talkToServer | readFromServer | written => simp [Echo.step, quitState] at h
  | closed connection => cases a <;> simp [Echo.step, closedState] at h

/-- A run goes through the phases. -/
theorem Phase.run (hdaytime : ∀ n, (daytime n).length = 25)
    (hlines : ∀ line ∈ lines, line ≠ [] ∧ line.length ≤ 95) (hs : Phase daytime lines n s)
    {as : List Action} (h : run (Echo.step daytime) s as = some t) :
    Phase daytime lines (n + as.length) t := by
  refine run_history (P := fun as t ↦ Phase daytime lines (n + as.length) t)
    (fun as _ a _ hphase hstep ↦ ?_) h hs
  rw [List.length_append, List.length_singleton, ← Nat.add_assoc]
  exact hphase.step hdaytime hlines hstep

theorem Phase.le (hs : Phase daytime lines n s) : n ≤ 4 * lines.length + 4 := by
  cases hs with
  | idle connection h | asked connection h | answering connection h | answered connection h =>
    have hlength := congrArg List.length h
    simp only [List.length_append, List.length_cons] at hlength
    omega
  | greeting connection | greeted connection | quit connection | closed connection => omega

/-- In every phase what has been printed are replies, and some action is possible in all but the
last. -/
theorem Phase.inLockstep (hdaytime : ∀ n, (daytime n).length = 25)
    (hlines : ∀ line ∈ lines, line ≠ [] ∧ line.length ≤ 95) (hs : Phase daytime lines n s) :
    InLockstep daytime lines s := by
  cases hs with
  | greeting connection =>
    exact ⟨List.nil_prefix, fun h ↦ by simpa [step_greetingState] using h .written⟩
  | greeted connection =>
    exact ⟨List.nil_prefix, fun h ↦ by simpa [step_greetedState hdaytime] using h .readFromServer⟩
  | @idle connection done rest hdone =>
    refine ⟨hdone ▸ replies_prefix daytime done rest, fun h ↦ ?_⟩
    have hstuck := h .talkToServer
    cases rest with
    | nil => simp [step_idleState_nil] at hstuck
    | cons line rest =>
      have hline := (hlines line (by simp [← hdone])).1
      simp [step_idleState hline] at hstuck
  | @asked connection done rest line hdone =>
    refine ⟨hdone ▸ replies_prefix daytime done _, fun h ↦ ?_⟩
    obtain ⟨hline, hlength⟩ := hlines line (by simp [← hdone])
    obtain ⟨connection', hstep⟩ := step_askedState hdaytime connection done rest hline (by omega)
    simpa [hstep] using h .doRead
  | answering connection hdone =>
    exact ⟨hdone ▸ replies_prefix daytime _ _, fun h ↦ by
      simpa [step_answeringState] using h .written⟩
  | answered connection hdone =>
    exact ⟨hdone ▸ replies_prefix daytime _ _, fun h ↦ by
      simpa [step_answeredState] using h .readFromServer⟩
  | quit connection =>
    exact ⟨List.prefix_rfl, fun h ↦ by simpa [step_quitState] using h .doRead⟩
  | closed connection => exact ⟨List.prefix_rfl, fun _ ↦ rfl⟩

end Phase

/-! ### The bound on the lines -/

section Bound

variable {daytime : Nat → Bytes} {connection : Connection} {lines : List Bytes}

/-- If the client has printed a reply for a line, the reply fits into its buffer. -/
theorem length_le_of_printed (hdaytime : ∀ n, (daytime n).length = 25) {done rest : List Bytes}
    {line : Bytes} (hdone : done ++ line :: rest = lines)
    (hprinted : replies daytime done ++ [(reply line (daytime (done.length + 1))).take bufSize] <+:
      replies daytime lines) : line.length ≤ 95 := by
  have hreplies : replies daytime (done ++ [line]) <+: replies daytime lines := by
    have hprefix := replies_prefix daytime (done ++ [line]) rest
    rwa [List.append_assoc, List.singleton_append, hdone] at hprefix
  rw [replies_append] at hreplies
  have heq := (List.prefix_of_prefix_length_le hprinted hreplies (by simp)).eq_of_length (by simp)
  have htake := congrArg List.length (List.singleton_inj.mp (List.append_cancel_left heq))
  rw [List.length_take, length_reply, hdaytime, bufSize] at htake
  omega

/-- If every run is in lockstep, there is a run to the end of each exchange, and the lines before it
are short. -/
theorem idleState_of_inLockstep (hdaytime : ∀ n, (daytime n).length = 25)
    (hlines : ∀ line ∈ lines, line ≠ [] ∧ line.length ≤ 900)
    (hrun : ∀ as s, run (step daytime) (init daytime connection lines) as = some s →
      InLockstep daytime lines s) {done rest : List Bytes} (hdone : done ++ rest = lines) :
    (∃ as connection', run (step daytime) (init daytime connection lines) as =
      some (idleState daytime connection' done rest)) ∧ ∀ line ∈ done, line.length ≤ 95 := by
  induction done using List.reverseRecOn generalizing rest with
  | nil =>
    obtain rfl : rest = lines := hdone
    refine ⟨⟨[.written, .readFromServer], (connection.doWrite 0 (daytime 0)).1, ?_⟩, by simp⟩
    rw [init_eq hdaytime]
    exact (run_cons _).mpr ⟨_, step_greetingState,
      (run_cons _).mpr ⟨_, step_greetedState hdaytime, rfl⟩⟩
  | append_singleton done line ih =>
    have hdone' : done ++ line :: rest = lines := by simpa using hdone
    obtain ⟨⟨as, connection', hidle⟩, hshort⟩ := ih hdone'
    obtain ⟨hline, hlength⟩ := hlines line (by simp [← hdone'])
    obtain ⟨connection'', hasked⟩ :=
      step_askedState hdaytime connection' done rest hline hlength
    have hanswered := run_snoc _ (run_snoc _ (run_snoc _ hidle (step_idleState hline)) hasked)
      step_answeringState
    have hle := length_le_of_printed hdaytime hdone'
      (hrun _ _ (run_snoc _ hanswered step_answeredState)).printed
    refine ⟨⟨_, connection'', run_snoc _ hanswered (step_answeredState_of_le hdaytime hle)⟩,
      fun other hother ↦ ?_⟩
    rcases List.mem_append.mp hother with hother | hother
    · exact hshort other hother
    · exact List.mem_singleton.mp hother ▸ hle

/-- Every run ends in lockstep, exactly if no line has more than 95 bytes. -/
theorem inLockstep_iff (hdaytime : ∀ n, (daytime n).length = 25) (connection : Connection)
    (hlines : ∀ line ∈ lines, line ≠ [] ∧ line.length ≤ 900) :
    (∀ as s, run (step daytime) (init daytime connection lines) as = some s →
      as.length ≤ 4 * lines.length + 4 ∧ InLockstep daytime lines s) ↔
        ∀ line ∈ lines, line.length ≤ 95 := by
  constructor
  · intro hrun
    exact (idleState_of_inLockstep hdaytime hlines (fun as s h ↦ (hrun as s h).2)
      (List.append_nil lines)).2
  · intro hshort as s h
    have hlines' : ∀ line ∈ lines, line ≠ [] ∧ line.length ≤ 95 := fun line hline ↦
      ⟨(hlines line hline).1, hshort line hline⟩
    rw [init_eq hdaytime] at h
    have hphase := (Phase.greeting _).run hdaytime hlines' h
    have hle := hphase.le
    exact ⟨by omega, hphase.inLockstep hdaytime hlines'⟩

/-- The first second of the epoch. -/
def epoch (_ : Nat) : Bytes := ascii "Thu Jan  1 00:00:00 1970\n"

/-- A connection with zeros in `data_`. -/
def zeroConnection : Connection where
  data := List.replicate dataSize 0
  data_size := List.length_replicate

theorem inLockstep_iff_hello :
    (∀ as s, run (step epoch) (init epoch zeroConnection [ascii "hello"]) as = some s →
      as.length ≤ 4 * [ascii "hello"].length + 4 ∧ InLockstep epoch [ascii "hello"] s) ↔
        ∀ line ∈ [ascii "hello"], line.length ≤ 95 :=
  inLockstep_iff (fun _ ↦ rfl) zeroConnection (by decide)

/-- A line of 96 letters. -/
def longLine : Bytes := List.replicate 96 97

/-- The last byte of the reply to a line of 96 bytes is not printed after it. -/
theorem not_inLockstep_longLine : ¬∀ (daytime : Nat → Bytes) (connection : Connection)
    (lines : List Bytes), (∀ n, (daytime n).length = 25) →
      (∀ line ∈ lines, line ≠ [] ∧ line.length ≤ 900) → ∀ as s,
        run (step daytime) (init daytime connection lines) as = some s →
          InLockstep daytime lines s := by
  intro h
  have hlines : ∀ line ∈ [longLine], line ≠ [] ∧ line.length ≤ 900 := by decide
  have hshort := (idleState_of_inLockstep (fun _ ↦ rfl) hlines
    (h epoch zeroConnection [longLine] (fun _ ↦ rfl) hlines) (List.append_nil _)).2
  exact absurd (hshort longLine List.mem_cons_self) (by decide)

end Bound

end CppDemo.Asio.Echo
