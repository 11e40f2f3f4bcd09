import CppDemo.Asio.Echo.BufferBound
import CppDemo.Asio.Echo.Lockstep
import CppDemo.Foundation.Progress
import Mathlib.Data.List.Forall2

/-!
# The echo exchange over byte streams

The client and a connection of the server are joined by a byte stream in each direction, which has
room for a number of bytes. `write_some` of the client writes a part of its line and drops the rest,
`async_write` writes its response part by part, and a read takes a part of what is there. A write
waits while there is no room. What the client prints then are pieces of the responses, which need
not be those to its lines, but no byte is lost, repeated or moved on the way.

Nobody waits forever except in one case. A client that writes while the server waits to write a
response keeps the server from reading, so that both wait for each other once both directions are
full.

Source: `asio/allocation/client.cpp`, lines 48–117, `asio/allocation/allocation.cpp`, lines 115–149,
and `asio/buffer/reference_counted_buffer.cpp`, lines 132–165.

## Main definitions

* `Conversation`, `Conversation.step` : the client, the session of the server and the two streams.
* `Conversation.Ledger` : where the bytes are that have been handed to a write.

## Main results

* `Conversation.Ledger.step` : every step moves bytes along.
* `Conversation.echoes_of_run` : what the client prints and what the server reads.
* `Conversation.ends_of_run` : every run comes to an end, and who waits then.
-/

namespace CppDemo.Asio.Echo

open Transition

/-- Where the client is. -/
inductive ClientPlace
  /-- About to read the greeting. -/
  | connect
  | talkToServer
  /-- `write_some` of a line. -/
  | writeSome (line : Bytes)
  | readFromServer
  | clientQuit
  | serverQuit
  deriving DecidableEq, Repr

/-- The client waits for something to read. -/
def ClientPlace.reads : ClientPlace → Bool
  | connect | readFromServer => true
  | talkToServer | writeSome _ | clientQuit | serverQuit => false

/-- The client has closed its socket. -/
def ClientPlace.hasQuit : ClientPlace → Bool
  | clientQuit | serverQuit => true
  | connect | talkToServer | writeSome _ | readFromServer => false

/-- The line that has been read and not been written. -/
def ClientPlace.lines : ClientPlace → List Bytes
  | writeSome line => [line]
  | connect | talkToServer | readFromServer | clientQuit | serverQuit => []

/-- The response that was handed to `async_write` last. -/
def Session.response (s : Session) : Bytes := s.sent.getLast?.getD []

structure Conversation where
  client : ClientPlace
  /-- The lines that the client has not read yet. -/
  input : List Bytes
  /-- What each read of the client returned. -/
  printed : List Bytes := []
  /-- What each `write_some` wrote. -/
  written : List Bytes := []
  toServer : Bytes := []
  session : Session
  /-- What each read of the server returned. -/
  texts : List Bytes := []
  /-- What `async_write` has not written yet. -/
  unsent : Bytes
  toClient : Bytes := []

namespace Conversation

inductive Action
  | getline
  /-- `write_some` writes `n` bytes. -/
  | writeSome (n : Nat)
  /-- `read_some` of the client reads `n` bytes. -/
  | readSome (n : Nat)
  /-- `read_some` of the client finds the end of the stream. -/
  | eof
  /-- `async_write` has written `n` more bytes. -/
  | send (n : Nat)
  | writeDone
  /-- `async_read_some` has read `n` bytes, and the response is built at a time. -/
  | readDone (n : Nat) (daytime : Daytime)
  /-- What the server waits for fails, since the client has closed its socket. -/
  | fail

/-- The client gets one byte at a time. -/
def Action.isSlow : Action → Bool
  | readSome n => n = 1
  | getline | writeSome _ | eof | send _ | writeDone | readDone _ _ | fail => true

section Step

variable (doWrite : Connection → Nat → Bytes → Connection × Bytes) (requestRoom replyRoom : Nat)

/-- The server has accepted the client and called `start`. -/
def start (data : Vector UInt8 dataSize) (daytime : Daytime) (lines : List Bytes) :
    Conversation where
  client := .connect
  input := lines
  session := Session.start doWrite data daytime
  unsent := (Session.start doWrite data daytime).response

variable (s : Conversation)

/-- `std::getline`. The client quits at an empty line. -/
def getline : Option Conversation :=
  match s.client, s.input with
  | .talkToServer, [] => some { s with client := .clientQuit }
  | .talkToServer, line :: input =>
    some { s with client := if line = [] then .clientQuit else .writeSome line, input }
  | _, _ => none

def writeSome (n : Nat) : Option Conversation :=
  match s.client with
  | .writeSome line =>
    if 0 < n ∧ n ≤ line.length ∧ s.toServer.length + n ≤ requestRoom then
      some { s with
        client := .readFromServer
        written := s.written ++ [line.take n]
        toServer := s.toServer ++ line.take n }
    else none
  | _ => none

def readSome (n : Nat) : Option Conversation :=
  if s.client.reads = true ∧ 0 < n ∧ n ≤ bufSize ∧ n ≤ s.toClient.length then
    some { s with
      client := .talkToServer
      printed := s.printed ++ [s.toClient.take n]
      toClient := s.toClient.drop n }
  else none

def eof : Option Conversation :=
  if s.client.reads = true ∧ s.toClient = [] ∧ s.session.waiting = .nothing then
    some { s with client := .serverQuit }
  else none

def send (n : Nat) : Option Conversation :=
  if s.session.waiting = .write ∧ 0 < n ∧ n ≤ s.unsent.length ∧
      s.toClient.length + n ≤ replyRoom then
    some { s with unsent := s.unsent.drop n, toClient := s.toClient ++ s.unsent.take n }
  else none

def writeDone : Option Conversation :=
  if s.unsent = [] then
    (s.session.step doWrite (.writeDone true)).map fun session ↦ { s with session }
  else none

def readDone (n : Nat) (daytime : Daytime) : Option Conversation :=
  if 0 < n ∧ n ≤ s.toServer.length then
    (s.session.step doWrite (.readDone (s.toServer.take n) daytime)).map fun session ↦
      { s with
        session
        texts := s.texts ++ [s.toServer.take n]
        unsent := session.response
        toServer := s.toServer.drop n }
  else none

def fail : Option Conversation :=
  if s.client.hasQuit = true then
    let failure :=
      match s.session.waiting with
      | .write => .writeDone false
      | .read | .nothing => .readFailed
    (s.session.step doWrite failure).map fun session ↦ { s with session }
  else none

def step (s : Conversation) : Action → Option Conversation
  | .getline => s.getline
  | .writeSome n => s.writeSome requestRoom n
  | .readSome n => s.readSome n
  | .eof => s.eof
  | .send n => s.send replyRoom n
  | .writeDone => s.writeDone doWrite
  | .readDone n daytime => s.readDone doWrite n daytime
  | .fail => s.fail doWrite

/-- What a step needs and what it does. -/
inductive Move (s : Conversation) (a : Action) : Conversation → Prop
  | inputEnds (hclient : s.client = .talkToServer) (hinput : s.input = []) :
      Move s a { s with client := .clientQuit }
  | emptyLine {input} (hclient : s.client = .talkToServer) (hinput : s.input = [] :: input) :
      Move s a { s with client := .clientQuit, input := input }
  | getline {line input} (hclient : s.client = .talkToServer) (hinput : s.input = line :: input)
      (hline : line ≠ []) : Move s a { s with client := .writeSome line, input := input }
  | writeSome {piece dropped} (hclient : s.client = .writeSome (piece ++ dropped))
      (hpiece : piece ≠ []) (hroom : s.toServer.length + piece.length ≤ requestRoom) :
      Move s a { s with
        client := .readFromServer
        written := s.written ++ [piece]
        toServer := s.toServer ++ piece }
  | readSome {piece rest} (haction : a = .readSome piece.length) (hclient : s.client.reads = true)
      (hpiece : piece ≠ []) (htoClient : s.toClient = piece ++ rest) :
      Move s a { s with
        client := .talkToServer
        printed := s.printed ++ [piece]
        toClient := rest }
  | eof (hclient : s.client.reads = true) (hwaiting : s.session.waiting = .nothing) :
      Move s a { s with client := .serverQuit }
  | send {piece rest} (hwaiting : s.session.waiting = .write) (hpiece : piece ≠ [])
      (hunsent : s.unsent = piece ++ rest)
      (hroom : s.toClient.length + piece.length ≤ replyRoom) :
      Move s a { s with unsent := rest, toClient := s.toClient ++ piece }
  | writeDone (hwaiting : s.session.waiting = .write) (hunsent : s.unsent = []) :
      Move s a { s with session := { s.session with waiting := .read } }
  | readDone {text rest daytime session} (hwaiting : s.session.waiting = .read) (htext : text ≠ [])
      (htoServer : s.toServer = text ++ rest) (hsize : text.length ≤ dataSize)
      (hsession : session = Session.respond doWrite
        { s.session with connection := s.session.connection.doRead text } text.length daytime) :
      Move s a { s with
        session := session
        texts := s.texts ++ [text]
        unsent := session.response
        toServer := rest }
  | fail (hclient : s.client.hasQuit = true) (hwaiting : s.session.waiting ≠ .nothing) :
      Move s a { s with session := { s.session with waiting := .nothing } }

variable {doWrite requestRoom replyRoom s} {t : Conversation} {a : Action}

theorem move_of_getline (h : s.getline = some t) :
    Move doWrite requestRoom replyRoom s .getline t := by
  unfold getline at h
  split at h
  next hclient hinput =>
    obtain rfl := Option.some.inj h
    exact .inputEnds hclient hinput
  next line input hclient hinput =>
    obtain rfl := Option.some.inj h
    by_cases hline : line = []
    · subst hline
      exact .emptyLine hclient hinput
    · rw [if_neg hline]
      exact .getline hclient hinput hline
  next => cases h

theorem take_ne_nil {bytes : Bytes} {n : Nat} (hpos : 0 < n) (hlength : n ≤ bytes.length) :
    bytes.take n ≠ [] := by
  rw [← List.length_pos_iff, List.length_take, Nat.min_eq_left hlength]
  exact hpos

theorem move_of_writeSome {n : Nat} (h : s.writeSome requestRoom n = some t) :
    Move doWrite requestRoom replyRoom s (.writeSome n) t := by
  unfold writeSome at h
  split at h
  next line hclient =>
    obtain ⟨⟨hpos, hlength, hroom⟩, h⟩ := Option.ite_none_right_eq_some.mp h
    obtain rfl := Option.some.inj h
    rw [← List.take_append_drop n line] at hclient
    refine .writeSome hclient (take_ne_nil hpos hlength) ?_
    rwa [List.length_take, Nat.min_eq_left hlength]
  next => cases h

theorem move_of_readDone {n : Nat} {daytime : Daytime} (h : s.readDone doWrite n daytime = some t) :
    Move doWrite requestRoom replyRoom s (.readDone n daytime) t := by
  obtain ⟨⟨hpos, hlength⟩, h⟩ := Option.ite_none_right_eq_some.mp h
  obtain ⟨session, hsession, rfl⟩ := Option.map_eq_some_iff.mp h
  obtain ⟨_, hread, -⟩ | ⟨_, _, hread, hwaiting, hsize, hsession⟩ | ⟨hread, -⟩ :=
    Session.step_cases _ hsession
  · cases hread
  · obtain ⟨rfl, rfl⟩ := Session.Action.readDone.inj hread
    exact .readDone hwaiting (take_ne_nil hpos hlength) (List.take_append_drop n _).symm hsize
      hsession
  · cases hread

theorem move_of_fail (h : s.fail doWrite = some t) :
    Move doWrite requestRoom replyRoom s .fail t := by
  obtain ⟨hclient, h⟩ := Option.ite_none_right_eq_some.mp h
  obtain ⟨session, hsession, rfl⟩ := Option.map_eq_some_iff.mp h
  cases hwaiting : s.session.waiting <;>
    simp only [hwaiting, Session.step, Bool.false_eq_true, if_false, reduceCtorEq,
      Option.some.injEq] at hsession
  · exact hsession ▸ .fail hclient (by simp [hwaiting])
  · exact hsession ▸ .fail hclient (by simp [hwaiting])

/-- Every step is one of the moves. -/
theorem move_of_step (h : step doWrite requestRoom replyRoom s a = some t) :
    Move doWrite requestRoom replyRoom s a t := by
  cases a with
  | getline => exact move_of_getline h
  | writeSome n => exact move_of_writeSome h
  | readSome n =>
    obtain ⟨⟨hclient, hpos, -, hlength⟩, h⟩ := Option.ite_none_right_eq_some.mp h
    obtain rfl := Option.some.inj h
    refine .readSome ?_ hclient (take_ne_nil hpos hlength) (List.take_append_drop n _).symm
    rw [List.length_take, Nat.min_eq_left hlength]
  | eof =>
    obtain ⟨⟨hclient, -, hwaiting⟩, h⟩ := Option.ite_none_right_eq_some.mp h
    obtain rfl := Option.some.inj h
    exact .eof hclient hwaiting
  | send n =>
    obtain ⟨⟨hwaiting, hpos, hlength, hroom⟩, h⟩ := Option.ite_none_right_eq_some.mp h
    obtain rfl := Option.some.inj h
    refine .send hwaiting (take_ne_nil hpos hlength) (List.take_append_drop n _).symm ?_
    rwa [List.length_take, Nat.min_eq_left hlength]
  | writeDone =>
    obtain ⟨hunsent, h⟩ := Option.ite_none_right_eq_some.mp h
    obtain ⟨session, hsession, rfl⟩ := Option.map_eq_some_iff.mp h
    obtain ⟨_, hwrite, hwaiting, rfl⟩ | ⟨_, _, hwrite, -⟩ | ⟨hwrite, -⟩ :=
      Session.step_cases _ hsession
    · cases hwrite
      exact .writeDone hwaiting hunsent
    · cases hwrite
    · cases hwrite
  | readDone n daytime => exact move_of_readDone h
  | fail => exact move_of_fail h

end Step

/-! ### The ledger -/

section Ledger

variable {doWrite : Connection → Nat → Bytes → Connection × Bytes} {requestRoom replyRoom : Nat}
  {s t : Conversation} {a : Action} {lines : List Bytes}

/-- The response to a read of at most `room` bytes is sent whole. -/
def Exact (doWrite : Connection → Nat → Bytes → Connection × Bytes) (room : Nat) : Prop :=
  ∀ (self : Connection) (bytes : Bytes) (daytime : Daytime), bytes.length ≤ dataSize →
    bytes.length ≤ room →
      (doWrite (self.doRead bytes) bytes.length daytime.text).2 = reply bytes daytime.text

/-- A response in a buffer of its own is always sent whole. -/
theorem exact_doWriteShared (room : Nat) : Exact Connection.doWriteShared room :=
  fun self _ daytime hsize _ ↦ self.doWriteShared_doRead_snd hsize daytime.text

/-- A response in `data_` is sent whole if no more can be read than it has room for. -/
theorem exact_doWrite {room : Nat} (hroom : room ≤ maxRead) : Exact Connection.doWrite room :=
  fun self bytes daytime _ hbytes ↦
    self.doWrite_doRead ((Session.length_reply_le bytes daytime).mpr (hbytes.trans hroom))

/-- A response belongs to the bytes that were read. -/
def Answers (text response : Bytes) : Prop :=
  ∃ daytime : Daytime, response = reply text daytime.text

/-- A piece has been written of a line. -/
def PieceOf (line piece : Bytes) : Prop := piece ≠ [] ∧ piece <+: line

/-- Where the bytes are that have been handed to a write. -/
structure Ledger (requestRoom : Nat) (lines : List Bytes) (s : Conversation) : Prop where
  served : List.Forall₂ Answers ([] :: s.texts) s.session.sent
  received : s.printed.flatten ++ (s.toClient ++ s.unsent) = s.session.sent.flatten
  asked : s.texts.flatten ++ s.toServer = s.written.flatten
  written : ∃ taken, List.Forall₂ PieceOf taken s.written ∧ taken <+: lines ∧
    (s.client.hasQuit = false → taken ++ (s.client.lines ++ s.input) = lines) ∧
    (s.client.hasQuit = true → taken = lines.takeWhile (· ≠ []))
  room : s.toServer.length ≤ requestRoom
  /-- The client reads once for the greeting and once for each line. -/
  turns : s.printed.length + (if s.client.reads then 1 else 0) = s.written.length + 1
  /-- While the client waits, something is under way to it. -/
  owed : s.client.reads = true → s.toServer ++ s.unsent ++ s.toClient ≠ []
  sent : s.session.waiting = .read → s.unsent = []
  line : ∀ line ∈ s.client.lines, line ≠ []
  /-- The server closes the connection after the client only. -/
  closed : s.session.waiting = .nothing → s.client.hasQuit = true
  client : s.client ≠ .serverQuit

theorem response_respond (session : Session) (length : Nat) (daytime : Daytime) :
    (Session.respond doWrite session length daytime).response =
      (doWrite session.connection length daytime.text).2 := by
  simp [Session.response, Session.respond]

/-- The greeting is sent whole. -/
theorem Exact.greeting (hexact : Exact doWrite requestRoom) (data : Vector UInt8 dataSize)
    (daytime : Daytime) : (doWrite (.ofData data) 0 daytime.text).2 = reply [] daytime.text := by
  have hnil := hexact (.ofData data) [] daytime (Nat.zero_le _) (Nat.zero_le _)
  rwa [Connection.doRead_nil] at hnil

theorem Exact.unsent_start (hexact : Exact doWrite requestRoom) (data : Vector UInt8 dataSize)
    (daytime : Daytime) (lines : List Bytes) :
    (start doWrite data daytime lines).unsent = reply [] daytime.text :=
  (response_respond ⟨.ofData data, .write, []⟩ 0 daytime).trans (hexact.greeting data daytime)

/-- A response is the one to the bytes that have just been read. -/
theorem Ledger.response_eq (h : s.Ledger requestRoom lines) (hexact : Exact doWrite requestRoom)
    {text rest : Bytes} {daytime : Daytime} (htoServer : s.toServer = text ++ rest)
    (hsize : text.length ≤ dataSize) :
    (Session.respond doWrite
      { s.session with connection := s.session.connection.doRead text } text.length
      daytime).response = reply text daytime.text := by
  have hroom := h.room
  rw [htoServer, List.length_append] at hroom
  rw [response_respond]
  exact hexact _ _ _ hsize (Nat.le_trans (Nat.le_add_right _ _) hroom)

/-- A client that reads has neither a line to write nor quit. -/
theorem lines_of_reads {client : ClientPlace} (h : client.reads = true) :
    client.lines = [] ∧ client.hasQuit = false := by
  cases client <;> first | exact ⟨rfl, rfl⟩ | cases h

theorem ne_nil_of_pieces {taken written : List Bytes} (h : List.Forall₂ PieceOf taken written) :
    ∀ line ∈ taken, line ≠ [] := by
  induction h with
  | nil => nofun
  | cons hpiece _ ih =>
    refine List.forall_mem_cons.mpr ⟨?_, ih⟩
    rintro rfl
    exact hpiece.1 (List.prefix_nil.mp hpiece.2)

/-- If the rest of the input begins with an empty line, the lines before it are the ones up to the
first empty line. -/
theorem takeWhile_taken {taken written rest : List Bytes} (h : List.Forall₂ PieceOf taken written)
    (hrest : ∀ line ∈ rest.head?, line = []) : (taken ++ rest).takeWhile (· ≠ []) = taken := by
  have htaken : ∀ line ∈ taken, decide (line ≠ []) = true := by
    simpa using ne_nil_of_pieces h
  rw [List.takeWhile_append_of_pos htaken]
  cases rest with
  | nil => exact List.append_nil taken
  | cons line rest =>
    rw [List.takeWhile_cons_of_neg (by simpa using hrest line rfl), List.append_nil]

theorem ledger_start (hexact : Exact doWrite requestRoom) (data : Vector UInt8 dataSize)
    (daytime : Daytime) (lines : List Bytes) :
    (start doWrite data daytime lines).Ledger requestRoom lines where
  served := .cons ⟨daytime, hexact.greeting data daytime⟩ .nil
  received := by simp [start, Session.start, Session.respond, Session.response]
  asked := rfl
  written := ⟨[], .nil, List.nil_prefix, fun _ ↦ rfl, nofun⟩
  room := Nat.zero_le _
  turns := rfl
  owed _ := by simp [hexact.unsent_start, reply_ne_nil]
  sent := nofun
  line := nofun
  closed := nofun
  client := nofun

/-- The client quits at an empty line or at the end of the input. -/
theorem Ledger.of_quit (h : s.Ledger requestRoom lines) (hclient : s.client = .talkToServer)
    (hinput : ∀ line ∈ s.input.head?, line = []) (input : List Bytes) :
    Ledger requestRoom lines { s with client := .clientQuit, input := input } := by
  obtain ⟨taken, hpieces, htaken, hall, -⟩ := h.written
  have hturns := h.turns
  rw [hclient] at hturns hall
  have hlines := hall rfl
  refine { h with
    written := ⟨taken, hpieces, htaken, nofun, fun _ ↦ ?_⟩
    turns := hturns
    owed := nofun
    line := nofun
    closed := fun _ ↦ rfl
    client := nofun }
  rw [← hlines]
  exact (takeWhile_taken hpieces hinput).symm

theorem Ledger.of_getline (h : s.Ledger requestRoom lines) (hclient : s.client = .talkToServer)
    {line : Bytes} {input : List Bytes} (hinput : s.input = line :: input) (hline : line ≠ []) :
    Ledger requestRoom lines { s with client := .writeSome line, input := input } := by
  obtain ⟨taken, hpieces, htaken, hall, -⟩ := h.written
  have hturns := h.turns
  have hclosed := h.closed
  rw [hclient] at hturns hall hclosed
  refine { h with
    written := ⟨taken, hpieces, htaken, fun _ ↦ ?_, nofun⟩
    turns := hturns
    owed := nofun
    line := ?_
    closed := fun hwaiting ↦ absurd (hclosed hwaiting) nofun
    client := nofun }
  · rw [← hall rfl, hinput]
    rfl
  · simpa [ClientPlace.lines] using hline

theorem Ledger.of_writeSome (h : s.Ledger requestRoom lines) {piece dropped : Bytes}
    (hclient : s.client = .writeSome (piece ++ dropped)) (hpiece : piece ≠ [])
    (hroom : s.toServer.length + piece.length ≤ requestRoom) :
    Ledger requestRoom lines { s with
      client := .readFromServer
      written := s.written ++ [piece]
      toServer := s.toServer ++ piece } := by
  obtain ⟨taken, hpieces, -, hall, -⟩ := h.written
  have hturns := h.turns
  have hclosed := h.closed
  rw [hclient] at hturns hall hclosed
  have hlines := hall rfl
  refine { h with
    asked := ?_
    written := ⟨taken ++ [piece ++ dropped], ?_, ?_, fun _ ↦ ?_, nofun⟩
    room := ?_
    turns := ?_
    owed := ?_
    line := nofun
    closed := fun hwaiting ↦ absurd (hclosed hwaiting) nofun
    client := nofun }
  · rw [List.flatten_append, ← h.asked, List.flatten_singleton, List.append_assoc]
  · exact List.rel_append hpieces (.cons ⟨hpiece, List.prefix_append _ _⟩ .nil)
  · exact ⟨s.input, by rw [← hlines, List.append_assoc]; rfl⟩
  · rw [← hlines, List.append_assoc]
    rfl
  · rwa [List.length_append]
  · simp only [ClientPlace.reads] at hturns ⊢
    simpa using hturns
  · simp [hpiece]

theorem Ledger.of_readSome (h : s.Ledger requestRoom lines) {piece rest : Bytes}
    (hclient : s.client.reads = true) (htoClient : s.toClient = piece ++ rest) :
    Ledger requestRoom lines { s with
      client := .talkToServer
      printed := s.printed ++ [piece]
      toClient := rest } := by
  obtain ⟨taken, hpieces, htaken, hall, -⟩ := h.written
  obtain ⟨hlines, hopen⟩ := lines_of_reads hclient
  have hreceived := h.received
  have hturns := h.turns
  rw [htoClient] at hreceived
  rw [hlines] at hall
  rw [if_pos hclient] at hturns
  exact { h with
    received := by rw [← hreceived]; simp
    written := ⟨taken, hpieces, htaken, fun _ ↦ hall hopen, nofun⟩
    turns := by simpa [ClientPlace.reads] using hturns
    owed := nofun
    line := nofun
    closed := fun hwaiting ↦ absurd (h.closed hwaiting) (by simp [hopen])
    client := nofun }

theorem Ledger.of_send (h : s.Ledger requestRoom lines) (hwaiting : s.session.waiting = .write)
    {piece rest : Bytes} (hpiece : piece ≠ []) (hunsent : s.unsent = piece ++ rest) :
    Ledger requestRoom lines { s with unsent := rest, toClient := s.toClient ++ piece } := by
  have hreceived := h.received
  rw [hunsent] at hreceived
  exact { h with
    received := by rw [← hreceived]; simp
    owed := fun _ ↦ by simp [hpiece]
    sent := fun hread ↦ absurd (hwaiting.symm.trans hread) nofun }

theorem Ledger.of_readDone (h : s.Ledger requestRoom lines) (hexact : Exact doWrite requestRoom)
    {text rest : Bytes} (daytime : Daytime) (hwaiting : s.session.waiting = .read)
    (htoServer : s.toServer = text ++ rest) (hsize : text.length ≤ dataSize) {session : Session}
    (hsession : session = Session.respond doWrite
      { s.session with connection := s.session.connection.doRead text } text.length daytime) :
    Ledger requestRoom lines { s with
      session := session
      texts := s.texts ++ [text]
      unsent := session.response
      toServer := rest } := by
  have hroom := h.room
  have hasked := h.asked
  have hreceived := h.received
  rw [htoServer] at hasked hroom
  rw [h.sent hwaiting, List.append_nil] at hreceived
  have hresponse : session.response = reply text daytime.text :=
    hsession ▸ h.response_eq hexact htoServer hsize
  have hsent : session.sent = s.session.sent ++ [session.response] := by
    rw [hsession, response_respond]
    rfl
  refine { h with
    served := ?_
    received := ?_
    asked := ?_
    room := ?_
    owed := ?_
    sent := ?_
    closed := ?_ }
  · rw [hsent]
    exact List.rel_append h.served (.cons ⟨daytime, hresponse⟩ .nil)
  · rw [hsent, List.flatten_append, List.flatten_singleton, ← hreceived, List.append_assoc]
  · rw [← hasked]
    simp
  · rw [List.length_append] at hroom
    exact Nat.le_trans (Nat.le_add_left _ _) hroom
  · simp [hresponse, reply_ne_nil]
  · rw [hsession]
    nofun
  · rw [hsession]
    nofun

theorem Ledger.step (h : s.Ledger requestRoom lines) (hexact : Exact doWrite requestRoom)
    (hstep : Conversation.step doWrite requestRoom replyRoom s a = some t) :
    t.Ledger requestRoom lines := by
  cases move_of_step hstep with
  | inputEnds hclient hinput => exact h.of_quit hclient (by simp [hinput]) s.input
  | emptyLine hclient hinput => exact h.of_quit hclient (by simp [hinput]) _
  | getline hclient hinput hline => exact h.of_getline hclient hinput hline
  | writeSome hclient hpiece hroom => exact h.of_writeSome hclient hpiece hroom
  | readSome haction hclient hpiece htoClient => exact h.of_readSome hclient htoClient
  | eof hclient hwaiting =>
    -- the server closes the connection after the client only
    exact absurd (h.closed hwaiting) (by simp [(lines_of_reads hclient).2])
  | send hwaiting hpiece hunsent => exact h.of_send hwaiting hpiece hunsent
  | writeDone hwaiting hunsent =>
    exact { h with
      sent := fun _ ↦ hunsent
      closed := nofun }
  | @readDone _ _ daytime _ hwaiting htext htoServer hsize hsession =>
    exact h.of_readDone hexact daytime hwaiting htoServer hsize hsession
  | fail hclient hwaiting =>
    exact { h with
      sent := nofun
      closed := fun _ ↦ hclient }

theorem ledger_of_run (hexact : Exact doWrite requestRoom) {data : Vector UInt8 dataSize}
    {daytime : Daytime} {as : List Action}
    (hrun : run (Conversation.step doWrite requestRoom replyRoom)
      (start doWrite data daytime lines) as = some s) : s.Ledger requestRoom lines :=
  run_invariant (fun _ _ _ h hstep ↦ h.step hexact hstep) hrun
    (ledger_start hexact data daytime lines)

end Ledger

/-! ### What is left to do -/

section Cost

variable {doWrite : Connection → Nat → Bytes → Connection × Bytes} {requestRoom replyRoom : Nat}
  {s t : Conversation} {a : Action} {lines : List Bytes}

/-- The steps for lines that have not been read: three for a line, and up to 36 for a byte that is
answered alone. -/
def linesLeft (lines : List Bytes) : Nat := 36 * lines.flatten.length + 3 * lines.length

def clientLeft : ClientPlace → Nat
  | .connect | .readFromServer => 2
  | .talkToServer => 1
  | .writeSome line => 36 * line.length + 3
  | .clientQuit | .serverQuit => 0

/-- The steps for what the server waits for. -/
def serverLeft (unsent : Bytes) : Waiting → Nat
  | .write => unsent.length + 2
  | .read => 1
  | .nothing => 0

/-- At most how many steps are left. -/
def left (s : Conversation) : Nat :=
  clientLeft s.client + linesLeft s.input + 36 * s.toServer.length +
    serverLeft s.unsent s.session.waiting

theorem Ledger.left_lt (h : s.Ledger requestRoom lines) (hexact : Exact doWrite requestRoom)
    (hstep : Conversation.step doWrite requestRoom replyRoom s a = some t) : t.left < s.left := by
  cases move_of_step hstep with
  | inputEnds hclient hinput =>
    simp only [left, hclient, clientLeft]
    omega
  | emptyLine hclient hinput =>
    simp only [left, hclient, hinput, clientLeft, linesLeft, List.flatten_cons, List.length_cons,
      List.nil_append]
    omega
  | getline hclient hinput hline =>
    simp only [left, hclient, hinput, clientLeft, linesLeft, List.flatten_cons, List.length_cons,
      List.length_append]
    omega
  | writeSome hclient hpiece hroom =>
    simp only [left, hclient, clientLeft, List.length_append]
    omega
  | readSome haction hclient hpiece htoClient =>
    have hplace : clientLeft s.client = 2 := by
      generalize s.client = client at hclient
      cases client <;> first | rfl | cases hclient
    rw [left, left, hplace]
    simp only [clientLeft]
    omega
  | eof hclient hwaiting =>
    exact absurd (h.closed hwaiting) (by simp [(lines_of_reads hclient).2])
  | send hwaiting hpiece hunsent =>
    have hpos := List.length_pos_iff.mpr hpiece
    simp only [left, hwaiting, hunsent, serverLeft, List.length_append]
    omega
  | writeDone hwaiting hunsent =>
    simp only [left, hwaiting, serverLeft]
    omega
  | @readDone text rest daytime session hwaiting htext htoServer hsize hsession =>
    have hpos := List.length_pos_iff.mpr htext
    have hresponse : session.response.length = text.length + 33 := by
      rw [hsession, h.response_eq hexact htoServer hsize, length_reply, daytime.size]
    have hwrite : session.waiting = .write := by
      rw [hsession]
      rfl
    simp only [left, hwaiting, hwrite, htoServer, hresponse, serverLeft, List.length_append]
    omega
  | fail hclient hwaiting =>
    cases hcases : s.session.waiting with
    | nothing => exact absurd hcases hwaiting
    | write | read =>
      simp only [left, hcases, serverLeft]
      omega

end Cost

/-! ### Who waits -/

section Stuck

variable {doWrite : Connection → Nat → Bytes → Connection × Bytes} {requestRoom replyRoom : Nat}
  {s : Conversation} {lines : List Bytes}

/-- Each end waits in a write for the other one to read. -/
structure Crossed (requestRoom replyRoom : Nat) (s : Conversation) : Prop where
  client : ∃ line, s.client = .writeSome line
  toServer : requestRoom ≤ s.toServer.length
  server : s.session.waiting = .write
  toClient : replyRoom ≤ s.toClient.length

/-- The client has quit, and the server has noticed. -/
structure Over (s : Conversation) : Prop where
  client : s.client = .clientQuit
  server : s.session.waiting = .nothing

variable {Q : Action → Prop} (hQ : ∀ a : Action, a.isSlow = true → Q a)
  (hstuck : Stuck (Conversation.step doWrite requestRoom replyRoom) Q s)
include hQ hstuck

/-- A server that cannot go on waits for something to read, or for room, or has closed the
connection. -/
theorem server_of_stuck :
    s.session.waiting = .nothing ∨ (s.session.waiting = .read ∧ s.toServer = []) ∨
      (s.session.waiting = .write ∧ s.unsent ≠ [] ∧ replyRoom ≤ s.toClient.length) := by
  cases hwaiting : s.session.waiting with
  | nothing => exact .inl rfl
  | read =>
    refine .inr (.inl ⟨rfl, ?_⟩)
    have hread := hstuck (.readDone 1 Session.epochDaytime) (hQ _ rfl)
    by_contra hne
    have hpos : 1 ≤ s.toServer.length := List.length_pos_iff.mpr hne
    simp [Conversation.step, readDone, Session.step, hwaiting, hpos, dataSize] at hread
  | write =>
    have hdone := hstuck .writeDone (hQ _ rfl)
    have hsend := hstuck (.send 1) (hQ _ rfl)
    have hunsent : s.unsent ≠ [] := by
      intro hunsent
      simp [Conversation.step, writeDone, Session.step, hwaiting, hunsent] at hdone
    refine .inr (.inr ⟨rfl, hunsent, ?_⟩)
    have hpos : 1 ≤ s.unsent.length := List.length_pos_iff.mpr hunsent
    simp [Conversation.step, send, hwaiting, hpos] at hsend
    omega

/-- A client that cannot go on waits for something to read, or for room, or has quit. -/
theorem client_of_stuck (hline : ∀ line ∈ s.client.lines, line ≠ []) :
    s.client.hasQuit = true ∨ (s.client.reads = true ∧ s.toClient = []) ∨
      ((∃ line, s.client = .writeSome line) ∧ requestRoom ≤ s.toServer.length) := by
  have hgetline := hstuck .getline (hQ _ rfl)
  have hread := hstuck (.readSome 1) (hQ _ rfl)
  have hwrite := hstuck (.writeSome 1) (hQ _ rfl)
  simp only [Conversation.step, getline, readSome, Conversation.writeSome] at hgetline hread hwrite
  cases hclient : s.client with
  | clientQuit | serverQuit => exact .inl rfl
  | talkToServer =>
    cases hinput : s.input <;> simp [hclient, hinput] at hgetline
  | connect | readFromServer =>
    refine .inr (.inl ⟨rfl, ?_⟩)
    by_contra hne
    have hpos : 1 ≤ s.toClient.length := List.length_pos_iff.mpr hne
    simp [hclient, ClientPlace.reads, bufSize, hpos] at hread
  | writeSome line =>
    refine .inr (.inr ⟨⟨line, rfl⟩, ?_⟩)
    have hne := hline line (by simp [hclient, ClientPlace.lines])
    have hpos : 1 ≤ line.length := List.length_pos_iff.mpr hne
    simp [hclient, hpos] at hwrite
    omega

/-- When nobody can go on, the exchange is over, or both ends wait in a write. -/
theorem Ledger.over_or_crossed (h : s.Ledger requestRoom lines) (hrequest : 0 < requestRoom)
    (hreply : 0 < replyRoom) : s.Over ∨ s.Crossed requestRoom replyRoom := by
  rcases client_of_stuck hQ hstuck h.line with hquit | ⟨hreads, hempty⟩ | ⟨⟨line, hwrites⟩, hfull⟩
  · -- Whatever the server waits for fails.
    have hclient : s.client = .clientQuit := by
      cases hcases : s.client with
      | clientQuit => rfl
      | serverQuit => exact absurd hcases h.client
      | connect | talkToServer | writeSome | readFromServer =>
        simp [hcases, ClientPlace.hasQuit] at hquit
    refine .inl ⟨hclient, ?_⟩
    have hfail := hstuck .fail (hQ _ rfl)
    cases hwaiting : s.session.waiting with
    | nothing => rfl
    | write | read => simp [Conversation.step, fail, Session.step, hquit, hwaiting] at hfail
  · -- Something is under way to the client, and the server has room for it.
    have howed := h.owed hreads
    rcases server_of_stuck hQ hstuck with hnothing | ⟨hread, hnone⟩ | ⟨-, -, hroom⟩
    · exact absurd (h.closed hnothing) (by simp [(lines_of_reads hreads).2])
    · simp [hempty, hnone, h.sent hread] at howed
    · rw [hempty, List.length_nil] at hroom
      exact absurd hroom (Nat.not_le.mpr hreply)
  · rcases server_of_stuck hQ hstuck with hnothing | ⟨-, hnone⟩ | ⟨hwrite, -, hroom⟩
    · exact absurd (h.closed hnothing) (by simp [hwrites, ClientPlace.hasQuit])
    · rw [hnone, List.length_nil] at hfull
      exact absurd hfull (Nat.not_le.mpr hrequest)
    · exact .inr ⟨⟨line, hwrites⟩, hfull, hwrite, hroom⟩

end Stuck

/-! ### Runs -/

section Runs

variable {doWrite : Connection → Nat → Bytes → Connection × Bytes} {requestRoom replyRoom : Nat}
  {data : Vector UInt8 dataSize} {daytime : Daytime} {lines : List Bytes} {as : List Action}
  {s : Conversation}

/-- In every run, however the bytes are cut into pieces, the client prints the responses of the
server one after the other, each response belongs to the bytes that were read before it, and these
are one after the other the pieces of the lines that the client has written. A client that has quit
has written a piece of each line up to the first empty one. The server never ends the exchange. -/
theorem echoes_of_run (hexact : Exact doWrite requestRoom)
    (hrun : run (step doWrite requestRoom replyRoom) (start doWrite data daytime lines) as =
      some s) :
    s.printed.flatten ++ (s.toClient ++ s.unsent) = s.session.sent.flatten ∧
      List.Forall₂ Answers ([] :: s.texts) s.session.sent ∧
      s.texts.flatten ++ s.toServer = s.written.flatten ∧
      (∃ taken, taken <+: lines ∧ List.Forall₂ PieceOf taken s.written ∧
        (s.client = .clientQuit → taken = lines.takeWhile (· ≠ []))) ∧
      (s.client.reads = false → s.printed.length = s.written.length + 1) ∧
      s.client ≠ .serverQuit := by
  have h := ledger_of_run hexact hrun
  obtain ⟨taken, hpieces, htaken, -, hquit⟩ := h.written
  refine ⟨h.received, h.served, h.asked,
    ⟨taken, htaken, hpieces, fun hclient ↦ hquit (by rw [hclient]; rfl)⟩, fun hreads ↦ ?_, h.client⟩
  have hturns := h.turns
  rwa [hreads] at hturns

/-- Only a part of the line is written, and the client quits at the end of its input. -/
def partOfALine : List Action :=
  [.send 30, .readSome 20, .send 3, .writeDone, .getline, .writeSome 1, .readSome 13,
    .readDone 1 Session.epochDaytime, .send 34, .getline, .fail]

theorem echoes_of_run_partOfALine :
    ∃ s, run (step Connection.doWriteShared 2 40)
        (start Connection.doWriteShared Session.zeroData Session.epochDaytime [ascii "hi"])
        partOfALine = some s ∧
      s.printed.flatten ++ (s.toClient ++ s.unsent) = s.session.sent.flatten ∧
      List.Forall₂ Answers ([] :: s.texts) s.session.sent ∧
      s.texts.flatten ++ s.toServer = s.written.flatten ∧
      (∃ taken, taken <+: [ascii "hi"] ∧ List.Forall₂ PieceOf taken s.written ∧
        (s.client = .clientQuit → taken = [ascii "hi"].takeWhile (· ≠ []))) ∧
      (s.client.reads = false → s.printed.length = s.written.length + 1) ∧
      s.client ≠ .serverQuit := by
  obtain ⟨s, hs⟩ : ∃ s, run (step Connection.doWriteShared 2 40)
      (start Connection.doWriteShared Session.zeroData Session.epochDaytime [ascii "hi"])
      partOfALine = some s := ⟨_, rfl⟩
  exact ⟨s, hs, echoes_of_run (exact_doWriteShared 2) hs⟩

/-- Every run comes to an end, and the exchange is over then unless both ends wait in a write for
the other one to read. -/
theorem ends_of_run (hexact : Exact doWrite requestRoom) (hrequest : 0 < requestRoom)
    (hreply : 0 < replyRoom)
    (hrun : run (step doWrite requestRoom replyRoom) (start doWrite data daytime lines) as =
      some s) :
    as.length ≤ 36 * lines.flatten.length + 3 * lines.length + 37 ∧
      (Stuck (step doWrite requestRoom replyRoom) (fun _ ↦ True) s →
        s.Over ∨ s.Crossed requestRoom replyRoom) := by
  refine ⟨?_, fun hstuck ↦
    (ledger_of_run hexact hrun).over_or_crossed (fun _ _ ↦ trivial) hstuck hrequest hreply⟩
  have hlength := length_add_le_of_run (I := Ledger requestRoom lines) (μ := left)
    (fun _ _ _ h hstep ↦ h.step hexact hstep) (fun _ _ _ h hstep ↦ h.left_lt hexact hstep) hrun
    (ledger_start hexact data daytime lines)
  have hstart : (start doWrite data daytime lines).left =
      36 * lines.flatten.length + 3 * lines.length + 37 := by
    have hwaiting : (start doWrite data daytime lines).session.waiting = .write := rfl
    rw [left, hwaiting, serverLeft, hexact.unsent_start, length_reply, daytime.size]
    simp only [start, clientLeft, linesLeft, List.length_nil]
    omega
  omega

/-- The client is about to write its second line when both directions are full. -/
def bothFull : List Action :=
  [.send 1, .readSome 1, .send 1, .getline, .writeSome 1, .readSome 1, .send 1, .getline]

theorem ends_of_run_bothFull :
    ∃ s, run (step Connection.doWrite 1 1)
        (start Connection.doWrite Session.zeroData Session.epochDaytime [ascii "a", ascii "b"])
        bothFull = some s ∧ s.Crossed 1 1 ∧
      bothFull.length ≤ 36 * [ascii "a", ascii "b"].flatten.length +
        3 * [ascii "a", ascii "b"].length + 37 ∧
      (Stuck (step Connection.doWrite 1 1) (fun _ ↦ True) s → s.Over ∨ s.Crossed 1 1) := by
  obtain ⟨s, hs, hcrossed⟩ : ∃ s, run (step Connection.doWrite 1 1)
      (start Connection.doWrite Session.zeroData Session.epochDaytime [ascii "a", ascii "b"])
      bothFull = some s ∧ s.Crossed 1 1 :=
    ⟨_, rfl, ⟨ascii "b", rfl⟩, Nat.le_refl 1, rfl, Nat.le_refl 1⟩
  exact ⟨s, hs, hcrossed, ends_of_run (exact_doWrite (by decide)) Nat.one_pos Nat.one_pos hs⟩

end Runs

end Conversation

end CppDemo.Asio.Echo
