import CppDemo.Asio.Echo.Connection
import CppDemo.Foundation.Transition

/-!
# The array of a connection

A connection reads into `data_`, which has 1024 bytes, and builds its response there as well. The
response is longer than what was read by 33 bytes, so that it does not fit any more when more than
991 bytes have been read at once. The connection of the other program builds the response in a
buffer of its own, of the size of the response.

Source: `asio/allocation/allocation.cpp`, lines 103–149, and
`asio/buffer/reference_counted_buffer.cpp`, lines 110–165.

## Main definitions

* `Session.step` : a run of a connection, for either way of writing a response.
* `Session.responses` : the responses to what was read in a run.

## Main results

* `Session.Follows.run` : the two connections side by side.
* `Session.inBounds_iff_of_run` : the responses of a run fit exactly if no read gives more than 991
  bytes.
-/

namespace CppDemo.Asio.Echo

open Transition

/-- What `make_daytime_string` returns. -/
structure Daytime where
  text : Bytes
  size : text.length = 25

/-- The most bytes whose response fits into `data_`. -/
def maxRead : Nat := 991

namespace Connection

/-- A connection whose array holds `data`. -/
def ofData (data : Vector UInt8 dataSize) : Connection where
  data := data.toList
  data_size := data.size_toArray

/-- `doWrite` of `reference_counted_buffer.cpp`: the response is a buffer of its own. -/
def doWriteShared (self : Connection) (length : Nat) (daytime : Bytes) : Connection × Bytes :=
  (self, reply (self.data.take length) daytime)

variable (self : Connection)

/-- What was copied is cut off at the end of `data_`. -/
theorem take_copy_eq (bytes : Bytes) :
    (self.copy bytes).data.take bytes.length = bytes.take dataSize := by
  rcases Nat.le_total bytes.length dataSize with h | h
  · rw [take_copy self h, List.take_of_length_le h]
  · have hsize := (self.copy bytes).data_size
    rw [List.take_of_length_le (hsize ▸ h)]
    simp only [copy, List.take_append_of_le_length h]

theorem overrun_copy (bytes : Bytes) :
    (self.copy bytes).overrun = true ↔ self.overrun = true ∨ dataSize < bytes.length := by
  simp [copy]

/-- Reading nothing changes nothing. -/
theorem doRead_nil : self.doRead [] = self := by
  obtain ⟨data, hsize, overrun⟩ := self
  simp [doRead, copy, List.take_of_length_le (Nat.le_of_eq hsize)]

section Read

variable {bytes : Bytes} (h : bytes.length ≤ dataSize) (daytime : Bytes)
include h

theorem take_doRead : (self.doRead bytes).data.take bytes.length = bytes := take_copy self h

/-- The response to what was read is cut off at the end of `data_`. -/
theorem doWrite_doRead_snd :
    ((self.doRead bytes).doWrite bytes.length daytime).2 =
      (reply bytes daytime).take dataSize := by
  rw [doWrite, take_doRead self h]
  exact take_copy_eq _ _

theorem overrun_doWrite_doRead :
    ((self.doRead bytes).doWrite bytes.length daytime).1.overrun = true ↔
      self.overrun = true ∨ dataSize < (reply bytes daytime).length := by
  rw [doWrite, take_doRead self h, overrun_copy, doRead, overrun_copy]
  simp [Nat.not_lt.mpr h]

/-- The connection with a buffer of its own sends the whole response. -/
theorem doWriteShared_doRead_snd :
    ((self.doRead bytes).doWriteShared bytes.length daytime).2 = reply bytes daytime := by
  rw [doWriteShared, take_doRead self h]

end Read

end Connection

/-! ### Runs of a connection -/

/-- What a connection waits for. -/
inductive Waiting
  | write
  | read
  /-- An operation has failed. -/
  | nothing
  deriving DecidableEq, Repr

structure Session where
  connection : Connection
  waiting : Waiting
  /-- What was handed to `async_write`, in order. -/
  sent : List Bytes

namespace Session

/-- What happens to a connection. -/
inductive Action
  | writeDone (ok : Bool)
  /-- `async_read_some` returns bytes, and the response is built at a time. -/
  | readDone (bytes : Bytes) (daytime : Daytime)
  | readFailed

section Step

variable (doWrite : Connection → Nat → Bytes → Connection × Bytes)

/-- Build a response from the first `length` bytes of the array and start to write it. -/
def respond (s : Session) (length : Nat) (daytime : Daytime) : Session where
  connection := (doWrite s.connection length daytime.text).1
  waiting := .write
  sent := s.sent ++ [(doWrite s.connection length daytime.text).2]

/-- `start`: the first response is built from nothing. -/
def start (data : Vector UInt8 dataSize) (daytime : Daytime) : Session :=
  respond doWrite ⟨.ofData data, .write, []⟩ 0 daytime

/-- One step of a connection. A read gives as many bytes as the array has, at most. -/
def step (s : Session) : Action → Option Session
  | .writeDone ok =>
    match s.waiting with
    | .write => some { s with waiting := if ok then .read else .nothing }
    | _ => none
  | .readDone bytes daytime =>
    match s.waiting with
    | .read =>
      if bytes.length ≤ dataSize then
        some (respond doWrite { s with connection := s.connection.doRead bytes }
          bytes.length daytime)
      else none
    | _ => none
  | .readFailed =>
    match s.waiting with
    | .read => some { s with waiting := .nothing }
    | _ => none

/-- What a step can do. -/
theorem step_cases {s t : Session} {a : Action} (h : step doWrite s a = some t) :
    (∃ ok, a = .writeDone ok ∧ s.waiting = .write ∧
      t = { s with waiting := if ok then .read else .nothing }) ∨
    (∃ bytes daytime, a = .readDone bytes daytime ∧ s.waiting = .read ∧ bytes.length ≤ dataSize ∧
      t = respond doWrite { s with connection := s.connection.doRead bytes }
        bytes.length daytime) ∨
    (a = .readFailed ∧ s.waiting = .read ∧ t = { s with waiting := .nothing }) := by
  cases a with
  | writeDone ok =>
    simp only [step] at h
    split at h
    · exact .inl ⟨ok, rfl, ‹_›, (Option.some.inj h).symm⟩
    · exact absurd h (by simp)
  | readDone bytes daytime =>
    simp only [step] at h
    split at h
    · obtain ⟨hbytes, h⟩ := Option.ite_none_right_eq_some.mp h
      exact .inr (.inl ⟨bytes, daytime, rfl, ‹_›, hbytes, (Option.some.inj h).symm⟩)
    · exact absurd h (by simp)
  | readFailed =>
    simp only [step] at h
    split at h
    · exact .inr (.inr ⟨rfl, ‹_›, (Option.some.inj h).symm⟩)
    · exact absurd h (by simp)

end Step

/-- The response to what is read. -/
def Action.response : Action → Option Bytes
  | .readDone bytes daytime => some (reply bytes daytime.text)
  | _ => none

/-- The responses of a run. -/
def responses (daytime : Daytime) (as : List Action) : List Bytes :=
  reply [] daytime.text :: as.filterMap Action.response

/-- A response fits if the read gave at most 991 bytes. -/
theorem length_reply_le (bytes : Bytes) (daytime : Daytime) :
    (reply bytes daytime.text).length ≤ dataSize ↔ bytes.length ≤ maxRead := by
  rw [length_reply, daytime.size, dataSize, maxRead]
  omega

/-- All responses of a run fit if no read gave more than 991 bytes. -/
theorem responses_le_iff (daytime : Daytime) (as : List Action) :
    (∀ response ∈ responses daytime as, response.length ≤ dataSize) ↔
      ∀ bytes time, .readDone bytes time ∈ as → bytes.length ≤ maxRead := by
  rw [responses, List.forall_mem_cons,
    and_iff_right ((length_reply_le [] daytime).mpr (Nat.zero_le _))]
  constructor
  · intro h bytes time hread
    exact (length_reply_le bytes time).mp
      (h _ (List.mem_filterMap.mpr ⟨_, hread, rfl⟩))
  · intro h response hresponse
    obtain ⟨a, ha, hresponse⟩ := List.mem_filterMap.mp hresponse
    cases a with
    | readDone bytes time =>
      obtain rfl := Option.some.inj hresponse
      exact (length_reply_le bytes time).mpr (h bytes time ha)
    | writeDone | readFailed => exact absurd hresponse (by simp [Action.response])

/-- The connection with buffers of its own sends the responses as they are. -/
theorem sent_of_run {s t : Session} {as : List Action}
    (hrun : run (step Connection.doWriteShared) s as = some t) :
    t.sent = s.sent ++ as.filterMap Action.response := by
  refine run_history (P := fun as t ↦ t.sent = s.sent ++ as.filterMap Action.response)
    (fun as u a v hsent hstep ↦ ?_) hrun (by simp)
  rw [List.filterMap_append, ← List.append_assoc, ← hsent]
  obtain ⟨ok, rfl, -, rfl⟩ | ⟨bytes, daytime, rfl, -, hbytes, rfl⟩ | ⟨rfl, -, rfl⟩ :=
    step_cases _ hstep
  · exact (List.append_nil u.sent).symm
  · rw [respond, Connection.doWriteShared_doRead_snd _ hbytes]
    rfl
  · exact (List.append_nil u.sent).symm

/-! ### The two connections side by side -/

/-- `s` belongs to the connection that builds the responses in `data_`, and `u` to the one that
builds them in buffers of their own. -/
structure Follows (s u : Session) : Prop where
  waiting : u.waiting = s.waiting
  sent : s.sent = u.sent.map (·.take dataSize)
  overrun : s.connection.overrun = true ↔ ∃ response ∈ u.sent, dataSize < response.length

/-- Both build a response to what they have read. -/
theorem Follows.read {s u : Session} (h : Follows s u) {bytes : Bytes}
    (hbytes : bytes.length ≤ dataSize) (daytime : Daytime) :
    Follows
      (respond Connection.doWrite { s with connection := s.connection.doRead bytes }
        bytes.length daytime)
      (respond Connection.doWriteShared { u with connection := u.connection.doRead bytes }
        bytes.length daytime) where
  waiting := rfl
  sent := by
    simp only [respond, Connection.doWrite_doRead_snd _ hbytes,
      Connection.doWriteShared_doRead_snd _ hbytes, h.sent, List.map_append, List.map_singleton]
  overrun := by
    simp only [respond, Connection.overrun_doWrite_doRead _ hbytes,
      Connection.doWriteShared_doRead_snd _ hbytes, h.overrun, List.mem_append,
      List.mem_singleton, or_and_right, exists_or, exists_eq_left]

/-- The first response is one to nothing. -/
theorem start_eq (doWrite : Connection → Nat → Bytes → Connection × Bytes)
    (data : Vector UInt8 dataSize) (daytime : Daytime) :
    start doWrite data daytime =
      respond doWrite ⟨(Connection.ofData data).doRead [], .write, []⟩ 0 daytime := by
  rw [Connection.doRead_nil]
  rfl

theorem follows_start (data data' : Vector UInt8 dataSize) (daytime : Daytime) :
    Follows (start Connection.doWrite data daytime)
      (start Connection.doWriteShared data' daytime) := by
  have hinit : Follows ⟨.ofData data, .write, []⟩ ⟨.ofData data', .write, []⟩ :=
    ⟨rfl, rfl, by simp [Connection.ofData]⟩
  rw [start_eq, start_eq]
  exact hinit.read (Nat.zero_le _) daytime

/-- The connection with buffers of its own follows each step of the other one. -/
theorem Follows.step {s u t : Session} (h : Follows s u) {a : Action}
    (hstep : step Connection.doWrite s a = some t) :
    ∃ v, Session.step Connection.doWriteShared u a = some v ∧ Follows t v := by
  obtain ⟨ok, rfl, hwaiting, rfl⟩ | ⟨bytes, daytime, rfl, hwaiting, hbytes, rfl⟩ |
    ⟨rfl, hwaiting, rfl⟩ := step_cases _ hstep
  · refine ⟨{ u with waiting := if ok then .read else .nothing }, ?_, rfl, h.sent, h.overrun⟩
    simp only [Session.step, h.waiting, hwaiting]
  · refine ⟨_, ?_, h.read hbytes daytime⟩
    simp only [Session.step, h.waiting, hwaiting, if_pos hbytes]
  · refine ⟨{ u with waiting := .nothing }, ?_, rfl, h.sent, h.overrun⟩
    simp only [Session.step, h.waiting, hwaiting]

/-- The connection with buffers of its own follows each run of the other one. -/
theorem Follows.run {s u t : Session} (h : Follows s u) {as : List Action}
    (hrun : run (Session.step Connection.doWrite) s as = some t) :
    ∃ v, Transition.run (Session.step Connection.doWriteShared) u as = some v ∧ Follows t v :=
  run_simulation (fun _ _ _ _ hR hstep ↦ hR.step hstep) hrun h

/-- Nothing is written past the end of `data_` and the same is sent as by the other connection,
exactly if no response is longer than `data_`. -/
theorem Follows.inBounds_iff {s u : Session} (h : Follows s u) :
    s.connection.overrun = false ∧ s.sent = u.sent ↔
      ∀ response ∈ u.sent, response.length ≤ dataSize := by
  have hoverrun : s.connection.overrun = false ↔
      ∀ response ∈ u.sent, response.length ≤ dataSize := by
    simp only [← Bool.not_eq_true, h.overrun, not_exists, not_and, Nat.not_lt]
  rw [hoverrun, and_iff_left_iff_imp]
  intro hfits
  rw [h.sent]
  calc
    u.sent.map (·.take dataSize) = u.sent.map id :=
      List.map_congr_left fun response hresponse ↦
        List.take_of_length_le (hfits response hresponse)
    _ = u.sent := List.map_id _

/-- The responses of a run stay inside `data_` and are sent whole, as by the connection with buffers
of its own, exactly if no read gives more than 991 bytes. -/
theorem inBounds_iff_of_run (data data' : Vector UInt8 dataSize) (daytime : Daytime)
    {as : List Action} {s : Session}
    (hrun : run (step Connection.doWrite) (start Connection.doWrite data daytime) as = some s) :
    ∃ u, run (step Connection.doWriteShared) (start Connection.doWriteShared data' daytime) as =
        some u ∧ u.sent = responses daytime as ∧
      (s.connection.overrun = false ∧ s.sent = u.sent ↔
        ∀ bytes time, .readDone bytes time ∈ as → bytes.length ≤ maxRead) := by
  obtain ⟨u, hu, hfollows⟩ := (follows_start data data' daytime).run hrun
  have hsent : u.sent = responses daytime as := sent_of_run hu
  refine ⟨u, hu, hsent, ?_⟩
  rw [hfollows.inBounds_iff, hsent, responses_le_iff]

/-- The first second of the epoch. -/
def epochDaytime : Daytime := ⟨ascii "Thu Jan  1 00:00:00 1970\n", rfl⟩

/-- `data_` with zeros. -/
def zeroData : Vector UInt8 dataSize := Vector.replicate dataSize 0

/-- A client that sends two bytes. -/
def shortRun : List Action := [.writeDone true, .readDone (ascii "hi") epochDaytime]

/-- A client that sends 992 bytes, which are read at once. -/
def longRun : List Action :=
  [.writeDone true, .readDone (List.replicate 992 97) epochDaytime]

/-- A read can be followed by another one. -/
theorem run_writeDone_readDone (doWrite : Connection → Nat → Bytes → Connection × Bytes)
    (data : Vector UInt8 dataSize) (daytime time : Daytime) {bytes : Bytes}
    (h : bytes.length ≤ dataSize) :
    ∃ s, run (step doWrite) (start doWrite data daytime)
      [.writeDone true, .readDone bytes time] = some s :=
  ⟨_, (run_cons _).mpr ⟨_, rfl, (run_cons _).mpr ⟨_, if_pos h, rfl⟩⟩⟩

theorem inBounds_iff_of_run_hi :
    ∃ s, run (step Connection.doWrite) (start Connection.doWrite zeroData epochDaytime) shortRun =
        some s ∧
      ∃ u, run (step Connection.doWriteShared)
          (start Connection.doWriteShared zeroData epochDaytime) shortRun = some u ∧
        u.sent = responses epochDaytime shortRun ∧
        (s.connection.overrun = false ∧ s.sent = u.sent ↔
          ∀ bytes time, .readDone bytes time ∈ shortRun → bytes.length ≤ maxRead) := by
  obtain ⟨s, hs⟩ := run_writeDone_readDone Connection.doWrite zeroData epochDaytime epochDaytime
    (show (ascii "hi").length ≤ dataSize by decide)
  exact ⟨s, hs, inBounds_iff_of_run zeroData zeroData epochDaytime hs⟩

/-- A response to 992 bytes is written past the end of `data_`. -/
theorem overrun_longRun :
    ∃ s, run (step Connection.doWrite) (start Connection.doWrite zeroData epochDaytime) longRun =
      some s ∧ s.connection.overrun = true := by
  have hlength : (List.replicate 992 (97 : UInt8)).length = 992 := List.length_replicate
  obtain ⟨s, hs⟩ := run_writeDone_readDone Connection.doWrite zeroData epochDaytime epochDaytime
    (Nat.le_trans (Nat.le_of_eq hlength) (by decide))
  refine ⟨s, hs, ?_⟩
  obtain ⟨u, hu, hfollows⟩ := (follows_start zeroData zeroData epochDaytime).run hs
  have hread : .readDone (List.replicate 992 97) epochDaytime ∈ longRun :=
    List.mem_cons_of_mem _ List.mem_cons_self
  refine hfollows.overrun.mpr ⟨reply (List.replicate 992 97) epochDaytime.text, ?_, ?_⟩
  · have hsent : u.sent = responses epochDaytime longRun := sent_of_run hu
    rw [hsent]
    exact List.mem_cons_of_mem _ (List.mem_filterMap.mpr ⟨_, hread, rfl⟩)
  · rw [length_reply, hlength]
    decide

/-- Not every run stays inside `data_`. -/
theorem not_inBounds_longRun : ¬∀ (data data' : Vector UInt8 dataSize) (daytime : Daytime)
    (as : List Action) (s : Session),
    run (step Connection.doWrite) (start Connection.doWrite data daytime) as = some s →
      s.connection.overrun = false ∧
        ∃ u, run (step Connection.doWriteShared) (start Connection.doWriteShared data' daytime) as =
          some u ∧ s.sent = u.sent := by
  intro h
  obtain ⟨s, hs, hoverrun⟩ := overrun_longRun
  have hbounds := (h zeroData zeroData epochDaytime longRun s hs).1
  exact absurd (hoverrun.symm.trans hbounds) (by decide)

end Session

end CppDemo.Asio.Echo
