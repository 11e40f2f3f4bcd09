import CppDemo.Asio.Daytime.Server
import Mathlib.Logic.Function.Basic

/-!
# The asynchronous server as a table

What the asynchronous server does can be read off a table that gives the work of each connection,
its message and its client. The table knows nothing of pointers: a connection is alive as long as it
has work. The server refines it, which needs that a connection never has two operations, and that it
is owned by the one that it has.

Source: `asio/daytime/server_async.cpp`.

## Main definitions

* `Table.step` : the table that comes next.
* `AsyncServer.view` : the table of a server.
* `AsyncServer.Fits` : the owners of the connections while the code holds some pointers.

## Main results

* `AsyncServer.matches_step` : the server does what its table does, and keeps the counts right.
* `AsyncServer.matches_run` : it has the runs of its table.
-/

namespace CppDemo.Asio.Daytime

open Transition

/-- What each connection does, by number. -/
@[ext] structure Table where
  work : Nat → Option Work
  message : Nat → Bytes
  clients : List Client

namespace Table

/-- Nothing has been made. -/
def empty : Table := { work := fun _ ↦ none, message := fun _ ↦ [], clients := [] }

/-- The connection `i` goes on with other work, or is destroyed. -/
def put (T : Table) (i : Nat) (work : Option Work) : Table :=
  { T with work := Function.update T.work i work }

/-- The next connection waits for a client. -/
def doAccept (T : Table) : Table where
  work := Function.update T.work T.clients.length (some .accept)
  message := T.message
  clients := T.clients ++ [.new]

/-- Bytes of the message are written. -/
def transfer (T : Table) (i : Nat) (bytes : Bytes → Bytes) : Table :=
  { T with clients := T.clients.modify i (·.receive (bytes (T.message i))) }

def step (T : Table) : Action → Option Table
  | .accepted i daytime =>
    match T.work i with
    | some .accept =>
      some
        ({ T.put i (some (.write 0)) with
          message := Function.update T.message i daytime
          clients := T.clients.modify i Client.connect } : Table).doAccept
    | _ => none
  | .acceptFailed i =>
    match T.work i with
    | some .accept => some (T.put i none).doAccept
    | _ => none
  | .wrote i n =>
    match T.work i with
    | some (.write written) =>
      if 0 < n ∧ written + n < (T.message i).length then
        some ((T.transfer i fun message ↦ (message.drop written).take n).put i
          (some (.write (written + n))))
      else none
    | _ => none
  | .writeDone i =>
    match T.work i with
    | some (.write written) => some ((T.transfer i fun message ↦ message.drop written).put i none)
    | _ => none
  | .writeFailed i =>
    match T.work i with
    | some (.write _) => some (T.put i none)
    | _ => none
  | .read i n => (clientStep T.clients i (·.read n)).map fun clients ↦ { T with clients }
  | .eof i =>
    (clientStep T.clients i (·.eof (T.work i).isNone)).map fun clients ↦ { T with clients }
  | .readFailed i => (clientStep T.clients i (·.fail)).map fun clients ↦ { T with clients }

end Table

namespace AsyncServer

/-- The table of a server. -/
def view (s : AsyncServer) : Table where
  work := s.workOf
  message := s.message
  clients := s.clients

/-- The connections that the operations own. -/
def conns (s : AsyncServer) : List Nat := s.pending.map PendingOp.conn

/-- What holds while the pointers `held` are kept by the code that runs. -/
structure Fits (s : AsyncServer) (held : Multiset Nat) : Prop where
  balanced : Shared.Balanced s.connections s.conns held
  fault : s.fault = false
  clients : s.clients.length = s.connections.length

variable {s t : AsyncServer} {held : Multiset Nat} {i j : Nat} {work : Work}

/-! ### The operations -/

theorem mem_conns : i ∈ s.conns ↔ ∃ op ∈ s.pending, op.conn = i := List.mem_map

theorem workOf_eq_none (h : i ∉ s.conns) : s.workOf i = none := by
  have hnone : s.pending.find? (fun op ↦ op.conn = i) = none := by
    rw [List.find?_eq_none]
    intro op hop hconn
    exact h (mem_conns.mpr ⟨op, hop, of_decide_eq_true hconn⟩)
  rw [workOf, hnone]
  rfl

theorem mem_pending_of_workOf (h : s.workOf i = some work) : ⟨i, work⟩ ∈ s.pending := by
  obtain ⟨op, hop, rfl⟩ := Option.map_eq_some_iff.mp h
  have hconn : op.conn = i := by simpa using List.find?_some hop
  exact hconn ▸ List.mem_of_find?_eq_some hop

theorem workOf_start (h : i ∉ s.conns) (work : Work) :
    (s.start i work).workOf = Function.update s.workOf i (some work) := by
  funext j
  by_cases hij : j = i
  · subst hij
    have hnone : s.pending.find? (fun op ↦ op.conn = j) = none :=
      Option.map_eq_none_iff.mp (workOf_eq_none h)
    rw [Function.update_self, workOf, start, List.find?_append, hnone]
    simp
  · rw [Function.update_of_ne hij, workOf, start, List.find?_append, workOf]
    simp [Ne.symm hij]

/-- What is removed does not matter to the search for something else. -/
theorem find?_erase {β : Type*} [DecidableEq β] {p : β → Bool} {b : β} (hb : ¬p b = true)
    (l : List β) : (l.erase b).find? p = l.find? p := by
  induction l with
  | nil => rfl
  | cons a l ih =>
    by_cases hab : a = b
    · subst hab
      rw [List.erase_cons_head, List.find?_cons_of_neg hb]
    · rw [List.erase_cons_tail (by simpa using hab)]
      by_cases ha : p a = true
      · rw [List.find?_cons_of_pos ha, List.find?_cons_of_pos ha]
      · rw [List.find?_cons_of_neg ha, List.find?_cons_of_neg ha, ih]

theorem workOf_take (h : i ∉ (s.take i work).conns) :
    (s.take i work).workOf = Function.update s.workOf i none := by
  funext j
  by_cases hij : j = i
  · subst hij
    rw [Function.update_self]
    exact workOf_eq_none h
  · have hfind := find?_erase (p := fun op : PendingOp ↦ op.conn = j) (b := ⟨i, work⟩)
      (by simpa using Ne.symm hij) s.pending
    rw [Function.update_of_ne hij, workOf, take, hfind, workOf]

/-! ### The owners -/

namespace Fits

/-- A connection that is alive may be used. -/
theorem fault_access (h : s.Fits held) (hpos : 0 < s.useCount i) : (s.access i).fault = false := by
  simp only [access, h.fault, Bool.false_or, beq_eq_false_iff_ne]
  exact Nat.ne_of_gt hpos

theorem retain (h : s.Fits held) (hi : i ∈ held) : (s.retain i).Fits (i ::ₘ held) where
  balanced := h.balanced.retain hi
  fault := h.fault_access (h.balanced.pos_of_mem_held hi)
  clients := by
    rw [AsyncServer.retain, Shared.retain, List.length_modify]
    exact h.clients

theorem release (h : s.Fits (i ::ₘ held)) : (s.release i).Fits held where
  balanced := h.balanced.release
  fault := h.fault_access (h.balanced.pos_of_mem_held (Multiset.mem_cons_self i held))
  clients := by
    rw [AsyncServer.release, Shared.release, List.length_modify]
    exact h.clients

theorem start (h : s.Fits (i ::ₘ held)) (hi : i ∉ s.conns) (work : Work) :
    (s.start i work).Fits held where
  balanced := by
    have hconns : (s.start i work).conns = s.conns ++ [i] := List.map_append
    rw [hconns]
    exact h.balanced.start hi
  fault := h.fault
  clients := h.clients

theorem take (h : s.Fits held) (hop : s.workOf i = some work) :
    (s.take i work).Fits (i ::ₘ held) ∧ i ∉ (s.take i work).conns := by
  have hperm := List.perm_cons_erase (mem_pending_of_workOf hop)
  obtain ⟨hbalanced, hnot⟩ := h.balanced.take (hperm.map PendingOp.conn)
  exact ⟨⟨hbalanced, h.fault, h.clients⟩, hnot⟩

/-- A connection with an operation is alive. -/
theorem pos_of_workOf (h : s.Fits held) (hop : s.workOf i = some work) : 0 < s.useCount i :=
  h.balanced.pos_of_mem_ops (List.mem_map_of_mem (f := PendingOp.conn) (mem_pending_of_workOf hop))

theorem doAccept (h : s.Fits held) : s.doAccept.Fits held := by
  have hmake : Fits { s with
      connections := Shared.make s.connections []
      clients := s.clients ++ [Client.new] } (s.connections.length ::ₘ held) :=
    ⟨h.balanced.make [], h.fault, by simp [Shared.make, h.clients]⟩
  have hcopy := hmake.retain (Multiset.mem_cons_self _ held)
  exact (hcopy.start h.balanced.length_not_mem .accept).release

theorem handle (h : s.Fits held) (hi : i ∈ held) (hnot : i ∉ s.conns) (daytime : Bytes) :
    (s.handle i daytime).Fits held := by
  have hset : Fits { s.access i with
      connections := Shared.update s.connections i fun _ ↦ daytime } held :=
    ⟨h.balanced.update i fun _ ↦ daytime, h.fault_access (h.balanced.pos_of_mem_held hi), by
      rw [Shared.update, List.length_modify]
      exact h.clients⟩
  exact (hset.retain hi).start hnot (.write 0)

theorem handleAccept (h : s.Fits {i}) (hnot : i ∉ s.conns) (daytime : Option Bytes) :
    (s.handleAccept i daytime).Fits {i} := by
  have hcopy := h.retain (Multiset.mem_singleton_self i)
  cases daytime with
  | none => exact hcopy.doAccept.release
  | some daytime =>
    exact (hcopy.handle (Multiset.mem_cons_self i _) hnot daytime).doAccept.release

end Fits

/-! ### The view of a server -/

theorem view_retain (s : AsyncServer) (i : Nat) : (s.retain i).view = s.view := by
  refine Table.ext rfl (funext fun j ↦ ?_) rfl
  simp only [view, message, retain, Shared.value?_retain]

theorem view_release (s : AsyncServer) (i : Nat) : (s.release i).view = s.view := by
  refine Table.ext rfl (funext fun j ↦ ?_) rfl
  simp only [view, message, release, Shared.value?_release]

theorem view_start (h : i ∉ s.conns) (work : Work) :
    (s.start i work).view = s.view.put i (some work) := Table.ext (workOf_start h work) rfl rfl

theorem view_take (h : i ∉ (s.take i work).conns) : (s.take i work).view = s.view.put i none :=
  Table.ext (workOf_take h) rfl rfl

/-- A connection that has not been made has no message. -/
theorem message_make (s : AsyncServer) (j : Nat) :
    (Shared.value? (Shared.make s.connections []) j).getD [] = s.message j := by
  rw [Shared.value?_make, message]
  by_cases hj : j = s.connections.length
  · rw [if_pos hj, hj, Shared.value?, List.getElem?_eq_none (Nat.le_refl _)]
    rfl
  · rw [if_neg hj]

theorem view_doAccept (h : s.Fits held) : s.doAccept.view = s.view.doAccept := by
  let made : AsyncServer := { s with
    connections := Shared.make s.connections []
    clients := s.clients ++ [Client.new] }
  have hstart :=
    view_start (s := made.retain s.connections.length) h.balanced.length_not_mem .accept
  have hmade : s.doAccept.view = made.view.put s.connections.length (some .accept) := by
    rw [← view_retain made s.connections.length, ← hstart]
    exact view_release _ _
  rw [hmade, ← h.clients]
  exact Table.ext rfl (funext (message_make s)) rfl

theorem view_handle (h : s.Fits held) (hi : i ∈ held) (hnot : i ∉ s.conns) (daytime : Bytes) :
    (s.handle i daytime).view =
      { s.view.put i (some (.write 0)) with
        message := Function.update s.message i daytime } := by
  let set : AsyncServer := { s.access i with
    connections := Shared.update s.connections i fun _ ↦ daytime }
  have hstart := view_start (s := set.retain i) hnot (.write 0)
  rw [view_retain] at hstart
  refine hstart.trans (Table.ext rfl (funext fun j ↦ ?_) rfl)
  obtain ⟨v, hv⟩ := Shared.exists_value?_of_pos (h.balanced.pos_of_mem_held hi)
  simp only [view, Table.put, message, set, Shared.value?_update]
  by_cases hij : i = j
  · subst hij
    rw [Function.update_self, hv]
    simp
  · rw [Function.update_of_ne (Ne.symm hij)]
    simp [hij, message]

theorem view_handleAccept (h : s.Fits {i}) (hnot : i ∉ s.conns) (daytime : Bytes) :
    (s.handleAccept i (some daytime)).view =
      ({ s.view.put i (some (.write 0)) with
        message := Function.update s.message i daytime } : Table).doAccept := by
  have hcopy := h.retain (Multiset.mem_singleton_self i)
  have hhandle := hcopy.handle (Multiset.mem_cons_self i _) hnot daytime
  have hview := view_handle hcopy (Multiset.mem_cons_self i _) hnot daytime
  rw [view_retain] at hview
  have hmessage : (s.retain i).message = s.message := congrArg Table.message (view_retain s i)
  rw [← hmessage, ← hview, ← view_doAccept hhandle]
  exact view_release _ _

theorem view_handleAccept_none (h : s.Fits {i}) :
    (s.handleAccept i none).view = s.view.doAccept := by
  have hcopy := h.retain (Multiset.mem_singleton_self i)
  rw [← view_retain s i, ← view_doAccept hcopy]
  exact view_release _ _

/-- A connection is alive if and only if it has work. -/
theorem useCount_eq_zero (h : s.Fits 0) (i : Nat) : (s.useCount i == 0) = (s.workOf i).isNone := by
  have hcount : s.useCount i = s.conns.count i := (h.balanced.useCount_eq i).1
  cases hwork : s.workOf i with
  | some work =>
    have hpos := h.pos_of_workOf hwork
    simpa using Nat.ne_of_gt hpos
  | none =>
    have hnot : i ∉ s.conns := by
      intro hi
      obtain ⟨op, hop, hconn⟩ := mem_conns.mp hi
      have hnone := Option.map_eq_none_iff.mp hwork
      exact List.find?_eq_none.mp hnone op hop (by simpa using hconn)
    simp [hcount, List.count_eq_zero.mpr hnot]

/-! ### Steps -/

/-- `t` is a server in good order with the table `T`. -/
def Matches (t : AsyncServer) (T : Table) : Prop := t.Fits 0 ∧ t.view = T

theorem matches_accepted (h : s.Fits 0) (hwork : s.workOf i = some .accept) (daytime : Bytes) :
    Matches (((s.take i .accept).handleAccept i (some daytime)).release i)
      ({ s.view.put i (some (.write 0)) with
        message := Function.update s.message i daytime } : Table).doAccept := by
  obtain ⟨htake, hnot⟩ := h.take hwork
  refine ⟨(htake.handleAccept hnot (some daytime)).release, ?_⟩
  rw [view_release, view_handleAccept htake hnot, view_take hnot]
  simp only [Table.put, Function.update_idem]
  rfl

theorem matches_acceptFailed (h : s.Fits 0) (hwork : s.workOf i = some .accept) :
    Matches (((s.take i .accept).handleAccept i none).release i)
      (s.view.put i none).doAccept := by
  obtain ⟨htake, hnot⟩ := h.take hwork
  refine ⟨(htake.handleAccept hnot none).release, ?_⟩
  rw [view_release, view_handleAccept_none htake, view_take hnot]

/-- Bytes of the message of a connection that is alive are written. -/
theorem matches_transfer (h : s.Fits 0) (hwork : s.workOf i = some work) (bytes : Bytes → Bytes) :
    Matches (s.transfer i bytes) (s.view.transfer i bytes) :=
  ⟨⟨h.balanced, h.fault_access (h.pos_of_workOf hwork), by
    rw [transfer, List.length_modify]
    exact h.clients⟩, rfl⟩

/-- The handler of a write does nothing more with the connection. -/
theorem matches_onWrite (h : s.Fits 0) (hwork : s.workOf i = some work) :
    Matches ((s.take i work).onWrite.release i) (s.view.put i none) := by
  obtain ⟨htake, hnot⟩ := h.take hwork
  have honWrite : (s.take i work).onWrite.Fits (i ::ₘ 0) :=
    ⟨htake.balanced, htake.fault, htake.clients⟩
  refine ⟨honWrite.release, ?_⟩
  rw [view_release, ← view_take hnot]
  rfl

/-- A write goes on. -/
theorem matches_start (h : s.Fits 0) (hwork : s.workOf i = some work) (next : Work) :
    Matches ((s.take i work).start i next) (s.view.put i (some next)) := by
  obtain ⟨htake, hnot⟩ := h.take hwork
  refine ⟨htake.start hnot next, ?_⟩
  rw [view_start hnot, view_take hnot]
  simp only [Table.put, Function.update_idem]

theorem matches_clientStep (h : s.Fits 0) (i : Nat) (f : Client → Option Client) :
    Option.Rel Matches ((clientStep s.clients i f).map fun clients ↦ { s with clients })
      ((clientStep s.clients i f).map fun clients ↦ { s.view with clients }) := by
  rw [clientStep]
  cases s.clients[i]?.bind f with
  | none => exact .none
  | some c => exact .some ⟨⟨h.balanced, h.fault, by simp [h.clients]⟩, rfl⟩

/-- The server does what its table does, and stays in good order. -/
theorem matches_step (h : s.Fits 0) (a : Action) :
    Option.Rel Matches (s.step a) (s.view.step a) := by
  have hview : ∀ i, s.view.work i = s.workOf i := fun _ ↦ rfl
  cases a with
  | accepted i daytime =>
    have hclients : Fits { s with clients := s.clients.modify i Client.connect } 0 :=
      ⟨h.balanced, h.fault, by simp [h.clients]⟩
    simp only [step, Table.step, hview]
    rcases hwork : s.workOf i with _ | _ | written
    · exact .none
    · exact .some (matches_accepted hclients hwork daytime)
    · exact .none
  | acceptFailed i =>
    simp only [step, Table.step, hview]
    rcases hwork : s.workOf i with _ | _ | written
    · exact .none
    · exact .some (matches_acceptFailed h hwork)
    · exact .none
  | wrote i n =>
    simp only [step, Table.step, hview, show s.view.message i = s.message i from rfl]
    rcases hwork : s.workOf i with _ | _ | written
    · exact .none
    · exact .none
    · simp only
      split_ifs
      · obtain ⟨htransfer, htable⟩ :=
          matches_transfer h hwork fun message ↦ (message.drop written).take n
        rw [← htable]
        exact .some (matches_start htransfer hwork _)
      · exact .none
  | writeDone i =>
    simp only [step, Table.step, hview]
    rcases hwork : s.workOf i with _ | _ | written
    · exact .none
    · exact .none
    · obtain ⟨htransfer, htable⟩ := matches_transfer h hwork fun message ↦ message.drop written
      simp only
      rw [← htable]
      exact .some (matches_onWrite htransfer hwork)
  | writeFailed i =>
    simp only [step, Table.step, hview]
    rcases hwork : s.workOf i with _ | _ | written
    · exact .none
    · exact .none
    · exact .some (matches_onWrite h hwork)
  | read i n => exact matches_clientStep h i (·.read n)
  | eof i =>
    simp only [step, Table.step, useCount_eq_zero h]
    exact matches_clientStep h i _
  | readFailed i => exact matches_clientStep h i (·.fail)

theorem matches_init : Matches init Table.empty.doAccept := by
  have hempty : Fits { connections := [], pending := [], clients := [], jobs := 0, fault := false }
      0 := ⟨.nil, rfl, rfl⟩
  exact ⟨hempty.doAccept, view_doAccept hempty⟩

/-- The server has the runs of its table. -/
theorem matches_run (as : List Action) :
    Option.Rel Matches (run step init as) (run Table.step Table.empty.doAccept as) :=
  run_rel (R := Matches) (fun _ _ a h ↦ h.2 ▸ matches_step h.1 a) matches_init as

end AsyncServer

end CppDemo.Asio.Daytime
