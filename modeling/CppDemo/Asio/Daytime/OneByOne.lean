import CppDemo.Asio.Daytime.Delivery

/-!
# One client after the other

Whatever happens to the clients of the server that serves one after the other can happen in the same
order to the clients of the asynchronous server, which in addition has made the next socket before a
write is over. So the clients cannot tell the two servers apart while they do not overlap.

Source: `asio/daytime/server_sync.cpp`, `asio/daytime/server_async.cpp` and
`asio/daytime/client_sync.cpp`.

## Main definitions

* `SyncServer.work` : the work of a socket.
* `SyncServer.Follows` : the table of the other server at the same time.

## Main results

* `SyncServer.Follows.step` : the table follows each step.
* `SyncServer.follows_of_run` : each run is one of the asynchronous server.
-/

namespace CppDemo.Asio.Daytime

open Transition

namespace SyncServer

/-- The client whose socket the asynchronous server has made already. -/
def ahead (u : SyncServer) : List Client :=
  match u.serving with
  | .accept => []
  | _ => [.new]

/-- The work of the socket with a number in the asynchronous server. -/
def work (u : SyncServer) (j : Nat) : Option Work :=
  match u.serving with
  | .accept => if j + 1 = u.clients.length then some .accept else none
  | .write _ written =>
    if j + 1 = u.clients.length then some (.write written)
    else if j = u.clients.length then some .accept else none
  | .ended => if j = u.clients.length then some .accept else none

/-- `T` is the table of the asynchronous server after the same actions. -/
structure Follows (u : SyncServer) (T : Table) : Prop where
  clients : T.clients = u.clients ++ u.ahead
  work : ∀ j, T.work j = u.work j
  message : ∀ msg written, u.serving = .write msg written → ∀ i, u.Current i → T.message i = msg

variable {u v : SyncServer} {T : Table} {a : Action} {i : Nat}

theorem Current.lt (h : u.Current i) : i < u.clients.length := by
  have : i + 1 = u.clients.length := h
  omega

/-- A change in the front part of a list. -/
theorem modify_append {β : Type*} {l : List β} (h : i < l.length) (f : β → β) (r : List β) :
    (l ++ r).modify i f = l.modify i f ++ r := by
  refine List.ext_getElem? fun j ↦ ?_
  rw [List.getElem?_modify, List.getElem?_append, List.getElem?_append, List.length_modify,
    List.getElem?_modify]
  by_cases hj : j < l.length
  · rw [if_pos hj, if_pos hj]
  · have hij : i ≠ j := by omega
    rw [if_neg hj, if_neg hj]
    simp [hij]

namespace Follows

theorem work_accept (h : u.Follows T) (haccept : u.serving = .accept) (hi : u.Current i) :
    T.work i = some .accept := by
  rw [h.work, SyncServer.work, haccept]
  exact if_pos hi

theorem work_write (h : u.Follows T) {msg : Bytes} {written : Nat}
    (hwrite : u.serving = .write msg written) (hi : u.Current i) :
    T.work i = some (.write written) := by
  rw [h.work, SyncServer.work, hwrite]
  exact if_pos hi

/-- While a client is accepted, no socket has been made ahead. -/
theorem clients_accept (h : u.Follows T) (haccept : u.serving = .accept) :
    T.clients = u.clients := by
  rw [h.clients, ahead, haccept]
  exact List.append_nil _

theorem clients_write (h : u.Follows T) {msg : Bytes} {written : Nat}
    (hwrite : u.serving = .write msg written) : T.clients = u.clients ++ [.new] := by
  rw [h.clients, ahead, hwrite]

/-- The other server accepts the same client and makes the next socket. -/
theorem accepted (h : u.Follows T) (haccept : u.serving = .accept) (hi : u.Current i)
    (daytime : Bytes) :
    Follows { serving := .write daytime 0, clients := u.clients.modify i Client.connect }
      ({ T.put i (some (.write 0)) with
        message := Function.update T.message i daytime
        clients := T.clients.modify i Client.connect } : Table).doAccept where
  clients := by
    simp only [Table.doAccept, ahead, h.clients_accept haccept]
  work j := by
    have hlength : (T.clients.modify i Client.connect).length = u.clients.length := by
      rw [List.length_modify, h.clients_accept haccept]
    have hcurrent : i + 1 = u.clients.length := hi
    simp only [Table.doAccept, Table.put, SyncServer.work, hlength, List.length_modify]
    by_cases hj : j = u.clients.length
    · subst hj
      rw [Function.update_self, if_neg (by omega), if_pos rfl]
    · rw [Function.update_of_ne hj, if_neg hj]
      by_cases hij : j = i
      · rw [hij, Function.update_self, if_pos hcurrent]
      · rw [Function.update_of_ne hij, if_neg (by omega), h.work, SyncServer.work, haccept]
        exact if_neg fun hj' ↦ hij (by have : j + 1 = u.clients.length := hj'; omega)
  message msg written hwrite j hj := by
    obtain ⟨rfl, -⟩ : daytime = msg ∧ 0 = written := by simpa using hwrite
    have hcurrent : i + 1 = u.clients.length := hi
    obtain rfl : j = i := by
      have : j + 1 = (u.clients.modify i Client.connect).length := hj
      rw [List.length_modify] at this
      omega
    simp [Table.doAccept]

/-- The other server goes on with the next socket. -/
theorem acceptFailed (h : u.Follows T) (haccept : u.serving = .accept) (hi : u.Current i) :
    Follows { u with serving := .ended } (T.put i none).doAccept where
  clients := by simp only [Table.doAccept, Table.put, ahead, h.clients_accept haccept]
  work j := by
    have hcurrent : i + 1 = u.clients.length := hi
    simp only [Table.doAccept, Table.put, SyncServer.work, h.clients_accept haccept]
    by_cases hj : j = u.clients.length
    · subst hj
      rw [Function.update_self, if_pos rfl]
    · rw [Function.update_of_ne hj, if_neg hj]
      by_cases hij : j = i
      · rw [hij, Function.update_self]
      · rw [Function.update_of_ne hij, h.work, SyncServer.work, haccept]
        exact if_neg fun hj' ↦ hij (by have : j + 1 = u.clients.length := hj'; omega)
  message msg written hwrite := by simp at hwrite

theorem wrote (h : u.Follows T) {msg : Bytes} {written : Nat}
    (hwrite : u.serving = .write msg written) (hi : u.Current i) (next : Nat) (bytes : Bytes) :
    Follows { serving := .write msg next, clients := u.clients.modify i (·.receive bytes) }
      ((T.transfer i fun _ ↦ bytes).put i (some (.write next))) where
  clients := by
    simp only [Table.put, Table.transfer, ahead, h.clients_write hwrite]
    exact modify_append hi.lt _ _
  work j := by
    have hcurrent : i + 1 = u.clients.length := hi
    simp only [Table.put, Table.transfer, SyncServer.work, List.length_modify]
    by_cases hij : j = i
    · rw [hij, Function.update_self, if_pos hcurrent]
    · have hj : ¬j + 1 = u.clients.length := by omega
      rw [Function.update_of_ne hij, if_neg hj, h.work, SyncServer.work, hwrite]
      exact if_neg hj
  message msg' written' hwrite' j hj := by
    obtain ⟨rfl, -⟩ : msg = msg' ∧ next = written' := by simpa using hwrite'
    have hj' : u.Current j := by simpa [Current] using hj
    exact h.message msg written hwrite j hj'

/-- A write is over, and the socket that the other server has made already is made now. -/
theorem nextRound (h : u.Follows T) {msg : Bytes} {written : Nat}
    (hwrite : u.serving = .write msg written) (hi : u.Current i) :
    u.nextRound.Follows (T.put i none) where
  clients := by
    simp only [Table.put, SyncServer.nextRound, ahead, h.clients_write hwrite, List.append_nil]
  work j := by
    have hcurrent : i + 1 = u.clients.length := hi
    simp only [Table.put, SyncServer.nextRound, SyncServer.work, List.length_append,
      List.length_singleton, Nat.add_right_cancel_iff]
    by_cases hij : j = i
    · rw [hij, Function.update_self, if_neg (by omega)]
    · rw [Function.update_of_ne hij, h.work, SyncServer.work, hwrite]
      exact if_neg fun hj ↦ hij (by have : j + 1 = u.clients.length := hj; omega)
  message msg' written' hwrite' := by simp [SyncServer.nextRound] at hwrite'

/-- The clients do the same. -/
theorem clientStep (h : u.Follows T) {f g : Client → Option Client} {clients : List Client}
    (hfg : ∀ c c', f c = some c' → g c = some c')
    (hstep : Daytime.clientStep u.clients i f = some clients) :
    ∃ U, (Daytime.clientStep T.clients i g).map (fun clients ↦ { T with clients }) = some U ∧
      Follows { u with clients } U := by
  obtain ⟨c', hc', rfl⟩ := Option.map_eq_some_iff.mp hstep
  obtain ⟨c, hc, hfc⟩ := Option.bind_eq_some_iff.mp hc'
  have hlt : i < u.clients.length := (List.getElem?_eq_some_iff.mp hc).1
  have hset : T.clients.set i c' = u.clients.set i c' ++ u.ahead := by
    rw [h.clients, List.set_append_left i c' hlt]
  have hgc : T.clients[i]?.bind g = some c' := by
    rw [h.clients, List.getElem?_append_left hlt, hc]
    exact hfg c c' hfc
  refine ⟨{ T with clients := T.clients.set i c' }, by rw [Daytime.clientStep, hgc]; rfl, hset,
    fun j ↦ ?_, fun msg written hwrite j hj ↦ h.message msg written hwrite j ?_⟩
  · rw [h.work]
    simp only [SyncServer.work, List.length_set]
  · simpa [Current] using hj

/-- The socket of a client that reads is closed in the other server, if it is in this one. -/
theorem isNone_work (h : u.Follows T) (hi : i < u.clients.length) (hnot : ¬u.Current i) :
    (T.work i).isNone = true := by
  have hlast : i ≠ u.clients.length := Nat.ne_of_lt hi
  have hcurrent : ¬i + 1 = u.clients.length := hnot
  rw [h.work, SyncServer.work]
  split <;> simp [hcurrent, hlast]

/-- The other server follows each step. -/
theorem step (h : u.Follows T) (hstep : u.step a = some v) :
    ∃ U, T.step a = some U ∧ v.Follows U := by
  cases a with
  | accepted i daytime =>
    obtain ⟨⟨haccept, hi⟩, hstep⟩ := Option.ite_none_right_eq_some.mp hstep
    obtain rfl := Option.some.inj hstep
    exact ⟨_, by simp only [Table.step, h.work_accept haccept hi], h.accepted haccept hi daytime⟩
  | acceptFailed i =>
    obtain ⟨⟨haccept, hi⟩, hstep⟩ := Option.ite_none_right_eq_some.mp hstep
    obtain rfl := Option.some.inj hstep
    exact ⟨_, by simp only [Table.step, h.work_accept haccept hi], h.acceptFailed haccept hi⟩
  | wrote i n =>
    simp only [SyncServer.step] at hstep
    split at hstep
    · next msg written hwrite =>
      obtain ⟨⟨hi, hn⟩, hstep⟩ := Option.ite_none_right_eq_some.mp hstep
      obtain rfl := Option.some.inj hstep
      have hmessage := h.message msg written hwrite i hi
      refine ⟨_, ?_, h.wrote hwrite hi (written + n) ((msg.drop written).take n)⟩
      simp only [Table.step, h.work_write hwrite hi, hmessage, if_pos hn, Table.transfer]
    · exact absurd hstep (by simp)
  | writeDone i =>
    simp only [SyncServer.step] at hstep
    split at hstep
    · next msg written hwrite =>
      obtain ⟨hi, hstep⟩ := Option.ite_none_right_eq_some.mp hstep
      obtain rfl := Option.some.inj hstep
      have hmessage := h.message msg written hwrite i hi
      have hwrote := h.wrote hwrite hi msg.length (msg.drop written)
      have hcurrent : Current
          { serving := .write msg msg.length,
            clients := u.clients.modify i (·.receive (msg.drop written)) } i := by
        simpa [Current] using hi
      refine ⟨_, ?_, hwrote.nextRound rfl hcurrent⟩
      simp only [Table.step, h.work_write hwrite hi, Table.transfer, hmessage, Table.put,
        Function.update_idem]
    · exact absurd hstep (by simp)
  | writeFailed i =>
    simp only [SyncServer.step] at hstep
    split at hstep
    · next msg written hwrite =>
      obtain ⟨hi, hstep⟩ := Option.ite_none_right_eq_some.mp hstep
      obtain rfl := Option.some.inj hstep
      exact ⟨_, by simp only [Table.step, h.work_write hwrite hi], h.nextRound hwrite hi⟩
    · exact absurd hstep (by simp)
  | read i n =>
    obtain ⟨clients, hclients, rfl⟩ := Option.map_eq_some_iff.mp hstep
    exact h.clientStep (fun _ _ hread ↦ hread) hclients
  | eof i =>
    obtain ⟨clients, hclients, rfl⟩ := Option.map_eq_some_iff.mp hstep
    obtain ⟨c', hc', -⟩ := Option.map_eq_some_iff.mp hclients
    obtain ⟨c, hc, hc''⟩ := Option.bind_eq_some_iff.mp hc'
    obtain ⟨⟨-, hclosed, -⟩, -⟩ := Option.ite_none_right_eq_some.mp hc''
    have hnone := h.isNone_work (List.getElem?_eq_some_iff.mp hc).1 (by simpa using hclosed)
    refine h.clientStep (fun c c' heof ↦ ?_) hclients
    rwa [hnone, ← hclosed]
  | readFailed i =>
    obtain ⟨clients, hclients, rfl⟩ := Option.map_eq_some_iff.mp hstep
    exact h.clientStep (fun _ _ hfail ↦ hfail) hclients

end Follows

theorem follows_init : init.Follows Table.empty.doAccept where
  clients := rfl
  work j := by
    by_cases hj : j = 0
    · subst hj
      rfl
    · simp [Table.doAccept, Table.empty, SyncServer.work, init, hj]
  message msg written hwrite := by simp [init] at hwrite

/-- The asynchronous server has every run of the server that serves one client after the other, in
which its clients are in the same states. So a client of that server as well prints the front of the
daytime at which it was accepted, and all of it if it finishes, unless its write has failed. -/
theorem follows_of_run {as : List Action} (hrun : run step init as = some u) :
    (∃ s : AsyncServer, run AsyncServer.step AsyncServer.init as = some s ∧
        ∀ (i : Nat) (c : Client), u.clients[i]? = some c → s.clients[i]? = some c) ∧
      ∀ (i : Nat) daytime c, .accepted i daytime ∈ as → u.clients[i]? = some c →
        c.printed ++ c.wire <+: daytime ∧
        (c.place = .finished → .writeFailed i ∉ as → c.printed = daytime) := by
  obtain ⟨T, hT, hfollows⟩ :=
    run_simulation (fun _ _ _ _ h hstep ↦ h.step hstep) hrun follows_init
  have hrel := AsyncServer.matches_run as
  rw [hT] at hrel
  obtain ⟨s, hs, -, rfl⟩ : ∃ s : AsyncServer, run AsyncServer.step AsyncServer.init as = some s ∧
      s.Matches T := by
    generalize run AsyncServer.step AsyncServer.init as = x at hrel
    cases hrel with
    | some h => exact ⟨_, rfl, h⟩
  have hclients : ∀ (i : Nat) (c : Client), u.clients[i]? = some c → s.clients[i]? = some c := by
    intro i c hc
    have hlt : i < u.clients.length := (List.getElem?_eq_some_iff.mp hc).1
    have happend : s.clients = u.clients ++ u.ahead := hfollows.clients
    rw [happend, List.getElem?_append_left hlt, hc]
  exact ⟨⟨s, hs, hclients⟩, fun i daytime c hmem hc ↦
    (Table.delivers_run hT).printed hmem (hclients i c hc)⟩

/-- A write that fails, a client that is served in two pieces, and an accept that fails. -/
def threeRounds : List Action :=
  [.accepted 0 (ascii "Mon\n"), .wrote 0 1, .writeFailed 0, .accepted 1 (ascii "Tue\n"),
    .wrote 1 3, .read 1 2, .writeDone 1, .read 1 2, .eof 1, .read 0 1, .acceptFailed 2, .eof 0]

theorem follows_of_run_threeRounds :
    ∃ u, run step init threeRounds = some u ∧
      (∃ s : AsyncServer, run AsyncServer.step AsyncServer.init threeRounds = some s ∧
        ∀ (i : Nat) (c : Client), u.clients[i]? = some c → s.clients[i]? = some c) ∧
      ∀ (i : Nat) daytime c, .accepted i daytime ∈ threeRounds → u.clients[i]? = some c →
        c.printed ++ c.wire <+: daytime ∧
        (c.place = .finished → .writeFailed i ∉ threeRounds → c.printed = daytime) :=
  ⟨_, rfl, follows_of_run (show run step init threeRounds = some _ from rfl)⟩

end SyncServer

end CppDemo.Asio.Daytime
