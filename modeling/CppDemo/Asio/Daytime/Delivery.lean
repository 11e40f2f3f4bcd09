import CppDemo.Asio.Daytime.Table

/-!
# What the daytime clients print

A client of the asynchronous server reads the daytime of its connection from the front, in pieces of
any size, and has the whole of it when it finishes, unless the write of its connection has failed.
The buffers of `async_write` are the bytes of `message_`, which is set once and outlives the write.

Source: `asio/daytime/server_async.cpp` and `asio/daytime/client_sync.cpp`.

## Main definitions

* `Link` : a connection with its client, after the actions so far.
* `Table.Delivers` : every connection and its client are as they should be.

## Main results

* `Table.Delivers.step` : every step keeps this.
* `AsyncServer.daytimes_of_run` : what the clients print in a run.
-/

namespace CppDemo.Asio.Daytime

open Transition

/-- A connection with this message and work, and its client, after the actions `as`. -/
structure Link (as : List Action) (i : Nat) (message : Bytes) (work : Option Work) (c : Client) :
    Prop where
  waiting : work = some .accept → c = .new ∧ ∀ daytime, .accepted i daytime ∉ as
  /-- The message is the daytime at which the client was accepted. -/
  accepted : ∀ daytime, .accepted i daytime ∈ as → message = daytime
  stream : c.printed ++ c.wire <+: message
  writing : ∀ written, work = some (.write written) → c.printed ++ c.wire = message.take written
  done : work = none → .writeFailed i ∉ as → ∀ daytime, .accepted i daytime ∈ as →
    c.printed ++ c.wire = message
  finished : c.place = .finished → c.wire = [] ∧ work = none

variable {as : List Action} {a : Action} {i : Nat} {message : Bytes} {work : Option Work}
  {c : Client}

namespace Link

/-- What happens to another client makes no difference. -/
theorem other (h : Link as i message work c) (ha : a.client ≠ i) :
    Link (as ++ [a]) i message work c := by
  have haccepted : ∀ daytime, .accepted i daytime ∈ as ++ [a] → .accepted i daytime ∈ as := by
    intro daytime hmem
    rcases List.mem_append.mp hmem with hmem | hmem
    · exact hmem
    · exact absurd (congrArg Action.client (List.mem_singleton.mp hmem)).symm ha
  exact ⟨fun hwork ↦ ⟨(h.waiting hwork).1, fun d hd ↦ (h.waiting hwork).2 d (haccepted d hd)⟩,
    fun d hd ↦ h.accepted d (haccepted d hd), h.stream, h.writing,
    fun hwork hfailed d hd ↦ h.done hwork (fun hmem ↦ hfailed (List.mem_append.mpr (.inl hmem))) d
      (haccepted d hd), h.finished⟩

/-- A connection that waits for its client. -/
theorem new (hnot : ∀ daytime, .accepted i daytime ∉ as) : Link as i [] (some .accept) .new where
  waiting _ := ⟨rfl, hnot⟩
  accepted d hd := absurd hd (hnot d)
  stream := List.nil_prefix
  writing _ hwork := by simp at hwork
  done hwork := by simp at hwork
  finished hplace := by simp [Client.new] at hplace

/-- An action that does not accept the client adds nothing to what was accepted. -/
theorem mem_accepted_iff (ha : ∀ daytime, a ≠ .accepted i daytime) (daytime : Bytes) :
    .accepted i daytime ∈ as ++ [a] ↔ .accepted i daytime ∈ as := by
  rw [List.mem_append, List.mem_singleton, or_iff_left (Ne.symm (ha daytime))]

theorem accept (h : Link as i message (some .accept) c) (daytime : Bytes) :
    Link (as ++ [.accepted i daytime]) i daytime (some (.write 0)) c.connect := by
  obtain ⟨rfl, hnot⟩ := h.waiting rfl
  refine ⟨by simp, fun d hd ↦ ?_, List.nil_prefix, fun written hwork ↦ ?_, by simp,
    by simp [Client.connect]⟩
  · rcases List.mem_append.mp hd with hd | hd
    · exact absurd hd (hnot d)
    · simpa [eq_comm] using hd
  · obtain rfl : 0 = written := by simpa using hwork
    rfl

theorem acceptFailed (h : Link as i message (some .accept) c) :
    Link (as ++ [.acceptFailed i]) i message none c := by
  obtain ⟨rfl, hnot⟩ := h.waiting rfl
  have hnone : ∀ d, .accepted i d ∉ as ++ [.acceptFailed i] := fun d hd ↦
    hnot d ((mem_accepted_iff (by simp) d).mp hd)
  exact ⟨by simp, fun d hd ↦ absurd hd (hnone d), h.stream, by simp,
    fun _ _ d hd ↦ absurd hd (hnone d), by simp [Client.new]⟩

theorem wrote {written : Nat} (h : Link as i message (some (.write written)) c) (n : Nat) :
    Link (as ++ [.wrote i n]) i message (some (.write (written + n)))
      (c.receive ((message.drop written).take n)) := by
  have hstream : c.printed ++ (c.wire ++ (message.drop written).take n) =
      message.take (written + n) := by
    rw [← List.append_assoc, h.writing written rfl, List.take_add]
  refine ⟨by simp, fun d hd ↦ h.accepted d ((mem_accepted_iff (by simp) d).mp hd),
    hstream ▸ List.take_prefix _ _, fun next hnext ↦ ?_, by simp,
    fun hplace ↦ absurd (h.finished hplace).2 (by simp)⟩
  obtain rfl : written + n = next := by simpa using hnext
  exact hstream

theorem writeDone {written : Nat} (h : Link as i message (some (.write written)) c) :
    Link (as ++ [.writeDone i]) i message none (c.receive (message.drop written)) := by
  have hstream : c.printed ++ (c.wire ++ message.drop written) = message := by
    rw [← List.append_assoc, h.writing written rfl, List.take_append_drop]
  exact ⟨by simp, fun d hd ↦ h.accepted d ((mem_accepted_iff (by simp) d).mp hd),
    hstream.symm ▸ List.prefix_refl _, by simp, fun _ _ _ _ ↦ hstream,
    fun hplace ↦ absurd (h.finished hplace).2 (by simp)⟩

theorem writeFailed {written : Nat} (h : Link as i message (some (.write written)) c) :
    Link (as ++ [.writeFailed i]) i message none c :=
  ⟨by simp, fun d hd ↦ h.accepted d ((mem_accepted_iff (by simp) d).mp hd), h.stream, by simp,
    fun _ hfailed ↦ absurd (List.mem_append.mpr (.inr (List.mem_singleton_self _))) hfailed,
    fun hplace ↦ absurd (h.finished hplace).2 (by simp)⟩

/-- The client goes on, and the bytes on their way to it and printed stay the same. -/
theorem client {c' : Client} (h : Link as i message work c)
    (ha : ∀ daytime, a ≠ .accepted i daytime) (hplace : c.place = .reading)
    (hstream : c'.printed ++ c'.wire = c.printed ++ c.wire)
    (hfinished : c'.place = .finished → c'.wire = [] ∧ work = none) :
    Link (as ++ [a]) i message work c' := by
  refine ⟨fun hwork ↦ ?_, fun d hd ↦ h.accepted d ((mem_accepted_iff ha d).mp hd),
    hstream ▸ h.stream, fun written hwork ↦ hstream.trans (h.writing written hwork),
    fun hwork hfailed d hd ↦ hstream.trans (h.done hwork (fun hmem ↦
      hfailed (List.mem_append.mpr (.inl hmem))) d ((mem_accepted_iff ha d).mp hd)), hfinished⟩
  rw [(h.waiting hwork).1] at hplace
  exact absurd hplace (by simp [Client.new])

end Link

/-! ### All connections -/

/-- Every connection and its client are as they should be after the actions `as`, which are about
connections that have been made. -/
structure Table.Delivers (T : Table) (as : List Action) : Prop where
  link : ∀ i c, T.clients[i]? = some c → Link as i (T.message i) (T.work i) c
  idle : ∀ i, T.clients.length ≤ i → T.work i = none ∧ T.message i = []
  actions : ∀ a ∈ as, a.client < T.clients.length

namespace Table

/-- `U` differs from `T` at the connection `i` only. -/
structure ChangesAt (T U : Table) (i : Nat) : Prop where
  length : U.clients.length = T.clients.length
  other : ∀ j, j ≠ i → U.work j = T.work j ∧ U.message j = T.message j ∧
    U.clients[j]? = T.clients[j]?

variable {T U : Table}

/-- The client, the message and the work of one connection are changed. -/
theorem changesAt_modify (T : Table) (i : Nat) (work : Option Work) (message : Bytes)
    (f : Client → Client) :
    T.ChangesAt ⟨Function.update T.work i work, Function.update T.message i message,
      T.clients.modify i f⟩ i where
  length := List.length_modify f T.clients i
  other j hj :=
    ⟨Function.update_of_ne hj _ _, Function.update_of_ne hj _ _, by simp [Ne.symm hj]⟩

/-- The client alone is changed. -/
theorem changesAt_set (T : Table) (i : Nat) (c : Client) :
    T.ChangesAt { T with clients := T.clients.set i c } i where
  length := List.length_set
  other j hj := ⟨rfl, rfl, by simp [Ne.symm hj]⟩

theorem changesAt_put (T : Table) (i : Nat) (work : Option Work) :
    T.ChangesAt (T.put i work) i where
  length := rfl
  other _ hj := ⟨Function.update_of_ne hj _ _, rfl, rfl⟩

theorem changesAt_transfer (T : Table) (i : Nat) (bytes : Bytes → Bytes) (work : Option Work) :
    T.ChangesAt ((T.transfer i bytes).put i work) i where
  length := List.length_modify _ T.clients i
  other j hj := ⟨Function.update_of_ne hj _ _, rfl, by simp [put, transfer, Ne.symm hj]⟩

namespace Delivers

/-- A connection that has work has a client. -/
theorem exists_client (h : T.Delivers as) {w : Work} (hwork : T.work i = some w) :
    ∃ c, T.clients[i]? = some c := by
  by_contra hnone
  have hlength : T.clients.length ≤ i :=
    List.getElem?_eq_none_iff.mp (Option.eq_none_iff_forall_ne_some.mpr fun c hc ↦ hnone ⟨c, hc⟩)
  rw [(h.idle i hlength).1] at hwork
  exact absurd hwork (by simp)

/-- An action changes its own connection. -/
theorem change (h : T.Delivers as) (hU : T.ChangesAt U a.client) {c : Client}
    (hc : T.clients[a.client]? = some c) (c' : Client) (hc' : U.clients[a.client]? = some c')
    (hlink : Link (as ++ [a]) a.client (U.message a.client) (U.work a.client) c') :
    U.Delivers (as ++ [a]) where
  link j d hd := by
    by_cases hj : j = a.client
    · subst hj
      obtain rfl : c' = d := Option.some.inj (hc'.symm.trans hd)
      exact hlink
    · obtain ⟨hwork, hmessage, hclient⟩ := hU.other j hj
      rw [hwork, hmessage]
      exact (h.link j d (hclient.symm.trans hd)).other (Ne.symm hj)
  idle j hj := by
    have hlt : a.client < T.clients.length := (List.getElem?_eq_some_iff.mp hc).1
    rw [hU.length] at hj
    obtain ⟨hwork, hmessage, -⟩ := hU.other j (by omega)
    rw [hwork, hmessage]
    exact h.idle j hj
  actions b hb := by
    rw [hU.length]
    rcases List.mem_append.mp hb with hb | hb
    · exact h.actions b hb
    · rw [List.mem_singleton.mp hb]
      exact (List.getElem?_eq_some_iff.mp hc).1

/-- The next connection is made. -/
theorem doAccept (h : T.Delivers as) : T.doAccept.Delivers as where
  link j d hd := by
    rw [Table.doAccept, List.getElem?_append] at hd
    simp only [Table.doAccept]
    split_ifs at hd with hj
    · rw [Function.update_of_ne (Nat.ne_of_lt hj)]
      exact h.link j d hd
    · obtain ⟨hlast, rfl⟩ : j = T.clients.length ∧ .new = d := by
        have hzero : j - T.clients.length = 0 := by
          by_contra hpos
          rw [List.getElem?_eq_none (Nat.succ_le_of_lt (Nat.pos_of_ne_zero hpos))] at hd
          exact absurd hd (by simp)
        rw [hzero] at hd
        exact ⟨by omega, by simpa using hd⟩
      rw [hlast, Function.update_self, (h.idle _ (Nat.le_refl _)).2]
      exact .new fun daytime hmem ↦ Nat.lt_irrefl _ (h.actions _ hmem)
  idle j hj := by
    have hlt : T.clients.length < j := Nat.lt_of_succ_le (by simpa [Table.doAccept] using hj)
    simp only [Table.doAccept]
    rw [Function.update_of_ne (Nat.ne_of_gt hlt)]
    exact h.idle j (Nat.le_of_lt hlt)
  actions b hb := by
    have hlt := h.actions b hb
    rw [Table.doAccept, List.length_append]
    omega

/-- A step of a client that reads. -/
theorem clientStep (h : T.Delivers as) (hclient : a.client = i)
    (ha : ∀ daytime, a ≠ .accepted i daytime) {f : Client → Option Client}
    (hf : ∀ c c', T.clients[i]? = some c → f c = some c' → c.place = .reading ∧
      c'.printed ++ c'.wire = c.printed ++ c.wire ∧
      (c'.place = .finished → c'.wire = [] ∧ T.work i = none))
    (hstep : (Daytime.clientStep T.clients i f).map (fun clients ↦ { T with clients }) = some U) :
    U.Delivers (as ++ [a]) := by
  subst hclient
  obtain ⟨clients, hclients, rfl⟩ := Option.map_eq_some_iff.mp hstep
  obtain ⟨c', hc', rfl⟩ := Option.map_eq_some_iff.mp hclients
  obtain ⟨c, hc, hfc⟩ := Option.bind_eq_some_iff.mp hc'
  obtain ⟨hplace, hstream, hfinished⟩ := hf c c' hc hfc
  refine h.change (T.changesAt_set a.client c') hc c' ?_ ?_
  · rw [List.getElem?_set_self (List.getElem?_eq_some_iff.mp hc).1]
  · exact (h.link _ c hc).client ha hplace hstream hfinished

/-- Every step keeps what the clients print and will print. -/
theorem step (h : T.Delivers as) (hstep : T.step a = some U) : U.Delivers (as ++ [a]) := by
  cases a with
  | accepted i daytime =>
    simp only [Table.step] at hstep
    split at hstep
    · next hwork =>
      obtain rfl := Option.some.inj hstep
      obtain ⟨c, hc⟩ := h.exists_client hwork
      refine (h.change (a := .accepted i daytime)
        (T.changesAt_modify i (some (.write 0)) daytime Client.connect) hc c.connect ?_ ?_).doAccept
      · simp [Action.client, hc]
      · have hlink := (hwork ▸ h.link i c hc).accept daytime
        simpa [Action.client] using hlink
    · exact absurd hstep (by simp)
  | acceptFailed i =>
    simp only [Table.step] at hstep
    split at hstep
    · next hwork =>
      obtain rfl := Option.some.inj hstep
      obtain ⟨c, hc⟩ := h.exists_client hwork
      refine (h.change (a := .acceptFailed i) (T.changesAt_put i none) hc c hc ?_).doAccept
      have hlink := (hwork ▸ h.link i c hc).acceptFailed
      simpa [Action.client, put] using hlink
    · exact absurd hstep (by simp)
  | wrote i n =>
    simp only [Table.step] at hstep
    split at hstep
    · next written hwork =>
      obtain ⟨-, hstep⟩ := Option.ite_none_right_eq_some.mp hstep
      obtain rfl := Option.some.inj hstep
      obtain ⟨c, hc⟩ := h.exists_client hwork
      refine h.change (T.changesAt_transfer i _ _) hc
        (c.receive (((T.message i).drop written).take n)) ?_ ?_
      · simp [Action.client, put, transfer, hc]
      · have hlink := (hwork ▸ h.link i c hc).wrote n
        simpa [Action.client, put, transfer] using hlink
    · exact absurd hstep (by simp)
  | writeDone i =>
    simp only [Table.step] at hstep
    split at hstep
    · next written hwork =>
      obtain rfl := Option.some.inj hstep
      obtain ⟨c, hc⟩ := h.exists_client hwork
      refine h.change (T.changesAt_transfer i _ _) hc (c.receive ((T.message i).drop written)) ?_ ?_
      · simp [Action.client, put, transfer, hc]
      · have hlink := (hwork ▸ h.link i c hc).writeDone
        simpa [Action.client, put, transfer] using hlink
    · exact absurd hstep (by simp)
  | writeFailed i =>
    simp only [Table.step] at hstep
    split at hstep
    · next written hwork =>
      obtain rfl := Option.some.inj hstep
      obtain ⟨c, hc⟩ := h.exists_client hwork
      refine h.change (T.changesAt_put i none) hc c hc ?_
      have hlink := (hwork ▸ h.link i c hc).writeFailed
      simpa [Action.client, put] using hlink
    · exact absurd hstep (by simp)
  | read i n =>
    refine h.clientStep rfl (by simp) (fun c c' hc hread ↦ ?_) hstep
    obtain ⟨⟨hplace, -⟩, hread⟩ := Option.ite_none_right_eq_some.mp hread
    obtain rfl := Option.some.inj hread
    exact ⟨hplace, by simp [List.append_assoc], fun hfinished ↦ by simp [hplace] at hfinished⟩
  | eof i =>
    refine h.clientStep rfl (by simp) (fun c c' hc heof ↦ ?_) hstep
    obtain ⟨⟨hplace, hclosed, hwire⟩, heof⟩ := Option.ite_none_right_eq_some.mp heof
    obtain rfl := Option.some.inj heof
    exact ⟨hplace, rfl, fun _ ↦ ⟨hwire, Option.isNone_iff_eq_none.mp hclosed⟩⟩
  | readFailed i =>
    refine h.clientStep rfl (by simp) (fun c c' hc hfail ↦ ?_) hstep
    obtain ⟨hplace, hfail⟩ := Option.ite_none_right_eq_some.mp hfail
    obtain rfl := Option.some.inj hfail
    exact ⟨hplace, rfl, by simp⟩

end Delivers

/-- Just one connection waits for a client. -/
def Accepting (T : Table) : Prop := ∃ i, ∀ j, T.work j = some .accept ↔ j = i

namespace Accepting

/-- The waiting connection is done with waiting, and the next one waits. -/
theorem doAccept_put (h : T.Accepting) (hwork : T.work i = some .accept) (work : Option Work)
    (hnot : work ≠ some .accept) : (T.put i work).doAccept.Accepting := by
  obtain ⟨k, hk⟩ := h
  obtain rfl := (hk i).mp hwork
  refine ⟨T.clients.length, fun j ↦ ?_⟩
  by_cases hj : j = T.clients.length
  · subst hj
    simp [Table.doAccept, put]
  · simp only [Table.doAccept, put, hj, iff_false]
    rw [Function.update_of_ne hj]
    by_cases hij : j = i
    · rw [hij, Function.update_self]
      exact hnot
    · rw [Function.update_of_ne hij, hk j]
      exact hij

/-- A connection that does not wait goes on. -/
theorem put (h : T.Accepting) {w : Option Work} (hwork : T.work i = w) (hw : w ≠ some .accept)
    {work : Option Work} (hnot : work ≠ some .accept) : (T.put i work).Accepting := by
  obtain ⟨k, hk⟩ := h
  refine ⟨k, fun j ↦ ?_⟩
  by_cases hij : j = i
  · subst hij
    have hjk : j ≠ k := fun hjk ↦ hw (hwork.symm.trans ((hk j).mpr hjk))
    simp only [Table.put, Function.update_self, hjk, iff_false]
    exact hnot
  · simp only [Table.put]
    rw [Function.update_of_ne hij]
    exact hk j

/-- After each step, just one connection waits for a client. -/
theorem step (h : T.Accepting) (hstep : T.step a = some U) : U.Accepting := by
  cases a with
  | accepted i daytime =>
    simp only [Table.step] at hstep
    split at hstep
    · next hwork =>
      obtain rfl := Option.some.inj hstep
      obtain ⟨k, hk⟩ := h.doAccept_put hwork (some (.write 0)) (by simp)
      exact ⟨k, fun j ↦ by simpa [Table.doAccept, Table.put] using hk j⟩
    · exact absurd hstep (by simp)
  | acceptFailed i =>
    simp only [Table.step] at hstep
    split at hstep
    · next hwork =>
      obtain rfl := Option.some.inj hstep
      exact h.doAccept_put hwork none (by simp)
    · exact absurd hstep (by simp)
  | wrote i n =>
    simp only [Table.step] at hstep
    split at hstep
    · next written hwork =>
      obtain ⟨-, hstep⟩ := Option.ite_none_right_eq_some.mp hstep
      obtain rfl := Option.some.inj hstep
      exact put (T := T.transfer i _) h hwork (by simp) (by simp)
    · exact absurd hstep (by simp)
  | writeDone i =>
    simp only [Table.step] at hstep
    split at hstep
    · next written hwork =>
      obtain rfl := Option.some.inj hstep
      exact put (T := T.transfer i _) h hwork (by simp) (by simp)
    · exact absurd hstep (by simp)
  | writeFailed i =>
    simp only [Table.step] at hstep
    split at hstep
    · next written hwork =>
      obtain rfl := Option.some.inj hstep
      exact h.put hwork (by simp) (by simp)
    · exact absurd hstep (by simp)
  | read i n | eof i | readFailed i =>
    obtain ⟨clients, -, rfl⟩ := Option.map_eq_some_iff.mp hstep
    exact h

end Accepting

end Table

/-! ### Runs -/

namespace Table

variable {T : Table}

theorem delivers_empty : Table.empty.Delivers [] where
  link i c hc := by simp [Table.empty] at hc
  idle _ _ := ⟨rfl, rfl⟩
  actions a ha := absurd ha List.not_mem_nil

theorem accepting_init : Table.empty.doAccept.Accepting := by
  refine ⟨0, fun j ↦ ?_⟩
  by_cases hj : j = 0
  · subst hj
    simp [Table.doAccept, Table.empty]
  · simp [Table.doAccept, Table.empty, hj]

theorem delivers_run (hrun : run step Table.empty.doAccept as = some T) : T.Delivers as :=
  run_history (P := fun as T ↦ T.Delivers as) (fun _ _ _ _ h hstep ↦ h.step hstep) hrun
    delivers_empty.doAccept

/-- What a client that has been accepted prints. -/
theorem Delivers.printed (h : T.Delivers as) {daytime : Bytes}
    (hmem : .accepted i daytime ∈ as) (hc : T.clients[i]? = some c) :
    c.printed ++ c.wire <+: daytime ∧
      (c.place = .finished → .writeFailed i ∉ as → c.printed = daytime) := by
  have hlink := h.link i c hc
  have hmessage := hlink.accepted daytime hmem
  refine ⟨hmessage ▸ hlink.stream, fun hplace hfailed ↦ ?_⟩
  obtain ⟨hwire, hwork⟩ := hlink.finished hplace
  have hdone := hlink.done hwork hfailed daytime hmem
  rw [hwire, List.append_nil] at hdone
  exact hdone.trans hmessage

end Table

namespace AsyncServer

/-- In every run, just one `async_accept` is outstanding, a connection is alive if and only if it
has an operation, which is the only one, and none is used after its end. What a client has printed
and can still read is the front of the daytime at which it was accepted. A client that finishes has
printed all of it, unless the write of its connection has failed. -/
theorem daytimes_of_run {s : AsyncServer} (hrun : run step init as = some s) :
    s.fault = false ∧ (∃ i, ∀ j, s.workOf j = some .accept ↔ j = i) ∧
      (∀ i, s.useCount i = s.conns.count i ∧ s.conns.count i ≤ 1) ∧
      ∀ i daytime, .accepted i daytime ∈ as → ∃ c, s.clients[i]? = some c ∧
        c.printed ++ c.wire <+: daytime ∧
        (c.place = .finished → .writeFailed i ∉ as → c.printed = daytime) := by
  have hrel := matches_run as
  rw [hrun] at hrel
  obtain ⟨T, hT, hfits, rfl⟩ : ∃ T, run Table.step Table.empty.doAccept as = some T ∧
      Matches s T := by
    generalize run Table.step Table.empty.doAccept as = x at hrel
    cases hrel with
    | some h => exact ⟨_, rfl, h⟩
  have hdelivers := Table.delivers_run hT
  have haccepting : s.view.Accepting :=
    run_invariant (fun _ _ _ h hstep ↦ Table.Accepting.step h hstep) hT Table.accepting_init
  refine ⟨hfits.fault, haccepting, hfits.balanced.useCount_eq, fun i daytime hmem ↦ ?_⟩
  have hlt : i < s.clients.length := hdelivers.actions _ hmem
  obtain ⟨c, hc⟩ : ∃ c, s.clients[i]? = some c := ⟨_, List.getElem?_eq_getElem hlt⟩
  exact ⟨c, hc, hdelivers.printed hmem hc⟩

/-- The second client is accepted and served while the write to the first one goes on, which fails
in the end. In between an accept fails. -/
def overtaken : List Action :=
  [.accepted 0 (ascii "Mon\n"), .wrote 0 2, .accepted 1 (ascii "Tue\n"), .writeDone 1,
    .acceptFailed 2, .read 0 1, .writeFailed 0, .read 1 4, .eof 1, .read 0 1, .eof 0]

theorem daytimes_of_run_overtaken :
    ∃ s, run step init overtaken = some s ∧
      s.fault = false ∧ (∃ i, ∀ j, s.workOf j = some .accept ↔ j = i) ∧
      (∀ i, s.useCount i = s.conns.count i ∧ s.conns.count i ≤ 1) ∧
      ∀ i daytime, .accepted i daytime ∈ overtaken → ∃ c, s.clients[i]? = some c ∧
        c.printed ++ c.wire <+: daytime ∧
        (c.place = .finished → .writeFailed i ∉ overtaken → c.printed = daytime) :=
  ⟨_, rfl, daytimes_of_run (show run step init overtaken = some _ from rfl)⟩

end AsyncServer

end CppDemo.Asio.Daytime
