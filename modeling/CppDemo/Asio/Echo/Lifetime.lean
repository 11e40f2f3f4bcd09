import CppDemo.Asio.Echo.Server

/-!
# The life of the connections

The pointers to a connection are counted while a handler runs: those of the operations, and those
that the running code holds itself. Between two steps the code holds none, so that a connection is
owned by its operations alone. It has at most one, since a handler starts the next operation when
its own is over. The memory of an operation is back by then, and the storage of the connection is
free.

Source: `asio/allocation/allocation.cpp`, lines 75–170, and
`asio/buffer/reference_counted_buffer.cpp`, lines 76–186.

## Main definitions

* `ConnectionObject.Keeps` : the memory of a connection is that of its operations.
* `Server.Fits` : the counts, the memory and the operations while the code holds some pointers.

## Main results

* `Server.Fits.handle` : a handler gives back what it was called with.
* `Server.lifetimes_of_run` : a connection lives as long as its only operation, which has the
  storage of the connection whenever it fits.
* `Server.sessions_of_run` : each connection does what a connection does alone.
-/

namespace CppDemo.Asio.Echo

open Transition

namespace Server

/-! ### Counts, memory and operations -/

/-- The owners that the started operations are. -/
def selves (s : Server) : List Nat := s.pending.map PendingOp.self

/-- The started operations of a connection. -/
def opsOf (s : Server) (i : Nat) : List PendingOp := s.pending.filter fun op ↦ op.self = i

end Server

/-- The live blocks of `memory_` are those of the operations `ops`, and whoever has asked for less
than `sizeof(storage_)` has been given the storage. -/
structure ConnectionObject.Keeps (o : ConnectionObject) (ops : List PendingOp) : Prop where
  inv : o.memory.Inv
  live : o.memory.live = ops.map PendingOp.block
  origin : ∀ b ∈ o.memory.live, b.origin = .storage ↔ b.size < sizeofStorage
  released : ∀ r ∈ o.memory.released, r.2 = .storage ↔ r.1.size < sizeofStorage

/-- Memory for the only operation of a connection. -/
theorem ConnectionObject.Keeps.allocate {o : ConnectionObject} (h : o.Keeps []) {mem : OpMemory}
    {memory : HandlerMemory.State} {block : HandlerMemory.Live}
    (hallowed : mem.allowed o.memory = true)
    (hallocate : mem.allocate o.memory = some (memory, block)) (self : Nat) (kind : OpKind) :
    { o with memory }.Keeps [⟨self, kind, block⟩] := by
  have hlive : o.memory.live = [] := h.live
  have hfree : o.memory.memory.inUse = false := by
    by_contra hinUse
    obtain ⟨b, hb, -⟩ := h.inv.inUse.mp (by simpa using hinUse)
    rw [hlive] at hb
    exact List.not_mem_nil hb
  by_cases hsize : mem.size < sizeofStorage
  · obtain ⟨rfl, rfl⟩ : memory = { o.memory with
        memory := { o.memory.memory with inUse := true },
        live := ⟨o.memory.memory.inline, mem.size, .storage⟩ :: o.memory.live } ∧
        block = ⟨o.memory.memory.inline, mem.size, .storage⟩ := by
      simpa [OpMemory.allocate, HandlerMemory.allocate, hfree, hsize, eq_comm] using hallocate
    exact ⟨h.inv.useStorage hfree hsize, by simp [hlive], by simp [hlive, hsize], h.released⟩
  · obtain ⟨answer, hanswer, rfl, rfl⟩ : ∃ answer, mem.answer = some answer ∧
        memory = { o.memory with live := ⟨answer, mem.size, .heap⟩ :: o.memory.live } ∧
        block = ⟨answer, mem.size, .heap⟩ := by
      simpa [OpMemory.allocate, HandlerMemory.allocate, hsize, eq_comm] using hallocate
    have hmay : o.memory.MayAnswer mem.size answer := by
      simpa [OpMemory.allowed, hanswer] using hallowed
    exact ⟨h.inv.useHeap hmay, by simp [hlive], by simp [hlive, hsize], h.released⟩

/-- The memory of the only operation is given back. -/
theorem ConnectionObject.Keeps.release {o : ConnectionObject} {op : PendingOp}
    (h : o.Keeps [op]) : { o with memory := o.memory.release op.block }.Keeps [] := by
  have hlive : o.memory.live = [op.block] := h.live
  have hmem : op.block ∈ o.memory.live := by simp [hlive]
  have hrelease : (o.memory.release op.block).live = [] ∧
      (o.memory.release op.block).released =
        o.memory.released ++ [(op.block, op.block.origin)] := by
    rw [HandlerMemory.State.release, h.inv.deallocate_eq hmem]
    cases op.block.origin <;> simp [hlive]
  refine ⟨h.inv.release hmem, hrelease.1, by simp [hrelease.1], ?_⟩
  rw [hrelease.2]
  intro r hr
  rcases List.mem_append.mp hr with hr | hr
  · exact h.released r hr
  · obtain rfl := List.mem_singleton.mp hr
    exact h.origin _ hmem

namespace Server

/-- What holds while the pointers `held` are kept by the code that runs: the counts are right, no
connection has two operations, its memory is that of its operation, and there was no fault. -/
structure Fits (s : Server) (held : Multiset Nat) : Prop where
  balanced : Shared.Balanced s.connections s.selves held
  memory : ∀ i o, s.connection? i = some o → o.Keeps (s.opsOf i)
  fault : s.fault = false

theorem mem_selves {s : Server} {i : Nat} : i ∈ s.selves ↔ ∃ op ∈ s.pending, op.self = i :=
  List.mem_map

theorem opsOf_eq_nil {s : Server} {i : Nat} (h : i ∉ s.selves) : s.opsOf i = [] := by
  rw [opsOf, List.filter_eq_nil_iff]
  intro op hop hself
  exact h (mem_selves.mpr ⟨op, hop, of_decide_eq_true hself⟩)

variable {s : Server} {held : Multiset Nat} {i : Nat}

namespace Fits

/-- A connection that is alive may be used. -/
theorem fault_or_of_pos (h : s.Fits held) (hpos : 0 < s.useCount i) :
    (s.fault || s.useCount i == 0) = false := by
  rw [h.fault, Bool.false_or, beq_eq_false_iff_ne]
  exact Nat.ne_of_gt hpos

theorem fault_or (h : s.Fits held) (hi : i ∈ held) : (s.fault || s.useCount i == 0) = false :=
  h.fault_or_of_pos (h.balanced.pos_of_mem_held hi)

theorem retain (h : s.Fits held) (hi : i ∈ held) : (s.retain i).Fits (i ::ₘ held) where
  balanced := h.balanced.retain hi
  memory j o hj := h.memory j o ((connection?_retain s i j).symm.trans hj)
  fault := h.fault_or hi

theorem updateSession (h : s.Fits held) (hi : i ∈ held) (f : Session → Session) :
    (s.updateSession i f).Fits held where
  balanced := h.balanced.update i fun o ↦ { o with session := f o.session }
  memory j o hj := by
    rw [Server.updateSession, connection?_update] at hj
    obtain ⟨o', ho', rfl⟩ := Option.map_eq_some_iff.mp hj
    have hkeeps := h.memory j o' ho'
    by_cases hij : i = j
    · rw [if_pos hij]
      exact ⟨hkeeps.inv, hkeeps.live, hkeeps.origin, hkeeps.released⟩
    · rw [if_neg hij]
      exact hkeeps
  fault := h.fault_or hi

/-- When the last pointer goes, no operation has memory of the connection. -/
theorem release (h : s.Fits (i ::ₘ held)) : (s.release i).Fits held where
  balanced := h.balanced.release
  memory j o hj := h.memory j o ((connection?_release s i j).symm.trans hj)
  fault := by
    have hlast : (s.useCount i == 1 && s.inUse i) = false := by
      by_contra htrue
      obtain ⟨hone, hinUse⟩ : s.useCount i = 1 ∧ s.inUse i = true := by simpa using htrue
      obtain ⟨o, ho, huse⟩ := (Option.any_eq_true _ _).mp hinUse
      have hkeeps := h.memory i o ho
      obtain ⟨b, hb, -⟩ := hkeeps.inv.inUse.mp huse
      rw [hkeeps.live, opsOf_eq_nil (h.balanced.not_mem_ops_of_useCount_eq_one hone)] at hb
      exact List.not_mem_nil hb
    simp only [Server.release, h.fault_or (Multiset.mem_cons_self i held), hlast, Bool.or_self]

/-- An operation of a connection that has none takes over a pointer. -/
theorem startOp (h : s.Fits (i ::ₘ held)) (hi : i ∉ s.selves) (kind : OpKind) {mem : OpMemory}
    (hallows : s.allows i mem = true) : (s.startOp i kind mem).Fits held := by
  rw [Server.startOp]
  split
  · next memory block hsome =>
    obtain ⟨o, ho, hallocate⟩ := Option.bind_eq_some_iff.mp hsome
    let op : PendingOp := ⟨i, kind, block⟩
    have hselves : (s.pending ++ [op]).map PendingOp.self = s.selves ++ [i] := List.map_append
    refine ⟨?_, fun j o' hj ↦ ?_, h.fault_or (Multiset.mem_cons_self i held)⟩
    · have hstart := (h.balanced.update i fun o ↦ { o with memory }).start hi
      rwa [← hselves] at hstart
    · obtain ⟨o'', ho'', rfl⟩ :=
        Option.map_eq_some_iff.mp
          ((connection?_update s i (fun o ↦ { o with memory }) j).symm.trans hj)
      by_cases hij : i = j
      · subst hij
        obtain rfl : o = o'' := Option.some.inj (ho.symm.trans ho'')
        have hkeeps := h.memory i o ho
        rw [opsOf_eq_nil hi] at hkeeps
        have hallowed : mem.allowed o.memory = true := by
          simpa [allows, ho] using hallows
        have hops : (s.pending ++ [op]).filter (fun op ↦ op.self = i) = [op] := by
          have hnil : s.pending.filter (fun op ↦ op.self = i) = [] := opsOf_eq_nil hi
          rw [List.filter_append, hnil]
          simp [op]
        rw [if_pos rfl, opsOf, hops]
        exact hkeeps.allocate hallowed hallocate i kind
      · have hops : (s.pending ++ [op]).filter (fun op ↦ op.self = j) = s.opsOf j := by
          rw [List.filter_append]
          simp [opsOf, op, hij]
        rw [if_neg hij, opsOf, hops]
        exact h.memory j o'' ho''
  · exact ⟨h.release.balanced, h.release.memory, h.release.fault⟩

end Fits

theorem allows_retain (s : Server) (i j : Nat) (mem : OpMemory) :
    (s.retain i).allows j mem = s.allows j mem := by
  rw [allows, connection?_retain, allows]

theorem allows_updateSession (s : Server) (i j : Nat) (mem : OpMemory) (f : Session → Session) :
    (s.updateSession i f).allows j mem = s.allows j mem := by
  rw [allows, updateSession, connection?_update, allows]
  cases s.connection? j with
  | none => rfl
  | some o => by_cases hij : i = j <;> simp [hij]

namespace Fits

/-- The variable `self` and its copy come and go with the operation. -/
theorem asyncOp (h : s.Fits held) (hheld : i ∈ held) (hi : i ∉ s.selves) (kind : OpKind)
    {mem : OpMemory} (hallows : s.allows i mem = true) : (s.asyncOp i kind mem).Fits held := by
  have hself := h.retain hheld
  have hcopy := hself.retain (Multiset.mem_cons_self i held)
  exact (hcopy.startOp hi kind (by rwa [allows_retain, allows_retain])).release

theorem doRead (h : s.Fits held) (hheld : i ∈ held) (hi : i ∉ s.selves) {mem : OpMemory}
    (hallows : s.allows i mem = true) : (s.doRead i mem).Fits held :=
  (h.updateSession hheld _).asyncOp hheld hi .read (by rwa [allows_updateSession])

theorem doWriteOf (h : s.Fits held) (hheld : i ∈ held) (hi : i ∉ s.selves)
    (doWrite : Connection → Nat → Bytes → Connection × Bytes) (length : Nat) (daytime : Daytime)
    {mem : OpMemory} (hallows : s.allows i mem = true) :
    (s.doWriteOf doWrite i length daytime mem).Fits held :=
  (h.updateSession hheld _).asyncOp hheld hi .write (by rwa [allows_updateSession])

/-- Whatever the handler does, its own pointer is gone at the end or with the next operation. -/
theorem handle (h : s.Fits {i}) (hi : i ∉ s.selves)
    (doWrite : Connection → Nat → Bytes → Connection × Bytes) {mem : OpMemory}
    (hallows : s.allows i mem = true) (result : Result) :
    (s.handle doWrite i mem result).Fits 0 := by
  have hmem : i ∈ ({i} : Multiset Nat) := Multiset.mem_singleton_self i
  cases result with
  | wroteSome => exact h.startOp hi .write hallows
  | writeDone => exact (h.doRead hmem hi hallows).release
  | readDone bytes daytime =>
    exact ((h.updateSession hmem _).doWriteOf hmem hi doWrite _ daytime
      (by rwa [allows_updateSession])).release
  | writeFailed | readFailed => exact (h.updateSession hmem _).release
  | destroyed => exact h.release

/-- The memory of an operation is given back, and its handler is called with its own pointer. -/
theorem take (h : s.Fits 0) {k : Nat} {op : PendingOp} (hop : s.pending[k]? = some op) :
    (s.take k op).Fits {op.self} ∧ op.self ∉ (s.take k op).selves := by
  obtain ⟨hk, rfl⟩ := List.getElem?_eq_some_iff.mp hop
  have hperm : s.pending.Perm (s.pending[k] :: s.pending.eraseIdx k) :=
    (List.getElem_cons_eraseIdx_perm hk).symm
  obtain ⟨hbalanced, hnot⟩ := (h.balanced.update s.pending[k].self fun o ↦
    { o with memory := o.memory.release s.pending[k].block }).take (hperm.map PendingOp.self)
  refine ⟨⟨hbalanced, fun j o hj ↦ ?_, ?_⟩, hnot⟩
  · obtain ⟨o', ho', rfl⟩ := Option.map_eq_some_iff.mp
      ((connection?_update s s.pending[k].self
        (fun o ↦ { o with memory := o.memory.release s.pending[k].block }) j).symm.trans hj)
    have hkeeps := h.memory j o' ho'
    by_cases hij : s.pending[k].self = j
    · -- This was the only operation of the connection.
      subst hij
      have hnil : (s.pending.eraseIdx k).filter (fun op ↦ op.self = s.pending[k].self) = [] :=
        opsOf_eq_nil (s := s.take k s.pending[k]) hnot
      have hops := hperm.filter fun op ↦ op.self = s.pending[k].self
      rw [List.filter_cons_of_pos (by simp), hnil] at hops
      rw [opsOf, List.perm_singleton.mp hops] at hkeeps
      rw [if_pos rfl, opsOf_eq_nil hnot]
      exact hkeeps.release
    · have hops : (s.take k s.pending[k]).opsOf j = s.opsOf j := by
        have hsplit : s.pending = s.pending.take k ++ s.pending[k] :: s.pending.drop (k + 1) := by
          rw [← List.drop_eq_getElem_cons hk, List.take_append_drop]
        have hneg : ¬decide (s.pending[k].self = j) = true := by simpa using hij
        rw [opsOf, opsOf, Server.take, List.eraseIdx_eq_take_drop_succ, List.filter_append]
        conv_rhs => rw [hsplit, List.filter_append, List.filter_cons, if_neg hneg]
      rw [if_neg hij, hops]
      exact hkeeps
  · exact h.fault_or_of_pos
      (h.balanced.pos_of_mem_ops (List.mem_map_of_mem (List.getElem_mem hk)))

/-- A new connection has no operation yet. -/
theorem connect (h : s.Fits 0) (data : Vector UInt8 dataSize) (storage : Nat) :
    (s.connect data storage).Fits {s.connections.length} ∧ s.connections.length ∉ s.selves := by
  have hnot := h.balanced.length_not_mem
  refine ⟨⟨h.balanced.make (.create data storage), fun j o hj ↦ ?_, h.fault⟩, hnot⟩
  · rw [connection?, Server.connect, Shared.value?_make] at hj
    by_cases hlast : j = s.connections.length
    · subst hlast
      rw [if_pos rfl] at hj
      obtain rfl := Option.some.inj hj
      have hops : (s.connect data storage).opsOf s.connections.length = [] := opsOf_eq_nil hnot
      rw [hops]
      exact ⟨HandlerMemory.State.inv_init storage, rfl,
        fun b hb ↦ absurd hb List.not_mem_nil, fun r hr ↦ absurd hr List.not_mem_nil⟩
    · rw [if_neg hlast] at hj
      exact h.memory j o hj

theorem handleAccept (h : s.Fits 0) (doWrite : Connection → Nat → Bytes → Connection × Bytes)
    (data : Vector UInt8 dataSize) (daytime : Daytime) (storage : Nat) {mem : OpMemory}
    (hallowed : mem.allowed (HandlerMemory.init storage) = true) :
    (s.handleAccept doWrite data daytime storage mem).Fits 0 := by
  obtain ⟨hconnect, hnot⟩ := h.connect data storage
  have hallows : (s.connect data storage).allows s.connections.length mem = true := by
    simpa [allows, connection?, Server.connect, Shared.value?_make, ConnectionObject.create]
      using hallowed
  have hstart := (hconnect.doWriteOf (Multiset.mem_singleton_self _) hnot doWrite 0 daytime
    hallows).release
  rw [Server.handleAccept]
  split_ifs
  · exact ⟨hstart.balanced, hstart.memory, hstart.fault⟩
  · exact hstart

end Fits

section Step

variable {doWrite : Connection → Nat → Bytes → Connection × Bytes} {t : Server} {a : Action}

/-- What a step does. -/
theorem step_cases (h : step doWrite s a = some t) :
    (∃ data daytime storage mem, a = .accepted data daytime storage mem ∧ s.running = true ∧
      mem.allowed (HandlerMemory.init storage) = true ∧
      t = s.handleAccept doWrite data daytime storage mem) ∨
    (a = .acceptFailed ∧ s.running = true ∧ t = { s with accepting := s.accepting - 1 + 1 }) ∨
    ∃ k result mem op, a = .complete k result mem ∧ s.pending[k]? = some op ∧
      result.fits s.running op.kind = true ∧ (s.take k op).allows op.self mem = true ∧
      t = (s.take k op).handle doWrite op.self mem result := by
  cases a with
  | accepted data daytime storage mem =>
    obtain ⟨⟨hrunning, -, hallowed⟩, h⟩ := Option.ite_none_right_eq_some.mp h
    exact .inl ⟨data, daytime, storage, mem, rfl, hrunning, hallowed, (Option.some.inj h).symm⟩
  | acceptFailed =>
    obtain ⟨⟨hrunning, -⟩, h⟩ := Option.ite_none_right_eq_some.mp h
    exact .inr (.inl ⟨rfl, hrunning, (Option.some.inj h).symm⟩)
  | complete k result mem =>
    simp only [step] at h
    split at h
    · exact absurd h (by simp)
    · next op hop =>
      obtain ⟨⟨hfits, hallows⟩, h⟩ := Option.ite_none_right_eq_some.mp h
      exact .inr (.inr ⟨k, result, mem, op, rfl, hop, hfits, hallows, (Option.some.inj h).symm⟩)

/-- Between two steps, the connections are owned by their operations alone. -/
theorem Fits.step (h : s.Fits 0) (hstep : Server.step doWrite s a = some t) : t.Fits 0 := by
  obtain ⟨data, daytime, storage, mem, -, -, hallowed, rfl⟩ | ⟨-, -, rfl⟩ |
    ⟨k, result, mem, op, -, hop, -, hallows, rfl⟩ := step_cases hstep
  · exact h.handleAccept doWrite data daytime storage hallowed
  · exact ⟨h.balanced, h.memory, h.fault⟩
  · obtain ⟨htake, hnot⟩ := h.take hop
    exact htake.handle hnot doWrite hallows result

/-! ### Accepting -/

/-- No client is accepted, and an exception stays. -/
def Quiet (s t : Server) : Prop :=
  t.accepting = s.accepting ∧ (t.running = true → s.running = true)

theorem quiet_startOp (s : Server) (i : Nat) (kind : OpKind) (mem : OpMemory) :
    Quiet s (s.startOp i kind mem) := by
  rw [startOp]
  split
  · exact ⟨rfl, id⟩
  · exact ⟨rfl, by simp⟩

theorem quiet_asyncOp (s : Server) (i : Nat) (kind : OpKind) (mem : OpMemory) :
    Quiet s (s.asyncOp i kind mem) := quiet_startOp ((s.retain i).retain i) i kind mem

variable (doWrite) in
theorem quiet_handle (s : Server) (i : Nat) (mem : OpMemory) (result : Result) :
    Quiet s (s.handle doWrite i mem result) := by
  cases result with
  | wroteSome => exact quiet_startOp s i .write mem
  | writeDone => exact quiet_asyncOp (s.updateSession i _) i .read mem
  | readDone bytes daytime =>
    exact quiet_asyncOp ((s.updateSession i _).updateSession i _) i .write mem
  | writeFailed | readFailed | destroyed => exact ⟨rfl, id⟩

variable (doWrite) in
theorem quiet_doWriteOf (s : Server) (i length : Nat) (daytime : Daytime) (mem : OpMemory) :
    Quiet s (s.doWriteOf doWrite i length daytime mem) :=
  quiet_asyncOp (s.updateSession i _) i .write mem

/-- `doAccept` is called again unless there was an exception. -/
theorem accepting_handleAccept {data : Vector UInt8 dataSize} {daytime : Daytime} {storage : Nat}
    {mem : OpMemory} (h : (s.handleAccept doWrite data daytime storage mem).running = true) :
    (s.handleAccept doWrite data daytime storage mem).accepting = s.accepting - 1 + 1 := by
  simp only [handleAccept] at h ⊢
  split_ifs at h ⊢ with hrunning
  · exact congrArg (· + 1) (quiet_doWriteOf doWrite _ _ 0 daytime mem).1
  · exact absurd h hrunning

/-- As long as the server runs, it waits for a client. -/
theorem accepting_of_step (h : s.running = true → s.accepting = 1)
    (hstep : Server.step doWrite s a = some t) (ht : t.running = true) : t.accepting = 1 := by
  obtain ⟨data, daytime, storage, mem, -, hrunning, -, rfl⟩ | ⟨-, hrunning, rfl⟩ |
    ⟨k, result, mem, op, -, -, -, -, rfl⟩ := step_cases hstep
  · rw [accepting_handleAccept ht, h hrunning]
  · exact congrArg (· - 1 + 1) (h hrunning)
  · obtain ⟨haccepting, hrunning⟩ :=
      quiet_handle doWrite (s.take k op) op.self mem result
    exact haccepting.trans (h (hrunning ht))

/-! ### Runs -/

theorem fits_init : init.Fits 0 where
  balanced := .nil
  memory i o h := by simp [connection?, Shared.value?, init] at h
  fault := rfl

/-- A connection has as many owners as operations, at most one. -/
theorem Fits.useCount_eq (h : s.Fits 0) (i : Nat) :
    s.useCount i = (s.opsOf i).length ∧ (s.opsOf i).length ≤ 1 := by
  have hcount : s.selves.count i = (s.opsOf i).length := by
    rw [selves, List.count, List.countP_map, opsOf, ← List.countP_eq_length_filter]
    rfl
  rw [← hcount]
  exact h.balanced.useCount_eq i

/-- In every run the server waits for a client until an exception ends it, a connection is alive if
and only if it has an operation, and it never has two. Its memory is in use by that operation and by
nobody else, so that each request for less than `sizeof(storage_)` is given the storage; no
connection is used after its end, or ends while its storage is in use. -/
theorem lifetimes_of_run {as : List Action} (hrun : run (Server.step doWrite) init as = some s) :
    s.fault = false ∧ (s.running = true → s.accepting = 1) ∧
      ∀ i o, s.connection? i = some o →
        s.useCount i = (s.opsOf i).length ∧ (s.opsOf i).length ≤ 1 ∧
        o.memory.live = (s.opsOf i).map PendingOp.block ∧
        (∀ b ∈ o.memory.live, b.origin = .storage ↔ b.size < sizeofStorage) ∧
        ∀ r ∈ o.memory.released,
          r.2 = r.1.origin ∧ (r.2 = .storage ↔ r.1.size < sizeofStorage) := by
  have hfits : s.Fits 0 :=
    run_invariant (P := fun s ↦ s.Fits 0) (fun _ _ _ h hstep ↦ h.step hstep) hrun fits_init
  have haccepting : s.running = true → s.accepting = 1 :=
    run_invariant (P := fun s ↦ s.running = true → s.accepting = 1)
      (fun _ _ _ h hstep ↦ accepting_of_step h hstep) hrun fun _ ↦ rfl
  refine ⟨hfits.fault, haccepting, fun i o ho ↦ ?_⟩
  have hkeeps := hfits.memory i o ho
  exact ⟨(hfits.useCount_eq i).1, (hfits.useCount_eq i).2, hkeeps.live, hkeeps.origin,
    fun r hr ↦ ⟨(hkeeps.inv.released r hr).1, hkeeps.released r hr⟩⟩

/-- A write of the first client takes two steps, and its read gets memory of the heap. The second
client comes in between, and goes when a write fails. -/
def twoClients : List Action :=
  [.accepted Session.zeroData Session.epochDaytime 4096 ⟨200, none⟩,
    .complete 0 .wroteSome ⟨200, none⟩,
    .accepted Session.zeroData Session.epochDaytime 16384 ⟨1023, none⟩,
    .complete 0 .writeDone ⟨2000, some ⟨65536, 2000⟩⟩,
    .complete 1 (.readDone (ascii "hi") Session.epochDaytime) ⟨100, none⟩,
    .complete 0 .writeFailed ⟨0, none⟩]

theorem lifetimes_of_run_twoClients :
    ∃ s, run (Server.step Connection.doWriteShared) init twoClients = some s ∧
      s.fault = false ∧ (s.running = true → s.accepting = 1) ∧
      ∀ i o, s.connection? i = some o →
        s.useCount i = (s.opsOf i).length ∧ (s.opsOf i).length ≤ 1 ∧
        o.memory.live = (s.opsOf i).map PendingOp.block ∧
        (∀ b ∈ o.memory.live, b.origin = .storage ↔ b.size < sizeofStorage) ∧
        ∀ r ∈ o.memory.released,
          r.2 = r.1.origin ∧ (r.2 = .storage ↔ r.1.size < sizeofStorage) :=
  ⟨_, rfl, lifetimes_of_run
    (show run (Server.step Connection.doWriteShared) init twoClients = some _ from rfl)⟩

/-! ### Sessions -/

/-- What happens to a session when an operation ends. -/
def Result.session (doWrite : Connection → Nat → Bytes → Connection × Bytes) :
    Result → Session → Session
  | .wroteSome, x | .destroyed, x => x
  | .writeDone, x => { x with waiting := .read }
  | .readDone bytes daytime, x =>
    Session.respond doWrite { x with connection := x.connection.doRead bytes } bytes.length daytime
  | .writeFailed, x | .readFailed, x => { x with waiting := .nothing }

/-- The operation that comes next, if there is memory for it. -/
def Result.next : Result → Option OpKind
  | .wroteSome | .readDone _ _ => some .write
  | .writeDone => some .read
  | .writeFailed | .readFailed | .destroyed => none

/-- From `s` to `t`, only the session of `i` changes, and only `i` may have a new operation. -/
structure Handles (s t : Server) (i : Nat) (f : Session → Session) (next : Option OpKind) :
    Prop where
  session : ∀ j o', t.connection? j = some o' → ∃ o, s.connection? j = some o ∧
    o'.session = if i = j then f o.session else o.session
  pending : ∀ op ∈ t.pending, op ∈ s.pending ∨ op.self = i ∧ next = some op.kind

theorem handles_startOp (s : Server) (i : Nat) (kind : OpKind) (mem : OpMemory) :
    Handles s (s.startOp i kind mem) i id (some kind) := by
  rw [startOp]
  split
  · next memory block hsome =>
    refine ⟨fun j o' ho' ↦ ?_, fun op hop ↦ ?_⟩
    · obtain ⟨o, ho, rfl⟩ := Option.map_eq_some_iff.mp
        ((connection?_update s i (fun o ↦ { o with memory }) j).symm.trans ho')
      exact ⟨o, ho, by split_ifs <;> rfl⟩
    · rcases List.mem_append.mp hop with hop | hop
      · exact .inl hop
      · obtain rfl := List.mem_singleton.mp hop
        exact .inr ⟨rfl, rfl⟩
  · exact ⟨fun j o' ho' ↦ ⟨o', (connection?_release s i j).symm.trans ho', by split_ifs <;> rfl⟩,
      fun op hop ↦ .inl hop⟩

/-- Pointers change nothing. -/
theorem handles_asyncOp (s : Server) (i : Nat) (kind : OpKind) (mem : OpMemory) :
    Handles s (s.asyncOp i kind mem) i id (some kind) := by
  obtain ⟨hsession, hpending⟩ := handles_startOp ((s.retain i).retain i) i kind mem
  refine ⟨fun j o' ho' ↦ ?_, hpending⟩
  rw [asyncOp, connection?_release] at ho'
  obtain ⟨o, ho, heq⟩ := hsession j o' ho'
  rw [connection?_retain, connection?_retain] at ho
  exact ⟨o, ho, heq⟩

/-- A change of the session before anything else. -/
theorem Handles.after_updateSession {f g : Session → Session} {next : Option OpKind}
    (h : Handles (s.updateSession i f) t i g next) :
    Handles s t i (fun x ↦ g (f x)) next where
  session j o' ho' := by
    obtain ⟨o, ho, heq⟩ := h.session j o' ho'
    rw [updateSession, connection?_update] at ho
    obtain ⟨o'', ho'', rfl⟩ := Option.map_eq_some_iff.mp ho
    refine ⟨o'', ho'', heq.trans ?_⟩
    by_cases hij : i = j <;> simp [hij]
  pending := h.pending

theorem Handles.release {f : Session → Session} {next : Option OpKind} (h : Handles s t i f next)
    (k : Nat) : Handles s (t.release k) i f next where
  session j o' ho' := h.session j o' ((connection?_release t k j).symm.trans ho')
  pending := h.pending

theorem handles_refl (s : Server) (i : Nat) : Handles s s i id none :=
  ⟨fun j o ho ↦ ⟨o, ho, by split_ifs <;> rfl⟩, fun op hop ↦ .inl hop⟩

variable (doWrite) in
/-- What a handler does to the sessions and the operations. -/
theorem handles_handle (s : Server) (i : Nat) (mem : OpMemory) (result : Result) :
    Handles s (s.handle doWrite i mem result) i (result.session doWrite) result.next := by
  cases result with
  | wroteSome => exact handles_startOp s i .write mem
  | writeDone => exact (handles_asyncOp _ i .read mem).after_updateSession.release i
  | readDone bytes daytime =>
    exact (handles_asyncOp _ i .write mem).after_updateSession.after_updateSession.release i
  | writeFailed | readFailed => exact (handles_refl _ i).after_updateSession.release i
  | destroyed => exact (handles_refl s i).release i

theorem handles_take (s : Server) (k : Nat) (op : PendingOp) :
    Handles s (s.take k op) op.self id none where
  session j o' ho' := by
    obtain ⟨o, ho, rfl⟩ := Option.map_eq_some_iff.mp
      ((connection?_update s op.self
        (fun o ↦ { o with memory := o.memory.release op.block }) j).symm.trans ho')
    exact ⟨o, ho, by split_ifs <;> rfl⟩
  pending op' hop' := .inl (List.mem_of_mem_eraseIdx hop')

variable (doWrite) in
theorem handles_handleAccept (s : Server) (data : Vector UInt8 dataSize) (daytime : Daytime)
    (storage : Nat) (mem : OpMemory) :
    Handles (s.connect data storage) (s.handleAccept doWrite data daytime storage mem)
      s.connections.length (fun x ↦ Session.respond doWrite x 0 daytime) (some .write) := by
  have h := (handles_asyncOp ((s.connect data storage).updateSession s.connections.length
    fun x ↦ Session.respond doWrite x 0 daytime) s.connections.length .write
    mem).after_updateSession.release s.connections.length
  rw [handleAccept]
  split_ifs
  · exact ⟨h.session, h.pending⟩
  · exact ⟨h.session, h.pending⟩

/-- A session that a connection can have which is alone. -/
def Alone (doWrite : Connection → Nat → Bytes → Connection × Bytes) (x : Session) : Prop :=
  ∃ data daytime as, run (Session.step doWrite) (Session.start doWrite data daytime) as = some x

/-- A connection that is alone does what the handler does, and waits for the next operation. -/
theorem Alone.result {x : Session} (h : Alone doWrite x) {running : Bool} {kind : OpKind}
    (hwaiting : x.waiting = kind.waiting) {result : Result}
    (hfits : result.fits running kind = true) :
    Alone doWrite (result.session doWrite x) ∧
      ∀ next, result.next = some next → (result.session doWrite x).waiting = next.waiting := by
  obtain ⟨data, daytime, as, hrun⟩ := h
  have hstep : ∀ a y, Session.step doWrite x a = some y → Alone doWrite y := fun a y hy ↦
    ⟨data, daytime, as ++ [a], run_snoc _ hrun hy⟩
  cases result with
  | wroteSome =>
    obtain ⟨-, rfl⟩ : running = true ∧ kind = .write := by simpa [Result.fits] using hfits
    exact ⟨⟨data, daytime, as, hrun⟩, fun next hnext ↦ Option.some.inj hnext ▸ hwaiting⟩
  | writeDone =>
    obtain ⟨-, rfl⟩ : running = true ∧ kind = .write := by simpa [Result.fits] using hfits
    refine ⟨hstep (.writeDone true) _ ?_, fun next hnext ↦ Option.some.inj hnext ▸ rfl⟩
    simp [Session.step, hwaiting, OpKind.waiting, Result.session]
  | writeFailed =>
    obtain ⟨-, rfl⟩ : running = true ∧ kind = .write := by simpa [Result.fits] using hfits
    refine ⟨hstep (.writeDone false) _ ?_, by simp [Result.next]⟩
    simp [Session.step, hwaiting, OpKind.waiting, Result.session]
  | readDone bytes daytime =>
    obtain ⟨⟨-, rfl⟩, hlength⟩ : (running = true ∧ kind = .read) ∧ bytes.length ≤ dataSize := by
      simpa [Result.fits] using hfits
    refine ⟨hstep (.readDone bytes daytime) _ ?_, fun next hnext ↦ Option.some.inj hnext ▸ rfl⟩
    simp [Session.step, hwaiting, OpKind.waiting, Result.session, hlength]
  | readFailed =>
    obtain ⟨-, rfl⟩ : running = true ∧ kind = .read := by simpa [Result.fits] using hfits
    refine ⟨hstep .readFailed _ ?_, by simp [Result.next]⟩
    simp [Session.step, hwaiting, OpKind.waiting, Result.session]
  | destroyed => exact ⟨⟨data, daytime, as, hrun⟩, by simp [Result.next]⟩

/-- Each connection could be alone, and waits for its operation. -/
def Independent (doWrite : Connection → Nat → Bytes → Connection × Bytes) (s : Server) : Prop :=
  ∀ i o, s.connection? i = some o →
    Alone doWrite o.session ∧ ∀ op ∈ s.pending, op.self = i → o.session.waiting = op.kind.waiting

theorem Independent.handleAccept (h : s.Independent doWrite) (hfits : s.Fits 0)
    (data : Vector UInt8 dataSize) (daytime : Daytime) (storage : Nat) (mem : OpMemory) :
    (s.handleAccept doWrite data daytime storage mem).Independent doWrite := by
  have hnot := (hfits.connect data storage).2
  intro j o' ho'
  obtain ⟨hsession, hpending⟩ :=
    handles_handleAccept doWrite s data daytime storage mem
  obtain ⟨o, ho, heq⟩ := hsession j o' ho'
  rw [connection?, connect, Shared.value?_make] at ho
  by_cases hj : j = s.connections.length
  · subst hj
    rw [if_pos rfl] at ho heq
    obtain rfl := Option.some.inj ho
    refine ⟨⟨data, daytime, [], heq ▸ rfl⟩, fun op hop hself ↦ ?_⟩
    rcases hpending op hop with hop | ⟨-, hnext⟩
    · exact absurd (mem_selves.mpr ⟨op, hop, hself⟩) hnot
    · rw [heq, ← Option.some.inj hnext]
      rfl
  · rw [if_neg hj] at ho
    rw [if_neg (Ne.symm hj)] at heq
    obtain ⟨halone, hwaiting⟩ := h j o ho
    refine ⟨heq ▸ halone, fun op hop hself ↦ ?_⟩
    rcases hpending op hop with hop | ⟨hlast, -⟩
    · exact heq ▸ hwaiting op hop hself
    · exact absurd (hself.symm.trans hlast) hj

theorem Independent.handle (h : s.Independent doWrite) (hfits : s.Fits 0) {k : Nat} {op : PendingOp}
    (hop : s.pending[k]? = some op) {result : Result}
    (hresult : result.fits s.running op.kind = true) (mem : OpMemory) :
    ((s.take k op).handle doWrite op.self mem result).Independent doWrite := by
  have hnot := (hfits.take hop).2
  have htake := handles_take s k op
  intro j o' ho'
  obtain ⟨hsession, hpending⟩ :=
    handles_handle doWrite (s.take k op) op.self mem result
  obtain ⟨o₁, ho₁, heq₁⟩ := hsession j o' ho'
  obtain ⟨o, ho, heq⟩ := htake.session j o₁ ho₁
  rw [show o₁.session = o.session by rw [heq]; split_ifs <;> rfl] at heq₁
  obtain ⟨halone, hwaiting⟩ := h j o ho
  by_cases hj : op.self = j
  · rw [if_pos hj] at heq₁
    have hnext := halone.result (hwaiting op (List.mem_of_getElem? hop) hj) hresult
    refine ⟨heq₁ ▸ hnext.1, fun op' hop' hself ↦ ?_⟩
    rcases hpending op' hop' with hop' | ⟨-, hkind⟩
    · exact absurd (mem_selves.mpr ⟨op', hop', hself.trans hj.symm⟩) hnot
    · exact heq₁ ▸ hnext.2 _ hkind
  · rw [if_neg hj] at heq₁
    refine ⟨heq₁ ▸ halone, fun op' hop' hself ↦ ?_⟩
    rcases hpending op' hop' with hop' | ⟨hsame, -⟩
    · exact heq₁ ▸ hwaiting op' (List.mem_of_mem_eraseIdx hop') hself
    · exact absurd (hsame.symm.trans hself) hj

theorem Independent.step (h : s.Independent doWrite) (hfits : s.Fits 0)
    (hstep : Server.step doWrite s a = some t) : t.Independent doWrite := by
  obtain ⟨data, daytime, storage, mem, -, -, -, rfl⟩ | ⟨-, -, rfl⟩ |
    ⟨k, result, mem, op, -, hop, hresult, -, rfl⟩ := step_cases hstep
  · exact h.handleAccept hfits data daytime storage mem
  · exact h
  · exact h.handle hfits hop hresult mem

/-- In every run, what a connection has read and sent is what a connection that is alone can read
and send, whatever the other connections do, and it waits for the operation that it has. -/
theorem sessions_of_run {as : List Action} (hrun : run (Server.step doWrite) init as = some s)
    {i : Nat} {o : ConnectionObject} (ho : s.connection? i = some o) :
    (∃ data daytime bs, run (Session.step doWrite) (Session.start doWrite data daytime) bs =
        some o.session) ∧
      ∀ op ∈ s.pending, op.self = i → o.session.waiting = op.kind.waiting := by
  have hinv : s.Fits 0 ∧ s.Independent doWrite :=
    run_invariant (P := fun s ↦ s.Fits 0 ∧ s.Independent doWrite)
      (fun _ _ _ h hstep ↦ ⟨h.1.step hstep, h.2.step h.1 hstep⟩) hrun
      ⟨fits_init, fun i o h ↦ by simp [connection?, Shared.value?, init] at h⟩
  exact hinv.2 i o ho

theorem sessions_of_run_twoClients :
    ∃ s o, run (Server.step Connection.doWriteShared) init twoClients = some s ∧
      s.connection? 0 = some o ∧
      (∃ data daytime bs, run (Session.step Connection.doWriteShared)
          (Session.start Connection.doWriteShared data daytime) bs = some o.session) ∧
      ∀ op ∈ s.pending, op.self = 0 → o.session.waiting = op.kind.waiting :=
  ⟨_, _, rfl, rfl, sessions_of_run
    (show run (Server.step Connection.doWriteShared) init twoClients = some _ from rfl) rfl⟩

end Step

end Server

end CppDemo.Asio.Echo
