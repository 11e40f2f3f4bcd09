import CppDemo.Grpc.ServerAsync.Delivery
import CppDemo.Grpc.ServerAsync.Shutdown

/-!
# The table of the sessions and the next client

Every session in the table is found under its own id. The ids are those that were issued, each of
them once, until the allocator wraps around. At any time at most one session waits for a client, and
while the server runs and the accepter waits for a completion there is one, whose registration is in
flight: the accepter starts a registration when it has taken the last one out of `cq_conn_`, and
finds its session, since only the accepter removes a session that waits. For this the ids have to
fit into the tags, and a registration must not fail before the server is shut down, for then the
accepter removes its session without starting another one.

Source: `grpcdemo/server_async.cc`, lines 101–140, 191–261 and 318–339.

## Main definitions

* `State.TableAgrees` : the keys of the table are the ids of its sessions, which are issued once.
* `State.Accepts` : at most one session waits for a client, and one does while the server runs.
* `failsAfterShutdown` : what is assumed of gRPC.

## Main results

* `accepts_of_run` : both hold in every state of a run, up to the number of sessions they need.
* `not_accepts_of_run` : beyond `2 ^ 62` sessions two of them can wait.
-/

namespace CppDemo.Grpc.ServerAsync

open Transition State

namespace State

/-- The ids that have been issued, in order. -/
def ids (s : State) : List UInt64 := s.objects.map (·.session.sessionId)

/-- Every key of `sessions_` is the id of its session and less than the next id, and no id has been
issued twice. -/
structure TableAgrees (s : State) : Prop where
  keys : ∀ k i, s.sessions.lookup k = some i → s.ids[i]? = some k ∧ k < s.sessionIdAllocator
  nodup : s.ids.Nodup

/-- Session object `i`, under the key `k` of `sessions_`, waits for a client. -/
def Waits (s : State) (k : UInt64) (i : Nat) : Prop :=
  s.sessions.lookup k = some i ∧ ∃ o, s.objects[i]? = some o ∧ o.session.status = .waitToConnect

/-- At most one session waits for a client. While the server runs and the accepter finds nothing in
`cq_conn_`, one does, and its registration is in flight. -/
structure Accepts (s : State) : Prop where
  one : ∀ k i k' i', s.Waits k i → s.Waits k' i' → k = k' ∧ i = i'
  waits : s.running = true → s.accepter = .next → s.cqConn.posted = [] →
    ∃ k i op, s.Waits k i ∧ op ∈ s.cqConn.inFlight ∧ op.session = i ∧ op.event = .connected

end State

/-- A registration fails only after `server_->Shutdown` has been called. -/
def failsAfterShutdown (s : State) : Action → Bool
  | .completeConn _ ok => ok || decide (5 ≤ s.stop.stage)
  | _ => true

/-! ### The ids -/

/-- The ids and the keys of the table, whatever the tags say. -/
structure State.IdInv (s : State) : Prop where
  allocator : s.sessionIdAllocator = UInt64.ofNat s.objects.length
  ids : s.ids = (List.range s.objects.length).map UInt64.ofNat
  keys : ∀ k i, s.sessions.lookup k = some i → i < s.objects.length ∧ k = UInt64.ofNat i
  insert : ∀ k i held, s.accepter = .insert k i held → i < s.objects.length ∧ k = UInt64.ofNat i

section Ids

variable {s t : State} {a : Action}

theorem length_ids (s : State) : s.ids.length = s.objects.length := by simp [ids]

/-- A session keeps its id. -/
private theorem map_set_of_sessionId {objects : List SessionObject} {i : Nat}
    {o o' : SessionObject} (ho : objects[i]? = some o)
    (h : o'.session.sessionId = o.session.sessionId) :
    (objects.set i o').map (·.session.sessionId) = objects.map (·.session.sessionId) := by
  obtain ⟨hi, rfl⟩ := List.getElem?_eq_some_iff.mp ho
  have hlt : i < (objects.map (·.session.sessionId)).length := by simpa using hi
  have hset := List.set_getElem_self hlt
  rw [List.getElem_map] at hset
  rw [List.map_set, h, hset]

/-- An id is issued by `AddNewSession` only. -/
theorem ids_of_step (h : step s a = some t) :
    (t.ids = s.ids ∧ t.sessionIdAllocator = s.sessionIdAllocator ∧
      ∀ k i held, t.accepter = .insert k i held → s.accepter = .insert k i held) ∨
    (t.ids = s.ids ++ [s.sessionIdAllocator] ∧ t.sessionIdAllocator = s.sessionIdAllocator + 1 ∧
      ∃ held, t.accepter = .insert s.sessionIdAllocator s.objects.length held) := by
  have hids (ha : a ≠ .accepterAdd) : t.ids = s.ids := by
    rcases objects_of_step h with heq | ⟨rfl, -⟩ | ⟨i, o, o', ho, hkept, heq⟩
    · rw [ids, heq, ids]
    · exact absurd rfl ha
    · rw [ids, heq, map_set_of_sessionId ho hkept.sessionId, ids]
  cases effect_of_step h with
  | accepterAdd => exact Or.inr ⟨List.map_append, rfl, _, rfl⟩
  | accepterTest =>
    refine Or.inl ⟨hids nofun, rfl, fun k i held hpc ↦ ?_⟩
    cases hrunning : s.running <;> simp [hrunning] at hpc
  | _ => exact Or.inl ⟨hids nofun, rfl, by simp⟩

/-- A session gets into the table by `AddNewSession` only. -/
theorem lookup_of_step (h : step s a = some t) {k : UInt64} {i : Nat}
    (hk : t.sessions.lookup k = some i) :
    s.sessions.lookup k = some i ∨ ∃ held, s.accepter = .insert k i held := by
  have herase (k' : UInt64) (hk : (s.sessions.erase k').lookup k = some i) :
      s.sessions.lookup k = some i := by
    by_cases heq : k = k'
    · rw [heq, AList.lookup_erase] at hk
      simp at hk
    · rwa [AList.lookup_erase_ne heq] at hk
  cases effect_of_step h with
  | @accepterInsert sessionId session held hpc =>
    by_cases heq : k = sessionId
    · subst heq
      obtain rfl : session = i := by simpa using hk
      exact Or.inr ⟨held, hpc⟩
    · exact Or.inl (by rwa [AList.lookup_insert_ne heq] at hk)
  | accepterRemove | workerRemove => exact Or.inl (herase _ hk)
  | _ => exact Or.inl hk

theorem idInv_init : State.init.IdInv where
  allocator := rfl
  ids := rfl
  keys k i h := by simp [State.init] at h
  insert k i held h := by simp [State.init] at h

/-- Every step keeps the ids and the keys in order. -/
theorem State.IdInv.step (hs : s.IdInv) (h : ServerAsync.step s a = some t) : t.IdInv := by
  have hlength := length_ids s
  have hlength' := length_ids t
  rcases ids_of_step h with ⟨hids, hallocator, hinsert⟩ | ⟨hids, hallocator, held, hinsert⟩
  · have hobjects : t.objects.length = s.objects.length := by rw [← hlength', hids, hlength]
    refine ⟨?_, ?_, fun k i hk ↦ ?_, fun k i held hk ↦ ?_⟩
    · rw [hallocator, hobjects, hs.allocator]
    · rw [hids, hobjects, hs.ids]
    · rw [hobjects]
      exact (lookup_of_step h hk).elim (hs.keys k i) fun ⟨held, hk⟩ ↦ hs.insert k i held hk
    · rw [hobjects]
      exact hs.insert k i held (hinsert k i held hk)
  · have hobjects : t.objects.length = s.objects.length + 1 := by
      rw [← hlength', hids, List.length_append, hlength]
      rfl
    refine ⟨?_, ?_, fun k i hk ↦ ?_, fun k i held' hk ↦ ?_⟩
    · rw [hallocator, hobjects, hs.allocator, UInt64.ofNat_add]
      rfl
    · rw [hids, hobjects, hs.ids, hs.allocator, List.range_succ, List.map_append]
      rfl
    · have hold := (lookup_of_step h hk).elim (hs.keys k i) fun ⟨held, hk⟩ ↦ hs.insert k i held hk
      exact ⟨by omega, hold.2⟩
    · obtain ⟨rfl, rfl, -⟩ := AccepterPc.insert.inj (hinsert.symm.trans hk)
      exact ⟨by omega, hs.allocator⟩

theorem idInv_of_run {as : List Action} (h : run ServerAsync.step .init as = some s) : s.IdInv :=
  run_invariant (fun _ _ _ hs h ↦ hs.step h) h idInv_init

/-- The keys of the table and the ids agree until the allocator wraps around. -/
theorem State.IdInv.tableAgrees (hs : s.IdInv) (hb : s.objects.length < 2 ^ 64) :
    s.TableAgrees where
  keys k i hk := by
    obtain ⟨hi, rfl⟩ := hs.keys k i hk
    refine ⟨by simp [hs.ids, hi], ?_⟩
    rw [hs.allocator, UInt64.ofNat_lt_iff_lt (hi.trans hb) hb]
    exact hi
  nodup := by
    rw [hs.ids]
    refine List.nodup_range.map_on fun i hi j hj hij ↦ ?_
    have heq := congrArg UInt64.toNat hij
    rwa [UInt64.toNat_ofNat_of_lt' ((List.mem_range.mp hi).trans hb),
      UInt64.toNat_ofNat_of_lt' ((List.mem_range.mp hj).trans hb)] at heq

end Ids

/-! ### The session that waits -/

/-- What is left in `cq_conn_` at each place of the accepter: nothing, or the one registration that
it waits for, which is there while the server runs. -/
def State.QueueInv (s : State) : Prop :=
  match s.accepter with
  | .insert .. => s.cqConn.pending.card = 1
  | .next => s.cqConn.pending.card ≤ 1 ∧ (s.running = true → s.cqConn.pending.card = 1)
  | _ => s.cqConn.pending = 0

/-- The invariant of the accepter. -/
structure State.AcceptInv (s : State) : Prop where
  queue : s.QueueInv
  running : s.running = true → s.stop.stage ≤ 1
  /-- A registration has failed only if the server does not run. -/
  failed : ∀ op, (op, some false) ∈ s.connPending → s.running = false

section Accept

variable {s t : State} {a : Action}

theorem acceptInv_init : State.init.AcceptInv where
  queue := rfl
  running _ := Nat.zero_le 1
  failed _ h := absurd h (Multiset.notMem_zero _)

/-- A session that waits has a registration outstanding. -/
theorem exists_pending_of_waits (hs : s.Inv) {k : UInt64} {i : Nat} (h : s.Waits k i) :
    ∃ op w, (op, w) ∈ s.connPending ∧ op.session = i ∧ op.event = .connected := by
  obtain ⟨hk, o, ho, hstatus⟩ := h
  obtain rfl := (hs.table.keys k i hk).2
  cases hs.view_of_getSession hk ho with
  | waiting w h =>
    have htoken : (SessionEvent.connected, w) ∈ tokensOf i s.table.pending := by
      rw [show tokensOf i s.table.pending = {(.connected, w)} from h.tokens]
      exact Multiset.mem_singleton_self _
    obtain ⟨op, hop, hsession, hevent⟩ := mem_tokensOf.mp htoken
    refine ⟨op, w, (Multiset.mem_add.mp hop).resolve_right fun hop ↦ ?_, hsession, hevent⟩
    simpa [hevent] using hs.readwrite _ hop
  | ready r h => exact absurd (hstatus.symm.trans h.status) (by simp)
  | writing r w h => exact absurd (hstatus.symm.trans h.status) (by simp)
  | removed h => exact absurd h.life (by simp)

/-- An outstanding registration belongs to a session that waits, unless that is being
constructed. -/
theorem waits_of_pending (hs : s.Inv) {op : Op} {w : Option Bool} (hop : (op, w) ∈ s.connPending)
    (hconstructing : s.accepter.constructing = none) :
    s.Waits (UInt64.ofNat op.session) op.session := by
  have hmem : (op, w) ∈ s.table.pending := Multiset.mem_add.mpr (Or.inl hop)
  obtain ⟨hlt, -⟩ := hs.table.ops _ hmem
  have ho := List.getElem?_eq_getElem hlt
  have htoken : (SessionEvent.connected, w) ∈ tokensOf op.session s.table.pending :=
    mem_tokensOf.mpr ⟨op, hmem, rfl, hs.conn _ hop⟩
  have hview := hs.table.view _ _ ho
  cases hview with
  | waiting w' h =>
    refine ⟨Table.lookup_of_life (T := s.table) ?_ h.life, _, ho, ?_⟩
    · rw [show s.table.constructing = none from hconstructing]
      simp
    · exact congrArg GreeterSession.status h.session
  | ready r h =>
    rw [show tokensOf op.session s.table.pending = _ from h.tokens] at htoken
    simp at htoken
  | writing r w h =>
    rw [show tokensOf op.session s.table.pending = _ from h.tokens] at htoken
    simp at htoken
  | removed h => simpa using h.events _ htoken

/-- The steps of the accepter, and the completions that it waits for. -/
def Action.ofAccepter : Action → Bool
  | .completeConn .. | .accepterTest | .accepterAdd | .accepterInsert | .accepterNext _
  | .accepterDrained | .accepterGet | .accepterRemove | .accepterProcess => true
  | _ => false

/-- Nobody else touches `cq_conn_`, but for its shutdown. -/
theorem queue_of_step (h : step s a = some t) (ha : a.ofAccepter = false) :
    t.accepter = s.accepter ∧ t.cqConn.pending = s.cqConn.pending := by
  cases effect_of_step h with
  | completeConn | accepterTest | accepterAdd | accepterInsert | accepterNext | accepterDrained
  | accepterDrop | accepterGet | accepterRemove | accepterAbort | accepterProcess =>
    exact Bool.noConfusion (show true = false from ha)
  | _ => exact ⟨rfl, rfl⟩

/-- `running_` is not set again, and `Stop` clears it before anything else. -/
theorem running_of_step (h : step s a = some t) (hs : s.running = true → s.stop.stage ≤ 1) :
    (t.running = true → s.running = true) ∧ (t.running = true → t.stop.stage ≤ 1) := by
  cases ha : a.ofStop with
  | false =>
    obtain ⟨hrunning, hstop, -, -⟩ := flags_of_step h ha
    rw [hrunning, hstop]
    exact ⟨id, hs⟩
  | true =>
    cases effect_of_step h <;> try exact Bool.noConfusion (show false = true from ha)
    all_goals grind [StopPc.stage]

/-- A step of the accepter, or a completion that it waits for. -/
theorem State.AcceptInv.of_queue (hs : s.AcceptInv) (h : step s a = some t) (hqueue : t.QueueInv)
    (hfailed : ∀ op, (op, some false) ∈ t.connPending →
      (op, some false) ∈ s.connPending ∨ s.running = false) : t.AcceptInv := by
  obtain ⟨hrunning, hstage⟩ := running_of_step h hs.running
  refine ⟨hqueue, hstage, fun op hop ↦ Bool.eq_false_iff.mpr fun ht ↦ ?_⟩
  have hs' := hrunning ht
  rcases hfailed op hop with hop | hstopped
  · simp [hs.failed op hop] at hs'
  · simp [hstopped] at hs'

/-- Any other step. -/
theorem State.AcceptInv.of_frame (hs : s.AcceptInv) (h : step s a = some t)
    (ha : a.ofAccepter = false) : t.AcceptInv := by
  obtain ⟨haccepter, hpending⟩ := queue_of_step h ha
  obtain ⟨hrunning, -⟩ := running_of_step h hs.running
  refine hs.of_queue h ?_ fun op hop ↦ Or.inl ?_
  · have hqueue := hs.queue
    unfold QueueInv at hqueue ⊢
    rw [haccepter, hpending]
    split at hqueue
    · exact hqueue
    · exact ⟨hqueue.1, fun ht ↦ hqueue.2 (hrunning ht)⟩
    · exact hqueue
  · rwa [connPending, ← haccepter, ← hpending]

/-- A registration completes. -/
private theorem acceptInv_completeConn (hs : s.AcceptInv) {op : Op} {ok : Bool}
    (hC : ok = true ∨ 5 ≤ s.stop.stage) (h : step s (.completeConn op ok) = some t) :
    t.AcceptInv := by
  cases effect_of_step h with
  | completeConn _ _ hq =>
    obtain ⟨rest, hpending, hpending'⟩ := CompletionQueue.pending_complete hq
    refine hs.of_queue h ?_ fun op' hop' ↦ ?_
    · have hqueue := hs.queue
      unfold QueueInv at hqueue ⊢
      rw [hpending] at hqueue
      simp only [hpending', Multiset.card_cons] at hqueue ⊢
      split at hqueue
      · exact hqueue
      · exact hqueue
      · exact absurd hqueue Multiset.cons_ne_zero
    · simp only [connPending, hpending', Multiset.mem_add, Multiset.mem_cons, Prod.mk.injEq,
        Option.some.injEq] at hop'
      rcases hop' with hop' | ⟨rfl, rfl⟩ | hop'
      · exact Or.inl (Multiset.mem_add.mpr (Or.inl hop'))
      · refine Or.inr (Bool.eq_false_iff.mpr fun hrunning ↦ ?_)
        have hstage := hs.running hrunning
        have hlate := hC.resolve_left (by simp)
        omega
      · refine Or.inl (Multiset.mem_add.mpr (Or.inr ?_))
        rw [hpending]
        exact Multiset.mem_cons_of_mem hop'

/-- `AddNewSession` starts a registration when there is no other. -/
private theorem acceptInv_accepterAdd (hs : s.AcceptInv) (h : step s .accepterAdd = some t) :
    t.AcceptInv := by
  have hqueue := hs.queue
  cases effect_of_step h with
  | @accepterAdd held hpc =>
    have hempty : s.cqConn.pending = 0 := by
      cases held <;> simpa only [QueueInv, hpc, Option.elim_none, Option.elim_some] using hqueue
    refine hs.of_queue h ?_ fun op hop ↦ ?_
    · simp [QueueInv, hempty]
    · simp [connPending, AccepterPc.hand, hempty] at hop

/-- A completion that the accepter has taken leads to its session. -/
theorem getSession_of_lookup (hinv : s.Inv) (hb : s.objects.length ≤ maxSessions)
    {c : Completion Op} (hpc : s.accepter = .lookup c) :
    s.getSession (detagify c.op.tag).1 = some c.op.session := by
  obtain ⟨hconn, hmem⟩ := mem_pending_of_hand .accepter (congrArg AccepterPc.hand hpc)
  rw [hinv.table.detagify hb hmem]
  exact (waits_of_pending hinv hconn (by rw [hpc]; rfl)).1

/-- Every step keeps the invariant of the accepter. -/
theorem State.AcceptInv.step (hs : s.AcceptInv) (hinv : s.Inv)
    (hb : s.objects.length ≤ maxSessions) (hC : failsAfterShutdown s a = true)
    (h : ServerAsync.step s a = some t) : t.AcceptInv := by
  have hqueue := hs.queue
  cases effect_of_step h with
  | completeConn => exact acceptInv_completeConn hs (by simpa [failsAfterShutdown] using hC) h
  | accepterTest hpc =>
    rw [QueueInv, hpc] at hqueue
    refine hs.of_queue h ?_ fun op hop ↦ Or.inl ?_
    · unfold QueueInv
      cases s.running <;> exact hqueue
    · rw [connPending, hpc]
      cases hrunning : s.running <;> simpa [connPending, hrunning, AccepterPc.hand] using hop
  | accepterAdd => exact acceptInv_accepterAdd hs h
  | accepterInsert hpc =>
    rw [QueueInv, hpc] at hqueue
    refine hs.of_queue h ⟨hqueue.le, fun _ ↦ hqueue⟩ fun op hop ↦ Or.inl ?_
    rw [connPending, hpc]
    exact hop
  | @accepterNext c q hpc hq =>
    have hpending := CompletionQueue.pending_next hq
    rw [QueueInv, hpc] at hqueue
    have hempty : q.pending = 0 := by
      have hcard := hqueue.1
      rw [hpending, Multiset.card_cons] at hcard
      exact Multiset.card_eq_zero.mp (by omega)
    refine hs.of_queue h hempty fun op hop ↦ Or.inl (Multiset.mem_add.mpr (Or.inr ?_))
    rw [hpending]
    simpa [connPending, AccepterPc.hand, hempty] using hop
  | accepterDrained hpc hq =>
    obtain ⟨-, hinFlight, hposted⟩ := hq
    have hempty : s.cqConn.pending = 0 := by simp [CompletionQueue.pending, hinFlight, hposted]
    refine hs.of_queue h hempty fun op hop ↦ Or.inl ?_
    rw [connPending, hpc]
    exact hop
  | accepterDrop hpc _ hnone =>
    rw [getSession_of_lookup hinv hb hpc] at hnone
    simp at hnone
  | accepterGet hpc =>
    rw [QueueInv, hpc] at hqueue
    refine hs.of_queue h hqueue fun op hop ↦ Or.inl ?_
    rw [connPending, hpc]
    exact hop
  | @accepterRemove c _ hpc hok =>
    obtain ⟨hconn, -⟩ := mem_pending_of_hand .accepter (congrArg AccepterPc.hand hpc)
    have hstopped := hs.failed c.op (hok ▸ hconn)
    rw [QueueInv, hpc] at hqueue
    refine hs.of_queue h ⟨?_, fun hrunning ↦ ?_⟩ fun op _ ↦ Or.inr hstopped
    · simp [hqueue]
    · simp [hstopped] at hrunning
  | accepterAbort hpc | accepterProcess hpc =>
    rw [QueueInv, hpc] at hqueue
    refine hs.of_queue h hqueue fun op hop ↦ ?_
    simp [connPending, AccepterPc.hand, show s.cqConn.pending = 0 from hqueue] at hop
  | _ => exact hs.of_frame h rfl

/-- At most one registration is outstanding. -/
theorem State.AcceptInv.card_connPending_le (hs : s.AcceptInv) : s.connPending.card ≤ 1 := by
  have hqueue := hs.queue
  unfold QueueInv at hqueue
  rw [connPending, Multiset.card_add]
  cases hpc : s.accepter <;> simp_all [AccepterPc.hand]

/-- At most one session waits, and one does while the server runs and the accepter finds nothing. -/
theorem State.AcceptInv.accepts (hs : s.AcceptInv) (hinv : s.Inv) : s.Accepts where
  one k i k' i' hi hi' := by
    obtain ⟨op, w, hop, rfl, -⟩ := exists_pending_of_waits hinv hi
    obtain ⟨op', w', hop', rfl, -⟩ := exists_pending_of_waits hinv hi'
    obtain ⟨rest, hrest⟩ := Multiset.exists_cons_of_mem hop
    have hcard := hs.card_connPending_le
    rw [hrest, Multiset.card_cons] at hcard
    obtain rfl : rest = 0 := Multiset.card_eq_zero.mp (by omega)
    obtain ⟨rfl, -⟩ : op' = op ∧ w' = w := by simpa [hrest] using hop'
    exact ⟨(hinv.table.keys k _ hi.1).2.trans (hinv.table.keys k' _ hi'.1).2.symm, rfl⟩
  waits hrunning hpc hposted := by
    have hqueue := hs.queue
    rw [QueueInv, hpc] at hqueue
    obtain ⟨⟨op, w⟩, hpending⟩ := Multiset.card_eq_one.mp (hqueue.2 hrunning)
    have hmem : (op, w) ∈ s.cqConn.pending := by simp [hpending]
    obtain rfl : w = none := by
      cases w with
      | none => rfl
      | some ok =>
        have hposted' := CompletionQueue.mem_pending_some.mp hmem
        simp [hposted] at hposted'
    have hconn : (op, none) ∈ s.connPending := Multiset.mem_add.mpr (Or.inr hmem)
    exact ⟨_, _, op, waits_of_pending hinv hconn (by rw [hpc]; rfl),
      CompletionQueue.mem_pending_none.mp hmem, rfl, hinv.conn _ hconn⟩

theorem acceptInv_of_run {as : List Action} (h : run ServerAsync.step .init as = some s)
    (hC : Along ServerAsync.step (failsAfterShutdown · · = true) .init as)
    (hb : s.objects.length ≤ maxSessions) : s.Inv ∧ s.AcceptInv := by
  refine run_invariant_along (P := fun s ↦ s.objects.length ≤ maxSessions → s.Inv ∧ s.AcceptInv)
    (fun s a t hs ha h hb ↦ ?_) hC h (fun _ ↦ ⟨State.inv_init, acceptInv_init⟩) hb
  have hle := length_le_of_step h
  obtain ⟨hinv, haccept⟩ := hs (hle.trans hb)
  exact ⟨hinv.of_step h hb hle, haccept.step hinv (hle.trans hb) ha h⟩

end Accept

/-- In every state of a run that creates less than `2 ^ 64` sessions, the table and the ids agree,
and up to `2 ^ 62` sessions the server accepts the next client. -/
theorem accepts_of_run {s : State} {as : List Action} (h : run step .init as = some s)
    (hC : Along step (failsAfterShutdown · · = true) .init as) (hb : s.objects.length < 2 ^ 64) :
    s.TableAgrees ∧ (s.objects.length ≤ maxSessions → s.Accepts) := by
  refine ⟨(idInv_of_run h).tableAgrees hb, fun hb' ↦ ?_⟩
  obtain ⟨hinv, haccept⟩ := acceptInv_of_run h hC hb'
  exact haccept.accepts hinv

/-- A run in which nothing fails. -/
theorem along_of_fails {as : List Action} (h : ∀ a ∈ as, a.fails = false) (s : State) :
    Along step (failsAfterShutdown · · = true) s as := by
  refine along_of_mem (fun a ha s ↦ ?_) s
  have hok := h a ha
  cases a with
  | completeConn op ok =>
    obtain rfl : ok = true := by simpa [Action.fails] using hok
    rfl
  | _ => rfl

theorem accepts_of_run_reply : ∃ s, run step .init wrapStart = some s ∧
    s.TableAgrees ∧ s.Accepts :=
  ⟨wrapState 0, run_wrapStart, (accepts_of_run run_wrapStart
    (along_of_fails (by decide) .init) (by decide)).imp_right fun h ↦ h (by decide)⟩

/-- The accepter has then started another registration. -/
def crowdedState (k : Nat) : State :=
  let s := wrappedState k
  let op : Op :=
    { session := s.objects.length, event := .connected,
      tag := tagify s.sessionIdAllocator .connected }
  { s with
    sessionIdAllocator := s.sessionIdAllocator + 1
    objects := s.objects ++ [.create s.sessionIdAllocator]
    sessions := s.sessions.insert s.sessionIdAllocator s.objects.length
    cqConn := s.cqConn.start op
    cqReadwrite := s.cqReadwrite.attach op
    accepter := .next }

theorem run_crowdedState (k : Nat) :
    run step (wrappedState k) [.accepterAdd, .accepterInsert] = some (crowdedState k) := rfl

theorem objects_crowdedState (k : Nat) : (crowdedState k).objects =
    reconnectedSession :: (wrapOthers k ++ [.create (UInt64.ofNat (k + 2))]) := rfl

theorem length_wrapOthers (k : Nat) : (wrapOthers k).length = k + 1 := by simp [wrapOthers]

theorem sessions_crowdedState (k : Nat) : (crowdedState k).sessions =
    (wrapSessions (k + 1)).insert (UInt64.ofNat (k + 2)) (k + 2) := by
  have hsessions : (crowdedState k).sessions = (wrapSessions (k + 1)).insert
      (UInt64.ofNat (k + 2)) ((wrapOthers k).length + 1) := rfl
  rw [hsessions, length_wrapOthers]

/-- Two sessions wait. -/
theorem waits_crowdedState {k : Nat} (hk : k + 2 < 2 ^ 64) :
    (crowdedState k).Waits (UInt64.ofNat (k + 1)) (k + 1) ∧
      (crowdedState k).Waits (UInt64.ofNat (k + 2)) (k + 2) := by
  have hlength := length_wrapOthers k
  have hne : UInt64.ofNat (k + 1) ≠ UInt64.ofNat (k + 2) := fun h ↦ by
    have hlt : k + 1 < UInt64.size := (Nat.lt_succ_self _).trans hk
    have heq := congrArg UInt64.toNat h
    rw [UInt64.toNat_ofNat_of_lt' hlt, UInt64.toNat_ofNat_of_lt' hk] at heq
    omega
  let o : SessionObject :=
    { SessionObject.create (UInt64.ofNat (k + 1)) with stream := { accepted := true } }
  have hlast : (wrapOthers k)[k]? = some o := by simp [wrapOthers, o]
  constructor
  · refine ⟨?_, o, ?_, rfl⟩
    · rw [sessions_crowdedState, AList.lookup_insert_ne hne]
      exact AList.lookup_insert _
    · rw [objects_crowdedState, List.getElem?_cons_succ, List.getElem?_append_left (by omega)]
      exact hlast
  · refine ⟨?_, .create (UInt64.ofNat (k + 2)), ?_, rfl⟩
    · rw [sessions_crowdedState]
      exact AList.lookup_insert _
    · rw [objects_crowdedState, List.getElem?_cons_succ, List.getElem?_append_right (by omega),
        hlength, Nat.sub_self]
      rfl

/-- Beyond `2 ^ 62` sessions the session that has connected can still wait when the next one
does. -/
theorem not_accepts_of_run : ¬∀ (s : State) (as : List Action), run step .init as = some s →
    Along step (failsAfterShutdown · · = true) .init as → s.objects.length < 2 ^ 64 →
    s.TableAgrees ∧ s.Accepts := by
  intro haccepts
  obtain ⟨as, has, hok⟩ := exists_run_wrappedState
  have hk : 2 ^ 62 - 1 + 3 < 2 ^ 64 := by omega
  generalize 2 ^ 62 - 1 = k at has hk
  have hok' : ∀ a ∈ as ++ [.accepterAdd, .accepterInsert], a.fails = false := by
    intro a ha
    rcases List.mem_append.mp ha with ha | ha
    · exact hok a ha
    · simp only [List.mem_cons, List.not_mem_nil, or_false] at ha
      rcases ha with rfl | rfl <;> rfl
  have hlength : (crowdedState k).objects.length < 2 ^ 64 := by
    rw [objects_crowdedState, List.length_cons, List.length_append, length_wrapOthers]
    exact hk
  obtain ⟨-, hone⟩ := haccepts _ _ ((run_append step).mpr ⟨_, has, run_crowdedState k⟩)
    (along_of_fails hok' _) hlength
  obtain ⟨hfirst, hsecond⟩ := waits_crowdedState ((Nat.lt_succ_self _).trans hk)
  have hsame := (hone.one _ _ _ _ hfirst hsecond).2
  omega

end CppDemo.Grpc.ServerAsync
