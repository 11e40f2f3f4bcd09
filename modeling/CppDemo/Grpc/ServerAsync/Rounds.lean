import CppDemo.Grpc.ServerAsync.Invariant

/-!
# The loops over the session table

Two threads go through `sessions_` with an iterator: the broadcast thread, which holds
`mutex_sessions_` shared and passes its message to every session, and `Stop`, which holds it
exclusively and cancels them. The other threads insert and erase sessions, and an iterator does not
survive that. In every run that creates at most `2 ^ 62` sessions the lock keeps the loops apart
from them: what a loop has still to visit is in the table. So a broadcast reaches every session that
was in the table when the round began, each exactly once, whatever the other threads, the clients
and gRPC do during the round.

Source: `grpcdemo/server_async.cc`, lines 268–305 and 318–339.

## Main definitions

* `State.Iterates` : what the loops have still to visit is in the table.
* `State.broadcasts` : the number of broadcast messages passed to a session.
* `State.Round` : a round of the broadcast thread and how far it has come.

## Main results

* `iterates_of_run` : the loops never leave the table.
* `broadcasts_of_run` : in a round every session of the table gets the message exactly once.
-/

namespace CppDemo.Grpc.ServerAsync

open Transition List

/-! ### The lock of the table -/

/-- The accepter holds `mutex_sessions_`. -/
def AccepterPc.locks : AccepterPc → Bool
  | insert .. => true
  | _ => false

/-- `Stop` holds `mutex_sessions_`. -/
def StopPc.locks : StopPc → Bool
  | cancelling _ => true
  | _ => false

/-- The broadcast thread holds `mutex_sessions_`, shared. -/
def BroadcastPc.locks : BroadcastPc → Bool
  | retest | round _ => true
  | _ => false

namespace State

variable {s t : State} {a : Action}

theorem sessionsExclusive_eq (s : State) :
    s.sessionsExclusive = (s.accepter.locks || s.stop.locks) := rfl

theorem sessionsShared_eq (s : State) : s.sessionsShared = s.broadcast.locks := by
  rw [sessionsShared]
  cases s.broadcast <;> rfl

/-- At most one of the three threads that keep `mutex_sessions_` over several steps holds it. -/
structure Locked (s : State) : Prop where
  accepter_stop : s.accepter.locks = true → s.stop.locks = false
  accepter_broadcast : s.accepter.locks = true → s.broadcast.locks = false
  stop_broadcast : s.stop.locks = true → s.broadcast.locks = false

theorem locked_init : State.init.Locked := ⟨nofun, nofun, nofun⟩

/-- The lock is given to one thread at a time. -/
theorem Locked.of_step (hs : s.Locked) (h : step s a = some t) : t.Locked := by
  obtain ⟨hstop, hbroadcast, hshared⟩ := hs
  cases effect_of_step h with
  | accepterAdd _ hexclusive hshared' | stopLock _ hexclusive hshared' =>
    rw [sessionsExclusive_eq, Bool.or_eq_false_iff] at hexclusive
    rw [sessionsShared_eq] at hshared'
    constructor <;> simp [hexclusive, hshared']
  | broadcastLock _ hexclusive =>
    rw [sessionsExclusive_eq, Bool.or_eq_false_iff] at hexclusive
    constructor <;> simp [hexclusive]
  | accepterTest | stopTest | broadcastTest =>
    constructor <;> split_ifs <;> simp_all [AccepterPc.locks, StopPc.locks, BroadcastPc.locks]
  | broadcastRetest hpc =>
    rw [hpc] at hbroadcast hshared
    constructor <;> split_ifs <;> simp_all [BroadcastPc.locks]
  | broadcastSend hpc =>
    rw [hpc] at hbroadcast hshared
    exact ⟨hstop, hbroadcast, hshared⟩
  | stopCancel hpc =>
    rw [hpc] at hstop hshared
    exact ⟨hstop, hbroadcast, hshared⟩
  | accepterInsert | accepterNext | accepterDrained | accepterDrop | accepterGet | accepterRemove
  | accepterAbort | accepterProcess => exact ⟨nofun, nofun, hshared⟩
  | stopStore | stopUnlock | stopShutdownServer | stopServerDone | stopShutdownConn
  | stopShutdownReadwrite => exact ⟨fun _ ↦ rfl, hbroadcast, nofun⟩
  | broadcastUnlock => exact ⟨hstop, fun _ ↦ rfl, fun _ ↦ rfl⟩
  | _ => exact ⟨hstop, hbroadcast, hshared⟩

/-- Nobody inserts or erases a session while a loop is under way. -/
theorem Locked.sessions_of_step (hs : s.Locked) (h : step s a = some t) :
    t.sessions = s.sessions ∨
      (s.broadcast.locks = false ∧ s.stop.locks = false) ∧
        t.broadcast = s.broadcast ∧ t.stop = s.stop := by
  cases effect_of_step h with
  | accepterInsert hpc =>
    have hlocks : s.accepter.locks = true := by rw [hpc]; rfl
    exact Or.inr ⟨⟨hs.accepter_broadcast hlocks, hs.accepter_stop hlocks⟩, rfl, rfl⟩
  | accepterRemove _ _ hexclusive hshared | workerRemove _ _ hexclusive hshared =>
    rw [sessionsExclusive_eq, Bool.or_eq_false_iff] at hexclusive
    rw [sessionsShared_eq] at hshared
    exact Or.inr ⟨⟨hshared, hexclusive.2⟩, rfl, rfl⟩
  | _ => exact Or.inl rfl

/-! ### What the loops have still to visit -/

/-- A loop that has still to visit `remaining` visits no session twice, and finds all of them in the
table. -/
structure Visits (s : State) (remaining : List UInt64) : Prop where
  nodup : remaining.Nodup
  found : ∀ k ∈ remaining, ∃ i o, s.getSession k = some i ∧ s.objects[i]? = some o

/-- Both loops find what they have still to visit in the table. -/
structure Iterates (s : State) : Prop where
  broadcast : ∀ remaining, s.broadcast = .round remaining → s.Visits remaining
  stop : ∀ remaining, s.stop = .cancelling remaining → s.Visits remaining

/-- What the loops have still to visit is part of the table. -/
structure Within (s : State) : Prop where
  locked : s.Locked
  broadcast : ∀ remaining, s.broadcast = .round remaining → remaining <+ s.sessions.keys
  stop : ∀ remaining, s.stop = .cancelling remaining → remaining <+ s.sessions.keys

theorem within_init : State.init.Within := ⟨locked_init, nofun, nofun⟩

/-- A step of the broadcast thread begins a round over the table or goes on with one. -/
theorem round_of_step (h : step s a = some t) {remaining : List UInt64}
    (ht : t.broadcast = .round remaining) :
    remaining = s.sessions.keys ∨ ∃ before, s.broadcast = .round before ∧ remaining <+ before := by
  have hstays : t.broadcast = s.broadcast →
      ∃ before, s.broadcast = .round before ∧ remaining <+ before := fun heq ↦
    ⟨remaining, heq.symm.trans ht, List.Sublist.refl _⟩
  cases effect_of_step h with
  | broadcastTest =>
    dsimp only at ht
    split_ifs at ht
  | broadcastRetest =>
    dsimp only at ht
    split_ifs at ht
    exact Or.inl (BroadcastPc.round.inj ht).symm
  | broadcastLock | broadcastUnlock => simp at ht
  | broadcastSend hpc =>
    obtain rfl := BroadcastPc.round.inj ht
    exact Or.inr ⟨_, hpc, List.erase_sublist⟩
  | _ => exact Or.inr (hstays rfl)

/-- `Stop` begins to go through the table or goes on with it. -/
theorem cancelling_of_step (h : step s a = some t) {remaining : List UInt64}
    (ht : t.stop = .cancelling remaining) :
    remaining = s.sessions.keys ∨
      ∃ before, s.stop = .cancelling before ∧ remaining <+ before := by
  have hstays : t.stop = s.stop →
      ∃ before, s.stop = .cancelling before ∧ remaining <+ before := fun heq ↦
    ⟨remaining, heq.symm.trans ht, List.Sublist.refl _⟩
  cases effect_of_step h with
  | stopTest =>
    dsimp only at ht
    split_ifs at ht
  | stopLock => exact Or.inl (StopPc.cancelling.inj ht).symm
  | stopCancel hpc =>
    obtain rfl := StopPc.cancelling.inj ht
    exact Or.inr ⟨_, hpc, List.erase_sublist⟩
  | stopStore | stopUnlock | stopShutdownServer | stopServerDone | stopShutdownConn
  | stopShutdownReadwrite => simp at ht
  | _ => exact Or.inr (hstays rfl)

/-- The loops stay within the table. -/
theorem Within.of_step (hs : s.Within) (h : step s a = some t) : t.Within := by
  refine ⟨hs.locked.of_step h, fun remaining ht ↦ ?_, fun remaining ht ↦ ?_⟩
  · rcases hs.locked.sessions_of_step h with heq | ⟨⟨hlocks, -⟩, heq, -⟩
    · rw [heq]
      rcases round_of_step h ht with rfl | ⟨before, hbefore, hsub⟩
      · exact List.Sublist.refl _
      · exact hsub.trans (hs.broadcast before hbefore)
    · simp [← heq, ht, BroadcastPc.locks] at hlocks
  · rcases hs.locked.sessions_of_step h with heq | ⟨⟨-, hlocks⟩, -, heq⟩
    · rw [heq]
      rcases cancelling_of_step h ht with rfl | ⟨before, hbefore, hsub⟩
      · exact List.Sublist.refl _
      · exact hsub.trans (hs.stop before hbefore)
    · simp [← heq, ht, StopPc.locks] at hlocks

theorem within_of_run {as : List Action} (h : run step .init as = some s) : s.Within :=
  run_invariant (fun _ _ _ hs hstep ↦ hs.of_step hstep) h within_init

/-- What is part of the table is found there, together with its session object. -/
theorem Inv.visits (hs : s.Inv) {remaining : List UInt64} (h : remaining <+ s.sessions.keys) :
    s.Visits remaining := by
  refine ⟨h.nodup s.sessions.nodupKeys, fun k hk ↦ ?_⟩
  obtain ⟨i, hi⟩ := Option.isSome_iff_exists.mp (AList.lookup_isSome.mpr (h.subset hk))
  exact ⟨i, _, hi, List.getElem?_eq_getElem (hs.table.keys k i hi).1⟩

/-! ### Broadcasts -/

/-- The history of a session object; one that does not exist has none. -/
def history (s : State) (i : Nat) : SessionHistory := (s.objects[i]?.map (·.history)).getD {}

theorem history_of_getElem? {i : Nat} {o : SessionObject} (h : s.objects[i]? = some o) :
    s.history i = o.history := by
  rw [history, h]
  rfl

/-- The histories after one session object has changed. -/
theorem history_of_set {i : Nat} {o o' : SessionObject} (ho : s.objects[i]? = some o)
    (ht : t.objects = s.objects.set i o') (j : Nat) :
    t.history j = if j = i then o'.history else s.history j := by
  by_cases hj : j = i
  · subst hj
    rw [if_pos rfl, history_of_getElem?]
    rw [ht, List.getElem?_set_self (List.getElem?_eq_some_iff.mp ho).1]
  · rw [if_neg hj, history, history, ht, List.getElem?_set_ne (Ne.symm hj)]

/-- A new session object has no history either. -/
theorem history_of_append {sessionId : UInt64} (ht : t.objects = s.objects ++ [.create sessionId])
    (j : Nat) : t.history j = s.history j := by
  rw [history, history, ht]
  rcases lt_trichotomy j s.objects.length with hlt | rfl | hlt
  · rw [List.getElem?_append_left hlt]
  · simp [SessionObject.create]
  · rw [List.getElem?_eq_none (by simp; omega), List.getElem?_eq_none hlt.le]

end State

namespace SessionHistory

/-- The number of broadcast messages passed to a session. -/
def broadcasts (self : SessionHistory) : Nat := self.passed.countP fun m ↦ m.1 = .broadcast

/-- No broadcast has been added, and a connected session has stayed connected. -/
structure Quiet (before after : SessionHistory) : Prop where
  broadcasts : after.broadcasts = before.broadcasts
  connected : before.connected = true → after.connected = true

theorem Quiet.rfl {self : SessionHistory} : self.Quiet self := ⟨Eq.refl _, id⟩

/-- The events of a session are no broadcasts. -/
theorem quiet_record (self : SessionHistory) (session : GreeterSession) (event : UInt64) :
    self.Quiet (self.record session event) := by
  rw [record]
  split
  · exact ⟨Eq.refl _, fun _ ↦ Eq.refl _⟩
  · rw [pass]
    split_ifs with h
    · exact ⟨by simp [SessionHistory.broadcasts], fun _ ↦ h⟩
    · exact ⟨Eq.refl _, id⟩
  · exact ⟨Eq.refl _, id⟩
  · exact .rfl

/-- A broadcast counts if the session has connected. -/
theorem broadcasts_pass (self : SessionHistory) (response : HelloResponse) :
    (self.pass .broadcast response).broadcasts =
      self.broadcasts + if self.connected then 1 else 0 := by
  rw [pass]
  split_ifs with h <;> simp [broadcasts]

theorem connected_pass (self : SessionHistory) (origin : Origin) (response : HelloResponse) :
    (self.pass origin response).connected = self.connected := by
  rw [pass]
  split_ifs with h <;> simp [h]

end SessionHistory

/-- A completing operation leaves the history alone. -/
theorem SessionObject.deliver_history {o o' : SessionObject} {event : SessionEvent} {ok : Bool}
    (h : o.deliver event ok = some o') : o'.history = o.history := by
  unfold deliver at h
  split at h
  · obtain rfl := Option.some.inj h; rfl
  · obtain ⟨request, -, rfl⟩ := Option.map_eq_some_iff.mp h; rfl
  · obtain rfl := Option.some.inj h; rfl

namespace State

variable {s t : State} {a : Action}

/-- Only the broadcast thread passes broadcasts to the sessions. -/
theorem quiet_of_step (h : step s a = some t) (ha : ∀ k, a ≠ .broadcastSend k) (j : Nat) :
    (s.history j).Quiet (t.history j) := by
  have hset : ∀ {i o o'}, s.objects[i]? = some o → t.objects = s.objects.set i o' →
      o.history.Quiet o'.history → (s.history j).Quiet (t.history j) := by
    intro i o o' ho ht hquiet
    rw [history_of_set ho ht]
    split_ifs with hj
    · rwa [hj, history_of_getElem? ho]
    · exact .rfl
  have happend : ∀ {sessionId}, t.objects = s.objects ++ [.create sessionId] →
      (s.history j).Quiet (t.history j) := fun ht ↦ by
    rw [history_of_append ht]
    exact .rfl
  cases effect_of_step h with
  | broadcastSend => exact absurd rfl (ha _)
  | accepterAdd => exact happend rfl
  | clientSend ho | clientHalfClose ho | stopCancel _ _ _ ho => exact hset ho rfl .rfl
  | completeConn ho hd | completeReadwrite ho hd =>
    exact hset ho rfl (SessionObject.deliver_history hd ▸ .rfl)
  | accepterProcess _ _ _ ho hp | workerProcess _ _ _ ho hp =>
    obtain ⟨r, -, heq⟩ := Option.map_eq_some_iff.mp hp
    exact hset ho rfl ((Prod.mk.inj heq).1 ▸ SessionHistory.quiet_record ..)
  | _ => exact .rfl

/-- The broadcast thread passes a broadcast to one session. -/
theorem history_of_broadcastSend {k : UInt64} (h : step s (.broadcastSend k) = some t) :
    ∃ i, s.getSession k = some i ∧ ∀ j, t.history j =
      if j = i then (s.history i).pass .broadcast broadcastMessage else s.history j := by
  cases effect_of_step h with
  | broadcastSend _ _ hi ho =>
    refine ⟨_, hi, fun j ↦ ?_⟩
    rw [history_of_set ho rfl, history_of_getElem? ho]
    rfl

/-- Where the broadcast thread is in a round that has not ended. -/
theorem broadcast_of_step (h : step s a = some t) {remaining : List UInt64}
    (hs : s.broadcast = .round remaining) (ha : a ≠ .broadcastUnlock) :
    (∃ k ∈ remaining, a = .broadcastSend k ∧ t.broadcast = .round (remaining.erase k)) ∨
      (∀ k, a ≠ .broadcastSend k) ∧ t.broadcast = .round remaining := by
  cases effect_of_step h with
  | broadcastTest hpc | broadcastLock hpc | broadcastRetest hpc => simp [hpc] at hs
  | broadcastUnlock => exact absurd rfl ha
  | broadcastSend hpc hk =>
    obtain rfl := BroadcastPc.round.inj (hs.symm.trans hpc)
    exact Or.inl ⟨_, hk, rfl, rfl⟩
  | _ => exact Or.inr ⟨nofun, hs⟩

/-! ### Rounds -/

/-- The round of the broadcast thread that began in `s` has come to `t`, with the sessions under the
ids `remaining` still to come. -/
structure Round (s t : State) (remaining : List UInt64) : Prop where
  within : t.Within
  broadcast : t.broadcast = .round remaining
  sessions : t.sessions = s.sessions
  connected : ∀ i, (s.history i).connected = true → (t.history i).connected = true
  /-- No session has got the message before its turn. -/
  waiting : ∀ i, (∀ k, s.getSession k = some i → k ∈ remaining) →
    (t.history i).broadcasts = (s.history i).broadcasts
  /-- A session that has had its turn has got the message, unless it connected too late. -/
  visited : ∀ k i, s.getSession k = some i → k ∉ remaining →
    (t.history i).broadcasts = (s.history i).broadcasts + 1 ∨
      (s.history i).connected = false ∧ (t.history i).broadcasts = (s.history i).broadcasts

variable {u : State} {remaining : List UInt64}

/-- A round goes on. -/
theorem Round.of_step (hround : s.Round t remaining)
    (hkeys : ∀ k i, s.getSession k = some i → k = UInt64.ofNat i) (h : step t a = some u)
    (ha : a ≠ .broadcastUnlock) : ∃ remaining', s.Round u remaining' := by
  have hwithin := hround.within.of_step h
  have hsessions : u.sessions = s.sessions := by
    rcases hround.within.locked.sessions_of_step h with heq | ⟨⟨hlocks, -⟩, -⟩
    · exact heq.trans hround.sessions
    · simp [hround.broadcast, BroadcastPc.locks] at hlocks
  rcases broadcast_of_step h hround.broadcast ha with ⟨k, hk, rfl, hbroadcast⟩ | ⟨hsend, hbroadcast⟩
  · obtain ⟨i, hi, hhistory⟩ := history_of_broadcastSend h
    have hnodup : remaining.Nodup :=
      (hround.within.broadcast _ hround.broadcast).nodup t.sessions.nodupKeys
    replace hi : s.getSession k = some i := by rwa [getSession, ← hround.sessions]
    -- The session has no other id.
    have hother : ∀ k', s.getSession k' = some i → k' = k := fun k' hk' ↦
      (hkeys k' i hk').trans (hkeys k i hi).symm
    refine ⟨remaining.erase k, hwithin, hbroadcast, hsessions, fun j hj ↦ ?_, fun j hj ↦ ?_,
      fun k' j hk' hnot ↦ ?_⟩
    · rw [hhistory]
      split_ifs with heq
      · rw [SessionHistory.connected_pass, ← heq]
        exact hround.connected j hj
      · exact hround.connected j hj
    · have hne : j ≠ i := fun heq ↦
        absurd (hj k (heq ▸ hi)) (hnodup.not_mem_erase)
      rw [hhistory, if_neg hne]
      exact hround.waiting j fun k' hk' ↦ List.mem_of_mem_erase (hj k' hk')
    · rw [hhistory]
      split_ifs with heq
      · subst heq
        have hwaiting := hround.waiting j fun k' hk' ↦ hother k' hk' ▸ hk
        rw [SessionHistory.broadcasts_pass, hwaiting]
        by_cases hconnected : (t.history j).connected = true
        · exact Or.inl (by rw [if_pos hconnected])
        · refine Or.inr ⟨?_, by rw [if_neg hconnected, Nat.add_zero]⟩
          exact Bool.eq_false_iff.mpr fun hs ↦ hconnected (hround.connected j hs)
      · refine hround.visited k' j hk' fun hmem ↦ hnot ?_
        refine (hnodup.mem_erase_iff).mpr ⟨?_, hmem⟩
        rintro rfl
        exact heq (Option.some.inj (hk'.symm.trans hi))
  · have hquiet := quiet_of_step h hsend
    refine ⟨remaining, hwithin, hbroadcast, hsessions, fun j hj ↦ ?_, fun j hj ↦ ?_,
      fun k j hk hnot ↦ ?_⟩
    · exact (hquiet j).connected (hround.connected j hj)
    · rw [(hquiet j).broadcasts]
      exact hround.waiting j hj
    · rw [(hquiet j).broadcasts]
      exact hround.visited k j hk hnot

/-- A round begins with all sessions still to come. -/
theorem round_of_broadcastRetest (hs : s.Within) (hrunning : s.running = true)
    (h : step s .broadcastRetest = some t) : s.Round t s.sessions.keys := by
  have hwithin := hs.of_step h
  cases effect_of_step h with
  | broadcastRetest hpc =>
    refine ⟨hwithin, if_pos hrunning, rfl, fun i ↦ id, fun i _ ↦ rfl, fun k i hi hnot ↦ ?_⟩
    have hmem : (s.sessions.lookup k).isSome := Option.isSome_iff_exists.mpr ⟨i, hi⟩
    exact absurd (AList.lookup_isSome.mp hmem) hnot

end State

open State

/-- In every state of a run that creates at most `2 ^ 62` sessions, the broadcast thread and `Stop`
find each session that they have still to visit in the table, and visit it once. -/
theorem iterates_of_run {s : State} {as : List Action} (h : run step .init as = some s)
    (hb : s.objects.length ≤ maxSessions) : s.Iterates := by
  have hs := inv_of_run h hb
  have hwithin := within_of_run h
  exact ⟨fun remaining hpc ↦ hs.visits (hwithin.broadcast remaining hpc),
    fun remaining hpc ↦ hs.visits (hwithin.stop remaining hpc)⟩

/-- A client has connected, another one may, and the broadcast thread holds the table. -/
def beforeRound : List Action :=
  [.accepterTest, .accepterAdd, .accepterInsert, .broadcastTest,
    .completeConn ⟨0, .connected, 0⟩ true, .accepterNext ⟨⟨0, .connected, 0⟩, true⟩, .accepterGet,
    .accepterProcess, .accepterAdd, .accepterInsert, .broadcastLock]

theorem iterates_of_run_beforeRound :
    ∃ s, run step .init (beforeRound ++ [.broadcastRetest, .broadcastSend 1]) = some s ∧
      s.Iterates :=
  ⟨_, rfl, iterates_of_run (show run step .init
    (beforeRound ++ [.broadcastRetest, .broadcastSend 1]) = some _ from rfl) (by decide)⟩

/-- The round that began in `s` has reached the sessions of the table but those under `remaining`:
the connected ones got the message exactly once, and no other session got it. -/
structure State.Reaches (s t : State) (remaining : List UInt64) : Prop where
  sessions : t.sessions = s.sessions
  once : ∀ i, s.getSession (UInt64.ofNat i) = some i → UInt64.ofNat i ∉ remaining →
    (s.history i).connected = true → (t.history i).broadcasts = (s.history i).broadcasts + 1
  atMostOnce : ∀ i, (t.history i).broadcasts ≤ (s.history i).broadcasts + 1
  others : ∀ i, (s.getSession (UInt64.ofNat i) = some i → UInt64.ofNat i ∈ remaining) →
    (t.history i).broadcasts = (s.history i).broadcasts

theorem State.Round.reaches {s t : State} {remaining : List UInt64} (h : s.Round t remaining)
    (hkeys : ∀ k i, s.getSession k = some i → k = UInt64.ofNat i) : s.Reaches t remaining := by
  have hothers : ∀ i, (s.getSession (UInt64.ofNat i) = some i → UInt64.ofNat i ∈ remaining) →
      (t.history i).broadcasts = (s.history i).broadcasts := fun i hi ↦
    h.waiting i fun k hk ↦ by
      obtain rfl := hkeys k i hk
      exact hi hk
  refine ⟨h.sessions, fun i hi hnot hconnected ↦ ?_, fun i ↦ ?_, hothers⟩
  · rcases h.visited _ i hi hnot with heq | ⟨hfalse, -⟩
    · exact heq
    · simp [hconnected] at hfalse
  · by_cases hi : s.getSession (UInt64.ofNat i) = some i ∧ UInt64.ofNat i ∉ remaining
    · rcases h.visited _ i hi.1 hi.2 with heq | ⟨-, heq⟩ <;> omega
    · have heq := hothers i fun hsome ↦ by
        by_contra hnot
        exact hi ⟨hsome, hnot⟩
      omega

/-- A round of the broadcast thread that begins in `s` reaches every session which is in the table
then, each connected one exactly once, whatever the others do during the round: nobody can insert
or remove a session before it is over. -/
theorem broadcasts_of_run {s t u : State} {as bs : List Action} {remaining : List UInt64}
    (hrun : run step .init as = some s) (hb : s.objects.length ≤ maxSessions)
    (hrunning : s.running = true) (hstart : step s .broadcastRetest = some t)
    (hround : run step t bs = some u) (hbs : .broadcastUnlock ∉ bs)
    (hu : u.broadcast = .round remaining) : s.Reaches u remaining := by
  have hkeys : ∀ k i, s.getSession k = some i → k = UInt64.ofNat i := fun k i hi ↦
    ((inv_of_run hrun hb).table.keys k i hi).2
  have hbegin := round_of_broadcastRetest (within_of_run hrun) hrunning hstart
  have hgoes : ∀ v a w, (∃ r, s.Round v r) → a ≠ .broadcastUnlock → step v a = some w →
      ∃ r, s.Round w r := fun v a w ⟨r, hr⟩ ha hw ↦ hr.of_step hkeys hw ha
  have halong : Along step (fun _ a ↦ a ≠ .broadcastUnlock) t bs :=
    along_of_mem (fun a ha _ ↦ by rintro rfl; exact hbs ha) t
  obtain ⟨r, hr⟩ := run_invariant_along hgoes halong hround ⟨_, hbegin⟩
  obtain rfl := BroadcastPc.round.inj (hr.broadcast.symm.trans hu)
  exact hr.reaches hkeys

/-- A request of the client arrives between the two sessions. -/
theorem broadcasts_of_run_beforeRound :
    ∃ s t u, run step .init beforeRound = some s ∧ step s .broadcastRetest = some t ∧
      run step t [.broadcastSend 1, .clientSend 0 {}, .broadcastSend 0] = some u ∧
      s.Reaches u [] :=
  ⟨_, _, _, rfl, rfl, rfl, broadcasts_of_run
    (show run step .init beforeRound = some _ from rfl) (by decide) rfl rfl
    (show run step _ [.broadcastSend 1, .clientSend 0 {}, .broadcastSend 0] = some _ from rfl)
    (by decide) rfl⟩

end CppDemo.Grpc.ServerAsync
