import CppDemo.Grpc.ServerAsync.Session
import Mathlib.Data.Multiset.MapFold

/-!
# The protocol of one session

Seen from one session, the server is a small machine: operations of the session are started and
complete, its events are processed one at a time, broadcasts arrive, and at some moment the session
is removed from the table. `SessionStep` is this machine. Its state is the session object, whether
the table holds it, and the operations of the session that were started and not yet dealt with,
each with its outcome once it has completed.

A session goes through three phases while the server knows it: it *waits* for its registration, is
*ready* with just a read outstanding, or is *writing* with a read and a write outstanding.
`SessionView.Inv` says that it is in one of them or has been removed, and every step keeps it.

## Main definitions

* `SessionView`, `SessionStep` : the machine.
* `SessionView.Waiting`, `SessionView.Ready`, `SessionView.Writing`, `SessionView.Removed` : its
  phases.

## Main results

* `SessionStep.inv` : a session is always in one of its phases.
-/

namespace CppDemo.Grpc.ServerAsync

/-- The place of a session object in the life of the server. -/
inductive Life
  | constructing
  | registered
  | removed
  deriving DecidableEq, Repr

/-- An operation of a session and its outcome, `none` while it is in flight. -/
abbrev Token := SessionEvent × Option Bool

/-- What concerns one session. -/
structure SessionView where
  object : SessionObject
  life : Life
  tokens : Multiset Token

/-- The operations that stream calls start. -/
def callTokens (calls : List StreamCall) : Multiset Token :=
  (calls : Multiset StreamCall).map fun call ↦ (call.event, none)

@[simp] theorem callTokens_nil : callTokens [] = 0 := rfl

@[simp] theorem callTokens_cons (call : StreamCall) (calls : List StreamCall) :
    callTokens (call :: calls) = (call.event, none) ::ₘ callTokens calls := rfl

/-- The steps of a session: a move of its client or a cancellation, the completion of an operation,
the insertion into the table, the loss of a completion after the removal, the removal on a failed
operation, an event, and a broadcast. -/
inductive SessionStep : SessionView → SessionView → Prop
  | client {o o' : SessionObject} {life tokens} (hsession : o'.session = o.session)
      (hhistory : o'.history = o.history)
      (hstream : ∃ more halfClosed cancelled, o'.stream =
        { o.stream with sent := o.stream.sent ++ more, halfClosed, cancelled }) :
      SessionStep ⟨o, life, tokens⟩ ⟨o', life, tokens⟩
  | complete {o o' : SessionObject} {life rest event ok} (h : o.deliver event ok = some o') :
      SessionStep ⟨o, life, (event, none) ::ₘ rest⟩ ⟨o', life, (event, some ok) ::ₘ rest⟩
  | register {o tokens} : SessionStep ⟨o, .constructing, tokens⟩ ⟨o, .registered, tokens⟩
  | drop {o token rest} : SessionStep ⟨o, .removed, token ::ₘ rest⟩ ⟨o, .removed, rest⟩
  | remove {o event rest} :
      SessionStep ⟨o, .registered, (event, some false) ::ₘ rest⟩ ⟨o, .removed, rest⟩
  | process {o o' : SessionObject} {event rest calls}
      (h : o.processEvent (SessionEvent.toWord event) = some (o', calls)) :
      SessionStep ⟨o, .registered, (event, some true) ::ₘ rest⟩
        ⟨o', .registered, callTokens calls + rest⟩
  | broadcast {o : SessionObject} {tokens} (response : HelloResponse) :
      SessionStep ⟨o, .registered, tokens⟩
        ⟨(o.sendBroadcast response).1, .registered,
          callTokens (o.sendBroadcast response).2 + tokens⟩

/-! ### Messages -/

/-- A message passed to a connected session is handed to `Write` or queued behind the others. -/
theorem GreeterSession.written_sendResponse {self : GreeterSession} (response : HelloResponse)
    (hstatus : self.status ≠ .waitToConnect)
    (hqueue : self.status = .readyToWrite → self.messageQueue = []) :
    (self.sendResponse response).2.filterMap (·.written?) ++
      (self.sendResponse response).1.messageQueue = self.messageQueue ++ [response] := by
  cases h : self.status with
  | waitToConnect => exact absurd h hstatus
  | readyToWrite => simp [h, hqueue h]
  | waitWriteDone => simp [h]

/-- A connected session whose read has the outcome `read`: every message passed to it has been
handed to `Write` or is queued, and its replies answer the requests read so far. -/
structure SessionObject.Active (o : SessionObject) (read : Option Bool) : Prop where
  accepted : o.stream.accepted = true
  connected : o.history.connected = true
  messages : o.written ++ o.session.messageQueue = o.history.passed.map Prod.snd
  replies : o.history.replies = (o.stream.sent.take o.history.readDone).map replyTo
  delivered : o.stream.delivered = o.history.readDone + if read = some true then 1 else 0
  delivered_le : o.stream.delivered ≤ o.stream.sent.length
  request : read = some true → o.stream.sent[o.history.readDone]? = some o.session.request

namespace SessionObject

/-- Passing a broadcast to a connected session keeps its conversation in order. -/
theorem Active.sendBroadcast {o : SessionObject} {read : Option Bool} (h : o.Active read)
    (hstatus : o.session.status ≠ .waitToConnect)
    (hqueue : o.session.status = .readyToWrite → o.session.messageQueue = [])
    (response : HelloResponse) : (o.sendBroadcast response).1.Active read := by
  have hsend := GreeterSession.written_sendResponse response hstatus hqueue
  have hrequest : (o.session.sendResponse response).1.request = o.session.request := by
    unfold GreeterSession.sendResponse; split_ifs <;> rfl
  have hpass : o.history.pass .broadcast response =
      { o.history with passed := o.history.passed ++ [(.broadcast, response)] } := by
    simp only [SessionHistory.pass, h.connected, ↓reduceIte]
  refine ⟨h.accepted, ?_, ?_, ?_, ?_, h.delivered_le, ?_⟩
  · simpa only [SessionObject.sendBroadcast, hpass] using h.connected
  · simp only [SessionObject.sendBroadcast, hpass, written, List.filterMap_append,
      List.append_assoc, hsend, List.map_append, List.map_cons, List.map_nil, ← h.messages]
  · simpa [SessionObject.sendBroadcast, hpass, SessionHistory.replies] using h.replies
  · simpa only [SessionObject.sendBroadcast, hpass] using h.delivered
  · simpa only [SessionObject.sendBroadcast, hpass, hrequest] using h.request

/-- Answering the request just read keeps the conversation in order and asks for the next one. -/
theorem Active.processEvent_readDone {o o' : SessionObject} {calls : List StreamCall}
    (h : o.Active (some true)) (hstatus : o.session.status ≠ .waitToConnect)
    (hqueue : o.session.status = .readyToWrite → o.session.messageQueue = [])
    (hp : o.processEvent SessionEvent.readDone.toWord = some (o', calls)) : o'.Active none := by
  have hsend := GreeterSession.written_sendResponse (replyTo o.session.request) hstatus hqueue
  simp only [SessionObject.processEvent, GreeterSession.processEvent_toWord, Option.map_some,
    Option.some.injEq, Prod.mk.injEq, SessionHistory.record, SessionEvent.ofWord?_toWord,
    SessionHistory.pass, h.connected, ↓reduceIte] at hp
  obtain ⟨rfl, rfl⟩ := hp
  have hlen : o.history.readDone < o.stream.sent.length :=
    (List.getElem?_eq_some_iff.mp (h.request rfl)).1
  have hdelivered := h.delivered
  refine ⟨h.accepted, rfl, ?_, ?_, ?_, h.delivered_le, by simp⟩
  · simp only [written, List.filterMap_append, List.filterMap_cons, StreamCall.written?_read,
      List.filterMap_nil, List.append_nil, List.append_assoc, hsend, List.map_append,
      List.map_cons, List.map_nil, ← h.messages]
  · have hreplies := h.replies
    simp only [SessionHistory.replies, List.filter_append, List.map_append] at hreplies ⊢
    rw [hreplies, List.take_add_one, h.request rfl]
    simp
  · simpa using hdelivered

/-- A move of the client keeps the conversation. -/
theorem Active.client {o o' : SessionObject} {read : Option Bool} (h : o.Active read)
    (hsession : o'.session = o.session) (hhistory : o'.history = o.history)
    (hstream : ∃ more halfClosed cancelled, o'.stream =
      { o.stream with sent := o.stream.sent ++ more, halfClosed, cancelled }) :
    o'.Active read := by
  obtain ⟨more, halfClosed, cancelled, hstream⟩ := hstream
  have hle := h.delivered_le
  have hdelivered := h.delivered
  refine ⟨?_, ?_, ?_, ?_, ?_, ?_, fun hread ↦ ?_⟩
  · simpa only [hstream] using h.accepted
  · simpa only [hhistory] using h.connected
  · simpa only [written, hstream, hsession, hhistory] using h.messages
  · rw [hhistory, hstream, List.take_append_of_le_length (by omega)]
    exact h.replies
  · simpa only [hstream, hhistory] using h.delivered
  · simp only [hstream, List.length_append]; omega
  · have hsome := h.request hread
    rw [hhistory, hstream, hsession,
      List.getElem?_append_left (List.getElem?_eq_some_iff.mp hsome).1]
    exact hsome

/-- A read that completes stores the next request of the client. -/
theorem Active.deliver_readDone {o o' : SessionObject} {ok : Bool} (h : o.Active none)
    (hd : o.deliver .readDone ok = some o') :
    o'.Active (some ok) ∧ o'.history = o.history ∧ o'.stream.calls = o.stream.calls ∧
      o'.session = { o.session with request := o'.session.request } := by
  have hdelivered := h.delivered
  cases ok with
  | false =>
    obtain rfl := Option.some.inj hd
    exact ⟨⟨h.accepted, h.connected, h.messages, h.replies, by simpa using hdelivered,
      h.delivered_le, by simp⟩, rfl, rfl, rfl⟩
  | true =>
    obtain ⟨request, hrequest, rfl⟩ := Option.map_eq_some_iff.mp hd
    have hlt := (List.getElem?_eq_some_iff.mp hrequest).1
    simp only [reduceCtorEq, ↓reduceIte, Nat.add_zero] at hdelivered
    refine ⟨⟨h.accepted, h.connected, h.messages, h.replies, by simp [hdelivered], hlt,
      fun _ ↦ ?_⟩, rfl, rfl, rfl⟩
    simpa only [hdelivered] using hrequest

end SessionObject

/-! ### Phases -/

namespace SessionView

/-- The session waits for its registration, with nothing else started. -/
structure Waiting (v : SessionView) (registration : Option Bool) : Prop where
  life : v.life ≠ .removed
  tokens : v.tokens = {(.connected, registration)}
  accepted : registration = some true → v.object.stream.accepted = true
  session : v.object.session = { sessionId := v.object.session.sessionId }
  history : v.object.history = {}
  calls : v.object.stream.calls = []
  delivered : v.object.stream.delivered = 0

/-- The session may write; just a read is outstanding. -/
structure Ready (v : SessionView) (read : Option Bool) : Prop extends
    v.object.Active read where
  life : v.life = .registered
  status : v.object.session.status = .readyToWrite
  queue : v.object.session.messageQueue = []
  tokens : v.tokens = {(.readDone, read)}
  writes : v.object.written.length = v.object.history.writeDone

/-- The session waits for its outstanding write; a read is outstanding as well. -/
structure Writing (v : SessionView) (read write : Option Bool) : Prop extends
    v.object.Active read where
  life : v.life = .registered
  status : v.object.session.status = .waitWriteDone
  tokens : v.tokens = {(.readDone, read), (.writeDone, write)}
  writes : v.object.written.length = v.object.history.writeDone + 1

/-- The session has been removed; what is left are reads and writes of an accepted call. -/
structure Removed (v : SessionView) : Prop where
  life : v.life = .removed
  events : ∀ t ∈ v.tokens, t.1 = .readDone ∨ t.1 = .writeDone
  accepted : v.tokens ≠ 0 → v.object.stream.accepted = true

/-- A session is in one of its phases. -/
inductive Inv (v : SessionView) : Prop
  | waiting (registration : Option Bool) (h : v.Waiting registration)
  | ready (read : Option Bool) (h : v.Ready read)
  | writing (read write : Option Bool) (h : v.Writing read write)
  | removed (h : v.Removed)

end SessionView

theorem cons_eq_singleton {α : Type*} {a b : α} {m : Multiset α} (h : a ::ₘ m = {b}) :
    a = b ∧ m = 0 := by
  obtain ⟨rfl, rfl⟩ := (Multiset.singleton_eq_cons_iff m).mp h.symm
  exact ⟨rfl, rfl⟩

theorem cons_eq_pair {α : Type*} {a b c : α} {m : Multiset α} (h : a ::ₘ m = {b, c}) :
    a = b ∧ m = {c} ∨ a = c ∧ m = {b} := by
  rcases Multiset.cons_eq_cons.mp h with ⟨rfl, rfl⟩ | ⟨-, rest, rfl, hrest⟩
  · exact Or.inl ⟨rfl, rfl⟩
  · obtain ⟨rfl, rfl⟩ := (Multiset.singleton_eq_cons_iff rest).mp hrest
    exact Or.inr ⟨rfl, rfl⟩

namespace SessionView

/-- A step of the client leaves the phase as it is. -/
private theorem Inv.client {o o' : SessionObject} {life tokens}
    (h : (⟨o, life, tokens⟩ : SessionView).Inv) (hsession : o'.session = o.session)
    (hhistory : o'.history = o.history)
    (hstream : ∃ more halfClosed cancelled, o'.stream =
      { o.stream with sent := o.stream.sent ++ more, halfClosed, cancelled }) :
    (⟨o', life, tokens⟩ : SessionView).Inv := by
  have hwritten : o'.written = o.written := by
    obtain ⟨more, halfClosed, cancelled, hs⟩ := hstream
    simp only [SessionObject.written, hs]
  cases h with
  | waiting w h =>
    obtain ⟨more, halfClosed, cancelled, hs⟩ := hstream
    refine .waiting w ⟨h.life, h.tokens, ?_, ?_, hhistory ▸ h.history, ?_, ?_⟩
    · simpa only [hs] using h.accepted
    · rw [hsession]; exact h.session
    · simpa only [hs] using h.calls
    · simpa only [hs] using h.delivered
  | ready r h =>
    refine .ready r ⟨h.toActive.client hsession hhistory hstream, h.life, ?_, ?_, h.tokens, ?_⟩
    · rw [hsession]; exact h.status
    · rw [hsession]; exact h.queue
    · rw [hwritten, hhistory]; exact h.writes
  | writing r w h =>
    refine .writing r w ⟨h.toActive.client hsession hhistory hstream, h.life, ?_, h.tokens, ?_⟩
    · rw [hsession]; exact h.status
    · rw [hwritten, hhistory]; exact h.writes
  | removed h =>
    obtain ⟨more, halfClosed, cancelled, hs⟩ := hstream
    refine .removed ⟨h.life, h.events, ?_⟩
    simpa only [hs] using h.accepted

/-- The completion of an operation keeps the phase and settles the outcome of the operation. -/
private theorem Inv.complete {o o' : SessionObject} {life rest event ok}
    (h : (⟨o, life, (event, none) ::ₘ rest⟩ : SessionView).Inv)
    (hd : o.deliver event ok = some o') :
    (⟨o', life, (event, some ok) ::ₘ rest⟩ : SessionView).Inv := by
  cases h with
  | waiting w h =>
    obtain ⟨htoken, rfl⟩ := cons_eq_singleton h.tokens
    obtain ⟨rfl, rfl⟩ := Prod.mk.inj htoken
    cases ok <;> obtain rfl := Option.some.inj hd
    · exact .waiting (some false) ⟨h.life, rfl, by simp, h.session, h.history, h.calls,
        h.delivered⟩
    · exact .waiting (some true) ⟨h.life, rfl, fun _ ↦ rfl, h.session, h.history, h.calls,
        h.delivered⟩
  | ready r h =>
    obtain ⟨htoken, rfl⟩ := cons_eq_singleton h.tokens
    obtain ⟨rfl, rfl⟩ := Prod.mk.inj htoken
    obtain ⟨hactive, hhistory, hcalls, hsession⟩ := h.toActive.deliver_readDone hd
    refine .ready (some ok) ⟨hactive, h.life, ?_, ?_, rfl, ?_⟩
    · rw [hsession]; exact h.status
    · rw [hsession]; exact h.queue
    · simpa only [SessionObject.written, hcalls, hhistory] using h.writes
  | writing r w h =>
    rcases cons_eq_pair h.tokens with ⟨htoken, rfl⟩ | ⟨htoken, rfl⟩
    · obtain ⟨rfl, rfl⟩ := Prod.mk.inj htoken
      obtain ⟨hactive, hhistory, hcalls, hsession⟩ := h.toActive.deliver_readDone hd
      refine .writing (some ok) w ⟨hactive, h.life, ?_, rfl, ?_⟩
      · rw [hsession]; exact h.status
      · simpa only [SessionObject.written, hcalls, hhistory] using h.writes
    · obtain ⟨rfl, rfl⟩ := Prod.mk.inj htoken
      obtain rfl : o = o' := by cases ok <;> exact Option.some.inj hd
      exact .writing r (some ok) ⟨h.toActive, h.life, h.status, Multiset.pair_comm _ _, h.writes⟩
  | removed h =>
    have hevent := h.events (event, none) (Multiset.mem_cons_self _ _)
    have haccepted : o'.stream.accepted = o.stream.accepted := by
      rcases hevent with rfl | rfl <;> cases ok
      · exact (Option.some.inj hd) ▸ rfl
      · obtain ⟨request, -, rfl⟩ := Option.map_eq_some_iff.mp hd; rfl
      · exact (Option.some.inj hd) ▸ rfl
      · exact (Option.some.inj hd) ▸ rfl
    refine .removed ⟨h.life, fun t ht ↦ ?_, fun _ ↦ ?_⟩
    · rcases Multiset.mem_cons.mp ht with rfl | ht
      · exact hevent
      · exact h.events t (Multiset.mem_cons_of_mem ht)
    · exact haccepted.trans (h.accepted (Multiset.cons_ne_zero))

/-- A session removed on a failed operation leaves behind at most its other operation. -/
private theorem Inv.remove {o : SessionObject} {event rest}
    (h : (⟨o, .registered, (event, some false) ::ₘ rest⟩ : SessionView).Inv) :
    (⟨o, .removed, rest⟩ : SessionView).Inv := by
  cases h with
  | waiting w h =>
    obtain ⟨-, rfl⟩ := cons_eq_singleton h.tokens
    exact .removed ⟨rfl, by simp, by simp⟩
  | ready r h =>
    obtain ⟨-, rfl⟩ := cons_eq_singleton h.tokens
    exact .removed ⟨rfl, by simp, by simp⟩
  | writing r w h =>
    rcases cons_eq_pair h.tokens with ⟨-, rfl⟩ | ⟨-, rfl⟩
    · exact .removed ⟨rfl, by simp, fun _ ↦ h.accepted⟩
    · exact .removed ⟨rfl, by simp, fun _ ↦ h.accepted⟩
  | removed h => exact absurd h.life (by simp)

/-- A session that waits becomes ready when it processes `Connected`. -/
private theorem Waiting.process {o o' : SessionObject} {event rest calls w}
    (h : (⟨o, .registered, (event, some true) ::ₘ rest⟩ : SessionView).Waiting w)
    (hp : o.processEvent (SessionEvent.toWord event) = some (o', calls)) :
    (⟨o', .registered, callTokens calls + rest⟩ : SessionView).Ready none := by
  obtain ⟨htoken, rfl⟩ := cons_eq_singleton h.tokens
  obtain ⟨rfl, rfl⟩ := Prod.mk.inj htoken
  have hsession : o.session = { sessionId := o.session.sessionId } := h.session
  have hhistory : o.history = {} := h.history
  have hcalls : o.stream.calls = [] := h.calls
  have hdelivered : o.stream.delivered = 0 := h.delivered
  simp only [SessionObject.processEvent, GreeterSession.processEvent_toWord, Option.map_some,
    Option.some.injEq, Prod.mk.injEq, SessionHistory.record, SessionEvent.ofWord?_toWord] at hp
  obtain ⟨rfl, rfl⟩ := hp
  have hqueue : o.session.messageQueue = [] := by rw [hsession]
  refine ⟨⟨h.accepted rfl, rfl, ?_, ?_, ?_, ?_, by simp⟩, rfl, rfl, hqueue, ?_, ?_⟩
  · simp [SessionObject.written, hcalls, hqueue, hhistory]
  · simp [SessionHistory.replies, hhistory]
  · simp [hdelivered, hhistory]
  · simp [hdelivered]
  · simp
  · simp [SessionObject.written, hcalls, hhistory]

/-- A session that is ready writes the answer to the request it has read. -/
private theorem Ready.process {o o' : SessionObject} {event rest calls r}
    (h : (⟨o, .registered, (event, some true) ::ₘ rest⟩ : SessionView).Ready r)
    (hp : o.processEvent (SessionEvent.toWord event) = some (o', calls)) :
    (⟨o', .registered, callTokens calls + rest⟩ : SessionView).Writing none none := by
  obtain ⟨htoken, rfl⟩ := cons_eq_singleton h.tokens
  obtain ⟨rfl, rfl⟩ := Prod.mk.inj htoken
  have hstatus : o.session.status = .readyToWrite := h.status
  have hactive := h.toActive.processEvent_readDone (by simp [hstatus]) (fun _ ↦ h.queue) hp
  have hwrites : o.written.length = o.history.writeDone := h.writes
  have hconnected : o.history.connected = true := h.connected
  simp only [SessionObject.processEvent, GreeterSession.processEvent_toWord, Option.map_some,
    Option.some.injEq, Prod.mk.injEq, GreeterSession.sendResponse_of_readyToWrite _ hstatus,
    SessionHistory.record, SessionEvent.ofWord?_toWord, SessionHistory.pass, hconnected,
    ↓reduceIte] at hp
  obtain ⟨rfl, rfl⟩ := hp
  refine ⟨hactive, rfl, rfl, ?_, ?_⟩
  · exact Multiset.pair_comm (SessionEvent.writeDone, none) (SessionEvent.readDone, none)
  · simp only [SessionObject.written] at hwrites
    simp [SessionObject.written, hwrites]

/-- A session that is writing queues the answer to the request it has read. -/
private theorem Writing.process_readDone {o o' : SessionObject} {rest calls w}
    (h : (⟨o, .registered, rest⟩ : SessionView).Writing (some true) w)
    (hp : o.processEvent SessionEvent.readDone.toWord = some (o', calls)) :
    (⟨o', .registered, callTokens calls + {(.writeDone, w)}⟩ : SessionView).Writing none w := by
  have hstatus : o.session.status = .waitWriteDone := h.status
  have hactive := h.toActive.processEvent_readDone (by simp [hstatus]) (by simp [hstatus]) hp
  have hwrites : o.written.length = o.history.writeDone + 1 := h.writes
  have hconnected : o.history.connected = true := h.connected
  simp only [SessionObject.processEvent, GreeterSession.processEvent_toWord, Option.map_some,
    Option.some.injEq, Prod.mk.injEq, GreeterSession.sendResponse_of_waitWriteDone _ hstatus,
    SessionHistory.record, SessionEvent.ofWord?_toWord, SessionHistory.pass, hconnected,
    ↓reduceIte] at hp
  obtain ⟨rfl, rfl⟩ := hp
  refine ⟨hactive, rfl, hstatus, ?_, ?_⟩
  · simp
  · simp only [SessionObject.written] at hwrites
    simp [SessionObject.written, hwrites]

/-- When its write is done a session writes the front of its queue, or becomes ready if the queue
is empty. -/
private theorem Writing.process_writeDone {o o' : SessionObject} {rest calls r}
    (h : (⟨o, .registered, rest⟩ : SessionView).Writing r (some true))
    (hp : o.processEvent SessionEvent.writeDone.toWord = some (o', calls)) :
    (⟨o', .registered, callTokens calls + {(.readDone, r)}⟩ : SessionView).Inv := by
  have hactive := h.toActive
  have hmessages := hactive.messages
  have hwrites : o.written.length = o.history.writeDone + 1 := h.writes
  simp only [SessionObject.written] at hwrites hmessages
  cases hqueue : o.session.messageQueue with
  | nil =>
    simp only [SessionObject.processEvent, GreeterSession.processEvent_toWord, hqueue,
      Option.map_some, Option.some.injEq, Prod.mk.injEq, SessionHistory.record,
      SessionEvent.ofWord?_toWord] at hp
    obtain ⟨rfl, rfl⟩ := hp
    refine .ready r ⟨⟨hactive.accepted, hactive.connected, ?_, hactive.replies,
      hactive.delivered, hactive.delivered_le, hactive.request⟩, rfl, rfl, rfl, ?_, ?_⟩
    · simpa [SessionObject.written, hqueue] using hmessages
    · simp
    · simp [SessionObject.written, hwrites]
  | cons front queue =>
    simp only [SessionObject.processEvent, GreeterSession.processEvent_toWord, hqueue,
      Option.map_some, Option.some.injEq, Prod.mk.injEq, SessionHistory.record,
      SessionEvent.ofWord?_toWord] at hp
    obtain ⟨rfl, rfl⟩ := hp
    refine .writing r none ⟨⟨hactive.accepted, hactive.connected, ?_, hactive.replies,
      hactive.delivered, hactive.delivered_le, hactive.request⟩, rfl, rfl, ?_, ?_⟩
    · simpa [SessionObject.written, hqueue] using hmessages
    · exact Multiset.pair_comm (SessionEvent.writeDone, none) (SessionEvent.readDone, r)
    · simp [SessionObject.written, hwrites]

/-- An event that the session processes leads from phase to phase. -/
private theorem Inv.process {o o' : SessionObject} {event rest calls}
    (h : (⟨o, .registered, (event, some true) ::ₘ rest⟩ : SessionView).Inv)
    (hp : o.processEvent (SessionEvent.toWord event) = some (o', calls)) :
    (⟨o', .registered, callTokens calls + rest⟩ : SessionView).Inv := by
  cases h with
  | waiting w h => exact .ready none (h.process hp)
  | ready r h => exact .writing none none (h.process hp)
  | writing r w h =>
    rcases cons_eq_pair h.tokens with ⟨htoken, rfl⟩ | ⟨htoken, rfl⟩
    · obtain ⟨rfl, rfl⟩ := Prod.mk.inj htoken
      exact .writing none w (h.process_readDone hp)
    · obtain ⟨rfl, rfl⟩ := Prod.mk.inj htoken
      exact h.process_writeDone hp
  | removed h => exact absurd h.life (by simp)

/-- A broadcast is dropped by a session that waits, written by one that is ready and queued by one
that is writing. -/
private theorem Inv.broadcast {o : SessionObject} {tokens}
    (h : (⟨o, .registered, tokens⟩ : SessionView).Inv) (response : HelloResponse) :
    (⟨(o.sendBroadcast response).1, .registered,
      callTokens (o.sendBroadcast response).2 + tokens⟩ : SessionView).Inv := by
  cases h with
  | waiting w h =>
    have hstatus : o.session.status = .waitToConnect := by rw [h.session]
    have hhistory : o.history = {} := h.history
    have hsend : o.sendBroadcast response = (o, []) := by
      simp [SessionObject.sendBroadcast, hstatus, hhistory, SessionHistory.pass]
      rw [← hhistory]
    rw [hsend]
    exact .waiting w (by simpa using h)
  | ready r h =>
    have hstatus : o.session.status = .readyToWrite := h.status
    have hactive := h.toActive.sendBroadcast (by simp [hstatus]) (fun _ ↦ h.queue) response
    have hwrites : o.written.length = o.history.writeDone := h.writes
    have htokens : tokens = {(.readDone, r)} := h.tokens
    have hconnected : o.history.connected = true := h.connected
    refine .writing r none ⟨hactive, rfl, ?_, ?_, ?_⟩
    · simp [SessionObject.sendBroadcast, hstatus]
    · simp only [SessionObject.sendBroadcast, GreeterSession.sendResponse_of_readyToWrite _ hstatus,
        htokens]
      exact Multiset.pair_comm (SessionEvent.writeDone, none) (SessionEvent.readDone, r)
    · simp only [SessionObject.written] at hwrites
      simp [SessionObject.sendBroadcast, hstatus, SessionObject.written, hwrites,
        SessionHistory.pass, hconnected]
  | writing r w h =>
    have hstatus : o.session.status = .waitWriteDone := h.status
    have hactive := h.toActive.sendBroadcast (by simp [hstatus]) (by simp [hstatus]) response
    have hwrites : o.written.length = o.history.writeDone + 1 := h.writes
    have htokens : tokens = {(.readDone, r), (.writeDone, w)} := h.tokens
    have hconnected : o.history.connected = true := h.connected
    refine .writing r w ⟨hactive, rfl, ?_, ?_, ?_⟩
    · simp [SessionObject.sendBroadcast, hstatus]
    · simp [SessionObject.sendBroadcast, hstatus, htokens]
    · simp only [SessionObject.written] at hwrites
      simp [SessionObject.sendBroadcast, hstatus, SessionObject.written, hwrites,
        SessionHistory.pass, hconnected]
  | removed h => exact absurd h.life (by simp)

/-- A registration is outstanding only alone. -/
theorem Inv.connected_alone {v : SessionView} (h : v.Inv) {w : Option Bool} {t : Token}
    (hw : (.connected, w) ∈ v.tokens) (ht : t ∈ v.tokens) : t.1 = .connected := by
  cases h with
  | waiting w h =>
    rw [h.tokens, Multiset.mem_singleton] at ht
    rw [ht]
  | ready r h => simp [h.tokens] at hw
  | writing r w h => simp [h.tokens] at hw
  | removed h => simpa using h.events _ hw

/-- A session that has just been constructed waits for its registration. -/
theorem inv_create (sessionId : UInt64) :
    (⟨.create sessionId, .constructing, {(.connected, none)}⟩ : SessionView).Inv :=
  .waiting none ⟨by simp, rfl, by simp, rfl, rfl, rfl, rfl⟩

end SessionView

/-- Every step of a session leads from one of its phases to one of them. -/
theorem SessionStep.inv {v v' : SessionView} (h : SessionStep v v') (hv : v.Inv) : v'.Inv := by
  cases h with
  | client hsession hhistory hstream => exact hv.client hsession hhistory hstream
  | complete hd => exact hv.complete hd
  | register =>
    cases hv with
    | waiting w h =>
      exact .waiting w ⟨by simp, h.tokens, h.accepted, h.session, h.history, h.calls, h.delivered⟩
    | ready r h => exact absurd h.life (by simp)
    | writing r w h => exact absurd h.life (by simp)
    | removed h => exact absurd h.life (by simp)
  | drop =>
    cases hv with
    | waiting w h => exact absurd rfl h.life
    | ready r h => exact absurd h.life (by simp)
    | writing r w h => exact absurd h.life (by simp)
    | removed h =>
      exact .removed ⟨rfl, fun t ht ↦ h.events t (Multiset.mem_cons_of_mem ht),
        fun _ ↦ h.accepted Multiset.cons_ne_zero⟩
  | remove => exact hv.remove
  | process hp => exact hv.process hp
  | broadcast response => exact hv.broadcast response

end CppDemo.Grpc.ServerAsync
