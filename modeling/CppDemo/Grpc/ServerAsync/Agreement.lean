import CppDemo.Foundation.Transition
import CppDemo.Grpc.ServerAsync.SessionProtocol
import CppDemo.Grpc.ServiceImpl

/-!
# The two implementations of `SayHello3`

The same call of the service is implemented twice: by the loop of `ServiceImpl` and by the sessions
of the asynchronous server. A session is run here on a given stream of requests, with reads and
writes that complete, all of them with success, and events that are processed in any order. The
texts of its replies are compared with those that the loop writes for the requests that the session
has answered. The loop quotes the name as the request says, the session does not quote it, so that
the two agree on no request.

Source: `grpcdemo/server_async.cc`, lines 101–153, and `grpcdemo/service_impl.cc`, lines 11–17 and
69–86.

## Main definitions

* `sessionStep` : the steps of a session all of whose operations succeed.
* `replyTexts` : the replies that a session has handed to `Write` or keeps queued.

## Main results

* `sessionStep_sound` : every such step is a step of the session protocol.
* `replyTexts_eq_map` : the replies of a session answer its requests, in order.
* `replyTexts_eq_iff_of_run` : they are those of the loop exactly if there are none.
-/

namespace CppDemo.Grpc.ServerAsync

/-! ### A session whose operations succeed -/

/-- An operation completes, its event is processed, or a broadcast is passed to the session. -/
inductive SessionAction
  | complete (event : SessionEvent)
  | process (event : SessionEvent)
  | broadcast (response : HelloResponse)
  deriving DecidableEq, Repr

/-- A session that waits for a client, who sends `requests`. -/
def sessionStart (sessionId : UInt64) (requests : List HelloRequest) : SessionView where
  object := { SessionObject.create sessionId with stream := { sent := requests } }
  life := .registered
  tokens := {(.connected, none)}

def sessionStep (v : SessionView) : SessionAction → Option SessionView
  | .complete event =>
    if (event, none) ∈ v.tokens then
      (v.object.deliver event true).map fun o ↦
        { v with object := o, tokens := (event, some true) ::ₘ v.tokens.erase (event, none) }
    else none
  | .process event =>
    if (event, some true) ∈ v.tokens then
      (v.object.processEvent event.toWord).map fun r ↦
        { v with object := r.1, tokens := callTokens r.2 + v.tokens.erase (event, some true) }
    else none
  | .broadcast response =>
    let r := v.object.sendBroadcast response
    some { v with object := r.1, tokens := callTokens r.2 + v.tokens }

/-- The texts of the replies among the messages that have been handed to `Write` or are queued. The
history tells which of them are replies. -/
def replyTexts (o : SessionObject) : List String :=
  ((o.history.passed.zip (o.written ++ o.session.messageQueue)).filter fun m ↦
    m.1.1 = .reply).map fun m ↦ m.2.message

theorem inv_sessionStart (sessionId : UInt64) (requests : List HelloRequest) :
    (sessionStart sessionId requests).Inv :=
  .waiting none ⟨by simp [sessionStart], rfl, by simp, rfl, rfl, rfl, rfl⟩

/-- Every step of a registered session whose operations succeed is a step of its protocol. -/
theorem sessionStep_sound {v v' : SessionView} {a : SessionAction} (hlife : v.life = .registered)
    (h : sessionStep v a = some v') : SessionStep v v' ∧ v'.life = .registered := by
  obtain ⟨o, life, tokens⟩ := v
  obtain rfl : life = .registered := hlife
  cases a with
  | complete event =>
      obtain ⟨hmem, h⟩ := Option.ite_none_right_eq_some.mp h
      obtain ⟨o', ho, rfl⟩ := Option.map_eq_some_iff.mp h
      have hstep : SessionStep ⟨o, .registered, (event, none) ::ₘ tokens.erase (event, none)⟩
          ⟨o', .registered, (event, some true) ::ₘ tokens.erase (event, none)⟩ := .complete ho
      rw [Multiset.cons_erase hmem] at hstep
      exact ⟨hstep, rfl⟩
  | process event =>
      obtain ⟨hmem, h⟩ := Option.ite_none_right_eq_some.mp h
      obtain ⟨⟨o', calls⟩, ho, rfl⟩ := Option.map_eq_some_iff.mp h
      have hstep : SessionStep
          ⟨o, .registered, (event, some true) ::ₘ tokens.erase (event, some true)⟩
          ⟨o', .registered, callTokens calls + tokens.erase (event, some true)⟩ := .process ho
      rw [Multiset.cons_erase hmem] at hstep
      exact ⟨hstep, rfl⟩
  | broadcast response =>
      obtain rfl := Option.some.inj h
      exact ⟨.broadcast response, rfl⟩

/-- Only the processing of `ReadDone` counts as an answered request, and the client sends no more
than its requests. -/
theorem answered_of_sessionStep {v v' : SessionView} {a : SessionAction}
    (h : sessionStep v a = some v') :
    v'.object.history.readDone =
        v.object.history.readDone + (if a = .process .readDone then 1 else 0) ∧
      v'.object.stream.sent = v.object.stream.sent := by
  have hpass : ∀ (self : SessionHistory) origin response,
      (self.pass origin response).readDone = self.readDone := fun self origin response ↦ by
    unfold SessionHistory.pass; split_ifs <;> rfl
  cases a with
  | complete event =>
      obtain ⟨-, h⟩ := Option.ite_none_right_eq_some.mp h
      obtain ⟨o', ho, rfl⟩ := Option.map_eq_some_iff.mp h
      unfold SessionObject.deliver at ho
      split at ho
      · obtain rfl := Option.some.inj ho; exact ⟨rfl, rfl⟩
      · obtain ⟨request, -, rfl⟩ := Option.map_eq_some_iff.mp ho; exact ⟨rfl, rfl⟩
      · obtain rfl := Option.some.inj ho; exact ⟨rfl, rfl⟩
  | process event =>
      obtain ⟨-, h⟩ := Option.ite_none_right_eq_some.mp h
      obtain ⟨r, ho, rfl⟩ := Option.map_eq_some_iff.mp h
      obtain ⟨session, -, rfl⟩ := Option.map_eq_some_iff.mp ho
      cases event <;> simp [SessionHistory.record, SessionEvent.ofWord?_toWord]
  | broadcast response =>
      obtain rfl := Option.some.inj h
      exact ⟨by simp [SessionObject.sendBroadcast, hpass], rfl⟩

/-! ### The two implementations -/

/-- The replies of a session are those of the asynchronous server to its requests, in order. -/
theorem SessionObject.Active.replyTexts_eq {o : SessionObject} {read : Option Bool}
    (h : o.Active read) : replyTexts o =
      (o.stream.sent.take o.history.readDone).map fun request ↦ (replyTo request).message := by
  have hzip : ∀ passed : List (Origin × HelloResponse),
      passed.zip (passed.map Prod.snd) = passed.map fun m ↦ (m, m.2) := fun passed ↦ by
    simpa only [List.map_id_fun, id_eq] using List.zip_map' (f := id) (g := Prod.snd) (l := passed)
  have hreplies := congrArg (List.map HelloResponse.message) h.replies
  rw [replyTexts, h.messages, hzip]
  simp only [SessionHistory.replies, List.map_map, List.filter_map] at hreplies ⊢
  exact hreplies

section Run

variable {sessionId : UInt64} {requests : List HelloRequest} {as : List SessionAction}
  {v : SessionView}

/-- How far a session has come with the requests. -/
theorem answered_of_run
    (h : Transition.run sessionStep (sessionStart sessionId requests) as = some v) :
    v.object.history.readDone = as.count (.process .readDone) ∧
      v.object.stream.sent = requests := by
  refine Transition.run_history (P := fun as v ↦
    v.object.history.readDone = as.count (.process .readDone) ∧ v.object.stream.sent = requests)
    (fun as v₀ a v hv hs ↦ ?_) h ⟨rfl, rfl⟩
  obtain ⟨hcount, hsent⟩ := hv
  obtain ⟨hread, hsent'⟩ := answered_of_sessionStep hs
  rw [hread, hcount, hsent', hsent, List.count_append, List.count_singleton]
  simp

theorem inv_of_sessionRun
    (h : Transition.run sessionStep (sessionStart sessionId requests) as = some v) :
    v.life = .registered ∧ v.Inv := by
  refine Transition.run_invariant (P := fun v ↦ v.life = .registered ∧ v.Inv)
    (fun v a v' hv hs ↦ ?_) h ⟨rfl, inv_sessionStart sessionId requests⟩
  obtain ⟨hstep, hlife⟩ := sessionStep_sound hv.1 hs
  exact ⟨hlife, hstep.inv hv.2⟩

/-- The replies of a session answer the requests it has read, in order. -/
theorem replyTexts_eq_map
    (h : Transition.run sessionStep (sessionStart sessionId requests) as = some v) :
    as.count (.process .readDone) ≤ requests.length ∧ replyTexts v.object =
      (requests.take (as.count (.process .readDone))).map fun request ↦
        (replyTo request).message := by
  obtain ⟨hcount, hsent⟩ := answered_of_run h
  obtain ⟨hlife, hinv⟩ := inv_of_sessionRun h
  rw [← hcount, ← hsent]
  cases hinv with
  | waiting w hw =>
      rw [replyTexts, hw.history]
      exact ⟨Nat.zero_le _, rfl⟩
  | ready r hr =>
      have hdelivered := hr.delivered
      exact ⟨le_trans (by omega) hr.delivered_le, hr.toActive.replyTexts_eq⟩
  | writing r w hw =>
      have hdelivered := hw.delivered
      exact ⟨le_trans (by omega) hw.delivered_le, hw.toActive.replyTexts_eq⟩
  | removed hr => exact absurd (hr.life.symm.trans hlife) (by simp)

/-- The two implementations answer no request in the same way. -/
theorem replyTo_ne_greeting (request : HelloRequest) :
    (replyTo request).message ≠ (ServiceImpl.greeting request).message := by
  intro h
  have hlength := congrArg String.length h
  simp only [replyTo, ServiceImpl.greeting, String.length_append,
    ServiceImpl.length_quotedName] at hlength
  have hhello : "hello ".length = "hello".length + " ".length := rfl
  omega

/-- The replies of a session are those of the loop exactly if it has not answered a request. -/
theorem replyTexts_eq_iff_of_run
    (h : Transition.run sessionStep (sessionStart sessionId requests) as = some v) :
    replyTexts v.object =
        (ServiceImpl.sayHello3 (requests.take (as.count (.process .readDone)))).map
          HelloResponse.message ↔
      .process .readDone ∉ as := by
  obtain ⟨hle, htexts⟩ := replyTexts_eq_map h
  rw [htexts, ServiceImpl.sayHello3_eq_map, List.map_map, ← List.count_eq_zero]
  constructor
  · intro heq
    rcases requests with _ | ⟨request, requests⟩
    · exact Nat.le_zero.mp hle
    · by_contra hne
      obtain ⟨n, hn⟩ := Nat.exists_eq_succ_of_ne_zero hne
      rw [hn, Nat.succ_eq_add_one, List.take_succ_cons] at heq
      exact replyTo_ne_greeting request (List.cons.inj heq).1
  · intro hzero
    rw [hzero]
    rfl

end Run

/-- A client sends one request and the session answers it. -/
def answeringRun : List SessionAction :=
  [.complete .connected, .process .connected, .complete .readDone, .process .readDone]

def leanRequest : HelloRequest := { name := "lean" }

/-- The session that has answered the request. -/
def answeringView : SessionView where
  object :=
    { session := { sessionId := 0, status := .waitWriteDone, request := leanRequest }
      stream :=
        { accepted := true
          sent := [leanRequest]
          delivered := 1
          calls := [.read, .write (replyTo leanRequest), .read] }
      history :=
        { connected := true, passed := [(.reply, replyTo leanRequest)], readDone := 1 } }
  life := .registered
  tokens := {(.writeDone, none), (.readDone, none)}

private theorem run_answeringRun :
    Transition.run sessionStep (sessionStart 0 [leanRequest]) answeringRun = some answeringView :=
  rfl

theorem replyTexts_eq_iff_of_run_one :
    replyTexts answeringView.object =
        (ServiceImpl.sayHello3 ([leanRequest].take
          (answeringRun.count (.process .readDone)))).map HelloResponse.message ↔
      .process .readDone ∉ answeringRun :=
  replyTexts_eq_iff_of_run run_answeringRun

/-- The session answers `hello lean`, the loop `hello 'lean'`. -/
theorem not_replyTexts_eq_of_run : ¬∀ sessionId requests as v,
    Transition.run sessionStep (sessionStart sessionId requests) as = some v →
      replyTexts v.object =
        (ServiceImpl.sayHello3 (requests.take (as.count (.process .readDone)))).map
          HelloResponse.message := by
  intro hagree
  have htexts := hagree 0 [leanRequest] answeringRun _ run_answeringRun
  have hgreeting : [(replyTo leanRequest).message] =
      [(ServiceImpl.greeting leanRequest).message] := htexts
  exact replyTo_ne_greeting leanRequest (List.cons.inj hgreeting).1

end CppDemo.Grpc.ServerAsync
