import CppDemo.Foundation.StreamCall.Progress
import CppDemo.Grpc.ServiceImpl

/-!
# The client of the synchronous service

The client makes the four calls one after the other. For `SayHello1` it writes all names before it
asks for the answer, and for `SayHello3` it writes them from a second thread while it reads. The
service is the one of `service_impl.cc`, and each call is a call with streams whose two directions
have room for some messages, as little as one.

Source: `grpcdemo/client.cpp`, lines 52–132, and `grpcdemo/service_impl.cc`, lines 34–86.

## Main definitions

* `sayHello1Service`, `sayHello2Service`, `sayHello3Service` : the loops of the three streaming
  calls, one read or write at a time.
* `names`, `nameRequest` : what the client sends.

## Main results

* `sayHello1_of_run`, `sayHello2_of_run`, `sayHello3_of_run` : whatever the order of the steps, a
  call comes to its end, with the answers of the service in order.
-/

namespace CppDemo.Grpc

open Transition StreamCall

/-! ### The client -/

/-- The names that the client writes in `SayHello1` and `SayHello3`. -/
def names : List String := ["tony", "tang", "chang"]

def nameRequest (name : String) : HelloRequest := { name }

/-- The request of `SayHello` and `SayHello2`. -/
def quotedRequest : HelloRequest := { name := "tony", config := some { doubleQuote := true } }

namespace ServiceImpl

/-! ### The service -/

/-- The loop of `SayHello1` over what has been written to `ss`. The response goes with the
status. -/
def sayHello1Service : StreamService String HelloRequest HelloResponse where
  start := "hello"
  onRequest ss req := (ss ++ " " ++ quotedName req.name req.getConfig, [])
  onEnd ss := [{ message := ss }]
  stopsOnFailure := false

/-- The loop of `SayHello2`, which a failing write ends. The request is read before it. -/
def sayHello2Service : StreamService Unit HelloRequest HelloResponse where
  start := ()
  onRequest _ request := ((), List.replicate 3 (greeting2 request))
  onEnd _ := []
  stopsOnFailure := true

/-- The loop of `SayHello3`, which goes on when a write fails. -/
def sayHello3Service : StreamService Unit HelloRequest HelloResponse where
  start := ()
  onRequest _ req := ((), [greeting req])
  onEnd _ := []
  stopsOnFailure := false

theorem sayHello1Service_answersFrom (ss : String) (requests : List HelloRequest) :
    sayHello1Service.answersFrom ss requests = [{ message := sayHello1Loop ss requests }] := by
  induction requests generalizing ss with
  | nil => rfl
  | cons req requests ih => exact ih _

theorem sayHello1Service_answers (requests : List HelloRequest) :
    sayHello1Service.answers requests = [sayHello1 requests] :=
  sayHello1Service_answersFrom "hello" requests

theorem sayHello2Service_answers (request : HelloRequest) :
    sayHello2Service.answers [request] = sayHello2 request fun _ ↦ true := rfl

theorem sayHello3Service_answers (requests : List HelloRequest) :
    sayHello3Service.answers requests = sayHello3 requests := by
  induction requests with
  | nil => rfl
  | cons req requests ih => exact congrArg (greeting req :: ·) ih

theorem sayHello1Service_quiet : sayHello1Service.Quiet := fun _ _ ↦ rfl

theorem sayHello1Service_bounded : sayHello1Service.Bounded 1 where
  onRequest _ _ := Nat.zero_le _
  onEnd _ := Nat.le_refl _

theorem sayHello2Service_bounded : sayHello2Service.Bounded 3 where
  onRequest _ _ := Nat.le_refl _
  onEnd _ := Nat.zero_le _

theorem sayHello3Service_bounded : sayHello3Service.Bounded 1 where
  onRequest _ _ := Nat.le_refl _
  onEnd _ := Nat.zero_le _

/-! ### The calls -/

section Calls

variable {requestRoom messageRoom : Nat}

/-- A call of `SayHello1`, whose client writes everything before it asks for the answer. In every
order of the steps it is over after a number of steps, and nobody waits forever: the client gets the
answer unless the call breaks. -/
theorem sayHello1_of_run (hrequest : 0 < requestRoom) (hmessage : 0 < messageRoom)
    {requests : List HelloRequest} {as : List Action} {s : State String HelloRequest HelloResponse}
    (hrun : run (step sayHello1Service ⟨requestRoom, messageRoom, false⟩)
      (init sayHello1Service requests) as = some s) :
    s.read <+: [sayHello1 requests] ∧ as.length ≤ 5 * (requests.length + 1) + 5 ∧
      (Idle sayHello1Service ⟨requestRoom, messageRoom, false⟩ s →
        s.Finished ∧ (s.broken = false → s.read = [sayHello1 requests])) := by
  rw [← sayHello1Service_answers]
  exact outcome_of_run sayHello1Service_bounded
    ⟨hrequest, hmessage, fun _ ↦ sayHello1Service_quiet⟩ hrun

/-- The answer comes back when all requests have been read. -/
def writeThenFinish : List Action :=
  [.write, .serverRead, .write, .serverRead, .write, .halfClose, .serverRead, .serverReadEnds,
    .serverWrite, .serverReturn, .read, .readEnds, .join, .finish]

theorem sayHello1_of_run_names :
    let requests := names.map nameRequest
    ∃ s, run (step sayHello1Service ⟨1, 1, false⟩) (init sayHello1Service requests)
        writeThenFinish = some s ∧
      s.read <+: [sayHello1 requests] ∧ writeThenFinish.length ≤ 5 * (requests.length + 1) + 5 ∧
      (Idle sayHello1Service ⟨1, 1, false⟩ s →
        s.Finished ∧ (s.broken = false → s.read = [sayHello1 requests])) :=
  ⟨_, rfl, sayHello1_of_run Nat.one_pos Nat.one_pos rfl⟩

/-- A call of `SayHello2`, whose client reads while its request is sent. -/
theorem sayHello2_of_run (hrequest : 0 < requestRoom) (hmessage : 0 < messageRoom)
    {request : HelloRequest} {as : List Action} {s : State Unit HelloRequest HelloResponse}
    (hrun : run (step sayHello2Service ⟨requestRoom, messageRoom, true⟩)
      (init sayHello2Service [request]) as = some s) :
    s.read <+: sayHello2 request (fun _ ↦ true) ∧ as.length ≤ 23 ∧
      (Idle sayHello2Service ⟨requestRoom, messageRoom, true⟩ s →
        s.Finished ∧ (s.broken = false → s.read = sayHello2 request fun _ ↦ true)) := by
  rw [← sayHello2Service_answers]
  exact outcome_of_run sayHello2Service_bounded ⟨hrequest, hmessage, fun h ↦ by cases h⟩ hrun

/-- The call breaks behind the second message. -/
def breaksBehindTwo : List Action :=
  [.write, .serverRead, .serverWrite, .read, .halfClose, .serverWrite, .breaks, .serverWrite,
    .serverReturn, .read, .readEnds, .join, .finish]

theorem sayHello2_of_run_quotedRequest :
    ∃ s, run (step sayHello2Service ⟨1, 1, true⟩) (init sayHello2Service [quotedRequest])
        breaksBehindTwo = some s ∧
      s.read <+: sayHello2 quotedRequest (fun _ ↦ true) ∧ breaksBehindTwo.length ≤ 23 ∧
      (Idle sayHello2Service ⟨1, 1, true⟩ s →
        s.Finished ∧ (s.broken = false → s.read = sayHello2 quotedRequest fun _ ↦ true)) :=
  ⟨_, rfl, sayHello2_of_run Nat.one_pos Nat.one_pos rfl⟩

/-- A call of `SayHello3`, whose client writes and reads at once. In every order of the steps the
client reads the greetings in order, the call is over after a number of steps, and nobody waits
forever: the client gets all greetings unless the call breaks. -/
theorem sayHello3_of_run (hrequest : 0 < requestRoom) (hmessage : 0 < messageRoom)
    {requests : List HelloRequest} {as : List Action} {s : State Unit HelloRequest HelloResponse}
    (hrun : run (step sayHello3Service ⟨requestRoom, messageRoom, true⟩)
      (init sayHello3Service requests) as = some s) :
    s.read <+: sayHello3 requests ∧ as.length ≤ 5 * (requests.length + 1) + 5 ∧
      (Idle sayHello3Service ⟨requestRoom, messageRoom, true⟩ s →
        s.Finished ∧ (s.broken = false → s.read = sayHello3 requests)) := by
  rw [← sayHello3Service_answers]
  exact outcome_of_run sayHello3Service_bounded ⟨hrequest, hmessage, fun h ↦ by cases h⟩ hrun

/-- The client writes as far as there is room, and reads only then. -/
def writesAhead : List Action :=
  [.write, .serverRead, .serverWrite, .write, .serverRead, .write, .read, .serverWrite, .serverRead,
    .halfClose, .read, .serverWrite, .serverReadEnds, .serverReturn, .read, .readEnds, .join,
    .finish]

theorem sayHello3_of_run_names :
    let requests := names.map nameRequest
    ∃ s, run (step sayHello3Service ⟨1, 1, true⟩) (init sayHello3Service requests)
        writesAhead = some s ∧
      s.read <+: sayHello3 requests ∧ writesAhead.length ≤ 5 * (requests.length + 1) + 5 ∧
      (Idle sayHello3Service ⟨1, 1, true⟩ s →
        s.Finished ∧ (s.broken = false → s.read = sayHello3 requests)) :=
  ⟨_, rfl, sayHello3_of_run Nat.one_pos Nat.one_pos rfl⟩

end Calls

end ServiceImpl

end CppDemo.Grpc
