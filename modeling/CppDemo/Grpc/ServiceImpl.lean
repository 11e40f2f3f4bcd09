import CppDemo.Grpc.Greeter
import Mathlib.Tactic.Common

/-!
# The synchronous greeter service

The synchronous service answers a call on the thread that gRPC runs it on. A client stream is the
list of requests that `Read` takes off it before it returns `false`, and a server stream the list of
messages handed to `Write`, whose result `SayHello3` does not look at. Each of the four calls puts
the greeting together anew, and `SayHello2` does so without the space before the name.

Source: `grpcdemo/service_impl.cc`, lines 11–86.

## Main definitions

* `quotedName` : a name between quotes of the configured style.
* `sayHello`, `sayHello1`, `sayHello2`, `sayHello3` : the answers of the four calls.
* `Agree` : the greetings of the four calls are the same.

## Main results

* `sayHello3_eq_map` : one message for each request, in order.
* `sayHello1_message` : the greetings for a stream of requests, one after the other.
* `sayHello2_ne_sayHello` : no message of `SayHello2` is the greeting of `SayHello`.
* `not_agree` : `SayHello2` alone disagrees, for every request.
-/

namespace CppDemo.Grpc

/-- The field `config`, its default if it is absent. -/
def HelloRequest.getConfig (request : HelloRequest) : Config := request.config.getD {}

namespace ServiceImpl

def quotedName (name : String) (config : Config) : String :=
  let quote := if config.doubleQuote then "\"" else "'"
  quote ++ name ++ quote

def sayHello (request : HelloRequest) : HelloResponse :=
  { message := "hello " ++ quotedName request.name request.getConfig }

/-- The loop of `SayHello1`, with what has been written to `ss`. -/
def sayHello1Loop (ss : String) : List HelloRequest → String
  | [] => ss
  | req :: reader => sayHello1Loop (ss ++ " " ++ quotedName req.name req.getConfig) reader

def sayHello1 (reader : List HelloRequest) : HelloResponse :=
  { message := sayHello1Loop "hello" reader }

/-- What `SayHello2` writes each time. -/
def greeting2 (request : HelloRequest) : HelloResponse :=
  { message := "hello" ++ quotedName request.name request.getConfig }

/-- The messages that are written from the round `i` on, of which there are at most `n`; `write`
tells which calls of `Write` succeed. -/
def sayHello2Loop (request : HelloRequest) (write : Nat → Bool) (i : Nat) :
    Nat → List HelloResponse
  | 0 => []
  | n + 1 => greeting2 request :: if write i then sayHello2Loop request write (i + 1) n else []

def sayHello2 (request : HelloRequest) (write : Nat → Bool) : List HelloResponse :=
  sayHello2Loop request write 0 3

/-- What `SayHello3` writes for one request. -/
def greeting (req : HelloRequest) : HelloResponse :=
  { message := "hello" ++ (" " ++ quotedName req.name req.getConfig) }

/-- The loop of `SayHello3`. -/
def sayHello3 : List HelloRequest → List HelloResponse
  | [] => []
  | req :: stream => greeting req :: sayHello3 stream

theorem sayHello3_eq_map (stream : List HelloRequest) :
    sayHello3 stream = stream.map greeting := by
  induction stream with
  | nil => rfl
  | cons req stream ih => rw [sayHello3, ih, List.map_cons]

theorem length_quotedName (name : String) (config : Config) :
    (quotedName name config).length = name.length + 2 := by
  have hquote : (if config.doubleQuote then "\"" else "'").length = 1 := by
    split <;> rfl
  simp only [quotedName, String.length_append, hquote]
  omega

/-! ### The greetings of the four calls -/

/-- A message without its leading `hello`. -/
def withoutHello (message : String) : String := String.ofList (message.toList.drop 5)

theorem sayHello_message (request : HelloRequest) :
    (sayHello request).message = "hello" ++ (" " ++ quotedName request.name request.getConfig) := by
  rw [sayHello, show "hello " = "hello" ++ " " from rfl, String.append_assoc]

theorem greeting_eq_sayHello : greeting = sayHello := by
  funext request
  rw [greeting, ← sayHello_message]

theorem withoutHello_sayHello (request : HelloRequest) :
    withoutHello (sayHello request).message =
      " " ++ quotedName request.name request.getConfig := by
  rw [sayHello_message, withoutHello, String.toList_append,
    List.drop_left' (show "hello".toList.length = 5 from rfl), String.ofList_toList]

theorem sayHello1Loop_eq (ss : String) (reader : List HelloRequest) :
    sayHello1Loop ss reader =
      ss ++ String.join (reader.map fun req ↦ withoutHello (sayHello req).message) := by
  induction reader generalizing ss with
  | nil => simp [sayHello1Loop]
  | cons req reader ih =>
    rw [sayHello1Loop, ih, List.map_cons, String.join_cons, withoutHello_sayHello,
      String.append_assoc, String.append_assoc, String.append_assoc]

/-- `SayHello1` answers with the greetings, one after the other, behind a single `hello`. -/
theorem sayHello1_message (reader : List HelloRequest) :
    (sayHello1 reader).message =
      "hello" ++ String.join (reader.map fun req ↦ withoutHello (sayHello req).message) :=
  sayHello1Loop_eq "hello" reader

/-- For a single request this is the greeting. -/
theorem sayHello1_singleton (request : HelloRequest) : sayHello1 [request] = sayHello request := by
  rw [sayHello1, sayHello1Loop, sayHello1Loop, String.append_assoc, ← sayHello_message]

theorem mem_sayHello2Loop {request : HelloRequest} {write : Nat → Bool} {i n : Nat}
    {response : HelloResponse} (h : response ∈ sayHello2Loop request write i n) :
    response = greeting2 request := by
  induction n generalizing i with
  | zero => cases h
  | succ n ih =>
    rcases List.mem_cons.mp h with rfl | h
    · rfl
    · split_ifs at h
      · exact ih h
      · cases h

theorem length_sayHello2Loop {request : HelloRequest} {write : Nat → Bool} {i n : Nat}
    (hwrite : ∀ j < i + n, write j = true) : (sayHello2Loop request write i n).length = n := by
  induction n generalizing i with
  | zero => rfl
  | succ n ih =>
    rw [sayHello2Loop, if_pos (hwrite i (by omega)), List.length_cons,
      ih fun j hj ↦ hwrite j (by omega)]

/-- The message of `SayHello2` lacks a character. -/
theorem greeting2_ne_sayHello (request : HelloRequest) : greeting2 request ≠ sayHello request := by
  intro h
  have hlength := congrArg (fun response : HelloResponse ↦ response.message.length) h
  simp only [greeting2, sayHello, String.length_append] at hlength
  have hhello : "hello".length = 5 := rfl
  have hspace : "hello ".length = 6 := rfl
  omega

/-- No message of `SayHello2` is the greeting of `SayHello`. -/
theorem sayHello2_ne_sayHello {request : HelloRequest} {write : Nat → Bool}
    {response : HelloResponse} (h : response ∈ sayHello2 request write) :
    response ≠ sayHello request :=
  mem_sayHello2Loop h ▸ greeting2_ne_sayHello request

/-- The greetings of the four calls are the same: for a stream of requests, and for a request and
the results of the calls of `Write` that answer it. -/
structure Agree (stream : List HelloRequest) (request : HelloRequest) (write : Nat → Bool) :
    Prop where
  sayHello3 : ServiceImpl.sayHello3 stream = stream.map sayHello
  sayHello2 : ∀ response ∈ ServiceImpl.sayHello2 request write, response = sayHello request
  sayHello2_length : (∀ i < 3, write i = true) →
    (ServiceImpl.sayHello2 request write).length = 3
  sayHello1 : (ServiceImpl.sayHello1 stream).message =
    "hello" ++ String.join (stream.map fun req ↦ withoutHello (sayHello req).message)
  sayHello1_singleton : ServiceImpl.sayHello1 [request] = sayHello request

/-- The calls never agree. `SayHello1` and `SayHello3` do give the greeting of `SayHello`, and
`SayHello2` writes as many messages as it should, but none of them is that greeting. -/
theorem not_agree (stream : List HelloRequest) (request : HelloRequest) (write : Nat → Bool) :
    ¬Agree stream request write ∧
      sayHello3 stream = stream.map sayHello ∧
      (sayHello1 stream).message =
        "hello" ++ String.join (stream.map fun req ↦ withoutHello (sayHello req).message) ∧
      sayHello1 [request] = sayHello request ∧
      ((∀ i < 3, write i = true) → (sayHello2 request write).length = 3) ∧
      ∀ response ∈ sayHello2 request write, response ≠ sayHello request := by
  refine ⟨fun h ↦ ?_, greeting_eq_sayHello ▸ sayHello3_eq_map stream, sayHello1_message stream,
    sayHello1_singleton request, fun hwrite ↦ length_sayHello2Loop (by simpa using hwrite),
    fun response ↦ sayHello2_ne_sayHello⟩
  have hmem : greeting2 request ∈ sayHello2 request write := List.mem_cons_self
  exact sayHello2_ne_sayHello hmem (h.sayHello2 _ hmem)

/-- A request without a name and without a config is answered by `hello ''` and by `hello''`. -/
theorem not_agree_empty : ¬ ∀ stream request write, Agree stream request write := by
  intro h
  have hgreeting := (h [] {} fun _ ↦ true).sayHello2 { message := "hello''" } (by decide)
  exact absurd hgreeting (by decide)

end ServiceImpl

end CppDemo.Grpc
