import CppDemo.Foundation.Script

/-!
# What TLS connections hold

Both programs open one TCP connection after the other, put TLS on top of each, send requests and
take the connection down again. A connection holds a file descriptor and an `SSL`, and the program
holds a context and references to the session that it wants to resume. The library counts the
references to a session; each one that `SSL_get1_session` has given out is to be given back once.

`Ledger` is the protocol of these calls. It allows a call only if what the call works on is held,
and says which session a handshake has to offer, when it may start false, and how many requests a
connection sends before it is taken down.

Source: `tls/tls_session_ticket.cpp`, `tls/tls_false_start.cpp`.

## Main definitions

* `Call` : the calls of the programs that open, use or release something.
* `Ledger`, `Ledger.step` : what is held, and which calls are allowed.
-/

namespace CppDemo.Tls

/-- A call of the programs. -/
inductive Call
  /-- `SSL_CTX_new`, which has succeeded. -/
  | sslCtxNew (ctx : Nat)
  | sslCtxFree (ctx : Nat)
  /-- `SSL_CTX_set_mode` or `SSL_CTX_clear_mode` of `SSL_MODE_ENABLE_FALSE_START`. -/
  | setFalseStart (enabled : Bool)
  /-- `socket`, which has succeeded. -/
  | socket (fd : Int)
  | connect (fd : Int) (ok : Bool)
  | close (fd : Int)
  /-- `SSL_new`, which has succeeded. -/
  | sslNew (ssl : Nat)
  | sslSetFd (ssl : Nat) (fd : Int)
  | sslSetSession (ssl session : Nat)
  | sslConnect (ssl : Nat) (ok : Bool)
  /-- `SSL_get1_session`, which has returned a session. -/
  | sslGet1Session (ssl session : Nat)
  /-- `SSL_write` of a request, and whether it has written the whole of it. -/
  | sslWrite (ssl : Nat) (whole : Bool)
  /-- `SSL_read`, and whether the program reads on. -/
  | sslRead (ssl : Nat) (more : Bool)
  | sslShutdown (ssl : Nat)
  | sslFree (ssl : Nat)
  | sslSessionFree (session : Nat)
  deriving DecidableEq, Repr

/-- What is asked of the connections of a program. -/
structure Policy where
  /-- A handshake offers the session of the last one, if there is one. -/
  resumes : Bool
  /-- A handshake starts false, if there is no session to offer. -/
  falseStart : Bool
  /-- How many requests a connection sends: `N_TRY`. -/
  nTry : Nat
  deriving DecidableEq, Repr

/-- An `SSL` in use. -/
structure Handle where
  ssl : Nat
  /-- It has a file descriptor. -/
  bound : Bool := false
  /-- The session it offers. -/
  offered : Option Nat := none
  established : Bool := false
  /-- How many requests `SSL_write` has been called for. -/
  requests : Nat := 0
  /-- A request has been written, and its response is being read. -/
  reading : Bool := false
  deriving DecidableEq, Repr

/-- What a program holds. -/
structure Ledger where
  ctx : Option Nat := none
  /-- The open file descriptor. -/
  fd : Option Int := none
  /-- The descriptor is connected. -/
  connected : Bool := false
  handle : Option Handle := none
  /-- The references to sessions that have not been given back. -/
  references : List Nat := []
  /-- The session that was got last. -/
  session : Option Nat := none
  falseStart : Bool := false
  /-- How many connections have been closed. -/
  closed : Nat := 0
  /-- How many requests `SSL_write` has been called for, over all connections. -/
  requests : Nat := 0
  deriving DecidableEq, Repr

namespace Ledger

/-- A call on the `SSL` in use, if it meets a condition. -/
def onHandle (l : Ledger) (ssl : Nat) (allowed : Handle → Bool) (f : Handle → Ledger) :
    Option Ledger :=
  match l.handle with
  | some h => if h.ssl = ssl ∧ allowed h = true then some (f h) else none
  | none => none

/-- What a call does to what is held, `none` if it is not allowed. -/
def step (policy : Policy) (l : Ledger) : Call → Option Ledger
  | .sslCtxNew ctx => if l.ctx = none then some { l with ctx := some ctx } else none
  | .sslCtxFree ctx =>
    if l.ctx = some ctx ∧ l.handle = none ∧ l.references = [] then some { l with ctx := none }
    else none
  | .setFalseStart enabled =>
    if l.ctx ≠ none then some { l with falseStart := enabled } else none
  | .socket fd => if l.fd = none then some { l with fd := some fd } else none
  | .connect fd ok =>
    if l.fd = some fd ∧ l.connected = false then some { l with connected := ok } else none
  | .close fd =>
    if l.fd = some fd ∧ l.handle = none then
      some { l with fd := none, connected := false, closed := l.closed + 1 }
    else none
  | .sslNew ssl =>
    if l.ctx ≠ none ∧ l.connected = true ∧ l.handle = none then
      some { l with handle := some { ssl } }
    else none
  | .sslSetFd ssl fd =>
    l.onHandle ssl (fun h ↦ l.fd = some fd && !h.established) fun h ↦
      { l with handle := some { h with bound := true } }
  | .sslSetSession ssl session =>
    l.onHandle ssl
      (fun h ↦ l.session = some session && l.references.contains session && !h.established)
      fun h ↦ { l with handle := some { h with offered := some session } }
  | .sslConnect ssl ok =>
    l.onHandle ssl
      (fun h ↦ h.bound && !h.established &&
        h.offered = (if policy.resumes then l.session else none) &&
        l.falseStart = (policy.falseStart && l.session = none))
      fun h ↦ { l with handle := some { h with established := ok } }
  | .sslGet1Session ssl session =>
    l.onHandle ssl (·.established) fun _ ↦
      { l with references := session :: l.references, session := some session }
  | .sslWrite ssl whole =>
    l.onHandle ssl (fun h ↦ h.established && !h.reading && h.requests < policy.nTry) fun h ↦
      { l with
        handle := some { h with requests := h.requests + 1, reading := whole }
        requests := l.requests + 1 }
  | .sslRead ssl more =>
    l.onHandle ssl (·.reading) fun h ↦ { l with handle := some { h with reading := more } }
  | .sslShutdown ssl => l.onHandle ssl (fun _ ↦ l.fd ≠ none) fun _ ↦ l
  | .sslFree ssl =>
    l.onHandle ssl (fun h ↦ !h.established || h.requests = policy.nTry) fun _ ↦
      { l with handle := none }
  | .sslSessionFree session =>
    if session ∈ l.references then some { l with references := l.references.erase session }
    else none

end Ledger

end CppDemo.Tls
