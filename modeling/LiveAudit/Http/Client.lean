import LiveAudit.Http.Exchange
import LiveAudit.Settings.Store

/-!
# Clients

What requests need to know of the server: the base address, which is refused if no path can be put
behind it, and how long an answer may take.
-/

namespace LiveAudit.Http

structure Client where
  base : Url
  timeoutSecs : UInt64
deriving DecidableEq, Repr

/-- Client for the server that the settings name. -/
def Client.ofSettings (s : Settings) : Except Trouble Client := do
  let given ← s.requireBaseUrl
  match Url.read given with
  | .error fault => throw ((Trouble.of (.address fault)).during (.parseBaseUrl given))
  | .ok base =>
    if base.isOpaque then throw (.of (.opaqueBaseUrl given))
    else return ⟨base, s.requestTimeout⟩

end LiveAudit.Http
