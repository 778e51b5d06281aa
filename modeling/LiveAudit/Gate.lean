/-!
# Gates

A gate lets one fetch through at a time. Whatever is asked for meanwhile collapses into a single
trailing fetch, which goes out when the first one is settled.
-/

namespace LiveAudit

structure Gate where
  inFlight : Bool
  /-- Another fetch was asked for while one was in flight. -/
  trailing : Bool
deriving DecidableEq, Repr

namespace Gate

def idle : Gate :=
  ⟨false, false⟩

/-- Asks for a fetch; the flag tells whether it goes out now. -/
def request (g : Gate) : Gate × Bool :=
  if g.inFlight then ({ g with trailing := true }, false) else ({ g with inFlight := true }, true)

/-- Ends the fetch in flight; the flag tells whether the trailing one goes out now. -/
def settle (g : Gate) : Gate × Bool :=
  if g.trailing then (⟨true, false⟩, true) else (⟨false, false⟩, false)

end Gate

end LiveAudit
