import LiveAudit.Http.Client
import LiveAudit.Journal

/-!
# Hosts

What the commands need of their surroundings: a disk, a printer, a clock, marks that are never given
twice, a source of lines and a way to the server. The commands are written for any host.
-/

namespace LiveAudit.Cli

class Host (m : Type → Type) extends Disk m where
  print : String → m Unit
  now : m Moment
  /-- Milliseconds since some moment in the past. -/
  elapsed : m Nat
  /-- A mark never given before. -/
  newMark : m String
  /-- Makes a call and waits for its answer, so many seconds at most. -/
  ask : UInt64 → Http.Call → m Http.Answer
  /-- Makes a call for a request, to be answered while other things go on. -/
  send : UInt64 → Request → Http.Call → m Unit
  /-- Next answer to a call that was sent, if one comes before the given time. -/
  receive : Nat → m (Option (Request × Http.Answer))
  /-- Opens the file that lines are read from next. -/
  openLines : String → m (Except FileFault Unit)
  /-- Lines are read from the standard input next. -/
  openInput : m Unit
  /-- Next line without its end, if there is one. -/
  nextLine : m (Except FileFault (Option (List UInt8)))

variable {m : Type → Type} [Monad m] [Host m]

/-- Writes an entry in the journal, and gives back its mark. -/
def note (j : Journal) (e : Entry) : ExceptT Trouble m String := do
  let now ← (Host.now : m Moment)
  let id ← (Host.newMark : m String)
  j.record e now id

/-- Writes an entry in the journal if that can be done. -/
def noteIfPossible (j : Journal) (e : Entry) : m Unit := do
  let _ ← (note j e : ExceptT Trouble m String).run

/-- Outcome of a call that a client makes. -/
def exchange {α : Type} (c : Http.Client) (form : Json.Format α) (call : Http.Call) :
    m (Except Failure α) := do
  if call.url.isRequestable then
    return Http.outcome form call.url (← Host.ask c.timeoutSecs call)
  else return .error (Http.unsendable call.url)

end LiveAudit.Cli
