import LiveAudit.Reconciler
import LiveAudit.Settings

/-!
# Sessions

A session watches one repository. Events, commands and completions wait in one queue and are handled
one at a time, in order; requests that arise are sent, and their completions join the queue whenever
they arrive. After each message the view is published if it has changed.

A barrier is a message too. When it is reached, everything queued before it has been handled.
-/

namespace LiveAudit

inductive Message where
  | event (e : Envelope)
  | completed (c : Completion)
  | startSync
  | loadMore
  | refresh
  /-- Reached once everything queued before it has been handled. -/
  | barrier (number : Nat)
  | shutdown

structure Session where
  reconciler : Reconciler
  /-- View as last published. -/
  published : View
  /-- Number of changes published. -/
  version : Nat
  /-- Messages to be handled, the next one first. -/
  queue : List Message
  /-- Requests to be sent, the next one first. -/
  unsent : List Request
  /-- Number of barriers set. -/
  barriers : Nat
  /-- Number of barriers reached. -/
  reached : Nat
  closed : Bool

namespace Session

/-- Session on a repository, with its first requests to be sent. -/
def start (subject : Ident) (settings : Settings) : Session :=
  let (d, requests) := (Reconciler.new subject settings.pageLimit settings.noticeCapacity).load
  { reconciler := d, published := d.view, version := 0, queue := [], unsent := requests,
    barriers := 0, reached := 0, closed := false }

/-- Puts a message at the end of the queue; a closed session takes none. -/
def send (s : Session) (m : Message) : Session :=
  if s.closed then s else { s with queue := s.queue ++ [m] }

/-- Publishes the view if it has changed. -/
def publish (s : Session) : Session :=
  let v := s.reconciler.view
  if v = s.published then s else { s with published := v, version := s.version + 1 }

/-- Goes on to a reconciler and the requests that arose with it. -/
def advance (s : Session) (next : Reconciler × List Request) : Session :=
  { s with reconciler := next.1, unsent := s.unsent ++ next.2 }.publish

/-- Handles one message. An event that is malformed is passed over. -/
def handle (s : Session) : Message → Session
  | .event e =>
    match Event.ofEnvelope e with
    | .ok event => s.advance (s.reconciler.handle event)
    | .error _ => s
  | .completed c => s.advance (s.reconciler.complete c)
  | .startSync => s.advance s.reconciler.startSync
  | .loadMore => s.advance s.reconciler.loadMore
  | .refresh => s.advance s.reconciler.refresh
  | .barrier number => { s with reached := max s.reached number }
  | .shutdown => { s with closed := true }

/-- Handles the next message; a session that is closed handles no more. -/
def step (s : Session) : Session :=
  if s.closed then s
  else match s.queue with
    | [] => s
    | m :: rest => { s with queue := rest }.handle m

/-- Handles as many messages as there are in a list, one after another. -/
def steps : List Message → Session → Session
  | [], s => s
  | _ :: rest, s => steps rest s.step

/-- Handles all messages that wait. -/
def drain (s : Session) : Session :=
  steps s.queue s

/-- Takes the requests to be sent. -/
def takeRequests (s : Session) : List Request × Session :=
  (s.unsent, { s with unsent := [] })

/-! ### Settling -/

/-- Sets a barrier behind all messages that wait, and returns its number. -/
def setBarrier (s : Session) : Session × Nat :=
  ({ s with barriers := s.barriers + 1 }.send (.barrier (s.barriers + 1)), s.barriers + 1)

/-- Whether a barrier has been reached and nothing is outstanding. -/
def settledAt (s : Session) (barrier : Nat) : Bool :=
  barrier ≤ s.reached && !s.published.busy

end Session

end LiveAudit
