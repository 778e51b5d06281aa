import LiveAudit.Failure

/-!
# Synchronisation

A repository is idle or being synchronised. Requests made here and progress that the server pushes
move the same state, so that there is one indicator and not two. At most one request is in flight.
-/

namespace LiveAudit

/-- Counts of a finished synchronisation. -/
structure SyncReport where
  synced : UInt32
  skipped : UInt32
deriving DecidableEq, Repr

namespace SyncReport

open Json in
def fields : Fields (UInt32 × UInt32 × Unit) :=
  .cons (.optional "synced" Format.word32 0) <|
  .cons (.optional "skipped" Format.word32 0) .done

def format : Json.Format SyncReport :=
  (fields.format "SyncReport").map fun (synced, skipped, ()) => ⟨synced, skipped⟩

open Json in
def toValue (r : SyncReport) : Value :=
  .object [("synced", .ofWord32 r.synced), ("skipped", .ofWord32 r.skipped)]

end SyncReport

inductive SyncState where
  | idle
  | running
deriving DecidableEq, Repr

namespace SyncState

def text : SyncState → String
  | .idle => "idle"
  | .running => "running"

def isRunning : SyncState → Bool
  | .idle => false
  | .running => true

def format : Json.Format SyncState :=
  .oneOf ([.idle, .running].map fun s => (s.text, s))

end SyncState

/-! ### Tracker -/

/-- Synchronisation of one repository. -/
structure SyncTracker where
  repoId : Ident
  state : SyncState
  requestInFlight : Bool
  /-- Report of the last request that succeeded. -/
  lastReport : Option SyncReport
deriving DecidableEq, Repr

namespace SyncTracker

def new (repo : Ident) : SyncTracker :=
  ⟨repo, .idle, false, none⟩

/-- Accepts a request made here; the caller sends one for each that is accepted. -/
def start (t : SyncTracker) : Except Failure SyncTracker :=
  if t.state.isRunning || t.requestInFlight then .error (.alreadyRunning t.repoId)
  else .ok { t with state := .running, requestInFlight := true }

/-- Takes over the state that the server reports. -/
def observe (t : SyncTracker) (running : Bool) : SyncTracker :=
  { t with state := if running then .running else .idle }

/-- Ends the request made here; either outcome ends the running state. -/
def finish (t : SyncTracker) : Except Failure SyncReport → SyncTracker
  | .ok report =>
    { t with requestInFlight := false, state := .idle, lastReport := some report }
  | .error _ => { t with requestInFlight := false, state := .idle }

end SyncTracker

end LiveAudit
