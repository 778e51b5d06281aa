import LiveAudit.Bus
import LiveAudit.Service
import LiveAudit.Session

/-!
# Rehearsals

A session run against a service in memory, on a schedule that leaves nothing to chance. Whenever it
runs, the messages that wait are handled first and the completions that have arrived after them, in
order; the requests that arise are then made. A request waits until it is served, or is served at
once.
-/

namespace LiveAudit

/-- Takes the element at an index, counted around. -/
def pick {α : Type} (index : Nat) (xs : List α) : Option (α × List α) :=
  let i := index % xs.length
  xs[i]?.map fun x => (x, xs.eraseIdx i)

structure Rehearsal where
  session : Session
  bus : Bus Unit
  /-- Number of the session's subscription. -/
  subscription : Nat
  service : Service
  /-- Requests are served when they are made. -/
  auto : Bool
  /-- Requests made and not served. -/
  waiting : List Request
  /-- Completions that have arrived and are not queued yet. -/
  arrived : List Completion
  /-- Requests made, in order. -/
  calls : List Request

namespace Rehearsal

def start (subject : Ident) (settings : Settings) (auto : Bool) (service : Service) : Rehearsal :=
  let (bus, number) := (Bus.empty : Bus Unit).subscribe ()
  { session := .start subject settings, bus := bus, subscription := number, service := service,
    auto := auto, waiting := [], arrived := [], calls := [] }

def send (r : Rehearsal) (m : Message) : Rehearsal :=
  { r with session := r.session.send m }

/-- Hands an event to the handlers on the bus, each of which queues it. -/
def publish (r : Rehearsal) (e : Envelope) : Rehearsal :=
  r.bus.handlers.foldl (fun r _ => r.send (.event e)) r

/-- Ends the session behind all messages that wait. -/
def close (r : Rehearsal) : Rehearsal :=
  { r with bus := r.bus.release r.subscription }.send .shutdown

/-- Serves a waiting request; its completion arrives at the next run. -/
def serve (r : Rehearsal) (index : Nat) (answer : Request → Completion) : Option Rehearsal :=
  (pick index r.waiting).map fun (request, waiting) =>
    { r with waiting := waiting, arrived := r.arrived ++ [answer request] }

/-- Handles all that waits and makes the requests that arise. -/
def round (r : Rehearsal) : Rehearsal :=
  let queued := r.arrived.foldl (fun s c => s.send (.completed c)) r.session
  let (requests, session) := queued.drain.takeRequests
  { r with
    session := session
    calls := r.calls ++ requests
    waiting := if r.auto then r.waiting else r.waiting ++ requests
    arrived := if r.auto then requests.map r.service.answer else [] }

/-- Rounds until nothing has arrived, at most `fuel` of them. -/
def rounds : Nat → Rehearsal → Rehearsal
  | 0, r => r
  | fuel + 1, r =>
    let r := r.round
    if r.arrived.isEmpty then r else rounds fuel r

/-- Runs until nothing is left to do. A completion sends at most one request, and only for a
trailing fetch or a finished synchronisation, so that there are few rounds. -/
def run (r : Rehearsal) : Rehearsal :=
  r.rounds (2 * (r.session.queue.length + r.session.unsent.length + r.arrived.length) +
    r.session.reconciler.repos.entries.length + 4)

/-- Runs, and tells whether nothing was outstanding when all that waited had been handled. -/
def settle (r : Rehearsal) : Rehearsal × Bool :=
  let (session, barrier) := r.session.setBarrier
  let r := { r with session := session }.run
  (r, r.session.settledAt barrier)

end Rehearsal

end LiveAudit
