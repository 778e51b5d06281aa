import LiveAudit.Cli.Host
import LiveAudit.Cli.InputLine
import LiveAudit.Cli.Invocation
import LiveAudit.Cli.Ticker
import LiveAudit.Session

/-!
# Watching

A session that is fed from lines and shown by a ticker. Each line is handled as soon as it is read;
answers that come in are handled when the lines have ended, until nothing is outstanding or the time
is over. Messages are handled one at a time, and the ticker sees the view after each.
-/

namespace LiveAudit.Cli

variable {m : Type → Type} [Monad m] [Host m]

structure Watch where
  client : Http.Client
  journal : Journal
  repo : Ident
  session : Session
  ticker : Ticker

namespace Watch

def putOut (w : Watch) : Tick → m Unit
  | .print line => Host.print line
  | .note e => noteIfPossible w.journal e

/-- Shows the view as last published. -/
def observe (w : Watch) : m Watch := do
  let (ticker, ticks) := w.ticker.observe w.repo w.session.published
  ticks.forM w.putOut
  return { w with ticker := ticker }

/-- Sends the requests that have arisen. -/
def sendRequests (w : Watch) : m Watch := do
  let (requests, session) := w.session.takeRequests
  requests.forM fun r => Host.send w.client.timeoutSecs r (Http.callOf w.client.base r)
  return { w with session := session }

/-- Handles the next message. -/
def step (w : Watch) : m Watch := do
  let w ← { w with session := w.session.step }.observe
  w.sendRequests

/-- Handles all messages that wait. -/
def drain (w : Watch) : m Watch :=
  w.session.queue.foldlM (fun w _ => w.step) w

def send (w : Watch) (message : Message) : Watch :=
  { w with session := w.session.send message }

/-- Asks for a synchronisation, and notes that. -/
def requestSync (w : Watch) : m Watch := do
  noteIfPossible w.journal (.ofEvent "sync.start" .ok (some w.repo))
  return w.send .startSync

/-! ### Lines -/

/-- Takes a line in. One that is no event is passed over. -/
def takeLine (w : Watch) (line : String) : m Watch := do
  let w ← match InputLine.ofText line with
    | .blank => pure w
    | .sync => w.requestSync
    | .more => pure (w.send .loadMore)
    | .refresh => pure (w.send .refresh)
    | .event text =>
      match Envelope.ofText text with
      | .ok e => pure (w.send (.event e))
      | .error _ => pure w
  w.drain

/-- Lines or answers that a watch takes at most; their number is a word. -/
def ceiling : Nat := UInt64.size

/-- Takes in the lines that are left, and counts them on from `count`. -/
def takeLines : (fuel count : Nat) → Watch → m (Watch × Except Trouble Nat)
  | 0, count, w => return (w, .ok count)
  | fuel + 1, count, w => do
    let fault (f : FileFault) : Trouble := (Trouble.of (.file f)).during .readEvents
    match ← Host.nextLine with
    | .error f => return (w, .error (fault f))
    | .ok none => return (w, .ok count)
    | .ok (some bytes) =>
      match Text.ofUtf8? bytes with
      | none => return (w, .error (fault .notText))
      | some line => takeLines fuel (count + 1) (← w.takeLine line)

/-- Takes in the lines of a source, if there is one, and counts them. -/
def feed (w : Watch) : Option String → m (Watch × Except Trouble Nat)
  | none => return (w, .ok 0)
  | some "-" => do
    Host.openInput
    takeLines ceiling 0 w
  | some path => do
    match ← Host.openLines path with
    | .error f => return (w, .error ((Trouble.of (.file f)).during (.openEvents path)))
    | .ok () => takeLines ceiling 0 w

/-! ### The end -/

/-- Takes in answers until nothing is outstanding or the time is over. -/
def settle (barrier deadline : Nat) : (fuel : Nat) → Watch → m Watch
  | 0, w => return w
  | fuel + 1, w => do
    if w.session.settledAt barrier then return w
    match ← Host.receive deadline with
    | none => return w
    | some (r, answer) =>
      settle barrier deadline fuel
        (← (w.send (.completed (Http.complete w.client.base r answer))).drain)

/-- Waits for what is outstanding, so many seconds at most. -/
def finish (w : Watch) (settleSecs : UInt64) : m Watch := do
  let (session, barrier) := w.session.setBarrier
  let w ← { w with session := session }.drain
  let start ← Host.elapsed
  let w ← settle barrier (start + 1000 * settleSecs.toNat) ceiling w
  (w.send .shutdown).drain

/-- Entry for the end of a watch. -/
def closeEntry (repo : Ident) : Except Trouble Nat → Entry
  | .ok lines =>
    { Entry.ofEvent "watch.close" .ok (some repo) with
      details := some (.object [("lines", .ofNat lines)]) }
  | .error t =>
    { Entry.ofEvent "watch.close" .failed (some repo) with error := some t.line }

end Watch

/-- Watches a repository. -/
def watch (o : WatchOptions) (s : Settings) (j : Journal) : ExceptT Trouble m Unit := do
  let client ← liftM (Http.Client.ofSettings s)
  let session := Session.start o.repo s
  let _ ← note j (.ofEvent "watch.open" .ok (some o.repo))
  let (fed : Except Trouble Nat) ← ExceptT.lift <| show m _ from do
    let w ← (⟨client, j, o.repo, session, .start⟩ : Watch).observe
    let w ← w.sendRequests
    let w ← if o.sync then do (← w.requestSync).drain else pure w
    let (w, fed) ← w.feed o.events
    let _ ← w.finish o.settleSecs
    return fed
  match fed with
  | .ok _ =>
    let _ ← note j (Watch.closeEntry o.repo fed)
  | .error t =>
    ExceptT.lift (noteIfPossible j (Watch.closeEntry o.repo fed))
    throw t

end LiveAudit.Cli
