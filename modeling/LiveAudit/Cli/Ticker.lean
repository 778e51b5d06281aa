import LiveAudit.Cli.Render
import LiveAudit.Journal

/-!
# Tickers

What a watch prints and notes in the journal as views come in. A ticker sees some of the views that
are published, in their order. The status line is printed when it differs from the one before, every
notice once, and the end of a synchronisation is noted when the state of the view shows it.
-/

namespace LiveAudit.Cli

structure Ticker where
  /-- Status line as last printed. -/
  line : String
  /-- Number of the last notice printed. -/
  seen : Nat
  /-- State of the view before. -/
  sync : SyncState
deriving DecidableEq, Repr

/-- One thing that a ticker puts out. -/
inductive Tick where
  | print (line : String)
  | note (e : Entry)

namespace Ticker

def start : Ticker :=
  ⟨"", 0, .idle⟩

/-- Counts of a report, as details of an entry. -/
def reportDetails (r : SyncReport) : Json.Value :=
  .object [("synced", .ofWord32 r.synced), ("skipped", .ofWord32 r.skipped)]

/-- Entry for a notice; that of an error holds its message as the error. -/
def noticeEntry (repo : Ident) (n : Notice) : Entry where
  event := "notice"
  status := match n.level with
    | .info => .ok
    | .error => .failed
  repo := some repo
  details := some (.object [("seq", .ofNat n.seq), ("message", .string n.message)])
  error := match n.level with
    | .info => none
    | .error => some n.message

/-- Entry for the end of a synchronisation, with the counts of the last report. -/
def finishEntry (repo : Ident) (report : Option SyncReport) : Entry :=
  { Entry.ofEvent "sync.finish" .ok (some repo) with details := report.map reportDetails }

/-- Notices of a view that were not printed before. -/
def fresh (t : Ticker) (v : View) : List Notice :=
  v.notices.filter (t.seen < ·.seq)

/-- Takes in a view. -/
def observe (t : Ticker) (repo : Ident) (v : View) : Ticker × List Tick :=
  let line := statusLine v
  let fresh := t.fresh v
  let ended := t.sync.isRunning && !v.sync.isRunning
  ({ line := line
     seen := (fresh.getLast?.map (·.seq)).getD t.seen
     sync := v.sync },
    (if line = t.line then [] else [.print line])
      ++ fresh.flatMap (fun n => [.print (noticeLine n), .note (noticeEntry repo n)])
      ++ if ended then [.note (finishEntry repo v.lastSync)] else [])

end Ticker

end LiveAudit.Cli
