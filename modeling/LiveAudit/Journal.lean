import LiveAudit.Disk
import LiveAudit.Json.Printer
import LiveAudit.Moment
import LiveAudit.Settings.Store

/-!
# Journal

A record of what was done, one line for each entry, in files that only grow. There is a series of
files for each day; an entry goes to the first of the series that has room left or is not there yet.
A file has room while it is smaller than a limit, so that the last line of a file may pass the limit
but no line begins behind it.
-/

namespace LiveAudit

inductive EntryStatus where
  | ok
  | failed
  | skipped
deriving DecidableEq, Repr

namespace EntryStatus

def text : EntryStatus → String
  | .ok => "ok"
  | .failed => "failed"
  | .skipped => "skipped"

/-- Severity that goes with a status. -/
def level : EntryStatus → String
  | .ok => "INFO"
  | .failed => "ERROR"
  | .skipped => "WARN"

end EntryStatus

/-- What an entry tells; what is absent is left out of the line. -/
structure Entry where
  event : String
  status : EntryStatus
  repo : Option Ident
  details : Option Json.Value
  error : Option String

structure Journal where
  folder : String
  /-- Size from which on a file has no room. -/
  maxBytes : Nat
  /-- Mark of all entries of one session. -/
  session : String
deriving DecidableEq, Repr

namespace Entry

def ofEvent (event : String) (status : EntryStatus) (repo : Option Ident) : Entry :=
  ⟨event, status, repo, none, none⟩

/-- Line of an entry, with its own mark and that of its session. -/
def toValue (e : Entry) (stamp id session : String) : Json.Value :=
  let absent (key : String) : Option Json.Value → List (String × Json.Value)
    | some v => [(key, v)]
    | none => []
  .object <| [("ts", .string stamp), ("level", .string e.status.level), ("event", .string e.event),
      ("entry_id", .string id), ("session_id", .string session),
      ("status", .string e.status.text)]
    ++ absent "repo_id" (e.repo.map .string) ++ absent "error" (e.error.map .string)
    ++ absent "details" (e.details.map .canonical)

/-- Bytes of an entry's line, with the line end. -/
def bytes (e : Entry) (stamp id session : String) : List UInt8 :=
  Text.encode ((e.toValue stamp id session).write ++ ['\n'])

end Entry

namespace Journal

variable {m : Type → Type} [Monad m] [Disk m]

/-- Size limit of the files of a user's journal, ten mebibytes. -/
def defaultMaxBytes : Nat := 10 * 1024 * 1024

/-- Folder of the journal, for a home folder and a folder of data from the environment. -/
def defaultFolder (home : String) (dataHome : Option String) : String :=
  Path.join (Settings.userFolder home dataHome ".local/share") "audit-watch/journal"

/-- Name of a file of the series of a day. -/
def fileName (date : String) (suffix : Nat) : String :=
  if suffix = 0 then "journal-" ++ date ++ ".jsonl"
  else "journal-" ++ date ++ "-" ++ toString suffix ++ ".jsonl"

/-- Opens the journal in a folder, which is made if it is missing. -/
def openIn (folder : String) (maxBytes : Nat) (session : String) : ExceptT Trouble m Journal := do
  Disk.within .makeJournalFolder (Disk.makeFolders folder)
  return ⟨folder, maxBytes, session⟩

/-- Path of a file of the series of a day. -/
def path (j : Journal) (date : String) (suffix : Nat) : String :=
  Path.join j.folder (fileName date suffix)

/-- Files that a day can have. -/
def maxFiles : Nat := 2147483648

/-- Path of the first file of the series with room, from a suffix on. -/
def roomFrom (j : Journal) (date : String) : (fuel suffix : Nat) → m String
  | 0, suffix => return j.path date suffix
  | fuel + 1, suffix => do
    match ← (Disk.size? (j.path date suffix) : m (Option Nat)) with
    | some size =>
      if j.maxBytes ≤ size then j.roomFrom date fuel (suffix + 1)
      else return j.path date suffix
    | none => return j.path date suffix

/-- Writes an entry at a moment, and gives back its mark. -/
def record (j : Journal) (e : Entry) (now : Moment) (id : String) : ExceptT Trouble m String := do
  let path ← (j.roomFrom now.date maxFiles 0 : m String)
  Disk.within (.openJournal path) (Disk.append path (e.bytes now.stamp id j.session))
  return id

end Journal

end LiveAudit
