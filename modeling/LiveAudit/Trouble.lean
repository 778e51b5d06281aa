import LiveAudit.Failure
import LiveAudit.Files
import LiveAudit.Url

/-!
# Troubles

What ends a command: a cause, and the activities in the course of which it arose. A trouble is shown
in two ways, as a line with the outermost activity first, and as a report that lists the causes
below each other.
-/

namespace LiveAudit

namespace Trouble

inductive Cause where
  | file (fault : FileFault)
  /-- A text that is no JSON of the expected kind. -/
  | json (message : String)
  | address (fault : Url.Fault)
  | service (fault : Failure)
  | noBaseUrl
  | opaqueBaseUrl (url : String)
  | baseUrlNotGiven
deriving DecidableEq, Repr

def Cause.message : Cause → String
  | .file fault => fault.message
  | .json message => message
  | .address fault => fault.message
  | .service fault => fault.message
  | .noBaseUrl => "base URL not configured; run `audit-watch config init --base-url <URL>`"
  | .opaqueBaseUrl url => "base URL cannot carry paths: " ++ url
  | .baseUrlNotGiven => "config init requires --base-url"

inductive Activity where
  | loadSettings (path : String)
  | readSettings
  | parseSettings
  | makeSettingsFolder
  | writeSettings
  | makeJournalFolder
  | openJournal (path : String)
  | parseBaseUrl (url : String)
  | loadAudits (repo : Ident)
  | startSync (repo : Ident)
  | listProjects
  | openEvents (path : String)
  | readEvents
deriving DecidableEq, Repr

def Activity.message : Activity → String
  | .loadSettings path => "load config " ++ path
  | .readSettings => "read config"
  | .parseSettings => "parse config"
  | .makeSettingsFolder => "create config directory"
  | .writeSettings => "write config"
  | .makeJournalFolder => "create journal dir"
  | .openJournal path => "open journal " ++ path
  | .parseBaseUrl url => "parse base URL " ++ url
  | .loadAudits repo => "load audits for " ++ repo
  | .startSync repo => "start sync for " ++ repo
  | .listProjects => "list projects"
  | .openEvents path => "open events " ++ path
  | .readEvents => "read events"

end Trouble

structure Trouble where
  /-- Activities, the outermost first. -/
  course : List Trouble.Activity
  cause : Trouble.Cause
deriving DecidableEq, Repr

namespace Trouble

def of (cause : Cause) : Trouble :=
  ⟨[], cause⟩

/-- The trouble as it is seen from an activity around it. -/
def during (activity : Activity) (t : Trouble) : Trouble :=
  { t with course := activity :: t.course }

/-- Messages of the activities and of the cause. -/
def messages (t : Trouble) : List String :=
  t.course.map Activity.message ++ [t.cause.message]

/-- Message of the outermost activity. -/
def outer (t : Trouble) : String :=
  t.messages.headD ""

/-- All messages in a line. -/
def line (t : Trouble) : String :=
  ": ".intercalate t.messages

/-! ### Reports -/

/-- A message with blanks in front of its lines; the first ones of the first line may be a mark. -/
def indent (mark blanks : String) (message : String) : String :=
  mark ++ ("\n" ++ blanks).intercalate (message.splitOn "\n")

/-- Number in front of a cause, set flush right in five places. -/
def numberMark (n : Nat) : String :=
  let digits := toString n
  "".pushn ' ' (5 - digits.length) ++ digits ++ ": "

/-- Messages below the outermost one, numbered if there are several. -/
def causesText : List String → String
  | [] => ""
  | [cause] => "\n\nCaused by:\n" ++ indent "    " "    " cause
  | causes =>
    "\n\nCaused by:" ++ "".intercalate (causes.mapIdx fun n cause =>
      "\n" ++ indent (numberMark n) "       " cause)

/-- Report of a trouble that ended a command. -/
def report (t : Trouble) : String :=
  "Error: " ++ t.outer ++ causesText (t.messages.drop 1)

end Trouble

end LiveAudit
