import LiveAudit.Cli.Watch

/-!
# Commands

What each command does. A command ends well or with a trouble; one that changes something notes in
the journal how it went.
-/

namespace LiveAudit.Cli

variable {m : Type → Type} [Monad m] [Host m]

def print (line : String) : ExceptT Trouble m Unit :=
  ExceptT.lift (Host.print line)

/-- Result of an exchange in the course of an activity. -/
def orTrouble {α : Type} (activity : Trouble.Activity) (result : Except Failure α) :
    ExceptT Trouble m α :=
  match result with
  | .ok a => return a
  | .error f => throw ((Trouble.of (.service f)).during activity)

/-! ### Settings -/

/-- Settings after the command line has had its say. -/
def initialised (held : Settings) (baseUrl : String) (pageLimit timeoutSecs : Option UInt64) :
    Settings :=
  { held with
    baseUrl := some baseUrl
    pageLimit := pageLimit.getD held.pageLimit
    timeoutSecs := timeoutSecs.getD held.timeoutSecs }.normalized

/-- Writes settings with a base address from the command line over those that are there. -/
def writeSettings (path : String) (baseUrl : Option String) (pageLimit timeoutSecs : Option UInt64) :
    ExceptT Trouble m Unit := do
  match baseUrl with
  | none => throw (.of .baseUrlNotGiven)
  | some url =>
    let held ← Settings.load path
    let s := initialised held url pageLimit timeoutSecs
    let _ ← liftM s.requireBaseUrl
    s.save path
    print ("Config saved to " ++ path)

def configInit (path : String) (baseUrl : Option String) (pageLimit timeoutSecs : Option UInt64)
    (j : Journal) : ExceptT Trouble m Unit := do
  match ← ExceptT.lift (writeSettings path baseUrl pageLimit timeoutSecs : ExceptT _ m _).run with
  | .ok () =>
    let id ← note j (.ofEvent "config.init" .ok none)
    print ("Journal ID: " ++ id)
  | .error t =>
    ExceptT.lift <| noteIfPossible j
      { Entry.ofEvent "config.init" .failed none with error := some t.outer }
    throw t

def configShow (path : String) (baseUrl : Option String) : ExceptT Trouble m Unit := do
  let s ← Settings.effective path baseUrl
  print ("Config path: " ++ path)
  print s.fileText

/-! ### Queries -/

def audits (repo : Ident) (offset : UInt64) (limit : Option UInt64) (s : Settings) :
    ExceptT Trouble m Unit := do
  let client ← liftM (Http.Client.ofSettings s)
  let window := Window.new repo (max (limit.getD s.pageLimit) 1)
  let page ← ExceptT.lift <| exchange client Page.format
    (Http.auditsCall client.base repo window.limit offset)
  let (window, loaded) := window.loadPage offset page
  orTrouble (.loadAudits repo) loaded
  if window.items.isEmpty then print ("No audit runs at offset " ++ toString offset ++ ".")
  window.items.forM fun r => print (runRow r)
  print (pageFooter window offset)

def projects (s : Settings) : ExceptT Trouble m Unit := do
  let client ← liftM (Http.Client.ofSettings s)
  let projects ← orTrouble .listProjects
    (← ExceptT.lift (exchange client ProjectList.format (Http.projectsCall client.base)))
  if projects.isEmpty then print "No projects found."
  projects.forM fun p => print (projectRow p)

/-! ### Synchronisation -/

/-- Starts a synchronisation and prints its counts. -/
def startSync (repo : Ident) (s : Settings) : ExceptT Trouble m SyncReport := do
  let client ← liftM (Http.Client.ofSettings s)
  let report ← orTrouble (.startSync repo)
    (← ExceptT.lift (exchange client SyncReport.format (Http.syncCall client.base repo)))
  print ("Synced: " ++ toString report.synced ++ ", skipped: " ++ toString report.skipped)
  return report

def sync (repo : Ident) (s : Settings) (j : Journal) : ExceptT Trouble m Unit := do
  match ← ExceptT.lift (startSync repo s : ExceptT _ m _).run with
  | .ok report =>
    let id ← note j { Entry.ofEvent "sync.start" .ok (some repo) with
      details := some (Ticker.reportDetails report) }
    print ("Journal ID: " ++ id)
  | .error t =>
    ExceptT.lift <| noteIfPossible j
      { Entry.ofEvent "sync.start" .failed (some repo) with error := some t.line }
    throw t

/-! ### Whole runs -/

/-- Where a user's settings and journal are. -/
structure Places where
  settings : String
  journal : String
deriving DecidableEq, Repr

/-- Carries out what was asked for, with the settings at a path. -/
def carryOut (i : Invocation) (path : String) (j : Journal) : ExceptT Trouble m Unit :=
  let withSettings (f : Settings → ExceptT Trouble m Unit) : ExceptT Trouble m Unit := do
    f (← Settings.effective path i.baseUrl)
  match i.command with
  | .configInit pageLimit timeoutSecs => configInit path i.baseUrl pageLimit timeoutSecs j
  | .configShow => configShow path i.baseUrl
  | .audits repo offset limit => withSettings (audits repo offset limit)
  | .sync repo => withSettings fun s => sync repo s j
  | .projects => withSettings projects
  | .watch options => withSettings fun s => watch options s j

/-- Opens the journal and carries out what was asked for; a trouble is noted in the journal. -/
def run (i : Invocation) (places : Places) : ExceptT Trouble m Unit := do
  let session ← (Host.newMark : m String)
  let j ← Journal.openIn places.journal Journal.defaultMaxBytes session
  let path := i.config.getD places.settings
  match ← ExceptT.lift (carryOut i path j : ExceptT _ m _).run with
  | .ok () => return ()
  | .error t =>
    ExceptT.lift <| noteIfPossible j
      { Entry.ofEvent "app.error" .failed none with error := some t.outer }
    throw t

end LiveAudit.Cli
