import LiveAudit.Event
import LiveAudit.RepoState
import LiveAudit.Table
import LiveAudit.View

/-!
# Reconciler

Brings together events, commands and completions. One repository is the subject; the states of
others that were viewed before are kept, and late answers for them land there. Each input gives the
next state and the requests to send.

Events are only hints. None carries data into a window or into the project list; what they report
leads to a fetch, and only the answer to a fetch is shown.
-/

namespace LiveAudit

structure Reconciler where
  subject : Ident
  pageLimit : UInt64
  repos : Table Ident RepoState
  projects : List Project
  projectsGate : Gate
  notices : NoticeLog
deriving DecidableEq, Repr

namespace Reconciler

def new (subject : Ident) (pageLimit noticeCapacity : UInt64) : Reconciler where
  subject := subject
  pageLimit := max pageLimit 1
  repos := Table.empty.put subject (.new subject (max pageLimit 1))
  projects := []
  projectsGate := .idle
  notices := .new noticeCapacity

/-- State of a repository, a fresh one if it was never viewed. -/
def repo (d : Reconciler) (id : Ident) : RepoState :=
  (d.repos.find? id).getD (.new id d.pageLimit)

/-- State of the subject. -/
def current (d : Reconciler) : RepoState :=
  d.repo d.subject

def setRepo (d : Reconciler) (id : Ident) (s : RepoState) : Reconciler :=
  { d with repos := d.repos.put id s }

/-- Changes the state of a repository, which may send requests. -/
def onRepo (d : Reconciler) (id : Ident) (f : RepoState → RepoState × List Request) :
    Reconciler × List Request :=
  let (s, requests) := f (d.repo id)
  (d.setRepo id s, requests)

def onSubject (d : Reconciler) (f : RepoState → RepoState × List Request) :
    Reconciler × List Request :=
  d.onRepo d.subject f

def notify (d : Reconciler) (level : NoticeLevel) (message : String) : Reconciler :=
  { d with notices := d.notices.push level message }

/-! ### Commands -/

/-- Asks for the project list. -/
def requestProjects (d : Reconciler) : Reconciler × List Request :=
  let (gate, now) := d.projectsGate.request
  ({ d with projectsGate := gate }, if now then [.projects] else [])

/-- Loads the subject's first page and the project list. -/
def load (d : Reconciler) : Reconciler × List Request :=
  let (d, first) := d.onSubject fun s => s.reset.requestRefresh
  let (d, second) := d.requestProjects
  (d, first ++ second)

/-- Makes another repository the subject and loads it. -/
def switchTo (d : Reconciler) (subject : Ident) : Reconciler × List Request :=
  if subject = d.subject then (d, [])
  else { d with subject := subject }.onSubject fun s => s.reset.requestRefresh

def refresh (d : Reconciler) : Reconciler × List Request :=
  d.onSubject RepoState.requestRefresh

def loadMore (d : Reconciler) : Reconciler × List Request :=
  d.onSubject RepoState.requestMore

/-- Asks for a synchronisation of the subject; a notice tells when one is running already. -/
def startSync (d : Reconciler) : Reconciler × List Request :=
  match d.current.sync.start with
  | .ok sync => (d.setRepo d.subject { d.current with sync := sync }, [.sync d.subject])
  | .error e => (d.notify .error e.message, [])

/-! ### Events -/

/-- Takes up an event. One that names another repository than the subject is dropped. -/
def handle (d : Reconciler) : Event → Reconciler × List Request
  | .syncProgress p =>
    if p.repoId ≠ d.subject then (d, [])
    else d.onSubject fun s =>
      let s := { s with sync := s.sync.observe p.isRunning }
      if p.isRunning then (s, []) else { s with progress := s.progress.clear }.requestRefresh
  | .auditProgress p =>
    if p.repoId ≠ d.subject then (d, [])
    else d.onSubject fun s =>
      ({ s with progress := s.progress.update p.repoId p.progress }, [])
  | .auditUpdate p =>
    if p.repoId ≠ d.subject then (d, []) else d.onSubject RepoState.requestRefresh
  | .contractProgress p => if p.isFinal then d.requestProjects else (d, [])
  | .build _ => d.requestProjects
  | .other _ => (d, [])

/-! ### Completions -/

/-- Takes the answer to a page fetch, unless the window was reset since. -/
def completePage (d : Reconciler) (fetch : PageFetch) (result : Except Failure Page) :
    Reconciler × List Request :=
  match d.repos.find? fetch.repoId with
  | none => (d, [])
  | some s =>
    if fetch.epoch ≠ s.epoch then (d, [])
    else
      let (s, requests) := s.completePage fetch result
      let d := d.setRepo fetch.repoId s
      match result with
      | .ok _ => (d, requests)
      | .error e => (d.notify .error ("Loading audits failed: " ++ e.message), requests)

/-- Takes the answer to a synchronisation request. -/
def completeSync (d : Reconciler) (repo : Ident) (result : Except Failure SyncReport) :
    Reconciler × List Request :=
  match d.repos.find? repo with
  | none => (d, [])
  | some s =>
    let (s, requests) := s.completeSync result
    let d := d.setRepo repo s
    match result with
    | .ok report =>
      (d.notify .info ("Sync finished: " ++ toString report.synced ++ " synced, " ++
        toString report.skipped ++ " skipped"), requests)
    | .error e => (d.notify .error ("Sync failed: " ++ e.message), requests)

/-- Takes the answer to a fetch of the project list. -/
def completeProjects (d : Reconciler) (result : Except Failure (List Project)) :
    Reconciler × List Request :=
  let d := match result with
    | .ok projects => { d with projects := projects }
    | .error e => d.notify .error ("Loading projects failed: " ++ e.message)
  let (gate, again) := d.projectsGate.settle
  ({ d with projectsGate := gate }, if again then [.projects] else [])

def complete (d : Reconciler) : Completion → Reconciler × List Request
  | .page fetch result => d.completePage fetch result
  | .sync repo result => d.completeSync repo result
  | .projects result => d.completeProjects result

/-! ### Inputs -/

/-- Anything that a reconciler is told. -/
inductive Input where
  | load
  | switchTo (subject : Ident)
  | refresh
  | startSync
  | loadMore
  | event (e : Event)
  | completion (c : Completion)

def step (d : Reconciler) : Input → Reconciler × List Request
  | .load => d.load
  | .switchTo subject => d.switchTo subject
  | .refresh => d.refresh
  | .startSync => d.startSync
  | .loadMore => d.loadMore
  | .event e => d.handle e
  | .completion c => d.complete c

/-! ### View -/

/-- What is shown of the subject. -/
def view (d : Reconciler) : View :=
  let s := d.current
  { subject := d.subject
    window := s.window
    sync := s.sync.state
    lastSync := s.sync.lastReport
    progress := s.progress.current
    health := health s.window.items
    projects := d.projects
    notices := d.notices.kept
    busy := s.window.loading || s.sync.requestInFlight || d.projectsGate.inFlight }

end Reconciler

end LiveAudit
