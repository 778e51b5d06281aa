import LiveAudit.Request
import LiveAudit.Table

/-!
# A service in memory

An audit server as far as a watcher can see it: the runs of each repository, the newest first, the
report of its next synchronisation and its projects. Each of the three kinds of request can be made
to fail.
-/

namespace LiveAudit

structure Service where
  audits : Table Ident (List Run)
  report : SyncReport
  projects : List Project
  auditsFailure : Option Failure
  syncFailure : Option Failure
  projectsFailure : Option Failure

namespace Service

def empty : Service :=
  ⟨.empty, ⟨0, 0⟩, [], none, none, none⟩

/-- All runs of a repository; one that is not known has none. -/
def runs (s : Service) (repo : Ident) : List Run :=
  (s.audits.find? repo).getD []

/-- Runs from an offset on, as many as the limit allows, with the number of all. -/
def slice (runs : List Run) (offset limit : UInt64) : Page :=
  ⟨(runs.drop offset.toNat).take limit.toNat, capWord runs.length⟩

def orFailure {α : Type} (failure : Option Failure) (a : α) : Except Failure α :=
  match failure with
  | some e => .error e
  | none => .ok a

/-- Answer to a request. -/
def answer (s : Service) : Request → Completion
  | .page fetch =>
    .page fetch (orFailure s.auditsFailure (slice (s.runs fetch.repoId) fetch.offset fetch.limit))
  | .sync repo => .sync repo (orFailure s.syncFailure s.report)
  | .projects => .projects (orFailure s.projectsFailure s.projects)

/-- Puts a new run in front of those of a repository. -/
def push (s : Service) (repo : Ident) (run : Run) : Service :=
  { s with audits := s.audits.put repo (run :: s.runs repo) }

end Service

end LiveAudit
