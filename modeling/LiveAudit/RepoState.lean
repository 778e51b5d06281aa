import LiveAudit.Gate
import LiveAudit.Progress
import LiveAudit.Request

/-!
# State of one repository

The window of a repository with the fetches that are out for it, its synchronisation and its scan
progress. A refresh reads again, in one fetch from the top, every row that is held; at most one is
in flight, and at most one more waits for it. At most one page is being appended at a time.

A reset empties the window and starts a new epoch, and whatever was fetched before is forgotten.
-/

namespace LiveAudit

structure RepoState where
  window : Window
  sync : SyncTracker
  progress : ProgressTracker
  refresh : Gate
  /-- Offset of the page that is being appended. -/
  loadMore : Option UInt64
  epoch : Nat
deriving DecidableEq, Repr

namespace RepoState

def new (repo : Ident) (limit : UInt64) : RepoState :=
  ⟨.new repo limit, .new repo, .new repo, .idle, none, 0⟩

/-- Empties the window and forgets the fetches that are out. -/
def reset (s : RepoState) : RepoState :=
  { s with window := s.window.reset, refresh := .idle, loadMore := none, epoch := s.epoch + 1 }

/-- Sets the window's mark by the fetches that are out. -/
def markLoading (s : RepoState) : RepoState :=
  { s with window := { s.window with loading := s.refresh.inFlight || s.loadMore.isSome } }

/-! ### Requests -/

/-- Fetch from the top of all rows held. -/
def refreshFetch (s : RepoState) : Request :=
  .page ⟨s.window.repoId, 0, s.window.refreshLimit, .refresh, s.epoch⟩

/-- Asks for a refresh. -/
def requestRefresh (s : RepoState) : RepoState × List Request :=
  let (gate, now) := s.refresh.request
  let s := { s with refresh := gate }.markLoading
  (s, if now then [s.refreshFetch] else [])

/-- Asks for the page behind the window, unless one is on its way or there is none. -/
def requestMore (s : RepoState) : RepoState × List Request :=
  if s.loadMore.isSome || !s.window.hasMore then (s, [])
  else
    let offset := s.window.nextOffset
    ({ s with loadMore := some offset }.markLoading,
      [.page ⟨s.window.repoId, offset, s.window.limit, .loadMore, s.epoch⟩])

/-! ### Answers -/

/-- Frees the place of a fetch that is settled; a refresh may be followed by its trailing one. -/
def settleFetch (s : RepoState) : FetchReason → RepoState × List Request
  | .refresh =>
    let (gate, again) := s.refresh.settle
    let s := { s with refresh := gate }
    (s.markLoading, if again then [s.refreshFetch] else [])
  | .loadMore => ({ s with loadMore := none }.markLoading, [])

/-- Takes the answer to a fetch of the current epoch. -/
def completePage (s : RepoState) (fetch : PageFetch) (result : Except Failure Page) :
    RepoState × List Request :=
  let s := match result with
    | .ok page => { s with window := s.window.applySpan fetch.offset fetch.limit page }
    | .error _ => s
  s.settleFetch fetch.reason

/-- Takes the answer to a synchronisation request; after a success the rows are read again. -/
def completeSync (s : RepoState) (result : Except Failure SyncReport) :
    RepoState × List Request :=
  let s := { s with sync := s.sync.finish result, progress := s.progress.clear }
  match result with
  | .ok _ => s.requestRefresh
  | .error _ => (s, [])

end RepoState

end LiveAudit
