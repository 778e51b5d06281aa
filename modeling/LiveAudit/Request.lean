import LiveAudit.Project
import LiveAudit.Sync
import LiveAudit.Window

/-!
# Requests and completions

What is asked of the server, and how it comes back. Every request is answered by one completion,
which carries the request's own parameters along, so that it can be told where the answer belongs.
-/

namespace LiveAudit

inductive FetchReason where
  | refresh
  | loadMore
deriving DecidableEq, Repr

/-- Fetch of one page. -/
structure PageFetch where
  repoId : Ident
  offset : UInt64
  limit : UInt64
  reason : FetchReason
  /-- Generation of the window; a page of an earlier one is dropped. -/
  epoch : Nat
deriving DecidableEq, Repr

inductive Request where
  | page (fetch : PageFetch)
  | sync (repo : Ident)
  | projects
deriving DecidableEq, Repr

inductive Completion where
  | page (fetch : PageFetch) (result : Except Failure Page)
  | sync (repo : Ident) (result : Except Failure SyncReport)
  | projects (result : Except Failure (List Project))

/-- The request that a completion answers. -/
def Completion.request : Completion → Request
  | .page fetch _ => .page fetch
  | .sync repo _ => .sync repo
  | .projects _ => .projects

end LiveAudit
