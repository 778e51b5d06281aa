import LiveAudit.Health
import LiveAudit.Notice
import LiveAudit.Progress
import LiveAudit.Project
import LiveAudit.Sync
import LiveAudit.Window

/-!
# Views

What is shown of the watched repository at one moment.
-/

namespace LiveAudit

structure View where
  subject : Ident
  window : Window
  sync : SyncState
  lastSync : Option SyncReport
  progress : Option ScanProgress
  health : Health
  projects : List Project
  notices : List Notice
  /-- A fetch or a synchronisation request is outstanding. -/
  busy : Bool
deriving DecidableEq, Repr

namespace View

open Json in
def noticeValue (n : Notice) : Value :=
  .object [("seq", .ofNat n.seq), ("level", .string n.level.text), ("message", .string n.message)]

open Json in
def toValue (v : View) : Value :=
  .object [("subject", .string v.subject), ("window", v.window.toValue),
    ("sync", .string v.sync.text), ("last_sync", .ofOption SyncReport.toValue v.lastSync),
    ("progress", .ofOption ScanProgress.toValue v.progress), ("health", .string v.health.text),
    ("projects", .array (v.projects.map Project.toValue)),
    ("notices", .array (v.notices.map noticeValue)), ("busy", .bool v.busy)]

end View

end LiveAudit
