import LiveAudit.Run

/-!
# Scan progress

How far the scan of a repository has come, as last reported. Reports on other repositories are
dropped.
-/

namespace LiveAudit

structure ScanProgress where
  currentFile : Option String
  filesDone : UInt32
  filesTotal : UInt32
deriving DecidableEq, Repr

namespace ScanProgress

open Json in
def fields : Fields (Option String × UInt32 × UInt32 × Unit) :=
  .cons (.nullable "current_file" Format.string) <|
  .cons (.required "files_done" Format.word32) <|
  .cons (.required "files_total" Format.word32) .done

def format : Json.Format ScanProgress :=
  (fields.format "ScanProgress").map fun (file, done, total, ()) => ⟨file, done, total⟩

open Json in
def toValue (p : ScanProgress) : Value :=
  .object [("current_file", .ofStringOption p.currentFile), ("files_done", .ofWord32 p.filesDone),
    ("files_total", .ofWord32 p.filesTotal)]

end ScanProgress

/-- Last scan progress of one repository. -/
structure ProgressTracker where
  repoId : Ident
  current : Option ScanProgress
deriving DecidableEq, Repr

namespace ProgressTracker

def new (repo : Ident) : ProgressTracker :=
  ⟨repo, none⟩

/-- Whether a report on `repo` is taken over. -/
def accepts (t : ProgressTracker) (repo : Ident) : Bool :=
  repo = t.repoId

/-- Takes over a report if it is on this repository. -/
def update (t : ProgressTracker) (repo : Ident) (p : ScanProgress) : ProgressTracker :=
  if t.accepts repo then { t with current := some p } else t

def clear (t : ProgressTracker) : ProgressTracker :=
  { t with current := none }

end ProgressTracker

end LiveAudit
