import LiveAudit.Health
import LiveAudit.Project
import LiveAudit.Text.Blank
import LiveAudit.View

/-!
# Printed lines

How runs, projects, pages, views and notices are shown, one line each. Columns are padded and texts
cut by code points. Of a commit's hash seven characters are shown, of its message the first sixty of
the first line.
-/

namespace LiveAudit.Cli

open Text

def shaWidth : Nat := 7

def messageWidth : Nat := 60

/-- Run in columns: identifier, status, verdict, commit and the start of its message. -/
def runRow (r : Run) : String :=
  let verdict := (r.verdict.map Verdict.text).getD "-"
  let sha := (r.commitSha.getD "-").toList.take shaWidth
  let message := (firstLine (r.commitMessage.getD "").toList).take messageWidth
  String.ofList <| trimEnd <|
    padTo 10 r.id.toList ++ ' ' :: padTo 9 r.status.text.toList ++ ' ' :: padTo 6 verdict.toList ++
      ' ' :: padTo 7 sha ++ ' ' :: message

/-- Project with its identifier, its name and what else is known. -/
def projectRow (p : Project) : String :=
  String.ofList (padTo 10 p.id.toList) ++ " " ++ p.name ++
    (match p.status with | some s => " [" ++ s ++ "]" | none => "") ++
    (match p.repoUrl with | some url => " " ++ url | none => "")

/-- Which rows of how many are shown, with the health of those. -/
def pageFooter (w : Window) (offset : UInt64) : String :=
  let first : UInt64 := if w.rows = 0 then 0 else capWord (offset.toNat + 1)
  "Showing " ++ toString first ++ "-" ++ toString (capWord (offset.toNat + w.rows.toNat)) ++
    " of " ++ toString w.total ++ " | health: " ++ (health w.items).text

/-- A view on one line. -/
def statusLine (v : View) : String :=
  let scan := match v.progress with
    | some p =>
      " scan=" ++ toString p.filesDone ++ "/" ++ toString p.filesTotal ++
        (match p.currentFile with | some file => " " ++ file | none => "")
    | none => ""
  let last := match v.lastSync with
    | some r => " last_sync=" ++ toString r.synced ++ "+" ++ toString r.skipped
    | none => ""
  "[" ++ v.subject ++ "] health=" ++ v.health.text ++ " sync=" ++ v.sync.text ++ " audits=" ++
    toString v.window.items.length ++ "/" ++ toString v.window.total ++ scan ++ last ++
    (if v.busy then " (loading)" else "")

def noticeLine (n : Notice) : String :=
  n.level.text ++ ": " ++ n.message

end LiveAudit.Cli
