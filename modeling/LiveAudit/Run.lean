import LiveAudit.Json.Printer
import LiveAudit.Json.Record

/-!
# Audit runs

One execution of an audit against one commit. A server may send an identifier as a text or as an
integer, and any text as a verdict; identifiers are kept as texts, and a verdict that is none of the
three known ones is kept as it came.
-/

namespace LiveAudit

/-- Identifier of a repository, a run or a project. -/
abbrev Ident : Type := String

namespace Ident

/-- Text of an identifier: a string itself, an integer in decimal. -/
def ofValue? : Json.Value → Option Ident
  | .string s => some s
  | .integer n => some (String.ofList (Text.signedDecimal n.value))
  | _ => none

def format : Json.Format Ident :=
  .shape "IdRepr" ofValue?

end Ident

/-! ### Status and verdict -/

inductive RunStatus where
  | pending
  | running
  | completed
deriving DecidableEq, Repr

namespace RunStatus

def text : RunStatus → String
  | .pending => "pending"
  | .running => "running"
  | .completed => "completed"

def format : Json.Format RunStatus :=
  .oneOf ([.pending, .running, .completed].map fun s => (s.text, s))

end RunStatus

/-- Verdict of a completed run. -/
inductive Verdict where
  | pass
  | fail
  | error
  | other (text : String)
deriving DecidableEq, Repr

namespace Verdict

def text : Verdict → String
  | .pass => "PASS"
  | .fail => "FAIL"
  | .error => "ERROR"
  | .other s => s

def ofText (s : String) : Verdict :=
  if s = "PASS" then .pass
  else if s = "FAIL" then .fail
  else if s = "ERROR" then .error
  else .other s

def isFailure : Verdict → Bool
  | .fail | .error => true
  | .pass | .other _ => false

def format : Json.Format Verdict :=
  Json.Format.string.map ofText

end Verdict

/-! ### Runs -/

structure Run where
  id : Ident
  status : RunStatus
  /-- Result as the server sent it; it counts once the run is completed. -/
  result : Option Verdict
  commitSha : Option String
  commitMessage : Option String
  createdAt : Option String
deriving DecidableEq, Repr

namespace Run

def isCompleted (r : Run) : Bool :=
  r.status = .completed

/-- Verdict of a completed run. -/
def verdict (r : Run) : Option Verdict :=
  if r.isCompleted then r.result else none

open Json in
def fields : Fields (Ident × RunStatus × Option Verdict × Option String × Option String ×
    Option String × Unit) :=
  .cons (.required "id" Ident.format) <|
  .cons (.required "status" RunStatus.format) <|
  .cons (.optional "overall_result" Verdict.format.option none) <|
  .cons (.optional "commit_sha" Format.string.option none) <|
  .cons (.optional "commit_message" Format.string.option none) <|
  .cons (.optional "created_at" Format.string.option none) .done

def format : Json.Format Run :=
  (fields.format "AuditRun").map fun (id, status, result, sha, message, created, ()) =>
    ⟨id, status, result, sha, message, created⟩

open Json in
def toValue (r : Run) : Value :=
  .object [("id", .string r.id), ("status", .string r.status.text),
    ("overall_result", .ofStringOption (r.result.map Verdict.text)),
    ("commit_sha", .ofStringOption r.commitSha),
    ("commit_message", .ofStringOption r.commitMessage),
    ("created_at", .ofStringOption r.createdAt)]

end Run

/-! ### Pages -/

/-- Some consecutive runs of a repository, with the number of all its runs. -/
structure Page where
  items : List Run
  total : UInt64
deriving DecidableEq, Repr

namespace Page

open Json in
def fields : Fields (List Run × UInt64 × Unit) :=
  .cons (.required "items" Run.format.list) <|
  .cons (.required "total" Format.word64) .done

def format : Json.Format Page :=
  (fields.format "AuditPage").map fun (items, total, ()) => ⟨items, total⟩

open Json in
def toValue (p : Page) : Value :=
  .object [("items", .array (p.items.map Run.toValue)), ("total", .ofWord p.total)]

end Page

end LiveAudit
