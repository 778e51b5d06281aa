import LiveAudit.Progress
import LiveAudit.Sync

/-!
# Pushed events

An event comes as an envelope with a type and a payload. Four types carry a payload that is decoded;
build events are told apart by their type alone, and any other type is kept by name. A payload whose
fields do not fit makes the event malformed.
-/

namespace LiveAudit

/-- Event as it comes: its type, and a payload in canonical form. -/
structure Envelope where
  kind : String
  payload : Json.Value

namespace Envelope

open Json in
def fields : Fields (String × Value × Unit) :=
  .cons (.required "type" Format.string) <|
  .cons (.optional "payload" Format.canonical .null) .done

def format : Json.Format Envelope :=
  (fields.format "EventEnvelope").map fun (kind, payload, ()) => ⟨kind, payload⟩

/-- Envelope read from a line. -/
def ofText (line : String) : Except Failure Envelope :=
  match format.parse (Text.utf8 line) with
  | .ok e => .ok e
  | .error detail => .error (.malformedEvent "<envelope>" detail)

open Json in
def toValue (e : Envelope) : Value :=
  .object [("type", .string e.kind), ("payload", e.payload)]

end Envelope

/-! ### Payloads -/

structure SyncProgress where
  repoId : Ident
  status : String
deriving DecidableEq, Repr

namespace SyncProgress

def isRunning (p : SyncProgress) : Bool :=
  p.status == "running"

open Json in
def format : Format SyncProgress :=
  let fields : Fields (Ident × String × Unit) :=
    .cons (.required "repo_id" Ident.format) <| .cons (.required "status" Format.string) .done
  (fields.format "SyncProgressPayload").map fun (repo, status, ()) => ⟨repo, status⟩

end SyncProgress

structure AuditProgress where
  repoId : Ident
  file : Option String
  filesDone : UInt32
  filesTotal : UInt32
deriving DecidableEq, Repr

namespace AuditProgress

open Json in
def format : Format AuditProgress :=
  let fields : Fields (Ident × Option String × UInt32 × UInt32 × Unit) :=
    .cons (.required "repo_id" Ident.format) <|
    .cons ((Field.optional "file" Format.string.option none).withAliases ["current_file"]) <|
    .cons ((Field.optional "files_done" Format.word32 0).withAliases ["filesDone"]) <|
    .cons ((Field.optional "files_total" Format.word32 0).withAliases ["filesTotal"]) .done
  (fields.format "AuditProgressPayload").map fun (repo, file, done, total, ()) =>
    ⟨repo, file, done, total⟩

def progress (p : AuditProgress) : ScanProgress :=
  ⟨p.file, p.filesDone, p.filesTotal⟩

end AuditProgress

structure AuditUpdate where
  repoId : Ident
deriving DecidableEq, Repr

namespace AuditUpdate

open Json in
def format : Format AuditUpdate :=
  let fields : Fields (Ident × Unit) := .cons (.required "repo_id" Ident.format) .done
  (fields.format "AuditUpdatePayload").map fun (repo, ()) => ⟨repo⟩

end AuditUpdate

structure ContractProgress where
  status : String
  index : Int
  total : Int
deriving DecidableEq, Repr

namespace ContractProgress

/-- The last contract of a run has been generated. Its index is one less than the total, and that
without bound: one less than the least word of 64 bits is no word, so that no contract is the last
of that total. Machines that wrap around or stop at this one total are not followed. -/
def isFinal (p : ContractProgress) : Bool :=
  p.status == "done" && p.index = p.total - 1

open Json in
def format : Format ContractProgress :=
  let fields : Fields (String × Int × Int × Unit) :=
    .cons (.required "status" Format.string) <|
    .cons (.required "index" Format.int64) <|
    .cons (.required "total" Format.int64) .done
  (fields.format "ContractProgressPayload").map fun (status, index, total, ()) =>
    ⟨status, index, total⟩

end ContractProgress

inductive BuildPhase where
  | started
  | complete
  | error
deriving DecidableEq, Repr

def BuildPhase.text : BuildPhase → String
  | .started => "started"
  | .complete => "complete"
  | .error => "error"

/-! ### Events -/

inductive Event where
  | syncProgress (p : SyncProgress)
  | auditProgress (p : AuditProgress)
  | auditUpdate (p : AuditUpdate)
  | contractProgress (p : ContractProgress)
  | build (phase : BuildPhase)
  /-- A type that nothing is done about. -/
  | other (kind : String)
deriving DecidableEq, Repr

namespace Event

/-- Type that an event is sent under. -/
def kind : Event → String
  | .syncProgress _ => "sync_progress"
  | .auditProgress _ => "audit_progress"
  | .auditUpdate _ => "audit_update"
  | .contractProgress _ => "contract_progress"
  | .build phase => "build_" ++ phase.text
  | .other kind => kind

/-- Event that an envelope carries. -/
def ofEnvelope (e : Envelope) : Except Failure Event :=
  let payload {α : Type} (form : Json.Format α) (event : α → Event) : Except Failure Event :=
    match form.ofValue e.payload with
    | .ok p => .ok (event p)
    | .error c => .error (.malformedEvent e.kind c.message)
  if e.kind = "sync_progress" then payload SyncProgress.format .syncProgress
  else if e.kind = "audit_progress" then payload AuditProgress.format .auditProgress
  else if e.kind = "audit_update" then payload AuditUpdate.format .auditUpdate
  else if e.kind = "contract_progress" then payload ContractProgress.format .contractProgress
  else if e.kind = "build_started" then .ok (.build .started)
  else if e.kind = "build_complete" then .ok (.build .complete)
  else if e.kind = "build_error" then .ok (.build .error)
  else .ok (.other e.kind)

end Event

end LiveAudit
