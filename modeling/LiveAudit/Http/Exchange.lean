import LiveAudit.Failure
import LiveAudit.Http.Status
import LiveAudit.Request
import LiveAudit.Url

/-!
# Exchanges with the server

What is sent for a request, and what an answer means. Three things can be asked: a page of runs, a
synchronisation and the list of projects; each has an address of its own below that of the server.

An answer that is a success is decoded. Any other is a rejection, and its message is taken from
where it is first found: a member of the body, the body itself, the phrase of the status.
-/

namespace LiveAudit.Http

open Json (Format Value)

inductive Method where
  | get
  | post
deriving DecidableEq, Repr

def Method.text : Method → String
  | .get => "GET"
  | .post => "POST"

/-- A request as it is sent. -/
structure Call where
  method : Method
  url : Url
deriving DecidableEq, Repr

namespace Call

/-- Request line, without the version. -/
def line (c : Call) : String :=
  c.method.text ++ " " ++ String.ofList c.url.target

/-- Name that requests give of their sender. -/
def agent : String := "audit-watch/0.1.0"

end Call

/-! ### What is sent -/

def auditsCall (base : Url) (repo : Ident) (limit offset : UInt64) : Call :=
  ⟨.get, ((base.extend ["repos", repo, "audits"]).withParameter "limit" limit).withParameter
    "offset" offset⟩

def syncCall (base : Url) (repo : Ident) : Call :=
  ⟨.post, base.extend ["repos", repo, "sync"]⟩

def projectsCall (base : Url) : Call :=
  ⟨.get, base.extend ["projects"]⟩

/-- What is sent for a request. -/
def callOf (base : Url) : Request → Call
  | .page fetch => auditsCall base fetch.repoId fetch.limit fetch.offset
  | .sync repo => syncCall base repo
  | .projects => projectsCall base

/-! ### What comes back -/

inductive Answer where
  /-- No connection, or one that was closed before a status came. -/
  | lost
  /-- A status, and the bytes of the body that arrived; a body that broke off is not complete. -/
  | reply (status : Nat) (body : List UInt8) (isComplete : Bool)
deriving DecidableEq, Repr

/-- Members of a body that hold a message, the preferred first. -/
def messageKeys : List String := ["detail", "message", "error"]

/-- Code points of a body that a message shows. -/
def maxShown : Nat := 200

/-- Message in a member of a body. -/
def memberMessage? (v : Value) : Option String :=
  messageKeys.findSome? fun key => match v.get? key with
    | some (.string s) => some s
    | _ => none

/-- Message of a rejection. -/
def rejectionMessage (status : Nat) (body : List UInt8) : String :=
  let text := Text.decodeLossy body
  match (Format.any.readText (Text.encode text)).toOption.bind memberMessage? with
  | some message => message
  | none =>
    let shown := Text.trim text
    if shown.isEmpty then phrase status else String.ofList (shown.take maxShown)

/-- Reads the body of a success. -/
def decode {α : Type} (form : Format α) (body : List UInt8) : Except Failure α :=
  match form.parse body with
  | .ok a => .ok a
  | .error fault => .error (.transport ("decode response: " ++ fault))

/-- What an answer from an address means. -/
def outcome {α : Type} (form : Format α) (url : Url) : Answer → Except Failure α
  | .lost => .error (.transport ("error sending request for url (" ++ url.text ++ ")"))
  | .reply status body isComplete =>
    if isSuccess status then
      if isComplete then decode form body
      else .error (.transport ("error decoding response body for url (" ++ url.text ++ ")"))
    else .error (.rejected status (rejectionMessage status (if isComplete then body else [])))

/-- Failure of a call that cannot be made. -/
def unsendable (url : Url) : Failure :=
  .transport ("builder error for url (" ++ url.text ++ ")")

/-- Completion of a request whose call had this outcome. -/
def complete (base : Url) (r : Request) (a : Answer) : Completion :=
  let result {α : Type} (form : Format α) : Except Failure α :=
    let url := (callOf base r).url
    if url.isRequestable then outcome form url a else .error (unsendable url)
  match r with
  | .page fetch => .page fetch (result Page.format)
  | .sync repo => .sync repo (result SyncReport.format)
  | .projects => .projects (result ProjectList.format)

end LiveAudit.Http
