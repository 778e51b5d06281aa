import LiveAudit.Run

/-!
# Projects

A project as the server lists it. A list of projects comes in two shapes, as an object with the list
under `items` or as the list alone; both are tried on the value that was sent, the object first.
-/

namespace LiveAudit

structure Project where
  id : Ident
  name : String
  status : Option String
  repoUrl : Option String
deriving DecidableEq, Repr

namespace Project

open Json in
def fields : Fields (Ident × String × Option String × Option String × Unit) :=
  .cons (.required "id" Ident.format) <|
  .cons (.optional "name" Format.string "") <|
  .cons (.optional "status" Format.string.option none) <|
  .cons (.optional "repo_url" Format.string.option none) .done

def format : Json.Format Project :=
  (fields.format "ProjectSummary").map fun (id, name, status, url, ()) => ⟨id, name, status, url⟩

open Json in
def toValue (p : Project) : Value :=
  .object [("id", .string p.id), ("name", .string p.name), ("status", .ofStringOption p.status),
    ("repo_url", .ofStringOption p.repoUrl)]

end Project

namespace ProjectList

open Json in
/-- The shape with the list under a key. -/
def wrapped : Fields (List Project × Unit) :=
  .cons (.required "items" Project.format.list) .done

/-- Projects in either shape. -/
def ofValue? (v : Json.Value) : Option (List Project) :=
  let inObject : Option (List Project) :=
    match v with
    | .object members => (wrapped.ofObject members).toOption.map (·.1)
    | _ => none
  inObject <|> (Project.format.list.ofValue v).toOption

def format : Json.Format (List Project) :=
  .shape "ProjectList" ofValue?

end ProjectList

end LiveAudit
