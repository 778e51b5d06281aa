import LiveAudit.Run

/-!
# Health of a window

A traffic light over the runs that are loaded. Only completed runs count: without one the light is
pending, it is green if all of them passed, red if one failed or broke, and yellow otherwise.
-/

namespace LiveAudit

inductive Health where
  | pending
  | green
  | yellow
  | red
deriving DecidableEq, Repr

namespace Health

def text : Health → String
  | .pending => "pending"
  | .green => "green"
  | .yellow => "yellow"
  | .red => "red"

def format : Json.Format Health :=
  .oneOf ([.pending, .green, .yellow, .red].map fun h => (h.text, h))

end Health

/-- Health of a list of runs. -/
def health (runs : List Run) : Health :=
  let completed := runs.filter Run.isCompleted
  if completed.isEmpty then .pending
  else if completed.all fun r => r.result = some .pass then .green
  else if completed.any fun r => r.result.any Verdict.isFailure then .red
  else .yellow

end LiveAudit
