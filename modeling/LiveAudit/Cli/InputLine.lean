import LiveAudit.Text.Blank

/-!
# Lines of input

What a line means that is typed or replayed while watching: a command word, or else an event. Blanks
around it do not count, and a line that begins with a number sign is a remark.
-/

namespace LiveAudit.Cli

inductive InputLine where
  | blank
  | sync
  | more
  | refresh
  | event (text : String)
deriving DecidableEq, Repr

def InputLine.ofText (line : String) : InputLine :=
  let trimmed := String.ofList (Text.trim line.toList)
  if trimmed = "" then .blank
  else if trimmed = "sync" then .sync
  else if trimmed = "more" then .more
  else if trimmed = "refresh" then .refresh
  else if trimmed.toList.head? = some '#' then .blank
  else .event trimmed

end LiveAudit.Cli
