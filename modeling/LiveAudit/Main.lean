import LiveAudit.Cli.Commands
import LiveAudit.Cli.Machine

/-!
# The program

Takes the command line apart, finds the user's settings and journal, and carries out what was asked
for. A command that ends in trouble has the exit code one, a command line that is not understood the
exit code two.
-/

open LiveAudit LiveAudit.Cli

/-- What is said about a command line that is not carried out. -/
def usageText : UsageFault → String
  | .helpAsked =>
    "Usage: audit-watch [--config <CONFIG>] [--base-url <BASE_URL>] <COMMAND>\n\n" ++
      "Commands:\n  config    Manage config\n" ++
      "  audits    Show one page of audit runs and the health rollup\n" ++
      "  sync      Start a sync for a repository\n" ++
      "  projects  List projects known to the server\n" ++
      "  watch     Follow live events for a repository"
  | .versionAsked => "audit-watch 0.1.0"
  | .nothingGiven | .commandMissing => "error: a command is required"
  | .unknownCommand => "error: unrecognized subcommand"
  | .unknownWord => "error: unexpected argument"
  | .valueMissing => "error: a value is required"
  | .valueUnreadable => "error: invalid value"
  | .valueUnneeded => "error: unexpected value"
  | .optionRepeated => "error: an option cannot be used multiple times"
  | .optionMissing => "error: a required option was not provided"

def main (words : List String) : IO UInt32 := do
  match Invocation.ofWords words with
  | .error fault =>
    if fault = .helpAsked ∨ fault = .versionAsked then
      IO.println (usageText fault)
      return 0
    else
      IO.eprintln (usageText fault)
      return 2
  | .ok i =>
    let home := (← IO.getEnv "HOME").getD ""
    let places : Places :=
      ⟨Settings.defaultPath home (← IO.getEnv "XDG_CONFIG_HOME"),
        Journal.defaultFolder home (← IO.getEnv "XDG_DATA_HOME")⟩
    match ← ((run i places : ExceptT Trouble MachineM Unit).run.run (← Machine.start)) with
    | .ok () => return 0
    | .error t =>
      IO.eprintln t.report
      return 1
