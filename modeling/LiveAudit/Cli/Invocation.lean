import LiveAudit.Cli.Usage
import LiveAudit.Run

/-!
# Invocations

The commands of the program with their options, and what a command line asks for.
-/

namespace LiveAudit.Cli

structure WatchOptions where
  repo : Ident
  /-- Source of lines; a hyphen stands for the standard input. -/
  events : Option String
  /-- Whether a synchronisation is started first. -/
  sync : Bool
  /-- Seconds to wait for outstanding requests when the lines have ended. -/
  settleSecs : UInt64
deriving DecidableEq, Repr

inductive Command where
  | configInit (pageLimit timeoutSecs : Option UInt64)
  | configShow
  | audits (repo : Ident) (offset : UInt64) (limit : Option UInt64)
  | sync (repo : Ident)
  | projects
  | watch (options : WatchOptions)
deriving DecidableEq, Repr

structure Invocation where
  /-- Path of the settings. -/
  config : Option String
  baseUrl : Option String
  command : Command
deriving DecidableEq, Repr

/-! ### The grammar -/

/-- Options that every command has. -/
def sharedOptions : List OptionForm :=
  [⟨"config", .path, false⟩, ⟨"base-url", .text, false⟩]

def leaf (name : String) (options : List OptionForm) : CommandForm :=
  .mk name (options ++ sharedOptions) []

def repoOption : OptionForm := ⟨"repo", .text, true⟩

/-- The program with all its commands. -/
def program : CommandForm :=
  .mk "audit-watch" sharedOptions
    [.mk "config" sharedOptions
      [leaf "init" [⟨"page-limit", .word, false⟩, ⟨"timeout-secs", .word, false⟩],
        leaf "show" []],
      leaf "audits" [repoOption, ⟨"offset", .word, false⟩, ⟨"limit", .word, false⟩],
      leaf "sync" [repoOption],
      leaf "projects" [],
      leaf "watch" [repoOption, ⟨"events", .path, false⟩, ⟨"sync", .flag, false⟩,
        ⟨"settle-secs", .word, false⟩]]

/-- Seconds that a watch waits at its end if not told otherwise. -/
def defaultSettleSecs : UInt64 := 30

namespace Parsed

def text? (p : Parsed) (name : String) : Option String :=
  p.given.lookup name

def word? (p : Parsed) (name : String) : Option UInt64 :=
  (p.text? name).bind readWord?

def repo (p : Parsed) : Ident :=
  (p.text? repoOption.name).getD ""

/-- Command that was chosen. -/
def command? (p : Parsed) : Option Command :=
  match p.commands with
  | ["config", "init"] => some (.configInit (p.word? "page-limit") (p.word? "timeout-secs"))
  | ["config", "show"] => some .configShow
  | ["audits"] => some (.audits p.repo ((p.word? "offset").getD 0) (p.word? "limit"))
  | ["sync"] => some (.sync p.repo)
  | ["projects"] => some .projects
  | ["watch"] =>
    some <| .watch
      { repo := p.repo
        events := p.text? "events"
        sync := (p.text? "sync").isSome
        settleSecs := (p.word? "settle-secs").getD defaultSettleSecs }
  | _ => none

end Parsed

/-- What the words of a command line ask for. -/
def Invocation.ofWords (words : List String) : Except UsageFault Invocation := do
  let p ← parseWords program true words
  match p.command? with
  | some command => return ⟨p.text? "config", p.text? "base-url", command⟩
  | none => throw .commandMissing

end LiveAudit.Cli
