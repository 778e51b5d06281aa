/-!
# Usage

How the words of a command line are taken apart. A command has options and either further commands
or nothing more; a word is the name of a command, an option, or the value of the option before it.
An option may have its value behind an equals sign, and behind a lone `--` no word is an option.

A value counts only once the next word is understood, so that an unknown word is reported before a
bad value in front of it. Every option of a command can be given once, but those that all commands
share can be given again behind an inner command, which then goes before.
-/

namespace LiveAudit.Cli

/-- Why a command line is not carried out. -/
inductive UsageFault where
  | helpAsked
  | versionAsked
  /-- A command that needs a further one was given neither that nor an option. -/
  | nothingGiven
  | commandMissing
  | unknownCommand
  | unknownWord
  | valueMissing
  | valueUnreadable
  | valueUnneeded
  | optionRepeated
  | optionMissing
deriving DecidableEq, Repr

/-- What an option takes. -/
inductive OptionKind where
  | flag
  | text
  /-- A path, which is not empty. -/
  | path
  /-- A word of 64 bits. -/
  | word
deriving DecidableEq, Repr

structure OptionForm where
  name : String
  kind : OptionKind
  isRequired : Bool
deriving DecidableEq, Repr

/-- A command with its own options and the commands within it. -/
inductive CommandForm where
  | mk (name : String) (options : List OptionForm) (commands : List CommandForm)

namespace CommandForm

def name : CommandForm → String
  | .mk name _ _ => name

def options : CommandForm → List OptionForm
  | .mk _ options _ => options

def commands : CommandForm → List CommandForm
  | .mk _ _ commands => commands

def command? (c : CommandForm) (word : String) : Option CommandForm :=
  c.commands.find? (·.name == word)

/-- Word that asks for help on a command, where there are any. -/
def helpWord : String := "help"

def isHelp (c : CommandForm) (word : String) : Bool :=
  word == helpWord && !c.commands.isEmpty

/-- Answer to a request for help on the command that the words lead to. -/
def helpFault (c : CommandForm) : List String → UsageFault
  | [] => .helpAsked
  | word :: rest =>
    match c.command? word with
    | some inner => inner.helpFault rest
    | none => if c.isHelp word && rest.isEmpty then .helpAsked else .unknownCommand

end CommandForm

/-! ### Values -/

/-- Word of 64 bits that a text stands for; a plus sign may come first. -/
def readWord? (s : String) : Option UInt64 :=
  let digits := match s.toList with
    | '+' :: rest => rest
    | all => all
  if digits.isEmpty || !digits.all Char.isDigit then none
  else
    let n := digits.foldl (fun n d => 10 * n + (d.toNat - '0'.toNat)) 0
    if n < UInt64.size then some (UInt64.ofNat n) else none

/-- Fault of a value of this kind. -/
def OptionKind.fault? (value : String) : OptionKind → Option UsageFault
  | .flag | .text => none
  | .path => if value = "" then some .valueMissing else none
  | .word => if (readWord? value).isSome then none else some .valueUnreadable

/-! ### Words of one command -/

/-- What has been found of a command's options. -/
structure Findings where
  /-- Options with their values. -/
  given : List (String × String)
  /-- Option of the last words, with its value if that has come. -/
  pending : Option (OptionForm × Option String)
deriving DecidableEq, Repr

namespace Findings

def empty : Findings :=
  ⟨[], none⟩

/-- Whether the next word is a value. -/
def awaitsValue (f : Findings) : Bool :=
  match f.pending with
  | some (_, none) => true
  | _ => false

def give (f : Findings) (o : OptionForm) (value : String) : Except UsageFault Findings :=
  if (f.given.lookup o.name).isSome then .error .optionRepeated
  else match o.kind.fault? value with
    | some fault => .error fault
    | none => .ok { f with given := (o.name, value) :: f.given }

/-- Makes the pending option count. -/
def settle (f : Findings) : Except UsageFault Findings :=
  match f.pending with
  | none => .ok f
  | some (_, none) => .error .valueMissing
  | some (o, some value) => { f with pending := none }.give o value

end Findings

/-- A word with two hyphens, as the name of an option and the value behind the first equals sign. -/
def longOption? (word : String) : Option (String × Option String) :=
  match word.toList with
  | '-' :: '-' :: rest =>
    let name := String.ofList (rest.takeWhile (· ≠ '='))
    match rest.dropWhile (· ≠ '=') with
    | [] => some (name, none)
    | _ :: value => some (name, some (String.ofList value))
  | _ => none

/-- Letter behind a single hyphen. -/
def shortOption? (word : String) : Option Char :=
  match word.toList with
  | '-' :: letter :: _ => some letter
  | _ => none

/-- Goes on behind an option written with its name. -/
def takeLong (c : CommandForm) (hasVersion : Bool) (f : Findings) (name : String)
    (value : Option String) : Except UsageFault Findings :=
  let asked : Option UsageFault :=
    if name = "help" then some .helpAsked
    else if name = "version" ∧ hasVersion then some .versionAsked
    else none
  match asked, c.options.find? (·.name == name), value with
  | some _, _, some _ => .error .valueUnneeded
  | some fault, _, none => do
    let _ ← f.settle
    throw fault
  | none, none, _ => .error .unknownWord
  | none, some o, value =>
    match o.kind, value with
    | .flag, some _ => .error .valueUnneeded
    | .flag, none => do (← f.settle).give o ""
    | _, some value => do (← f.settle).give o value
    | _, none => do return { ← f.settle with pending := some (o, none) }

/-- Goes on behind an option written with its letter. -/
def takeShort (hasVersion : Bool) (f : Findings) (letter : Char) : Except UsageFault Findings := do
  if letter = 'h' then
    let _ ← f.settle
    throw .helpAsked
  else if letter = 'V' ∧ hasVersion then
    let _ ← f.settle
    throw .versionAsked
  else throw .unknownWord

/-- Fault of a word that is neither a command nor an option nor a value. -/
def strayFault (c : CommandForm) (isTrailing : Bool) (word : String) : UsageFault :=
  if c.commands.isEmpty || (isTrailing && ((c.command? word).isSome || c.isHelp word)) then
    .unknownWord
  else .unknownCommand

/-- Where the words of a command end. -/
structure Extent (words : List String) where
  findings : Findings
  /-- Inner command, with the words behind its name. -/
  inner : Option (CommandForm × { rest : List String // rest.length < words.length })

def Extent.widen {words : List String} (word : String) (e : Extent words) :
    Extent (word :: words) where
  findings := e.findings
  inner := e.inner.map fun (c, rest) => (c, ⟨rest.1, Nat.lt_succ_of_lt rest.2⟩)

/-- Takes the words of a command up to the name of an inner one. -/
def takeWords (c : CommandForm) (hasVersion isTrailing : Bool) (f : Findings) :
    (words : List String) → Except UsageFault (Extent words)
  | [] => .ok ⟨f, none⟩
  | word :: rest =>
    let goOn (isTrailing : Bool) (f : Findings) : Except UsageFault (Extent (word :: rest)) :=
      (takeWords c hasVersion isTrailing f rest).map (.widen word)
    if isTrailing then .error (strayFault c true word)
    else if !f.awaitsValue && c.isHelp word then .error (c.helpFault rest)
    else match if f.awaitsValue then none else c.command? word with
      | some inner => .ok ⟨f, some (inner, ⟨rest, Nat.lt_succ_self _⟩)⟩
      | none =>
        if word = "--" then goOn true f
        else match longOption? word, shortOption? word, f.pending with
          | some (name, value), _, _ =>
            match takeLong c hasVersion f name value with
            | .ok f => goOn false f
            | .error fault => .error fault
          | none, some letter, _ =>
            match takeShort hasVersion f letter with
            | .ok f => goOn false f
            | .error fault => .error fault
          | none, none, some (o, none) => goOn false { f with pending := some (o, some word) }
          | none, none, _ => .error (strayFault c false word)

/-! ### Whole command lines -/

/-- Names of the commands that were chosen, the outermost first, and all options with their values,
the innermost command's first. -/
structure Parsed where
  commands : List String
  given : List (String × String)
deriving DecidableEq, Repr

/-- Checks what a command was given, once its inner command is done. -/
def checkGiven (c : CommandForm) (hasInner : Bool) (f : Findings) : Except UsageFault Findings := do
  let f ← f.settle
  if !c.commands.isEmpty && !hasInner then
    throw (if f.given.isEmpty then .nothingGiven else .commandMissing)
  if c.options.any fun o => o.isRequired && (f.given.lookup o.name).isNone then
    throw .optionMissing
  return f

/-- Takes a command line apart, of which the words behind a command's name are left. -/
def parseWords (c : CommandForm) (hasVersion : Bool) (words : List String) :
    Except UsageFault Parsed :=
  match takeWords c hasVersion false .empty words with
  | .error fault => .error fault
  | .ok ⟨f, none⟩ => do return ⟨[], (← checkGiven c false f).given⟩
  | .ok ⟨f, some (inner, rest)⟩ => do
    let p ← parseWords inner false rest.1
    let f ← checkGiven c true f
    return ⟨inner.name :: p.commands, p.given ++ f.given⟩
termination_by words.length
decreasing_by exact rest.2

end LiveAudit.Cli
