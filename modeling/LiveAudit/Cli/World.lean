import LiveAudit.Cli.Host

/-!
# Worlds

A host that is all in memory: a tree of files, a console, and a server that answers each call at
once, later or never. Commands run in it without any effect outside.
-/

namespace LiveAudit.Cli

structure World where
  files : Files
  /-- Lines printed, the latest first. -/
  printed : List String
  /-- Standard input. -/
  input : List UInt8
  /-- What is left of the source of lines, or why it cannot be read. -/
  lines : Except FileFault (List UInt8)
  moment : Moment
  /-- Marks given. -/
  marks : Nat
  /-- Answer of the server to a call, if it gives one. -/
  server : Http.Call → Option Http.Answer
  /-- Calls made, the latest first. -/
  calls : List Http.Call
  /-- Calls sent and not yet answered, the next one first. -/
  unanswered : List (Request × Http.Call)

namespace World

/-- World at a moment with these files, this input and this server. -/
def start (files : Files) (input : List UInt8) (moment : Moment)
    (server : Http.Call → Option Http.Answer) : World :=
  { files, input, moment, server
    printed := [], lines := .ok [], marks := 0, calls := [], unanswered := [] }

def onFiles {α : Type} (x : StateM Files α) : StateM World α := fun w =>
  let (a, files) := x w.files
  (a, { w with files := files })

/-- Digits in a mark. -/
def markWidth : Nat := 36

/-- Mark with a number, in as many digits as marks have. -/
def mark (n : Nat) : String :=
  let digits := toString n
  "".pushn '0' (markWidth - digits.length) ++ digits

/-- Takes calls from the front until one is answered. -/
def takeAnswer (server : Http.Call → Option Http.Answer) :
    List (Request × Http.Call) → Option ((Request × Http.Answer) × List (Request × Http.Call))
  | [] => none
  | (r, call) :: rest =>
    match server call with
    | some answer => some ((r, answer), rest)
    | none => (takeAnswer server rest).map fun (a, rest) => (a, (r, call) :: rest)

/-- Cuts off the next line. -/
def takeLine (bytes : List UInt8) : Option (List UInt8 × List UInt8) :=
  if bytes.isEmpty then none
  else some (bytes.takeWhile (· ≠ 10), (bytes.dropWhile (· ≠ 10)).drop 1)

end World

open World

instance : Disk (StateM World) where
  isThere path := onFiles (Disk.isThere path)
  size? path := onFiles (Disk.size? path)
  read path := onFiles (Disk.read path)
  write path bytes := onFiles (Disk.write path bytes)
  append path bytes := onFiles (Disk.append path bytes)
  makeFolders path := onFiles (Disk.makeFolders path)

instance : Host (StateM World) where
  print line := modify fun w => { w with printed := line :: w.printed }
  now := return (← get).moment
  elapsed := return 0
  newMark := modifyGet fun w => (mark w.marks, { w with marks := w.marks + 1 })
  ask _ call := modifyGet fun w =>
    ((w.server call).getD .lost, { w with calls := call :: w.calls })
  send _ r call := modify fun w =>
    { w with calls := call :: w.calls, unanswered := w.unanswered ++ [(r, call)] }
  receive deadline := modifyGet fun w =>
    if deadline = 0 then (none, w)
    else match takeAnswer w.server w.unanswered with
      | some (answer, rest) => (some answer, { w with unanswered := rest })
      | none => (none, w)
  openLines path := modifyGet fun w =>
    match w.files.look path with
    | .ok _ => (.ok (), { w with lines := w.files.read path })
    | .error fault => (.error fault, w)
  openInput := modify fun w => { w with lines := .ok w.input, input := [] }
  nextLine := modifyGet fun w =>
    match w.lines with
    | .error fault => (.error fault, w)
    | .ok bytes =>
      match takeLine bytes with
      | some (line, rest) => (.ok (some line), { w with lines := .ok rest })
      | none => (.ok none, w)

end LiveAudit.Cli
