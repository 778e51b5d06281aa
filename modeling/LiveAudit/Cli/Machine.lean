import LiveAudit.Cli.Host
import LiveAudit.Http.Wire
import Std.Async.DNS
import Std.Async.TCP
import Std.Time

/-!
# Machines

The host that a user's commands run on: the disk, the console, the clock and the network of a
machine. Calls are made over plain connections; a server that wants an encrypted one cannot be
reached.
-/

namespace LiveAudit.Cli

open Http (Answer Call)

/-- What a run holds of the machine. -/
structure Machine where
  /-- Where lines are read from. -/
  source : IO.Ref (Option IO.FS.Stream)
  /-- Bytes read from there and not yet taken. -/
  held : IO.Ref (List UInt8)
  /-- Calls sent and not yet answered. -/
  calls : IO.Ref (List (Request × Task (Except IO.Error Answer)))

abbrev MachineM : Type → Type :=
  ReaderT Machine IO

namespace Machine

def start : IO Machine := do
  return ⟨← IO.mkRef none, ← IO.mkRef [], ← IO.mkRef []⟩

/-! ### Disk -/

def fault : IO.Error → FileFault
  | .noFileOrDirectory .. => .missing
  | .alreadyExists .. => .alreadyThere
  | .inappropriateType _ 20 _ => .notFolder
  | .inappropriateType _ 21 _ => .isFolder
  | .invalidArgument _ 36 _ | .resourceExhausted _ 36 _ => .nameTooLong
  | e => .medium (toString e)

/-- An operation on the disk, or its fault. -/
def attempt {α : Type} (x : IO α) : MachineM (Except FileFault α) := do
  match ← (x.toBaseIO : BaseIO _) with
  | .ok a => return .ok a
  | .error e => return .error (fault e)

def size? (path : String) : IO (Option Nat) := do
  try
    let place ← IO.FS.realPath path
    return some (← place.metadata).byteSize.toNat
  catch _ => return none

instance : Disk MachineM where
  isThere path := return (← size? path).isSome
  size? path := size? path
  read path := attempt do return (← IO.FS.readBinFile path).toList
  write path bytes := attempt (IO.FS.writeBinFile path ⟨bytes.toArray⟩)
  append path bytes := attempt do
    (← IO.FS.Handle.mk path .append).write ⟨bytes.toArray⟩
  makeFolders path := attempt (IO.FS.createDirAll path)

/-! ### Network -/

/-- Numeric addresses of a host. -/
def addresses (call : Call) : IO (List Std.Net.IPAddr) := do
  let host : Option Url.Host := call.url.authority.map (·.host)
  match host with
  | some (.fourParts n) =>
    let part (i : Nat) : UInt8 := (n / Nat.pow 256 i % 256).toUInt8
    return [.v4 ⟨#v[part 3, part 2, part 1, part 0]⟩]
  | some (.name text) =>
    return (← (Std.Async.DNS.getAddrInfo (String.ofList text) "").block).toList
  | _ => return []

/-- All bytes that come until the connection ends. -/
partial def receiveAll (c : Std.Async.TCP.Socket.Client) (held : ByteArray) : IO ByteArray := do
  match ← (c.recv? 65536).block with
  | some bytes => receiveAll c (held ++ bytes)
  | none => return held

/-- Makes a call to an address. -/
def exchangeWith (call : Call) (address : Std.Net.IPAddr) : IO Answer := do
  let port := call.port.toUInt16
  let c ← Std.Async.TCP.Socket.Client.mk
  (c.connect (match address with
    | .v4 a => .v4 ⟨a, port⟩
    | .v6 a => .v6 ⟨a, port⟩)).block
  (c.send ⟨call.bytes.toArray⟩).block
  let bytes ← receiveAll c .empty
  return Http.readAnswer 16 bytes.toList

/-- Makes a call to the first address that takes it. -/
def exchange (call : Call) : IO Answer := do
  if call.url.scheme != "http" then return .lost
  for address in ← addresses call do
    try return ← exchangeWith call address
    catch _ => pure ()
  return .lost

/-- Waits for one of several tasks until a time in milliseconds. -/
partial def waitFor (tasks : List (Request × Task (Except IO.Error Answer))) (deadline : Nat) :
    IO (Option (Nat × Request × Answer)) := do
  for ((r, task), i) in tasks.zipIdx do
    if ← IO.hasFinished task then
      return some (i, r, (← IO.wait task).toOption.getD .lost)
  if tasks.isEmpty || deadline ≤ (← IO.monoMsNow) then return none
  IO.sleep 5
  waitFor tasks deadline

/-- An exchange that is given up after so many seconds. -/
def exchangeWithin (seconds : UInt64) (call : Call) : IO Answer := do
  let task ← IO.asTask (exchange call)
  let deadline := (← IO.monoMsNow) + 1000 * seconds.toNat
  return ((← waitFor [(.projects, task)] deadline).map (·.2.2)).getD .lost

/-! ### Lines -/

/-- Reads on until a line is complete. -/
partial def readLine (s : IO.FS.Stream) (held : List UInt8) : IO (List UInt8) := do
  if held.contains 10 then return held
  let bytes ← s.read 4096
  if bytes.isEmpty then return held else readLine s (held ++ bytes.toList)

def nextLine : MachineM (Option (List UInt8)) := do
  let m ← read
  match ← m.source.get with
  | none => return none
  | some s =>
    let held ← readLine s (← m.held.get)
    m.held.set ((held.dropWhile (· ≠ 10)).drop 1)
    return if held.isEmpty then none else some (held.takeWhile (· ≠ 10))

/-! ### Marks -/

/-- Mark with these sixteen random bytes, in the usual groups of digits. -/
def mark (bytes : List UInt8) : String :=
  let bytes := bytes.mapIdx fun i b =>
    if i = 6 then b &&& 0x0F ||| 0x40 else if i = 8 then b &&& 0x3F ||| 0x80 else b
  let text (part : List UInt8) : List Char :=
    part.flatMap fun b => [Text.hexDigit (b.toNat / 16), Text.hexDigit (b.toNat % 16)]
  String.ofList <| text (bytes.take 4) ++ '-' :: text ((bytes.drop 4).take 2) ++ '-' ::
    text ((bytes.drop 6).take 2) ++ '-' :: text ((bytes.drop 8).take 2) ++ '-' ::
    text (bytes.drop 10)

end Machine

open Machine

instance : Host MachineM where
  print line := IO.println line
  now := return .ofNanoseconds (← Std.Time.Timestamp.now).toNanosecondsSinceUnixEpoch.val.toNat
  elapsed := IO.monoMsNow
  newMark := return mark (← IO.getRandomBytes 16).toList
  ask seconds call := exchangeWithin seconds call
  send seconds r call := do
    let task ← IO.asTask (exchangeWithin seconds call)
    (← read).calls.modify (· ++ [(r, task)])
  receive deadline := do
    let calls := (← read).calls
    match ← waitFor (← calls.get) deadline with
    | none => return none
    | some (i, answer) =>
      calls.modify (·.eraseIdx i)
      return some answer
  openLines path := do
    let m ← read
    attempt do
      m.held.set []
      m.source.set (some (.ofHandle (← IO.FS.Handle.mk path .read)))
  openInput := do
    let m ← read
    m.held.set []
    m.source.set (some (← IO.getStdin))
  nextLine := do
    let m ← read
    attempt (nextLine.run m)

end LiveAudit.Cli
