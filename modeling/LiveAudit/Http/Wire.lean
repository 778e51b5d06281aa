import LiveAudit.Http.Exchange

/-!
# Messages on a connection

The bytes of a call and the meaning of the bytes that come back. A connection carries one call; it
is closed behind the answer. The body ends where its length or its chunks say, or where the
connection ends if they say nothing; answers that only announce another one are passed over.
-/

namespace LiveAudit.Http

open Text

/-- Host of a call, with its port if that is not the scheme's own. -/
def Call.host (c : Call) : List Char :=
  c.url.authorityText.drop 2

/-- Port that a call goes to. -/
def Call.port (c : Call) : Nat :=
  match c.url.authority.bind (·.port), Url.defaultPort c.url.scheme with
  | some port, _ => port
  | none, some port => port
  | none, none => 0

/-- Bytes of a call. -/
def Call.bytes (c : Call) : List UInt8 :=
  let length := match c.method with
    | .get => []
    | .post => ["content-length: 0"]
  let head := [c.line ++ " HTTP/1.1", "host: " ++ String.ofList c.host, "user-agent: " ++ Call.agent,
    "accept: */*", "connection: close"] ++ length
  utf8 ("\r\n".intercalate head ++ "\r\n\r\n")

/-- Cuts at the first empty line. -/
def cutHead : List UInt8 → Option (List UInt8 × List UInt8)
  | [] => none
  | b :: rest =>
    match b, rest with
    | 13, 10 :: 13 :: 10 :: body => some ([], body)
    | b, rest => (cutHead rest).map fun (head, body) => (b :: head, body)

/-- Status in the first line of a head. -/
def status? (line : String) : Option Nat :=
  match line.splitOn " " with
  | version :: status :: _ => if version.startsWith "HTTP/1." then status.toNat? else none
  | _ => none

/-- Value of a field in a head. -/
def field? (lines : List String) (name : String) : Option String :=
  lines.findSome? fun line =>
    let key := line.toList.takeWhile (· ≠ ':')
    if key.map Char.toLower = name.toList then
      some (String.ofList ((trim ((line.toList.drop key.length).drop 1)).map Char.toLower))
    else none

/-- Number in hexadecimal digits at the start of a chunk. -/
def chunkSize? (digits : List UInt8) : Option Nat :=
  if digits.isEmpty then none else Url.numberIn? 16 (decodeLossy digits)

/-- Bytes of as many chunks as the fuel allows, and whether the last one has come. -/
def chunks : (fuel : Nat) → List UInt8 → List UInt8 × Bool
  | 0, _ => ([], false)
  | fuel + 1, s =>
    let line := s.takeWhile (· ≠ 13)
    let rest := s.drop (line.length + 2)
    match chunkSize? (line.takeWhile fun b => (Url.digitValue? b).isSome) with
    | none => ([], false)
    | some 0 => ([], true)
    | some size =>
      if rest.length < size then (rest, false)
      else
        let (more, isComplete) := chunks fuel (rest.drop (size + 2))
        (rest.take size ++ more, isComplete)

/-- Body behind a head, and whether it is complete. -/
def body (status : Nat) (lines : List String) (s : List UInt8) : List UInt8 × Bool :=
  if status = 204 ∨ status = 304 then ([], true)
  else if field? lines "transfer-encoding" = some "chunked" then chunks s.length s
  else match (field? lines "content-length").bind String.toNat? with
    | some length => (s.take length, length ≤ s.length)
    | none => (s, true)

/-- Answer in the bytes of a connection, passing over at most `fuel` announcements. -/
def readAnswer : (fuel : Nat) → List UInt8 → Answer
  | 0, _ => .lost
  | fuel + 1, s =>
    match cutHead s with
    | none => .lost
    | some (head, rest) =>
      let lines := (String.ofList (decodeLossy head)).splitOn "\r\n"
      match status? (lines.headD "") with
      | none => .lost
      | some status =>
        if status < 200 ∧ status ≠ 101 then readAnswer fuel rest
        else
          let (bytes, isComplete) := body status lines rest
          .reply status bytes isComplete

end LiveAudit.Http
