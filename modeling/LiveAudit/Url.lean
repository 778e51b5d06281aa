import LiveAudit.Text.Blank
import LiveAudit.Url.Domain
import LiveAudit.Url.Path

/-!
# Addresses

The address of a server, as read from a text and as carried by requests. Reading follows the rules
that browsers keep: blanks and controls at the ends and line ends anywhere are passed over, an
address of one of the special schemes always has a host and may be written with any number of
slashes of either kind, the port of the scheme is left out, and dots in the path are resolved.

A name and password are read over; no request carries them in its address.
-/

namespace LiveAudit

open Url (splitAt isPassedOver escape)

namespace Url

/-- Why a text is no address. -/
inductive Fault where
  /-- There is no scheme. -/
  | relative
  | emptyHost
  | unusableDomain
  | unusablePort
  | unusableFourParts
  | unusableEightPieces
  /-- A host of a scheme with hosts of any form holds a character that none may hold. -/
  | unusableCharacter
deriving DecidableEq, Repr

def Fault.message : Fault → String
  | .relative => "relative URL without a base"
  | .emptyHost => "empty host"
  | .unusableDomain => "invalid international domain name"
  | .unusablePort => "invalid port number"
  | .unusableFourParts => "invalid IPv4 address"
  | .unusableEightPieces => "invalid IPv6 address"
  | .unusableCharacter => "invalid domain character"

inductive Host where
  | none
  | name (text : List Char)
  | fourParts (number : Nat)
  | eightPieces (pieces : List Nat)
deriving DecidableEq, Repr

def Host.text : Host → List Char
  | .none => []
  | .name text => text
  | .fourParts n => fourPartsText n
  | .eightPieces pieces => '[' :: eightPiecesText pieces ++ [']']

/-- Host with its port, where it is not the scheme's own. -/
structure Authority where
  host : Host
  port : Option Nat
deriving DecidableEq, Repr

end Url

structure Url where
  scheme : String
  authority : Option Url.Authority
  path : List Char
  query : Option (List Char)
  fragment : Option (List Char)
deriving DecidableEq, Repr

namespace Url

/-! ### Schemes -/

/-- The special schemes, with their ports. -/
def specialSchemes : List (String × Option Nat) :=
  [("http", some 80), ("https", some 443), ("ws", some 80), ("wss", some 443), ("ftp", some 21),
    ("file", none)]

def isSpecial (scheme : String) : Bool :=
  (specialSchemes.lookup scheme).isSome

def defaultPort (scheme : String) : Option Nat :=
  (specialSchemes.lookup scheme).join

/-! ### Written form -/

def authorityText (u : Url) : List Char :=
  match u.authority with
  | none => []
  | some a =>
    '/' :: '/' :: a.host.text ++ match a.port with
      | some port => ':' :: Text.decimal port
      | none => []

def queryText (u : Url) : List Char :=
  match u.query with
  | some query => '?' :: query
  | none => []

/-- Path and query, as a request asks for them. -/
def target (u : Url) : List Char :=
  u.path ++ u.queryText

/-- The whole address. A path that begins with two slashes is kept apart from the place of a
host. -/
def text (u : Url) : String :=
  let apart := if u.authority.isNone ∧ u.path.take 2 = ['/', '/'] then ['/', '.'] else []
  String.ofList <| u.scheme.toList ++ ':' :: u.authorityText ++ apart ++ u.target ++
    match u.fragment with
    | some fragment => '#' :: fragment
    | none => []

/-- Whether the address has no path to which segments could be appended. -/
def isOpaque (u : Url) : Bool :=
  u.authority.isNone && u.path.head? != some '/'

/-! ### Reading hosts -/

/-- Part of a host in brackets. -/
def bracketed? : List Char → Option (List Char)
  | '[' :: rest => some rest
  | _ => none

/-- Host in brackets, the opening one having been read. -/
def readPieces (rest : List Char) : Except Fault Host :=
  if rest.getLast? = some ']' then
    match eightPieces? rest.dropLast with
    | some pieces => .ok (.eightPieces pieces)
    | none => .error .unusableEightPieces
  else .error .unusableEightPieces

/-- Host of a special scheme. -/
def readHost (s : List Char) : Except Fault Host :=
  match bracketed? s with
  | some rest => readPieces rest
  | none =>
    match basicDomain? s with
    | none => .error .unusableDomain
    | some [] => .error .emptyHost
    | some domain =>
      if endsInNumber domain then
        match fourParts? domain with
        | some n => .ok (.fourParts n)
        | none => .error .unusableFourParts
      else .ok (.name domain)

/-- Characters that no host of any scheme holds. -/
def isHostStop (c : Char) : Bool :=
  ['\x00', '\t', '\n', '\r', ' ', '#', '/', ':', '<', '>', '?', '@', '[', '\\', ']', '^',
    '|'].contains c

/-- Host of a scheme that is not special. -/
def readFreeHost (s : List Char) : Except Fault Host :=
  match bracketed? s with
  | some rest => readPieces rest
  | none =>
    if s.any isHostStop then .error .unusableCharacter
    else if s.isEmpty then .ok .none
    else .ok (.name (escape isControl s))

/-- Part of a text up to a colon outside of brackets, or to the end of the host; with the rest. -/
def hostPart (special : Bool) : (inBrackets : Bool) → List Char → List Char × List Char
  | _, [] => ([], [])
  | inBrackets, c :: rest =>
    if (c = ':' ∧ !inBrackets) ∨ c = '/' ∨ c = '?' ∨ c = '#' ∨ (special ∧ c = '\\') then
      ([], c :: rest)
    else
      let inBrackets := c = '[' || (inBrackets && c != ']')
      let (host, after) := hostPart special inBrackets rest
      (c :: host, after)

/-- Largest port. -/
def maxPort : Nat := 65535

/-- Port behind its colon, `none` if it is left out; with the rest. -/
def readPort (scheme : String) (s : List Char) : Except Fault (Option Nat × List Char) :=
  let digits := s.takeWhile Char.isDigit
  let rest := s.dropWhile Char.isDigit
  let ends := match rest with
    | [] => true
    | c :: _ => ['/', '\\', '?', '#'].contains c
  match numberIn? 10 digits with
  | none => .error .unusablePort
  | some port =>
    if maxPort < port ∨ !ends then .error .unusablePort
    else if digits.isEmpty ∨ defaultPort scheme = some port then .ok (none, rest)
    else .ok (some port, rest)

/-- The rest of an authority behind name and password, and whether there is either. -/
def afterUser (special : Bool) (s : List Char) : Except Fault (Bool × List Char) :=
  let inside := s.takeWhile fun c =>
    !(c == '/' || c == '?' || c == '#' || (special && c == '\\'))
  if inside.contains '@' then
    let host := (inside.reverse.takeWhile (· ≠ '@')).reverse
    let user := inside.take (inside.length - host.length - 1)
    let rest := s.drop (inside.length - host.length)
    if user.isEmpty ∧ host.isEmpty ∧ inside.length < s.length then .error .emptyHost
    else .ok (!user.isEmpty && user != [':'], rest)
  else .ok (false, s)

/-- Host and port behind two slashes, with the rest. -/
def readAuthority (scheme : String) (s : List Char) : Except Fault (Authority × List Char) := do
  let special := isSpecial scheme
  let (hasUser, s) ← afterUser special s
  let (part, rest) := hostPart special false s
  if special ∧ part.isEmpty then throw .emptyHost
  let host ← if special then readHost part else readFreeHost part
  if host = .none ∧ (rest.head? = some ':' ∨ hasUser) then throw .emptyHost
  let (port, rest) ← match rest with
    | ':' :: rest => readPort scheme rest
    | rest => pure (none, rest)
  return (⟨host, port⟩, rest)

/-! ### Reading addresses -/

/-- Query and fragment at the end of an address. -/
def readEnd (special : Bool) (s : List Char) : Option (List Char) × Option (List Char) :=
  let fragment (rest : List Char) : Option (List Char) := match rest with
    | '#' :: rest => some (escape escapedInFragment rest)
    | _ => none
  match s with
  | '?' :: rest =>
    (some (escape (escapedInQuery special) (rest.takeWhile (· ≠ '#'))),
      fragment (rest.dropWhile (· ≠ '#')))
  | rest => (none, fragment rest)

/-- Address with this path and what follows it. -/
def build (scheme : String) (authority : Option Authority) (path : List Char × List Char) : Url :=
  let (query, fragment) := readEnd (isSpecial scheme) path.2
  { scheme, authority, path := path.1, query, fragment }

/-- Path behind a host; that of a special scheme is never empty. -/
def readPath (special : Bool) : List Char → List Char × List Char
  | [] => (if special then ['/'] else [], [])
  | c :: rest =>
    if c = '/' ∨ (special ∧ c = '\\') then Path.read special ['/'] [] rest
    else if !special ∧ (c = '?' ∨ c = '#') then ([], c :: rest)
    else Path.read special ['/'] [] (c :: rest)

/-- Path of a file, which begins with a single slash. -/
def readFilePath (s : List Char) : List Char × List Char :=
  let (path, rest) := readPath true s
  ('/' :: path.dropWhile (· = '/'), rest)

/-- Whether a character is a slash of either kind. -/
def isSlash (c : Char) : Bool :=
  c == '/' || c == '\\'

/-- Address of a file, behind the scheme. A host may stand behind two slashes, but not the name of a
drive. -/
def readFile (s : List Char) : Except Fault Url := do
  match s with
  | a :: b :: rest =>
    if isSlash a && isSlash b then
      let host := rest.takeWhile fun c => !(isSlash c || c == '?' || c == '#')
      if isDrive host then return build "file" (some ⟨.none, none⟩) (readFilePath rest)
      else
        let named ← if host.isEmpty then pure Host.none else readHost host
        let kept := if named = .name "localhost".toList then .none else named
        return build "file" (some ⟨kept, none⟩) (readFilePath (rest.drop host.length))
    else return build "file" (some ⟨.none, none⟩) (readFilePath s)
  | s => return build "file" (some ⟨.none, none⟩) (readFilePath s)

/-- Address of a scheme that is not special, behind the scheme. -/
def readFree (scheme : String) : List Char → Except Fault Url
  | '/' :: '/' :: rest => do
    let (authority, rest) ← readAuthority scheme rest
    return build scheme (some authority) (readPath false rest)
  | '/' :: rest => .ok (build scheme none (readPath false ('/' :: rest)))
  | rest =>
    let path := rest.takeWhile fun c => c != '?' && c != '#'
    .ok (build scheme none (escape isControl path, rest.drop path.length))

/-- Scheme of an address in small letters, with what follows the colon. -/
def scheme? (s : List Char) : Option (String × List Char) :=
  let name := s.takeWhile (· ≠ ':')
  let rest := s.drop name.length
  if (name.head?.any Char.isAlpha) && !rest.isEmpty
      && name.all (fun c => c.isAlphanum || c == '+' || c == '-' || c == '.') then
    some (String.ofList (name.map Char.toLower), rest.drop 1)
  else none

/-- Characters that do not count at the ends of an address. -/
def isPadding (c : Char) : Bool :=
  c.toNat ≤ 0x20

/-- Reads an address. -/
def read (text : String) : Except Fault Url :=
  let s := (Text.dropEnd isPadding (text.toList.dropWhile isPadding)).filter (!isPassedOver ·)
  match scheme? s with
  | none => .error .relative
  | some (scheme, rest) =>
    if scheme = "file" then readFile rest
    else if isSpecial scheme then do
      let (authority, rest) ← readAuthority scheme (rest.dropWhile isSlash)
      return build scheme (some authority) (readPath true rest)
    else readFree scheme rest

/-! ### Endpoints -/

/-- Address with segments behind its path. -/
def extend (u : Url) (segments : List String) : Url :=
  let path := Path.extend (isSpecial u.scheme) u.path segments
  { u with path := if u.scheme = "file" then '/' :: path.dropWhile (· = '/') else path }

/-- Address with a parameter behind its query. -/
def withParameter (u : Url) (name : String) (n : UInt64) : Url :=
  let parameter := name.toList ++ '=' :: Text.decimal n.toNat
  let query := match u.query with
    | none | some [] => parameter
    | some query => query ++ '&' :: parameter
  { u with query := some query }

/-- Hosts that a request cannot name although an address can. -/
def isUnnameable (host : Host) : Bool :=
  host.text.any fun c => ['"', '\x7b', '\x7d', '\x60'].contains c

/-- Bytes in the longest address of a request. -/
def maxRequest : Nat := 65534

/-- Whether requests can be made to the address. -/
def isRequestable (u : Url) : Bool :=
  (u.scheme == "http" || u.scheme == "https")
    && !(u.authority.any fun a => isUnnameable a.host)
    && u.text.utf8ByteSize ≤ maxRequest

end Url

end LiveAudit
