import LiveAudit.Url.Percent

/-!
# Paths of addresses

A path is kept as it is written, with its slashes. It grows a segment at a time, and a segment that
is one or two dots, escaped or not, is no name but a step: the one stays and the other goes up.

A segment can also be appended to a finished path. Its text is escaped so far that it stays a single
segment; a text of one or two dots is left out.
-/

namespace LiveAudit.Url

/-- Characters that are passed over wherever they stand in an address. -/
def isPassedOver (c : Char) : Bool :=
  c == '\t' || c == '\n' || c == '\r'

def asciiLower (c : Char) : Char :=
  c.toLower

/-- Segments that stay where they are. -/
def isSingleDot (segment : List Char) : Bool :=
  ([".", "%2e"].map String.toList).contains (segment.map asciiLower)

/-- Segments that go up. -/
def isDoubleDot (segment : List Char) : Bool :=
  (["..", "%2e%2e", "%2e.", ".%2e"].map String.toList).contains (segment.map asciiLower)

/-- A letter and a colon or bar, the name of a drive. A path does not go up out of one. -/
def isDrive : List Char → Bool
  | [letter, mark] => letter.isAlpha && (mark == ':' || mark == '|')
  | _ => false

namespace Path

def endsInSlash (path : List Char) : Bool :=
  path.getLast? == some '/'

/-- Path up to its last slash. -/
def toLastSlash (path : List Char) : List Char :=
  (path.reverse.dropWhile (· ≠ '/')).reverse

/-- Last name of a path that ends in a slash. -/
def lastName (path : List Char) : List Char :=
  (path.dropLast.reverse.takeWhile (· ≠ '/')).reverse

/-- Path without its last name. The root has none, and a drive stays. -/
def up (path : List Char) : List Char :=
  if endsInSlash path && path.dropLast.contains '/' && !isDrive (lastName path) then
    toLastSlash path.dropLast
  else toLastSlash path

/-- Path with a segment behind it, and a slash behind that if one follows. -/
def close (path segment : List Char) (slash : Bool) : List Char :=
  if isDoubleDot segment then up path
  else if isSingleDot segment then if endsInSlash path then path else path ++ ['/']
  else path ++ segment ++ if slash then ['/'] else []

/-- Reads on in a path after the segments in `path` and the part `segment` of the next one, up to
the query or fragment, which is returned with its mark. -/
def read (special : Bool) (path segment : List Char) : List Char → List Char × List Char
  | [] => (close path segment false, [])
  | c :: rest =>
    if c = '/' ∨ (special ∧ c = '\\') then read special (close path segment true) [] rest
    else if c = '?' ∨ c = '#' then (close path segment false, c :: rest)
    else read special path (segment ++ escape escapedInPath [c]) rest

/-- Path without an empty segment at its end. -/
def withoutEmptyEnd (path : List Char) : List Char :=
  if 1 < path.length ∧ endsInSlash path then path.dropLast else path

/-- Path with one more segment. -/
def push (special : Bool) (path : List Char) (segment : String) : List Char :=
  if segment = "." ∨ segment = ".." then path
  else
    let path := if path.length = 1 then path else path ++ ['/']
    close path
      (escape (escapedInSegment special) (segment.toList.filter fun c => !isPassedOver c)) false

/-- Path with segments behind its last name. -/
def extend (special : Bool) (path : List Char) (segments : List String) : List Char :=
  segments.foldl (push special) (withoutEmptyEnd path)

end Path

end LiveAudit.Url
