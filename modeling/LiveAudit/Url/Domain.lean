import LiveAudit.Url.DomainTable
import LiveAudit.Url.Address
import LiveAudit.Url.Punycode

/-!
# Domain names

The form of a domain name that a request carries: percent escapes read back, letters small, and
every label with a character above ASCII written in basic letters behind a mark. A name with a
character that no domain may hold has no such form, nor has a label that bears the mark wrongly.
-/

namespace LiveAudit.Url

open Text

/-- Characters of ASCII that no domain name holds. -/
def isForbidden (c : Char) : Bool :=
  c.toNat ≤ 0x20 || c.toNat == 0x7F ||
    ['#', '%', '/', ':', '<', '>', '?', '@', '[', '\\', ']', '^', '|'].contains c

def isAscii (s : List Char) : Bool :=
  s.all (·.toNat < 0x80)

/-- Text with each character replaced by what it becomes. -/
def mapped? (s : List Char) : Option (List Char) :=
  (s.mapM fun c => match fate c with
    | .refused => none
    | .replaced text => some text).map List.flatten

/-- Mark of a label in basic letters. -/
def basicMark : List Char := ['x', 'n', '-', '-']

/-- A label, its characters replaced before, in basic letters. -/
def basicLabel? (label : List Char) : Option (List Char) :=
  if basicMark.isPrefixOf label then
    let basic := label.drop basicMark.length
    (Punycode.decode? basic).bind fun full =>
      if isAscii label && !isAscii full && mapped? full == some full
          && Punycode.encode full == basic then
        some label
      else none
  else if isAscii label then some label
  else some (basicMark ++ Punycode.encode label)

/-- Domain name in basic letters. -/
def basicDomain? (host : List Char) : Option (List Char) := do
  let name ← mapped? (← decode? (unescape (encode host)))
  let labels ← (splitAt '.' name).mapM basicLabel?
  let basic := ['.'].intercalate labels
  if basic.any isForbidden then none else some basic

end LiveAudit.Url
