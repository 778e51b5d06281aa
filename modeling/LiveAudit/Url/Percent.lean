import LiveAudit.Text.Quoted
import LiveAudit.Text.Utf8

/-!
# Percent escapes

A character that a part of an address cannot hold is written by the bytes of its code, each as a
percent sign and two digits. Which characters those are depends on the part; a control and a
character above ASCII is one in every part.

Reading back goes byte by byte. A percent sign without two digits behind it stands for itself.
-/

namespace LiveAudit.Url

open Text

/-! ### Classes of characters -/

def isControl (c : Char) : Bool :=
  c.toNat < 0x20 ∨ 0x7F ≤ c.toNat

def escapedInFragment (c : Char) : Bool :=
  isControl c || [' ', '"', '<', '>', '`'].contains c

def escapedInPath (c : Char) : Bool :=
  escapedInFragment c || ['#', '?', '\x7b', '\x7d'].contains c

/-- Characters escaped in a segment put into a path: besides those of the path itself, the ones that
would end the segment or read as an escape. -/
def escapedInSegment (special : Bool) (c : Char) : Bool :=
  escapedInPath c || c == '/' || c == '%' || (special && c == '\\')

def escapedInQuery (special : Bool) (c : Char) : Bool :=
  isControl c || [' ', '"', '#', '<', '>'].contains c || (special && c == '\'')

/-! ### Writing -/

/-- Hexadecimal digit of a number below sixteen, in upper case. -/
def upperDigit (n : Nat) : Char :=
  if n < 10 then Char.ofNat ('0'.toNat + n) else Char.ofNat ('A'.toNat + (n - 10))

def escapeByte (b : UInt8) : List Char :=
  ['%', upperDigit (b.toNat / 16), upperDigit (b.toNat % 16)]

def escapeChar (c : Char) : List Char :=
  (encodeChar c).flatMap escapeByte

/-- Escapes the characters of a class and keeps the others. -/
def escape (escaped : Char → Bool) (s : List Char) : List Char :=
  s.flatMap fun c => if escaped c then escapeChar c else [c]

/-! ### Reading -/

/-- Value of a hexadecimal digit in either case. -/
def digitValue? (b : UInt8) : Option Nat :=
  let n := b.toNat
  if 0x30 ≤ n ∧ n ≤ 0x39 then some (n - 0x30)
  else if 0x41 ≤ n ∧ n ≤ 0x46 then some (n - 0x41 + 10)
  else if 0x61 ≤ n ∧ n ≤ 0x66 then some (n - 0x61 + 10)
  else none

/-- Bytes with each escape replaced by the byte it stands for. -/
def unescape : List UInt8 → List UInt8
  | [] => []
  | [b] => [b]
  | [b, c] => [b, c]
  | b :: c :: d :: rest =>
    match b == '%'.toNat.toUInt8, digitValue? c, digitValue? d with
    | true, some high, some low => (16 * high + low).toUInt8 :: unescape rest
    | _, _, _ => b :: unescape (c :: d :: rest)

end LiveAudit.Url
