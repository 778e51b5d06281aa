/-!
# Blank characters

The characters with the Unicode property White_Space, and the trimming of texts by it. A zero width
space has not got the property, a form feed and a line separator have.
-/

namespace LiveAudit.Text

def isBlank (c : Char) : Bool :=
  let n := c.toNat
  (9 ≤ n ∧ n ≤ 13) ∨ n = 0x20 ∨ n = 0x85 ∨ n = 0xA0 ∨ n = 0x1680 ∨ (0x2000 ≤ n ∧ n ≤ 0x200A)
    ∨ n = 0x2028 ∨ n = 0x2029 ∨ n = 0x202F ∨ n = 0x205F ∨ n = 0x3000

/-- Drops the longest end of characters in the class. -/
def dropEnd (p : Char → Bool) (s : List Char) : List Char :=
  (s.reverse.dropWhile p).reverse

def trimStart (s : List Char) : List Char :=
  s.dropWhile isBlank

def trimEnd (s : List Char) : List Char :=
  dropEnd isBlank s

def trim (s : List Char) : List Char :=
  trimEnd (trimStart s)

/-- Pads on the right with spaces to a width counted in code points. -/
def padTo (width : Nat) (s : List Char) : List Char :=
  s ++ List.replicate (width - s.length) ' '

/-- First line of a text, without its line end: a line feed, with a carriage return before it. A
carriage return that no line feed follows is a part of its line. -/
def firstLine (s : List Char) : List Char :=
  let line := s.takeWhile (· ≠ '\n')
  if line.length < s.length ∧ line.getLast? = some '\r' then line.dropLast else line

end LiveAudit.Text
