import LiveAudit.Json.Value

/-!
# Written values

The text of a value, in the compact form without any blank and in the indented form. Members are
written in their order. A string is written as it is, but for the quote, the backslash and the
control characters, which are escaped.
-/

namespace LiveAudit.Json

open Text

/-- Escaped form of a character in a string. -/
def writeChar (c : Char) : List Char :=
  if c = '"' ∨ c = '\\' then ['\\', c]
  else if c = '\n' then ['\\', 'n']
  else if c = '\r' then ['\\', 'r']
  else if c = '\t' then ['\\', 't']
  else if c.toNat = 8 then ['\\', 'b']
  else if c.toNat = 12 then ['\\', 'f']
  else if c.toNat < 0x20 then
    ['\\', 'u', '0', '0', hexDigit (c.toNat / 16), hexDigit (c.toNat % 16)]
  else [c]

def writeString (s : String) : List Char :=
  '"' :: s.toList.flatMap writeChar ++ ['"']

def writeBool (b : Bool) : List Char :=
  if b then ['t', 'r', 'u', 'e'] else ['f', 'a', 'l', 's', 'e']

namespace Value

mutual

/-- Text without blanks. -/
def write : Value → List Char
  | .null => ['n', 'u', 'l', 'l']
  | .bool b => writeBool b
  | .integer n => signedDecimal n.value
  | .float x => floatText x
  | .string s => writeString s
  | .array items => '[' :: writeItems items ++ [']']
  | .object members => '\x7b' :: writeMembers members ++ ['\x7d']

def writeItems : List Value → List Char
  | [] => []
  | [v] => write v
  | v :: rest => write v ++ ',' :: writeItems rest

def writeMembers : List (String × Value) → List Char
  | [] => []
  | [(k, v)] => writeString k ++ ':' :: write v
  | (k, v) :: rest => writeString k ++ ':' :: write v ++ ',' :: writeMembers rest

end

/-- Compact text. -/
def compact (v : Value) : String :=
  String.ofList v.write

/-! ### Indented form -/

/-- Line end and the blanks at the start of a line, two for each open bracket. -/
def newLine (depth : Nat) : List Char :=
  '\n' :: List.replicate (2 * depth) ' '

mutual

/-- Text with one element on a line, inside `depth` open brackets. -/
def writeIndented (depth : Nat) : Value → List Char
  | .array [] => ['[', ']']
  | .array items => '[' :: indentedItems (depth + 1) items ++ newLine depth ++ [']']
  | .object [] => ['\x7b', '\x7d']
  | .object members =>
    '\x7b' :: indentedMembers (depth + 1) members ++ newLine depth ++ ['\x7d']
  | .null => ['n', 'u', 'l', 'l']
  | .bool b => writeBool b
  | .integer n => signedDecimal n.value
  | .float x => floatText x
  | .string s => writeString s

def indentedItems (depth : Nat) : List Value → List Char
  | [] => []
  | [v] => newLine depth ++ writeIndented depth v
  | v :: rest => newLine depth ++ writeIndented depth v ++ ',' :: indentedItems depth rest

def indentedMembers (depth : Nat) : List (String × Value) → List Char
  | [] => []
  | [(k, v)] => newLine depth ++ writeString k ++ ':' :: ' ' :: writeIndented depth v
  | (k, v) :: rest =>
    newLine depth ++ writeString k ++ ':' :: ' ' :: writeIndented depth v ++
      ',' :: indentedMembers depth rest

end

/-- Indented text, without a line end behind it. -/
def indented (v : Value) : String :=
  String.ofList (v.writeIndented 0)

end Value

end LiveAudit.Json
