import LiveAudit.Json.Value
import LiveAudit.Text.Utf8

/-!
# Faults of reading

Why a text was refused, and where. A cause is independent of the text; a fault adds the place. Most
faults know their place at once, as the number of bytes that follow it. The others are raised by a
check on a whole value, and get their place from the list or object around it, once that has read on
to its end. A fault that meets neither has no place, and its message says none.
-/

namespace LiveAudit.Json

/-- Kind of a value that stands where another was expected. -/
inductive Found where
  | null
  | bool (b : Bool)
  | integer (n : Int)
  | float (x : Float)
  | string (s : String)
  | sequence
  | map

inductive Cause where
  | endInValue
  | endInString
  | endInObject
  | endInList
  | expectedValue
  | expectedIdent
  | expectedColon
  | expectedObjectEnd
  | expectedListEnd
  | trailingComma
  | trailingCharacters
  | keyNotString
  | invalidNumber
  | numberOutOfRange
  | invalidEscape
  | controlCharacter
  | loneSurrogate
  | unfinishedSurrogatePair
  | invalidCodePoint
  | tooDeep
  /-- A value of another kind. -/
  | wrongKind (found : Found) (expected : String)
  /-- A value of the right kind that does not fit. -/
  | wrongValue (found : Found) (expected : String)
  | missingField (label : String)
  | duplicateField (label : String)
  | wrongLength (count : Nat) (expected : String)
  | unknownVariant (name : String) (known : List String)
  /-- No shape of a type with several shapes fits. -/
  | noShape (type : String)

namespace Found

open Text in
def text : Found → List Char
  | .null => "null".toList
  | .bool b => "boolean `".toList ++ (if b then "true" else "false").toList ++ ['`']
  | .integer n => "integer `".toList ++ signedDecimal n ++ ['`']
  | .float x => "floating point `".toList ++ floatText x ++ ['`']
  | .string s => "string ".toList ++ quote s.toList
  | .sequence => "sequence".toList
  | .map => "map".toList

def ofValue : Value → Found
  | .null => .null
  | .bool b => .bool b
  | .integer n => .integer n.value
  | .float x => .float x
  | .string s => .string s
  | .array _ => .sequence
  | .object _ => .map

end Found

namespace Cause

/-- Names between backquotes, as a choice. -/
def choice : List String → String
  | [a] => "expected `" ++ a ++ "`"
  | [a, b] => "expected `" ++ a ++ "` or `" ++ b ++ "`"
  | names => "expected one of " ++ ", ".intercalate (names.map fun n => "`" ++ n ++ "`")

def message : Cause → String
  | .endInValue => "EOF while parsing a value"
  | .endInString => "EOF while parsing a string"
  | .endInObject => "EOF while parsing an object"
  | .endInList => "EOF while parsing a list"
  | .expectedValue => "expected value"
  | .expectedIdent => "expected ident"
  | .expectedColon => "expected `:`"
  | .expectedObjectEnd => "expected `,` or `\x7d`"
  | .expectedListEnd => "expected `,` or `]`"
  | .trailingComma => "trailing comma"
  | .trailingCharacters => "trailing characters"
  | .keyNotString => "key must be a string"
  | .invalidNumber => "invalid number"
  | .numberOutOfRange => "number out of range"
  | .invalidEscape => "invalid escape"
  | .controlCharacter => "control character (\\u0000-\\u001F) found while parsing a string"
  | .loneSurrogate => "lone leading surrogate in hex escape"
  | .unfinishedSurrogatePair => "unexpected end of hex escape"
  | .invalidCodePoint => "invalid unicode code point"
  | .tooDeep => "recursion limit exceeded"
  | .wrongKind found expected =>
    "invalid type: " ++ String.ofList found.text ++ ", expected " ++ expected
  | .wrongValue found expected =>
    "invalid value: " ++ String.ofList found.text ++ ", expected " ++ expected
  | .missingField label => "missing field `" ++ label ++ "`"
  | .duplicateField label => "duplicate field `" ++ label ++ "`"
  | .wrongLength count expected =>
    "invalid length " ++ toString count ++ ", expected " ++ expected
  | .unknownVariant name known => "unknown variant `" ++ name ++ "`, " ++ choice known
  | .noShape type => "data did not match any variant of untagged enum " ++ type

end Cause

inductive Fault where
  /-- The place is where `left` bytes follow. -/
  | placed (cause : Cause) (left : Nat)
  /-- The place is still to be found by reading on from `rest`. -/
  | unplaced (cause : Cause) (rest : List UInt8)

namespace Fault

def cause : Fault → Cause
  | .placed c _ => c
  | .unplaced c _ => c

/-- Fault right in front of `rest`. -/
def here (c : Cause) (rest : List UInt8) : Fault :=
  .placed c rest.length

/-- Fault of the first byte of `rest`, which counts as read; at the end of the text there is
none. -/
def onByte (c : Cause) (rest : List UInt8) : Fault :=
  .placed c (rest.length - 1)

/-- Line and column after a part of a text: lines count from one, and the column is the number of
bytes since the last line feed. -/
def position (read : List UInt8) : Nat × Nat :=
  (1 + read.count 10, (read.reverse.takeWhile (· ≠ 10)).length)

/-- Message of a fault in a text. -/
def message (text : List UInt8) : Fault → String
  | .unplaced c _ => c.message
  | .placed c left =>
    let (line, column) := position (text.take (text.length - left))
    c.message ++ " at line " ++ toString line ++ " column " ++ toString column

end Fault

end LiveAudit.Json
