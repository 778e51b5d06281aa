import LiveAudit.Decimal.Shortest
import LiveAudit.Text.Quoted

/-!
# JSON values

A value as it stands in a text: members of an object keep their order, and a key may occur twice.
The canonical form of a value has sorted keys without repetition, the last member of a key winning.

A number is kept as an integer if it is written as one and fits a signed or unsigned word of 64
bits, and as a double otherwise.
-/

namespace LiveAudit.Json

/-- An integer that fits a word of 64 bits, signed or unsigned. -/
structure Whole where
  value : Int
  inRange : -9223372036854775808 ≤ value ∧ value < 18446744073709551616
deriving DecidableEq

def Whole.ofInt? (n : Int) : Option Whole :=
  if h : -9223372036854775808 ≤ n ∧ n < 18446744073709551616 then some ⟨n, h⟩ else none

def Whole.ofWord (n : UInt64) : Whole :=
  ⟨n.toNat, by have := n.toNat_lt; omega⟩

inductive Value where
  | null
  | bool (b : Bool)
  | integer (n : Whole)
  | float (x : Float)
  | string (s : String)
  | array (items : List Value)
  | object (members : List (String × Value))

instance : Inhabited Value := ⟨.null⟩

namespace Value

def ofNat (n : Nat) : Value :=
  match Whole.ofInt? n with
  | some n => .integer n
  | none => .null

def ofWord (n : UInt64) : Value :=
  .integer (.ofWord n)

def ofWord32 (n : UInt32) : Value :=
  ofWord n.toUInt64

def ofOption {α : Type} (write : α → Value) : Option α → Value
  | none => .null
  | some a => write a

def ofStringOption : Option String → Value :=
  ofOption .string

/-- Member of an object under a key, the last one if there are several. -/
def get? (key : String) : Value → Option Value
  | .object members => (members.reverse.find? (·.1 == key)).map (·.2)
  | _ => none

/-! ### Canonical form -/

/-- Puts a member into members with increasing keys; one of the same key gives way. -/
def insertMember (key : String) (v : Value) : List (String × Value) → List (String × Value)
  | [] => [(key, v)]
  | (k, w) :: rest =>
    if key < k then (key, v) :: (k, w) :: rest
    else if key = k then (key, v) :: rest
    else (k, w) :: insertMember key v rest

/-- Members by increasing key, the last of each key. -/
def sortMembers (members : List (String × Value)) : List (String × Value) :=
  members.foldl (fun held m => insertMember m.1 m.2 held) []

mutual

/-- The value with sorted keys, no key twice, at every depth. -/
def canonical : Value → Value
  | .array items => .array (canonicalItems items)
  | .object members => .object (sortMembers (canonicalMembers members))
  | .null => .null
  | .bool b => .bool b
  | .integer n => .integer n
  | .float x => .float x
  | .string s => .string s

def canonicalItems : List Value → List Value
  | [] => []
  | v :: rest => canonical v :: canonicalItems rest

def canonicalMembers : List (String × Value) → List (String × Value)
  | [] => []
  | (k, v) :: rest => (k, canonical v) :: canonicalMembers rest

end

end Value

/-! ### Text of a double -/

/-- Where a double is written without an exponent: from `10 ^ (-5)` up to below `10 ^ 16`. -/
def positional (magnitude : Int) : Bool :=
  -5 < magnitude ∧ magnitude ≤ 16

open Text in
/-- Shortest text of a double that reads back. A point always stands in the positional form; an
exponent has a sign and at least two digits. -/
def floatText (x : Float) : List Char :=
  let sign : List Char := if 9223372036854775808 ≤ x.toBits.toNat then ['-'] else []
  match Decimal.Binary.ofFloat? x with
  | none => if x == 0.0 then sign ++ "0.0".toList else "null".toList
  | some b =>
    let d := b.shortest
    let digits := decimal d.digits
    let count : Int := digits.length
    let magnitude := count + d.exponent
    sign ++
    if positional magnitude then
      if 0 ≤ d.exponent then digits ++ List.replicate d.exponent.toNat '0' ++ ['.', '0']
      else if 0 < magnitude then
        digits.take magnitude.toNat ++ '.' :: digits.drop magnitude.toNat
      else '0' :: '.' :: List.replicate (-magnitude).toNat '0' ++ digits
    else
      let power := magnitude - 1
      let powerDigits := decimal power.natAbs
      let fraction := if digits.length = 1 then [] else '.' :: digits.drop 1
      digits.take 1 ++ fraction ++ ['e', if power < 0 then '-' else '+'] ++
        List.replicate (2 - powerDigits.length) '0' ++ powerDigits

end LiveAudit.Json
