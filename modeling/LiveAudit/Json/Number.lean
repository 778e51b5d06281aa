import LiveAudit.Json.Reader

/-!
# Reading numbers

A number is scanned into its digits first and given a value afterwards. Digits are gathered into a
word of 64 bits until it would overflow; the digits after that only shift the decimal point. What is
written as an integer and fits is kept as one, and minus zero is no integer.

A double is the gathered word times or divided by a power of ten, each operation rounded once. A
number too large for a double is refused, one too small becomes zero.
-/

namespace LiveAudit.Json

def isDigit (b : UInt8) : Bool :=
  byte '0' ≤ b ∧ b ≤ byte '9'

def digitValue (b : UInt8) : Nat :=
  b.toNat - '0'.toNat

inductive Number where
  | integer (n : Whole)
  | float (x : Float)

def Number.toValue : Number → Value
  | .integer n => .integer n
  | .float x => .float x

/-- Digits of a number after its sign. -/
structure Numeral where
  whole : List Nat
  /-- Digits after the point, if there is one. -/
  fraction : Option (List Nat)
  /-- Digits of the exponent and whether it is negative, if there is one. -/
  exponent : Option (Bool × List Nat)

/-! ### Scanning -/

/-- Leading digits and the text after them. -/
def digits (s : List UInt8) : Within (List Nat) s :=
  ⟨(s.takeWhile isDigit).map digitValue, s.dropWhile isDigit, (List.dropWhile_sublist _).length_le⟩

/-- Digits in front of the point: one zero, or any number without a leading zero. -/
def wholePart : Reader (List Nat)
  | [] => .error (.here .endInValue [])
  | b :: rest =>
    if b = byte '0' then
      if rest.head?.any isDigit then .error (.onByte .invalidNumber rest)
      else .ok (.ofHead [0] b rest)
    else if isDigit b then
      let more := digits rest
      .ok ((more.behind b).map fun ds => digitValue b :: ds)
    else .error (.here .invalidNumber rest)

/-- Point with at least one digit behind it, or nothing. -/
def fractionPart (s : List UInt8) : Except Fault (Within (Option (List Nat)) s) :=
  match s with
  | [] => .ok (.start none [])
  | b :: rest =>
    if b = byte '.' then
      let more := digits rest
      if more.value.isEmpty then
        .error (.onByte (if rest.isEmpty then .endInValue else .invalidNumber) rest)
      else .ok ⟨some more.value, more.rest, Nat.le_succ_of_le more.within⟩
    else .ok (.start none (b :: rest))

/-- Sign of an exponent, plus if there is none. -/
def exponentSign (s : List UInt8) : Within Bool s :=
  match s with
  | [] => .start false []
  | b :: rest =>
    if b = byte '-' then ⟨true, rest, Nat.le_succ _⟩
    else if b = byte '+' then ⟨false, rest, Nat.le_succ _⟩
    else .start false (b :: rest)

def isExponentMark (b : UInt8) : Bool :=
  b = byte 'e' ∨ b = byte 'E'

/-- Exponent with at least one digit, or nothing. -/
def exponentPart (s : List UInt8) : Except Fault (Within (Option (Bool × List Nat)) s) :=
  match s with
  | [] => .ok (.start none [])
  | b :: rest =>
    if isExponentMark b then
      let sign := exponentSign rest
      match h : sign.rest with
      | [] => .error (.here .endInValue [])
      | c :: after =>
        if isDigit c then
          let more := digits after
          .ok ⟨some (sign.value, digitValue c :: more.value), more.rest, by
            have h₁ := more.within
            have h₂ := sign.within
            rw [h] at h₂
            simp only [List.length_cons] at h₂ ⊢
            omega⟩
        else .error (.here .invalidNumber after)
    else .ok (.start none (b :: rest))

/-- Number without its sign. -/
def numeral : Reader Numeral := fun s => do
  let whole ← wholePart s
  let fraction ← fractionPart whole.rest
  let exponent ← exponentPart fraction.rest
  return ⟨⟨whole.value, fraction.value, exponent.value⟩, exponent.rest,
    Nat.lt_of_le_of_lt (Nat.le_trans exponent.within fraction.within) whole.shorter⟩

/-! ### Values -/

/-- Gathers digits into a word until it would overflow, and returns the digits left over. -/
def gather : Nat → List Nat → Nat × List Nat
  | word, [] => (word, [])
  | word, d :: rest =>
    if word * 10 + d < UInt64.size then gather (word * 10 + d) rest else (word, d :: rest)

/-- Exponent written by the digits; `error` with the number of digits not reached when it leaves the
range of a signed word of 32 bits. -/
def exponentValue : Nat → List Nat → Except Nat Nat
  | value, [] => .ok value
  | value, d :: rest =>
    if value * 10 + d < 2147483648 then exponentValue (value * 10 + d) rest else .error rest.length

def powerOfTen (k : Nat) : Float :=
  Float.ofScientific 1 false k

/-- Divides by a power of ten, at most `10 ^ 308` at a time. -/
def divideByPower : Nat → Float → Nat → Float
  | 0, x, _ => x
  | fuel + 1, x, k =>
    if k ≤ 308 then x / powerOfTen k
    else if x == 0.0 then x
    else divideByPower fuel (x / powerOfTen 308) (k - 308)

/-- Double nearest to the word times a power of ten; `none` if it is too large. Three divisions
bring every word to zero. -/
def scaleWord (word : Nat) (power : Int) : Option Float :=
  let x := Float.ofNat word
  if power < 0 then some (divideByPower 3 x power.natAbs)
  else if power ≤ 308 then
    let y := x * powerOfTen power.toNat
    if y.isInf then none else some y
  else if word = 0 then some x
  else none

def signed (negative : Bool) (x : Float) : Number :=
  .float (if negative then -x else x)

/-- Value of a number; `rest` is the text behind it. -/
def Numeral.toNumber (negative : Bool) (n : Numeral) (rest : List UInt8) : Except Fault Number :=
  let (word, dropped) := gather 0 n.whole
  match n.fraction, n.exponent, dropped with
  | none, none, [] =>
    let value : Int := if negative then -(word : Int) else word
    match Whole.ofInt? value with
    | some w => if negative ∧ word = 0 then .ok (.float (-0.0)) else .ok (.integer w)
    | none => .ok (signed negative (Float.ofNat word))
  | fraction, exponent, dropped =>
    let fraction := fraction.getD []
    let (word, unread) := gather word fraction
    let power : Int := dropped.length - (fraction.length - unread.length : Nat)
    let finish (power : Int) : Except Fault Number :=
      match scaleWord word power with
      | some x => .ok (signed negative x)
      | none => .error (.here .numberOutOfRange rest)
    match exponent with
    | none => finish power
    | some (down, written) =>
      match exponentValue 0 written with
      | .ok k => finish (if down then power - k else power + k)
      | .error unread =>
        if word ≠ 0 ∧ !down then .error (.placed .numberOutOfRange (rest.length + unread))
        else .ok (signed negative 0.0)

/-- Number at the front of a text that begins with a digit or a minus sign. -/
def number : Reader Number
  | [] => .error (.here .endInValue [])
  | b :: rest =>
    if b = byte '-' then do
      let p ← numeral rest
      let n ← p.value.toNumber true p.rest
      return (p.behind b).map fun _ => n
    else do
      let p ← numeral (b :: rest)
      let n ← p.value.toNumber false p.rest
      return p.map fun _ => n

end LiveAudit.Json
