import LiveAudit.Json.Bracketed

/-!
# Formats

A format tells how the values of a type are read, in two ways: straight from a text, where the first
problem in the order of the text is the fault, and from a JSON value that is already there, as event
payloads are. Both accept the same values.

Reading from a text is given an allowance of brackets: a kept list or object uses up one, and the
text is refused where none is left.
-/

namespace LiveAudit.Json

structure Format (α : Type) where
  /-- Reader of a text with an allowance of brackets. -/
  read : Nat → Reader α
  /-- Value of the type that a JSON value stands for. -/
  ofValue : Value → Except Cause α

namespace Format

def map {α β : Type} (f : α → β) (form : Format α) : Format β where
  read depth s := (form.read depth s).map (Step.map f)
  ofValue v := (form.ofValue v).map f

/-- Nested brackets that a text may open. -/
def allowance : Nat := 127

/-! ### Values of another kind -/

/-- Fault of a text whose value is not of the expected kind. A value without parts counts as read, a
list or an object is not entered. -/
def mismatch (expected : String) (s : List UInt8) : Fault :=
  match s with
  | [] => .here .endInValue []
  | b :: rest =>
    let word (letters : List UInt8) (found : Found) : Fault :=
      match literal letters rest with
      | .error f => f
      | .ok p => .here (.wrongKind found expected) p.rest
    if b = byte 'n' then word nullTail .null
    else if b = byte 't' then word trueTail (.bool true)
    else if b = byte 'f' then word falseTail (.bool false)
    else if b = byte '-' ∨ isDigit b then
      match number (b :: rest) with
      | .error f => f
      | .ok p => .here (.wrongKind (.ofValue p.value.toValue) expected) p.rest
    else if b = byte '"' then
      match stringTail rest with
      | .error f => f
      | .ok p => .here (.wrongKind (.string p.value) expected) p.rest
    else if b = Bracket.list.opening then .here (.wrongKind .sequence expected) (b :: rest)
    else if b = Bracket.object.opening then .here (.wrongKind .map expected) (b :: rest)
    else .onByte .expectedValue (b :: rest)

/-! ### Values without parts -/

/-- Text read as a string, or the fault that a value of another kind is. -/
def stringOr (expected : String) : Reader String :=
  afterSpace fun s => match s with
    | [] => .error (mismatch expected [])
    | b :: rest =>
      if b = byte '"' then
        (stringTail rest).map (Step.behind b)
      else .error (mismatch expected (b :: rest))

def string : Format String where
  read _ := stringOr "a string"
  ofValue
    | .string s => .ok s
    | v => .error (.wrongKind (.ofValue v) "a string")

/-- Integer that `convert` accepts. -/
def integer {α : Type} (expected : String) (convert : Int → Option α) : Format α where
  read _ := afterSpace fun s =>
    if s.head?.any fun b => b = byte '-' ∨ isDigit b then
      match number s with
      | .error f => .error f
      | .ok p =>
        match p.value with
        | .integer n =>
          match convert n.value with
          | some a => .ok (p.map fun _ => a)
          | none => .error (.here (.wrongValue (.integer n.value) expected) p.rest)
        | .float x => .error (.here (.wrongKind (.float x) expected) p.rest)
    else .error (mismatch expected s)
  ofValue
    | .integer n =>
      match convert n.value with
      | some a => .ok a
      | none => .error (.wrongValue (.integer n.value) expected)
    | v => .error (.wrongKind (.ofValue v) expected)

def word32 : Format UInt32 :=
  integer "u32" fun n => if 0 ≤ n ∧ n < UInt32.size then some (UInt32.ofNat n.toNat) else none

def toWord? (n : Int) : Option UInt64 :=
  if 0 ≤ n ∧ n < UInt64.size then some (UInt64.ofNat n.toNat) else none

def word64 : Format UInt64 :=
  integer "u64" toWord?

/-- A number of things in memory. -/
def size : Format UInt64 :=
  integer "usize" toWord?

def int64 : Format Int :=
  integer "i64" fun n => if -9223372036854775808 ≤ n ∧ n < 9223372036854775808 then some n else none

/-! ### Values with parts -/

/-- Null, or a value. -/
def option {α : Type} (form : Format α) : Format (Option α) where
  read depth := afterSpace fun s => match s with
    | [] => (form.read depth []).map (Step.map some)
    | b :: rest =>
      if b = byte 'n' then
        (literal nullTail rest).map fun p => (p.behind b).map fun _ => none
      else (form.read depth (b :: rest)).map (Step.map some)
  ofValue
    | .null => .ok none
    | v => (form.ofValue v).map some

def list {α : Type} (form : Format α) : Format (List α) where
  read depth := afterSpace fun s => match s with
    | [] => .error (mismatch "a sequence" [])
    | b :: rest =>
      if b = Bracket.list.opening then
        match depth with
        | 0 => .error (.onByte .tooDeep (b :: rest))
        | depth + 1 =>
          (listTail (form.read depth) rest).map (Step.behind b)
      else .error (mismatch "a sequence" (b :: rest))
  ofValue
    | .array items => items.mapM form.ofValue
    | v => .error (.wrongKind (.ofValue v) "a sequence")

/-! ### Free values -/

/-- Any value, with a reader of its elements; without one, no bracket may open. -/
def anyWith (element : Option (Reader Value)) : Reader Value :=
  afterSpace fun s => match s with
    | [] => .error (.here .endInValue [])
    | b :: rest =>
      let word (letters : List UInt8) (v : Value) : Except Fault (Step Value (b :: rest)) :=
        (literal letters rest).map fun p => (p.behind b).map fun _ => v
      let nested (enter : Reader Value → Reader Value) : Except Fault (Step Value (b :: rest)) :=
        match element with
        | none => .error (.onByte .tooDeep (b :: rest))
        | some read =>
          (enter read rest).map (Step.behind b)
      if b = byte 'n' then word nullTail .null
      else if b = byte 't' then word trueTail (.bool true)
      else if b = byte 'f' then word falseTail (.bool false)
      else if b = byte '-' ∨ isDigit b then
        (number (b :: rest)).map (Step.map Number.toValue)
      else if b = byte '"' then
        (stringTail rest).map fun p => (p.behind b).map .string
      else if b = Bracket.list.opening then
        nested fun read s => (listTail read s).map (Step.map .array)
      else if b = Bracket.object.opening then
        nested fun read s => (objectTail read s).map (Step.map .object)
      else .error (.onByte .expectedValue (b :: rest))

/-- Any value, its members in order and with repeated keys. -/
def anyValue : Nat → Reader Value
  | 0 => anyWith none
  | depth + 1 => anyWith (some (anyValue depth))

def any : Format Value where
  read := anyValue
  ofValue := .ok

/-- Any value in canonical form. -/
def canonical : Format Value :=
  any.map Value.canonical

/-- A value read freely and then taken as one of several shapes; `none` if it has none of them. -/
def shape {α : Type} (type : String) (take : Value → Option α) : Format α where
  read depth s :=
    match anyValue depth s with
    | .error f => .error f
    | .ok p =>
      match take p.value with
      | some a => .ok (p.map fun _ => a)
      | none => .error (.unplaced (.noShape type) p.rest)
  ofValue v :=
    match take v with
    | some a => .ok a
    | none => .error (.noShape type)

/-! ### Names of cases -/

/-- Unit in the object form of a case. -/
def unit : Reader Unit :=
  afterSpace fun s => match s with
    | [] => .error (mismatch "unit" [])
    | b :: rest =>
      if b = byte 'n' then
        (literal nullTail rest).map (Within.behind b)
      else .error (mismatch "unit" (b :: rest))

/-- One of several names, each with what it stands for. A name may also be the only key of an
object, with null as its value. -/
def oneOf {α : Type} (cases : List (String × α)) : Format α where
  read depth := afterSpace fun s => match s with
    | [] => .error (.here .endInValue [])
    | b :: rest =>
      let known {s : List UInt8} (p : Step String s) : Except Fault (Step α s) :=
        match cases.lookup p.value with
        | some a => .ok (p.map fun _ => a)
        | none => .error (.here (.unknownVariant p.value (cases.map (·.1))) p.rest)
      if b = byte '"' then do
        let p ← known (← stringTail rest)
        return p.behind b
      else if b = Bracket.object.opening then
        if depth = 0 then .error (.onByte .tooDeep (b :: rest))
        else do
          let p ← known (← stringOr "variant identifier" rest)
          let c ← colon p.rest
          let u ← unit c.rest
          match h : skipSpace u.rest with
          | [] => throw (.here .endInObject [])
          | e :: after =>
            if e = Bracket.object.closing then
              let close : Step Unit u.rest := ⟨(), after, length_lt_of_skipSpace h⟩
              return (((p.followedBy c).followedBy u).followedBy close |>.map fun _ => p.value).behind b
            else throw (.here .expectedValue (e :: after))
      else .error (.onByte .expectedValue (b :: rest))
  ofValue
    | .string s =>
      match cases.lookup s with
      | some a => .ok a
      | none => .error (.unknownVariant s (cases.map (·.1)))
    | .object [(s, v)] =>
      match cases.lookup s, v with
      | some a, .null => .ok a
      | some _, v => .error (.wrongKind (.ofValue v) "unit")
      | none, _ => .error (.unknownVariant s (cases.map (·.1)))
    | .object _ => .error (.wrongValue .map "map with a single key")
    | v => .error (.wrongKind (.ofValue v) "string or map")

/-! ### Whole texts -/

/-- Reads a text that is one value and nothing else but blanks. -/
def readText {α : Type} (form : Format α) (text : List UInt8) : Except Fault α :=
  match form.read allowance text with
  | .error f => .error f
  | .ok p =>
    match skipSpace p.rest with
    | [] => .ok p.value
    | b :: rest => .error (.onByte .trailingCharacters (b :: rest))

/-- Reads a text, with the message of its fault if there is one. -/
def parse {α : Type} (form : Format α) (text : List UInt8) : Except String α :=
  match form.readText text with
  | .ok a => .ok a
  | .error f => .error (f.message text)

end Format

end LiveAudit.Json
