import LiveAudit.Json.Number
import LiveAudit.Json.Text

/-!
# Skipping values

The value of an unknown key is passed over without being kept. Its form is checked, but not more: a
number may be out of range, a surrogate may stand alone, and brackets may be nested to any depth,
for which the open ones are held on a stack.
-/

namespace LiveAudit.Json

/-- What an open bracket encloses. -/
inductive Bracket where
  | list
  | object
deriving DecidableEq

namespace Bracket

def opening : Bracket → UInt8
  | .list => byte '['
  | .object => byte '\x7b'

def closing : Bracket → UInt8
  | .list => byte ']'
  | .object => byte '\x7d'

/-- Cause when the text ends before the closing bracket. -/
def unfinished : Bracket → Cause
  | .list => .endInList
  | .object => .endInObject

/-- Cause when something else stands behind an element. -/
def expectedEnd : Bracket → Cause
  | .list => .expectedListEnd
  | .object => .expectedObjectEnd

end Bracket

/-! ### Parts of an object -/

/-- Colon between key and value. -/
def colon : Reader Unit :=
  afterSpace fun s => match s with
    | [] => .error (.here .endInObject [])
    | b :: rest =>
      if b = byte ':' then .ok (.ofHead () b rest) else .error (.onByte .expectedColon (b :: rest))

/-- String that is not kept, from behind its opening quote. -/
def skipString {whole : List UInt8} (s : List UInt8) (h : s.length ≤ whole.length) :
    Except Fault (Step Unit whole) :=
  match s with
  | [] => .error (.here .endInString [])
  | b :: rest =>
    if b = byte '"' then .ok ⟨(), rest, Nat.lt_of_succ_le h⟩
    else if b = byte '\\' then
      match rest with
      | [] => .error (.here .endInString [])
      | c :: rest =>
        if (escapedByte? c).isSome then skipString rest (by simp at h; omega)
        else if c = byte 'u' then
          match hexFour rest with
          | .error f => .error f
          | .ok p => skipString p.rest (by have := p.shorter; simp at h; omega)
        else .error (.here .invalidEscape rest)
    else if b < 0x20 then .error (.here .controlCharacter (b :: rest))
    else skipString rest (Nat.le_of_succ_le h)
termination_by s.length
decreasing_by
  · simp only [List.length_cons]; omega
  · have := p.shorter; simp only [List.length_cons]; omega
  · simp

/-- Key that is not kept, with its colon. -/
def skipKey : Reader Unit :=
  afterSpace fun s => match s with
    | [] => .error (.here .endInObject [])
    | b :: rest =>
      if b = byte '"' then do
        let p ← skipString rest (length_self_le rest)
        let q ← colon p.rest
        return (p.followedBy q).behind b
      else .error (.onByte .keyNotString (b :: rest))

/-! ### The machine -/

/-- Number that is not kept. -/
def skipNumeral : Reader Unit := fun s =>
  match numeral s with
  | .ok p => .ok (p.map fun _ => ())
  | .error (.placed _ left) => .error (.placed .invalidNumber left)
  | .error f => .error f

/-- A value without parts, or an opening bracket. -/
def skipToken : Reader (Option Bracket) :=
  afterSpace fun s => match s with
    | [] => .error (.here .endInValue [])
    | b :: rest =>
      let word (letters : List UInt8) : Except Fault (Step (Option Bracket) (b :: rest)) :=
        (literal letters rest).map fun p => (p.behind b).map fun _ => none
      if b = byte 'n' then word nullTail
      else if b = byte 't' then word trueTail
      else if b = byte 'f' then word falseTail
      else if b = byte '-' then
        (skipNumeral rest).map fun p => (p.behind b).map fun _ => none
      else if isDigit b then (skipNumeral (b :: rest)).map (Step.map fun _ => none)
      else if b = byte '"' then
        (skipString rest (length_self_le rest)).map fun p => (p.behind b).map fun _ => none
      else if b = Bracket.list.opening then .ok (.ofHead (some .list) b rest)
      else if b = Bracket.object.opening then .ok (.ofHead (some .object) b rest)
      else .error (.onByte .expectedValue (b :: rest))

/-- Next element in a bracket, with its key in an object. -/
def skipElement (b : Bracket) : Reader (Option Bracket) := fun s =>
  match b with
  | .list => skipToken s
  | .object => do
    let p ← skipKey s
    let q ← skipToken p.rest
    return p.followedBy q

/-- Goes on to the end of all open brackets. `first` tells that nothing has been read in the
innermost one yet. -/
def skipOpen {whole : List UInt8} (first : Bool) (brackets : List Bracket) (s : List UInt8)
    (h : s.length < whole.length) : Except Fault (Step Unit whole) :=
  match brackets with
  | [] => .ok ⟨(), s, h⟩
  | b :: outer =>
    match ht : skipSpace s with
    | [] => .error (.here b.unfinished [])
    | c :: rest =>
      have shorter : rest.length < s.length := length_lt_of_skipSpace ht
      let go (t : List UInt8) (ht : t.length ≤ s.length) : Except Fault (Step Unit whole) :=
        match skipElement b t with
        | .error f => .error f
        | .ok p =>
          match p.value with
          | none => skipOpen false (b :: outer) p.rest (by have := p.shorter; omega)
          | some inner => skipOpen true (inner :: b :: outer) p.rest (by have := p.shorter; omega)
      if c = b.closing then skipOpen false outer rest (by omega)
      else if first then go s (length_self_le s)
      else if c = byte ',' then go rest (length_le_of_skipSpace ht)
      else .error (.onByte b.expectedEnd (c :: rest))
termination_by s.length
decreasing_by
  · have := p.shorter; omega
  · have := p.shorter; omega
  · exact shorter

/-- Passes over one value. -/
def skipValue : Reader Unit := fun s => do
  let p ← skipToken s
  match p.value with
  | none => return p.map fun _ => ()
  | some b => skipOpen true [b] p.rest p.shorter

end LiveAudit.Json
