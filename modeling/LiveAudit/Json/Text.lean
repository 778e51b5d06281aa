import LiveAudit.Json.Reader

/-!
# Reading strings

A string is read from behind its opening quote to behind its closing one. Escapes are replaced as
they come; a surrogate is accepted only as the first half of a pair. The bytes of the result are
checked to be UTF-8 at the very end, since a text need not be.
-/

namespace LiveAudit.Json

def hexValue? (b : UInt8) : Option Nat :=
  if byte '0' ≤ b ∧ b ≤ byte '9' then some (b.toNat - '0'.toNat)
  else if byte 'a' ≤ b ∧ b ≤ byte 'f' then some (b.toNat - 'a'.toNat + 10)
  else if byte 'A' ≤ b ∧ b ≤ byte 'F' then some (b.toNat - 'A'.toNat + 10)
  else none

/-- Four hexadecimal digits. -/
def hexFour : Reader Nat
  | a :: b :: c :: d :: rest =>
    match hexValue? a, hexValue? b, hexValue? c, hexValue? d with
    | some a, some b, some c, some d =>
      .ok ⟨a * 4096 + b * 256 + c * 16 + d, rest, by simp only [List.length_cons]; omega⟩
    | _, _, _, _ => .error (.here .invalidEscape rest)
  | _ => .error (.here .endInString [])

/-- Second half of a surrogate pair, with the escape in front of it. -/
def lowSurrogate : Reader Nat
  | [] => .error (.here .endInString [])
  | b :: rest =>
    if b ≠ byte '\\' then .error (.here .unfinishedSurrogatePair rest)
    else match rest with
      | [] => .error (.here .endInString [])
      | u :: rest =>
        if u ≠ byte 'u' then .error (.here .unfinishedSurrogatePair rest)
        else do
          let p ← hexFour rest
          if 0xDC00 ≤ p.value ∧ p.value ≤ 0xDFFF then
            return (p.behind u).behind b
          else throw (.here .loneSurrogate p.rest)

/-- Code point behind `\u`. -/
def unicodeEscape : Reader Nat := fun s => do
  let p ← hexFour s
  if 0xDC00 ≤ p.value ∧ p.value ≤ 0xDFFF then throw (.here .loneSurrogate p.rest)
  else if 0xD800 ≤ p.value ∧ p.value ≤ 0xDBFF then
    let q ← lowSurrogate p.rest
    return (p.followedBy q).map fun low => (p.value - 0xD800) * 0x400 + (low - 0xDC00) + 0x10000
  else return p

/-- Character that a letter behind a backslash stands for. -/
def escapedByte? (b : UInt8) : Option UInt8 :=
  if b = byte '"' then some b
  else if b = byte '\\' then some b
  else if b = byte '/' then some b
  else if b = byte 'b' then some 8
  else if b = byte 'f' then some 12
  else if b = byte 'n' then some 10
  else if b = byte 'r' then some 13
  else if b = byte 't' then some 9
  else none

/-- Bytes of an escape, from behind its backslash. -/
def escape : Reader (List UInt8)
  | [] => .error (.here .endInString [])
  | b :: rest =>
    match escapedByte? b with
    | some c => .ok (.ofHead [c] b rest)
    | none =>
      if b = byte 'u' then do
        let p ← unicodeEscape rest
        return (p.behind b).map fun n => Text.encodeChar (Char.ofNat n)
      else .error (.here .invalidEscape rest)

/-- Bytes of a string up to its closing quote; `held` is what was read before, in reverse. -/
def stringBytes {whole : List UInt8} (held : List UInt8) (s : List UInt8)
    (h : s.length ≤ whole.length) : Except Fault (Step (List UInt8) whole) :=
  match s with
  | [] => .error (.here .endInString [])
  | b :: rest =>
    if b = byte '"' then .ok ⟨held.reverse, rest, Nat.lt_of_succ_le h⟩
    else if b = byte '\\' then
      match escape rest with
      | .error f => .error f
      | .ok p =>
        stringBytes (p.value.reverse ++ held) p.rest
          (Nat.le_trans (Nat.le_of_lt (Nat.lt_succ_of_lt p.shorter)) h)
    else if b < 0x20 then .error (.here .controlCharacter rest)
    else stringBytes (b :: held) rest (Nat.le_of_succ_le h)
termination_by s.length
decreasing_by
  · have := p.shorter
    simp only [List.length_cons]
    omega
  · simp

/-- String from behind its opening quote. -/
def stringTail : Reader String := fun s => do
  let p ← stringBytes [] s (length_self_le s)
  match Text.ofUtf8? p.value with
  | some t => return p.map fun _ => t
  | none => throw (.placed .invalidCodePoint (p.rest.length + 1))

end LiveAudit.Json
