/-!
# Characters as bytes

The UTF-8 code of a text and the two ways of reading bytes back: `decode?` refuses bytes that are no
UTF-8, and `decodeLossy` puts one replacement character in place of each maximal ill-formed part.

All positions that the JSON reader reports count bytes, so texts are read as lists of bytes and
turned into characters only where a string value begins.
-/

namespace LiveAudit.Text

/-- Code of one character, one to four bytes. -/
def encodeChar (c : Char) : List UInt8 :=
  let n := c.toNat
  if n < 0x80 then
    [n.toUInt8]
  else if n < 0x800 then
    [(0xC0 + n / 0x40).toUInt8, (0x80 + n % 0x40).toUInt8]
  else if n < 0x10000 then
    [(0xE0 + n / 0x1000).toUInt8, (0x80 + n / 0x40 % 0x40).toUInt8, (0x80 + n % 0x40).toUInt8]
  else
    [(0xF0 + n / 0x40000).toUInt8, (0x80 + n / 0x1000 % 0x40).toUInt8,
      (0x80 + n / 0x40 % 0x40).toUInt8, (0x80 + n % 0x40).toUInt8]

def encode (s : List Char) : List UInt8 :=
  s.flatMap encodeChar

/-- Bytes of a string. -/
def utf8 (s : String) : List UInt8 :=
  encode s.toList

/-- Payload of a continuation byte. -/
def continuation? (b : UInt8) : Option Nat :=
  if 0x80 ≤ b.toNat ∧ b.toNat < 0xC0 then some (b.toNat - 0x80) else none

/-- Whether `b` may follow the lead byte `a`. The second byte alone decides that a code is not
overlong, no surrogate, and not above the last code point. -/
def mayFollow (a b : UInt8) : Bool :=
  let a := a.toNat
  let b := b.toNat
  if a < 0xC2 ∨ 0xF5 ≤ a then false
  else if a = 0xE0 then 0xA0 ≤ b ∧ b < 0xC0
  else if a = 0xED then 0x80 ≤ b ∧ b < 0xA0
  else if a = 0xF0 then 0x90 ≤ b ∧ b < 0xC0
  else if a = 0xF4 then 0x80 ≤ b ∧ b < 0x90
  else 0x80 ≤ b ∧ b < 0xC0

/-- What a list of bytes begins with. -/
inductive Head where
  /-- A character, with the number of bytes of its code. -/
  | char (c : Char) (width : Nat)
  /-- An ill-formed part of that many bytes, as long as it could still have become a character. -/
  | illFormed (width : Nat)

def Head.width : Head → Nat
  | .char _ w => w
  | .illFormed w => w

/-- Classification of the first bytes, `a` being the very first. -/
def head (a : UInt8) (s : List UInt8) : Head :=
  if a.toNat < 0x80 then .char (Char.ofNat a.toNat) 1
  else match s with
    | [] => .illFormed 1
    | b :: s =>
      if !mayFollow a b then .illFormed 1
      else if a.toNat < 0xE0 then
        .char (Char.ofNat ((a.toNat - 0xC0) * 0x40 + (b.toNat - 0x80))) 2
      else match s with
        | [] => .illFormed 2
        | c :: s => match continuation? c with
          | none => .illFormed 2
          | some z =>
            if a.toNat < 0xF0 then
              .char (Char.ofNat ((a.toNat - 0xE0) * 0x1000 + (b.toNat - 0x80) * 0x40 + z)) 3
            else match s with
              | [] => .illFormed 3
              | d :: _ => match continuation? d with
                | none => .illFormed 3
                | some w =>
                  .char (Char.ofNat ((a.toNat - 0xF0) * 0x40000 + (b.toNat - 0x80) * 0x1000
                    + z * 0x40 + w)) 4

/-- Characters of a list of bytes, `none` where one is ill-formed. The bytes after the first of a
character are stepped over by their number. -/
def decodeFrom? : Nat → List UInt8 → Option (List Char)
  | _, [] => some []
  | skip + 1, _ :: s => decodeFrom? skip s
  | 0, a :: s => match head a s with
    | .illFormed _ => none
    | .char c w => (decodeFrom? (w - 1) s).map (c :: ·)

def decode? (s : List UInt8) : Option (List Char) :=
  decodeFrom? 0 s

/-- Characters of a list of bytes, each ill-formed part read as one replacement character. -/
def decodeLossyFrom : Nat → List UInt8 → List Char
  | _, [] => []
  | skip + 1, _ :: s => decodeLossyFrom skip s
  | 0, a :: s => match head a s with
    | .illFormed w => Char.ofNat 0xFFFD :: decodeLossyFrom (w - 1) s
    | .char c w => c :: decodeLossyFrom (w - 1) s

def decodeLossy (s : List UInt8) : List Char :=
  decodeLossyFrom 0 s

/-- String with these bytes, if they are UTF-8. -/
def ofUtf8? (s : List UInt8) : Option String :=
  (decode? s).map String.ofList

@[simp] theorem encode_nil : encode [] = [] := rfl

@[simp] theorem encode_cons (c : Char) (s : List Char) :
    encode (c :: s) = encodeChar c ++ encode s := rfl

theorem encode_append (s t : List Char) : encode (s ++ t) = encode s ++ encode t := by
  simp [encode]

end LiveAudit.Text
