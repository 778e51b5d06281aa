import LiveAudit.Url.Percent

/-!
# Numeric addresses

The two kinds of numeric host. One with four parts has decimal, octal and hexadecimal parts, and its
last part may stand for several; it is written with four decimal ones. One with eight pieces may
leave out a run of zeros, and is written so, its longest run left out.
-/

namespace LiveAudit.Url

open Text

/-- Parts of a text between separators; always at least one. -/
def splitAt (separator : Char) : List Char → List (List Char)
  | [] => [[]]
  | c :: rest =>
    match splitAt separator rest with
    | [] => [[c]]
    | part :: parts => if c = separator then [] :: part :: parts else (c :: part) :: parts

/-- Value of a digit in a base up to sixteen. -/
def digitIn? (base : Nat) (c : Char) : Option Nat :=
  if c.toNat < 0x80 then (digitValue? c.toNat.toUInt8).filter (· < base) else none

/-- Number with these digits; none are zero. -/
def numberIn? (base : Nat) (digits : List Char) : Option Nat :=
  digits.foldlM (fun n c => (digitIn? base c).map (base * n + ·)) 0

/-! ### Four parts -/

/-- Number that a part stands for: hexadecimal after `0x`, octal after another zero. -/
def partNumber? : List Char → Option Nat
  | [] => none
  | '0' :: 'x' :: digits => numberIn? 16 digits
  | '0' :: 'X' :: digits => numberIn? 16 digits
  | '0' :: digit :: digits => numberIn? 8 (digit :: digits)
  | digits => numberIn? 10 digits

/-- Whether a host can only be meant as a numeric one, by its last part. -/
def endsInNumber (host : List Char) : Bool :=
  let parts := (splitAt '.' host).reverse
  let last := match parts with
    | [] :: last :: _ => last
    | last :: _ => last
    | [] => []
  !last.isEmpty && (last.all Char.isDigit || (partNumber? last).isSome)

/-- Number of a host with at most four parts, the last of which fills what the others leave. -/
def fourParts? (host : List Char) : Option Nat :=
  let parts := splitAt '.' host
  let parts := if 1 < parts.length ∧ parts.getLast? = some [] then parts.dropLast else parts
  if 4 < parts.length then none
  else
    (parts.mapM partNumber?).bind fun numbers =>
      let front := numbers.dropLast
      let last := numbers.getLastD 0
      if front.all (· ≤ 255) ∧ last < Nat.pow 256 (4 - front.length) then
        some (front.foldl (fun n part => 256 * n + part) 0 * Nat.pow 256 (4 - front.length) + last)
      else none

def fourPartsText (n : Nat) : List Char :=
  decimal (n / 16777216 % 256) ++ '.' :: decimal (n / 65536 % 256) ++ '.' ::
    decimal (n / 256 % 256) ++ '.' :: decimal (n % 256)

/-! ### Eight pieces -/

/-- Piece of one to four hexadecimal digits. -/
def piece? (digits : List Char) : Option Nat :=
  if digits.isEmpty ∨ 4 < digits.length then none else numberIn? 16 digits

/-- Decimal number up to 255 without a leading zero. -/
def byte? (digits : List Char) : Option Nat :=
  if digits.isEmpty ∨ (1 < digits.length ∧ digits.head? = some '0') then none
  else (numberIn? 10 digits).filter (· ≤ 255)

/-- Pieces between colons; the last one may be a host of four parts, which makes two. -/
def pieces? (s : List Char) : Option (List Nat) :=
  let parts := splitAt ':' s
  match parts.getLast? with
  | none => none
  | some last =>
    if last.contains '.' then do
      let front ← parts.dropLast.mapM piece?
      match (splitAt '.' last).map byte? with
      | [some a, some b, some c, some d] => some (front ++ [256 * a + b, 256 * c + d])
      | _ => none
    else parts.mapM piece?

/-- Pieces of a possibly empty part beside the run of zeros. -/
def side? (s : List Char) : Option (List Nat) :=
  if s.isEmpty then some [] else pieces? s

/-- Cuts a text at the first double colon. -/
def cutAtRun : List Char → Option (List Char × List Char)
  | [] => none
  | c :: rest =>
    match c, rest with
    | ':', ':' :: after => some ([], after)
    | _, _ => (cutAtRun rest).map fun r => (c :: r.1, r.2)

/-- The eight pieces of a host; a double colon stands for one zero or more. -/
def eightPieces? (host : List Char) : Option (List Nat) :=
  match cutAtRun host with
  | none => (pieces? host).filter (·.length = 8)
  | some (front, back) =>
    if front.contains '.' then none
    else do
      let front ← side? front
      let back ← side? back
      let zeros := 8 - (front.length + back.length)
      if zeros = 0 then none else some (front ++ List.replicate zeros 0 ++ back)

/-- Length of the run of zeros at the start. -/
def zerosAt (pieces : List Nat) : Nat :=
  (pieces.takeWhile (· = 0)).length

/-- Place and length of the first longest run of zeros. -/
def longestRun (pieces : List Nat) : Nat × Nat :=
  (List.range pieces.length).foldl (fun best i =>
    let n := zerosAt (pieces.drop i)
    if best.2 < n then (i, n) else best) (0, 0)

def piecesText (pieces : List Nat) : List Char :=
  [':'].intercalate (pieces.map hexadecimal)

/-- Pieces with the first longest run of two zeros or more left out. -/
def eightPiecesText (pieces : List Nat) : List Char :=
  let (start, count) := longestRun pieces
  if count < 2 then piecesText pieces
  else piecesText (pieces.take start) ++ [':', ':'] ++ piecesText (pieces.drop (start + count))

end LiveAudit.Url
