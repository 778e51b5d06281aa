import LiveAudit.Url.Percent

/-!
# Labels in basic letters

A label of any characters as letters, digits and hyphens. The basic characters come first; the
others follow as steps of an insertion, which goes through the code points in increasing order and,
for each, through the places of the label. A step is a number with digits in base 36, whose end is
told by a threshold that adapts to the sizes met so far.
-/

namespace LiveAudit.Url.Punycode

/-- Character of a digit below 36. -/
def digitChar (d : Nat) : Char :=
  if d < 26 then Char.ofNat ('a'.toNat + d) else Char.ofNat ('0'.toNat + (d - 26))

def digit? (c : Char) : Option Nat :=
  if c.isDigit then some (c.toNat - '0'.toNat + 26)
  else if c.isLower then some (c.toNat - 'a'.toNat)
  else if c.isUpper then some (c.toNat - 'A'.toNat)
  else none

/-- Digits below the threshold end a number. -/
def threshold (position bias : Nat) : Nat :=
  min 26 (max 1 (position - bias))

theorem threshold_bounds (position bias : Nat) :
    1 ≤ threshold position bias ∧ threshold position bias ≤ 26 := by
  unfold threshold
  omega

/-- How often a step is divided until it is small. -/
def shrink (delta count : Nat) : Nat × Nat :=
  if 455 < delta then shrink (delta / 35) (count + 36) else (delta, count)
termination_by delta

/-- Bias after a step, the first one being damped more than the others. -/
def adapt (delta points : Nat) (first : Bool) : Nat :=
  let delta := if first then delta / 700 else delta / 2
  let (delta, count) := shrink (delta + delta / points) 0
  count + 36 * delta / (delta + 38)

/-- A character put into a label: its code point, and how many characters are in front of it then.
-/
structure Insertion where
  point : Nat
  place : Nat
deriving DecidableEq, Repr

/-! ### Writing -/

/-- Digits of a step. -/
def writeStep (bias position n : Nat) : List Char :=
  let t := threshold position bias
  if n < t then [digitChar n]
  else digitChar (t + (n - t) % (36 - t)) :: writeStep bias (position + 36) ((n - t) / (36 - t))
termination_by n
decreasing_by
  have := threshold_bounds position bias
  have := Nat.div_le_self (n - threshold position bias) (36 - threshold position bias)
  omega

/-- Insertions that make a label of its basic characters, by increasing code point and those of one
code point from the front. Smaller characters are there before, and greater ones come later. -/
def insertions (label : List Char) : List Insertion :=
  let all := label.zipIdx.filterMap fun (c, i) =>
    if c.toNat < 128 then none
    else some ⟨c.toNat, (label.take i).countP (·.toNat ≤ c.toNat)⟩
  all.mergeSort fun a b => a.point ≤ b.point

/-- Digits of insertions into a label with `count` places. The way to an insertion leads from
`place` of the code point `point` through all places of each code point between. -/
def writeAll (bias point place count : Nat) (first : Bool) : List Insertion → List Char
  | [] => []
  | next :: rest =>
    let step := (next.point - point) * count + next.place - place
    writeStep bias 36 step ++
      writeAll (adapt step count first) next.point (next.place + 1) (count + 1) false rest

def encode (label : List Char) : List Char :=
  let basic := label.filter (·.toNat < 128)
  basic ++ (if basic.isEmpty then [] else ['-']) ++
    writeAll 72 128 0 (basic.length + 1) true (insertions label)

/-! ### Reading -/

/-- Reads a step, which is added to `n`, with digits of increasing weight. -/
def readStep (bias : Nat) : (position weight n : Nat) → List Char → Option (Nat × List Char)
  | _, _, _, [] => none
  | position, weight, n, c :: rest =>
    (digit? c).bind fun d =>
      let t := threshold position bias
      let n := n + d * weight
      if d < t then some (n, rest) else readStep bias (position + 36) (weight * (36 - t)) n rest

/-- Reads as many insertions as the fuel allows; each has a digit at least. -/
def readAll : (fuel : Nat) → (bias point place : Nat) → (label digits : List Char) →
    Option (List Char)
  | _, _, _, _, label, [] => some label
  | 0, _, _, _, _, _ :: _ => none
  | fuel + 1, bias, point, place, label, digits@(_ :: _) => do
    let (next, rest) ← readStep bias 36 1 place digits
    let count := label.length + 1
    let point := point + next / count
    if point.isValidChar then
      let at_ := next % count
      readAll fuel (adapt (next - place) count (place == 0)) point (at_ + 1)
        (label.insertIdx at_ (Char.ofNat point)) rest
    else none

/-- Label that basic letters stand for. -/
def decode? (s : List Char) : Option (List Char) :=
  let digits := (s.reverse.takeWhile (· ≠ '-')).reverse
  let basic := (s.take (s.length - digits.length)).dropLast
  readAll digits.length 72 128 0 basic digits

end LiveAudit.Url.Punycode
