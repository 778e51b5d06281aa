/-!
# Shortest decimals

The fewest digits that read back as a given binary fraction. A finite double is a mantissa times a
power of two, and the reals that round to it form an interval around it. For one digit, two digits
and so on, the two neighbours of the value on that decimal grid are tried; the first grid with one
of them inside the interval wins, and of two the nearer.

All comparisons are between natural numbers, so that nothing is lost to rounding.
-/

namespace LiveAudit.Decimal

/-- A positive binary fraction `mantissa * 2 ^ exponent`, with the place of its neighbour below. -/
structure Binary where
  mantissa : Nat
  exponent : Int
  /-- The neighbour below is half as far as the one above. -/
  narrowBelow : Bool

/-- A decimal fraction `digits * 10 ^ exponent`. -/
structure Fraction where
  digits : Nat
  exponent : Int
deriving DecidableEq, Repr

/-- Weight of the leading bit of a double, which its mantissa does not write. -/
def leadingBit : Nat := 4503599627370496

/-- Magnitude of a finite double; `none` for zero and for what is not finite. -/
def Binary.ofFloat? (x : Float) : Option Binary :=
  let bits := x.toBits.toNat
  let field : Nat := bits / leadingBit % 2048
  let low : Nat := bits % leadingBit
  if field = 2047 then none
  else if field = 0 then
    if low = 0 then none else some ⟨low, -1074, false⟩
  else some ⟨leadingBit + low, (field : Int) - 1075, low = 0 ∧ field ≠ 1⟩

/-- Factor that a negative power of `base` puts on the other side of a comparison. -/
def scale (base : Nat) (exponent : Int) : Nat :=
  Nat.pow base exponent.toNat

/-- Number of decimal digits, zero for zero. -/
def digitCount : Nat → Nat
  | 0 => 0
  | n + 1 => digitCount ((n + 1) / 10) + 1
termination_by n => n
decreasing_by omega

/-- How often `n` must be multiplied by ten to reach `goal`, at most `fuel` times. -/
def shiftsToReach (goal : Nat) : Nat → Nat → Nat
  | 0, _ => 0
  | fuel + 1, n => if goal ≤ n then 0 else shiftsToReach goal fuel (n * 10) + 1

/-- Decimal magnitude: `10 ^ (magnitude - 1) ≤ value < 10 ^ magnitude`. -/
def Binary.magnitude (b : Binary) : Int :=
  let above := b.mantissa * scale 2 b.exponent
  let below := scale 2 (-b.exponent)
  if below ≤ above then digitCount (above / below)
  else 1 - (shiftsToReach below 400 above : Int)

/-- Neighbour of the value on the grid of `count` digits that reads back, if there is one. The unit
of all three bounds is a quarter of the last place of the mantissa. -/
def Binary.onGrid? (b : Binary) (count : Nat) : Option Fraction :=
  let step := b.magnitude - count
  let quarter := b.exponent - 2
  let left := scale 2 quarter * scale 10 (-step)
  let right := scale 2 (-quarter) * scale 10 step
  let value := 4 * b.mantissa * left
  let low := (4 * b.mantissa - if b.narrowBelow then 1 else 2) * left
  let high := (4 * b.mantissa + 2) * left
  let inside (n : Nat) : Bool :=
    if b.mantissa % 2 = 0 then low ≤ n * right ∧ n * right ≤ high
    else low < n * right ∧ n * right < high
  let down := value / right
  let up := down + 1
  let pick : Option Nat :=
    match inside down, inside up with
    | true, false => some down
    | false, true => some up
    | false, false => none
    | true, true =>
      let below := value - down * right
      let above := up * right - value
      if below < above ∨ (below = above ∧ down % 2 = 0) then some down else some up
  pick.map fun n => ⟨n, step⟩

/-- Moves zeros at the end of the digits into the exponent, at most `fuel` of them. -/
def Fraction.trimmed : Nat → Fraction → Fraction
  | 0, d => d
  | fuel + 1, d =>
    if d.digits % 10 = 0 ∧ d.digits ≠ 0 then
      Fraction.trimmed fuel ⟨d.digits / 10, d.exponent + 1⟩
    else d

/-- The shortest decimal that reads back as the value. Seventeen digits always do. -/
def Binary.shortest (b : Binary) : Fraction :=
  let found := (List.range 17).findSome? fun n => b.onGrid? (n + 1)
  (found.getD ⟨b.mantissa, b.exponent⟩).trimmed 20

end LiveAudit.Decimal
