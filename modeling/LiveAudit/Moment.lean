import LiveAudit.Text.Quoted

/-!
# Moments

A moment in universal time, as journals write it: the date in eight digits, and a stamp with date,
time and as many digits of the second's fraction as are needed.
-/

namespace LiveAudit

structure Moment where
  date : String
  stamp : String
deriving DecidableEq, Repr

namespace Moment

open Text

/-- Decimal digits of a number, with zeros in front up to a width. -/
def digits (width n : Nat) : List Char :=
  let all := decimal n
  List.replicate (width - all.length) '0' ++ all

/-- Year, month and day, for a number of days since the first of March of the year zero. Years begin
in March, so that a leap day is the last of its year. -/
def civil (days : Nat) : Nat × Nat × Nat :=
  let era := days / 146097
  let day := days % 146097
  let year := (day - day / 1460 + day / 36524 - day / 146096) / 365
  let day := day - (365 * year + year / 4 - year / 100)
  let month := (5 * day + 2) / 153
  let day := day - (153 * month + 2) / 5 + 1
  let year := 400 * era + year
  if month < 10 then (year, month + 3, day) else (year + 1, month - 9, day)

/-- Days from the first of March of the year zero to the first of January 1970. -/
def daysBefore1970 : Nat := 719468

/-- Digits of a year, month and day, with a text between them. -/
def writeDay (between : List Char) : Nat × Nat × Nat → List Char
  | (year, month, day) => digits 4 year ++ between ++ digits 2 month ++ between ++ digits 2 day

/-- Moment so many nanoseconds after the start of 1970. -/
def ofNanoseconds (n : Nat) : Moment :=
  let seconds := n / 1000000000
  let day := civil (seconds / 86400 + daysBefore1970)
  let fraction := ((digits 9 (n % 1000000000)).reverse.dropWhile (· = '0')).reverse
  let time := seconds % 86400
  { date := String.ofList (writeDay [] day)
    stamp := String.ofList <|
      writeDay ['-'] day ++ 'T' ::
        digits 2 (time / 3600) ++ ':' :: digits 2 (time / 60 % 60) ++ ':' :: digits 2 (time % 60) ++
        (if fraction.isEmpty then [] else '.' :: fraction) ++ ['Z'] }

end Moment

end LiveAudit
