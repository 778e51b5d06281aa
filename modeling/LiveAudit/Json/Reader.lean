import LiveAudit.Json.Fault

/-!
# Readers

A reader takes a value off the front of a text and returns the rest, with the fact that the rest is
shorter. That fact is what ends every loop over a text. What stands in a list or object is read by
loops that may read nothing, and these return a rest that is no longer than their text.
-/

namespace LiveAudit.Json

/-- Code of an ASCII character. -/
def byte (c : Char) : UInt8 :=
  c.toNat.toUInt8

/-- A value read off the front of `s`. -/
structure Step (α : Type) (s : List UInt8) where
  value : α
  rest : List UInt8
  shorter : rest.length < s.length

/-- What a loop over `s` has gathered, with the text it did not read. -/
structure Within (α : Type) (s : List UInt8) where
  value : α
  rest : List UInt8
  within : rest.length ≤ s.length

abbrev Reader (α : Type) : Type :=
  (s : List UInt8) → Except Fault (Step α s)

def Step.map {α β : Type} {s : List UInt8} (f : α → β) (p : Step α s) : Step β s :=
  ⟨f p.value, p.rest, p.shorter⟩

/-- The same value, read off the front of a longer text. -/
def Step.widen {α : Type} {s t : List UInt8} (h : s.length ≤ t.length) (p : Step α s) : Step α t :=
  ⟨p.value, p.rest, Nat.lt_of_lt_of_le p.shorter h⟩

/-- A value that is read as one byte. -/
def Step.ofHead {α : Type} (a : α) (b : UInt8) (rest : List UInt8) : Step α (b :: rest) :=
  ⟨a, rest, Nat.lt_succ_self _⟩

/-- The same value, with one more byte read in front of it. -/
def Step.behind {α : Type} {s : List UInt8} (b : UInt8) (p : Step α s) : Step α (b :: s) :=
  ⟨p.value, p.rest, Nat.lt_succ_of_lt p.shorter⟩

/-- The second of two values that are read one behind the other. -/
def Step.followedBy {α β : Type} {s : List UInt8} (p : Step α s) (q : Step β p.rest) : Step β s :=
  ⟨q.value, q.rest, Nat.lt_trans q.shorter p.shorter⟩

/-- A loop that has read nothing. -/
def Within.start {α : Type} (a : α) (s : List UInt8) : Within α s :=
  ⟨a, s, Nat.le_refl _⟩

/-- What a loop has gathered, with one byte read in front of it. -/
def Within.behind {α : Type} {s : List UInt8} (b : UInt8) (p : Within α s) : Step α (b :: s) :=
  ⟨p.value, p.rest, Nat.lt_succ_of_le p.within⟩

/-- Where a loop begins: its text is a part of itself. -/
theorem length_self_le (s : List UInt8) : s.length ≤ s.length :=
  Nat.le_refl _

/-! ### Blanks -/

def isSpace (b : UInt8) : Bool :=
  b = byte ' ' ∨ b = byte '\n' ∨ b = byte '\t' ∨ b = byte '\r'

def skipSpace (s : List UInt8) : List UInt8 :=
  s.dropWhile isSpace

theorem length_skipSpace_le (s : List UInt8) : (skipSpace s).length ≤ s.length := by
  unfold skipSpace
  exact (List.dropWhile_sublist _).length_le

/-- What stands behind the first byte that is no blank is shorter than the text. -/
theorem length_lt_of_skipSpace {s rest : List UInt8} {b : UInt8} (h : skipSpace s = b :: rest) :
    rest.length < s.length := by
  have le := length_skipSpace_le s
  rw [h] at le
  exact le

theorem length_le_of_skipSpace {s rest : List UInt8} {b : UInt8} (h : skipSpace s = b :: rest) :
    rest.length ≤ s.length :=
  Nat.le_of_lt (length_lt_of_skipSpace h)

/-- Reads a value after blanks. -/
def afterSpace {α : Type} (read : Reader α) : Reader α := fun s =>
  (read (skipSpace s)).map (Step.widen (length_skipSpace_le s))

/-! ### Literals -/

/-- Reads the rest of a literal whose first letter has been read. -/
def literal (letters : List UInt8) (s : List UInt8) : Except Fault (Within Unit s) :=
  match letters, s with
  | [], s => .ok (.start () s)
  | _ :: _, [] => .error (.here .endInValue [])
  | a :: letters, b :: rest =>
    if a = b then
      (literal letters rest).map fun p => ⟨(), p.rest, Nat.le_succ_of_le p.within⟩
    else .error (.here .expectedIdent rest)

def nullTail : List UInt8 := [byte 'u', byte 'l', byte 'l']

def trueTail : List UInt8 := [byte 'r', byte 'u', byte 'e']

def falseTail : List UInt8 := [byte 'a', byte 'l', byte 's', byte 'e']

end LiveAudit.Json
