import Mathlib.Data.List.Forall2
import LiveAudit.Json.Record

/-!
# Texts of values

Which bytes are a JSON text of a value (`Value.Spells`). One value has many texts: blanks may stand
around every element, a character may be escaped, and a number may have a fraction and an exponent.
The relation follows the value and says nothing of how a text is read.

Bytes may have the form of a value and be the text of none (`Formed`): an escape may stand for half
a character, and a number may be too large.
-/

namespace LiveAudit.Json

/-- Nothing but blanks. -/
def Blank (s : List UInt8) : Prop :=
  ∀ b ∈ s, isSpace b

/-! ### Numbers -/

def SpellsDigits (ds : List Nat) (s : List UInt8) : Prop :=
  (∀ b ∈ s, isDigit b) ∧ s.map digitValue = ds

/-- Digits in front of the point: a zero alone, or digits that do not begin with a zero. -/
inductive SpellsWhole : List Nat → List UInt8 → Prop where
  | zero : SpellsWhole [0] [byte '0']
  | digits {b : UInt8} {ds : List Nat} {s : List UInt8} (lead : isDigit b) (nonzero : b ≠ byte '0')
      (more : SpellsDigits ds s) : SpellsWhole (digitValue b :: ds) (b :: s)

inductive SpellsFraction : Option (List Nat) → List UInt8 → Prop where
  | none : SpellsFraction none []
  | some {ds : List Nat} {s : List UInt8} (nonempty : s ≠ []) (digits : SpellsDigits ds s) :
      SpellsFraction (some ds) (byte '.' :: s)

/-- Sign of an exponent, which may be left out where it is plus. -/
inductive SpellsSign : Bool → List UInt8 → Prop where
  | none : SpellsSign false []
  | plus : SpellsSign false [byte '+']
  | minus : SpellsSign true [byte '-']

inductive SpellsExponent : Option (Bool × List Nat) → List UInt8 → Prop where
  | none : SpellsExponent none []
  | some {mark b : UInt8} {down : Bool} {sign s : List UInt8} {ds : List Nat}
      (isMark : isExponentMark mark) (signed : SpellsSign down sign) (lead : isDigit b)
      (more : SpellsDigits ds s) :
      SpellsExponent (some (down, digitValue b :: ds)) (mark :: sign ++ b :: s)

inductive Numeral.Spells : Numeral → List UInt8 → Prop where
  | mk {w f e : List UInt8} {whole : List Nat} {fraction : Option (List Nat)}
      {exponent : Option (Bool × List Nat)} (hwhole : SpellsWhole whole w)
      (hfraction : SpellsFraction fraction f) (hexponent : SpellsExponent exponent e) :
      Numeral.Spells ⟨whole, fraction, exponent⟩ (w ++ (f ++ e))

inductive Number.Spells : Number → List UInt8 → Prop where
  | positive {n : Numeral} {x : Number} {s : List UInt8} (digits : n.Spells s)
      (value : n.toNumber false [] = .ok x) : Number.Spells x s
  | negative {n : Numeral} {x : Number} {s : List UInt8} (digits : n.Spells s)
      (value : n.toNumber true [] = .ok x) : Number.Spells x (byte '-' :: s)

/-! ### Strings -/

/-- An escape of four hexadecimal digits. -/
inductive SpellsUnit : Nat → List UInt8 → Prop where
  | mk {a b c d : UInt8} {x y z w : Nat} (ha : hexValue? a = some x) (hb : hexValue? b = some y)
      (hc : hexValue? c = some z) (hd : hexValue? d = some w) :
      SpellsUnit (x * 4096 + y * 256 + z * 16 + w) [byte '\\', byte 'u', a, b, c, d]

/-- Bytes of a character in a string: its own code, a letter behind a backslash, or the hexadecimal
digits of its code point or of both surrogates of its pair. -/
inductive SpellsChar : Char → List UInt8 → Prop where
  | plain {c : Char} (shown : 0x20 ≤ c.toNat) (quote : c ≠ '"') (backslash : c ≠ '\\') :
      SpellsChar c (Text.encodeChar c)
  | letter {b x : UInt8} (h : escapedByte? b = some x) :
      SpellsChar (Char.ofNat x.toNat) [byte '\\', b]
  | unit {n : Nat} {s : List UInt8} (h : SpellsUnit n s) (alone : n < 0xD800 ∨ 0xDFFF < n) :
      SpellsChar (Char.ofNat n) s
  | pair {high low : Nat} {s t : List UInt8} (hs : SpellsUnit high s) (ht : SpellsUnit low t)
      (hhigh : 0xD800 ≤ high ∧ high ≤ 0xDBFF) (hlow : 0xDC00 ≤ low ∧ low ≤ 0xDFFF) :
      SpellsChar (Char.ofNat ((high - 0xD800) * 0x400 + (low - 0xDC00) + 0x10000)) (s ++ t)

/-- Bytes of a string from behind its opening quote, with the closing one. -/
inductive SpellsTail : List Char → List UInt8 → Prop where
  | nil : SpellsTail [] [byte '"']
  | cons {c : Char} {cs : List Char} {s t : List UInt8} (head : SpellsChar c s)
      (tail : SpellsTail cs t) : SpellsTail (c :: cs) (s ++ t)

/-! ### Values -/

/-- What stands between an element and the one before it: a comma, unless it is the first. -/
inductive SpellsComma : Bool → List UInt8 → Prop where
  | first : SpellsComma true []
  | next {s : List UInt8} (blank : Blank s) : SpellsComma false (s ++ [byte ','])

/-- Key of a member with its colon. -/
inductive SpellsKey : String → List UInt8 → Prop where
  | mk {key : String} {s t : List UInt8} (tail : SpellsTail key.toList s) (blank : Blank t) :
      SpellsKey key (byte '"' :: s ++ (t ++ [byte ':']))

namespace Value

mutual

/-- The bytes are a text of the value, without blanks around it. -/
def Spells : Value → List UInt8 → Prop
  | .null, s => s = byte 'n' :: nullTail
  | .bool true, s => s = byte 't' :: trueTail
  | .bool false, s => s = byte 'f' :: falseTail
  | .integer n, s => (Number.integer n).Spells s
  | .float x, s => (Number.float x).Spells s
  | .string text, s => ∃ t, SpellsTail text.toList t ∧ s = byte '"' :: t
  | .array items, s => ∃ t, SpellsItems true items t ∧
      s = Bracket.list.opening :: (t ++ [Bracket.list.closing])
  | .object members, s => ∃ t, SpellsMembers true members t ∧
      s = Bracket.object.opening :: (t ++ [Bracket.object.closing])

/-- The bytes are the items of a list up to its closing bracket; `first` tells that none stands in
front of them. -/
def SpellsItems (first : Bool) : List Value → List UInt8 → Prop
  | [], t => Blank t
  | v :: rest, t => ∃ comma blank s more, SpellsComma first comma ∧ Blank blank ∧ Spells v s ∧
      SpellsItems false rest more ∧ t = comma ++ (blank ++ (s ++ more))

/-- The bytes are the members of an object up to its closing bracket. -/
def SpellsMembers (first : Bool) : List (String × Value) → List UInt8 → Prop
  | [], t => Blank t
  | (k, v) :: rest, t => ∃ comma lead key blank s more, SpellsComma first comma ∧ Blank lead ∧
      SpellsKey k key ∧ Blank blank ∧ Spells v s ∧ SpellsMembers false rest more ∧
      t = comma ++ (lead ++ (key ++ (blank ++ (s ++ more))))

end

end Value

/-- The bytes are the members of an object up to its closing bracket, each a key and the bytes of
its value, whatever they are. -/
inductive SpellsEntries : Bool → List (String × List UInt8) → List UInt8 → Prop where
  | nil {first : Bool} {t : List UInt8} (blank : Blank t) : SpellsEntries first [] t
  | cons {first : Bool} {k : String} {comma lead key blank s more : List UInt8}
      {rest : List (String × List UInt8)} (hcomma : SpellsComma first comma) (hlead : Blank lead)
      (hkey : SpellsKey k key) (hblank : Blank blank) (hmore : SpellsEntries false rest more) :
      SpellsEntries first ((k, s) :: rest)
        (comma ++ (lead ++ (key ++ (blank ++ (s ++ more)))))

/-- The members of an object as entries. -/
theorem Value.SpellsMembers.exists_entries {first : Bool} {members : List (String × Value)}
    {t : List UInt8} (h : SpellsMembers first members t) :
    ∃ entries, SpellsEntries first entries t ∧
      List.Forall₂ (fun m e => m.1 = e.1 ∧ m.2.Spells e.2) members entries := by
  induction members generalizing first t with
  | nil =>
    rw [SpellsMembers] at h
    exact ⟨[], .nil h, .nil⟩
  | cons m rest ih =>
    obtain ⟨k, v⟩ := m
    rw [SpellsMembers] at h
    obtain ⟨comma, lead, key, blank, s, more, hcomma, hlead, hkey, hblank, hs, hmore, rfl⟩ := h
    obtain ⟨entries, hentries, hall⟩ := ih hmore
    exact ⟨(k, s) :: entries, .cons hcomma hlead hkey hblank hentries, .cons ⟨rfl, hs⟩ hall⟩

namespace Value

/-! ### Depth -/

mutual

/-- How many brackets stand open at most in a text of the value. -/
def nesting : Value → Nat
  | .array items => nestingItems items + 1
  | .object members => nestingMembers members + 1
  | .null => 0
  | .bool _ => 0
  | .integer _ => 0
  | .float _ => 0
  | .string _ => 0

def nestingItems : List Value → Nat
  | [] => 0
  | v :: rest => max (nesting v) (nestingItems rest)

def nestingMembers : List (String × Value) → Nat
  | [] => 0
  | (_, v) :: rest => max (nesting v) (nestingMembers rest)

end

theorem nestingMembers_le_iff {members : List (String × Value)} {depth : Nat} :
    nestingMembers members ≤ depth ↔ ∀ m ∈ members, m.2.nesting ≤ depth := by
  induction members with
  | nil => simp [nestingMembers]
  | cons m rest ih =>
    obtain ⟨key, v⟩ := m
    rw [nestingMembers, Nat.max_le, ih, List.forall_mem_cons]

end Value

/-! ### Form -/

/-- Bytes of a string from behind its opening quote, any four digits being an escape. -/
inductive FormedTail : List UInt8 → Prop where
  | nil : FormedTail [byte '"']
  | plain {c : Char} {t : List UInt8} (shown : 0x20 ≤ c.toNat) (quote : c ≠ '"')
      (backslash : c ≠ '\\') (tail : FormedTail t) : FormedTail (Text.encodeChar c ++ t)
  | letter {b x : UInt8} {t : List UInt8} (h : escapedByte? b = some x) (tail : FormedTail t) :
      FormedTail (byte '\\' :: b :: t)
  | unit {n : Nat} {s t : List UInt8} (h : SpellsUnit n s) (tail : FormedTail t) :
      FormedTail (s ++ t)

/-- Form of a key with its colon. -/
inductive FormedKey : List UInt8 → Prop where
  | mk {s t : List UInt8} (tail : FormedTail s) (blank : Blank t) :
      FormedKey (byte '"' :: s ++ (t ++ [byte ':']))

mutual

/-- The bytes have the form of a value, without blanks around it. -/
inductive Formed : List UInt8 → Prop where
  | null : Formed (byte 'n' :: nullTail)
  | true : Formed (byte 't' :: trueTail)
  | false : Formed (byte 'f' :: falseTail)
  | positive {n : Numeral} {s : List UInt8} (h : n.Spells s) : Formed s
  | negative {n : Numeral} {s : List UInt8} (h : n.Spells s) : Formed (byte '-' :: s)
  | string {t : List UInt8} (h : FormedTail t) : Formed (byte '"' :: t)
  | array {t : List UInt8} (h : FormedItems true t) :
      Formed (Bracket.list.opening :: (t ++ [Bracket.list.closing]))
  | object {t : List UInt8} (h : FormedMembers true t) :
      Formed (Bracket.object.opening :: (t ++ [Bracket.object.closing]))

inductive FormedItems : Bool → List UInt8 → Prop where
  | nil {first : Bool} {t : List UInt8} (blank : Blank t) : FormedItems first t
  | cons {first : Bool} {comma blank s more : List UInt8} (hcomma : SpellsComma first comma)
      (hblank : Blank blank) (hs : Formed s) (hmore : FormedItems false more) :
      FormedItems first (comma ++ (blank ++ (s ++ more)))

inductive FormedMembers : Bool → List UInt8 → Prop where
  | nil {first : Bool} {t : List UInt8} (blank : Blank t) : FormedMembers first t
  | cons {first : Bool} {comma lead key blank s more : List UInt8}
      (hcomma : SpellsComma first comma) (hlead : Blank lead) (hkey : FormedKey key)
      (hblank : Blank blank) (hs : Formed s) (hmore : FormedMembers false more) :
      FormedMembers first (comma ++ (lead ++ (key ++ (blank ++ (s ++ more)))))

end

theorem SpellsChar.formedTail {c : Char} {s t : List UInt8} (h : SpellsChar c s)
    (tail : FormedTail t) : FormedTail (s ++ t) := by
  cases h with
  | plain shown quote backslash => exact .plain shown quote backslash tail
  | letter h => exact .letter h tail
  | unit h alone => exact .unit h tail
  | pair hs ht hhigh hlow =>
    rw [List.append_assoc]
    exact .unit hs (.unit ht tail)

theorem SpellsTail.formed {cs : List Char} {t : List UInt8} (h : SpellsTail cs t) :
    FormedTail t := by
  induction h with
  | nil => exact .nil
  | cons head _ ih => exact head.formedTail ih

theorem SpellsKey.formed {key : String} {s : List UInt8} (h : SpellsKey key s) : FormedKey s := by
  obtain ⟨tail, blank⟩ := h
  exact .mk tail.formed blank

theorem Number.Spells.formed {x : Number} {s : List UInt8} (h : x.Spells s) : Formed s := by
  cases h with
  | positive digits _ => exact .positive digits
  | negative digits _ => exact .negative digits

namespace Value

mutual

/-- A text of a value has the form of one. -/
theorem Spells.formed {s : List UInt8} : {v : Value} → v.Spells s → Formed s
  | .null, h => by
    rw [Spells] at h
    exact h ▸ .null
  | .bool true, h => by
    rw [Spells] at h
    exact h ▸ .true
  | .bool false, h => by
    rw [Spells] at h
    exact h ▸ .false
  | .integer n, h => by
    rw [Spells] at h
    exact h.formed
  | .float x, h => by
    rw [Spells] at h
    exact h.formed
  | .string text, h => by
    rw [Spells] at h
    obtain ⟨t, ht, rfl⟩ := h
    exact .string ht.formed
  | .array items, h => by
    rw [Spells] at h
    obtain ⟨t, ht, rfl⟩ := h
    exact .array (SpellsItems.formed ht)
  | .object members, h => by
    rw [Spells] at h
    obtain ⟨t, ht, rfl⟩ := h
    exact .object (SpellsMembers.formed ht)

theorem SpellsItems.formed {first : Bool} {t : List UInt8} :
    {items : List Value} → SpellsItems first items t → FormedItems first t
  | [], h => by
    rw [SpellsItems] at h
    exact .nil h
  | v :: rest, h => by
    rw [SpellsItems] at h
    obtain ⟨comma, blank, s, more, hcomma, hblank, hs, hmore, rfl⟩ := h
    exact .cons hcomma hblank (Spells.formed hs) (SpellsItems.formed hmore)

theorem SpellsMembers.formed {first : Bool} {t : List UInt8} :
    {members : List (String × Value)} → SpellsMembers first members t → FormedMembers first t
  | [], h => by
    rw [SpellsMembers] at h
    exact .nil h
  | (k, v) :: rest, h => by
    rw [SpellsMembers] at h
    obtain ⟨comma, lead, key, blank, s, more, hcomma, hlead, hkey, hblank, hs, hmore, rfl⟩ := h
    exact .cons hcomma hlead hkey.formed hblank (Spells.formed hs) (SpellsMembers.formed hmore)

end

end Value

end LiveAudit.Json
