import Mathlib.Data.List.TakeWhile
import Mathlib.Tactic.SplitIfs
import LiveAudit.Proofs.Grammar
import LiveAudit.Proofs.Utf8

/-!
# Reading what is spelled

The readers of blanks, words, numbers and strings take every text of the grammar, and return what it
spells together with all that stands behind it. A number ends where the text behind it does not go
on with it (`Ends`); everything else has its own last byte.
-/

namespace LiveAudit.Json

/-! ### Results -/

/-- A reader has taken `a` and left `rest`. -/
def Reads {α : Type} {s : List UInt8} (result : Except Fault (Step α s)) (a : α)
    (rest : List UInt8) : Prop :=
  ∃ h, result = .ok ⟨a, rest, h⟩

/-- A loop has gathered `a` and left `rest`. -/
def Gathers {α : Type} {s : List UInt8} (result : Except Fault (Within α s)) (a : α)
    (rest : List UInt8) : Prop :=
  ∃ h, result = .ok ⟨a, rest, h⟩

section

variable {α β : Type} {s rest : List UInt8} {a : α}

theorem Reads.map (f : α → β) {r : Except Fault (Step α s)} (h : Reads r a rest) :
    Reads (r.map (Step.map f)) (f a) rest := by
  obtain ⟨_, rfl⟩ := h
  exact ⟨_, rfl⟩

theorem Reads.behind (b : UInt8) {r : Except Fault (Step α s)} (h : Reads r a rest) :
    Reads (r.map (Step.behind b)) a rest := by
  obtain ⟨_, rfl⟩ := h
  exact ⟨_, rfl⟩

theorem Reads.afterSpace {read : Reader α} (h : Reads (read (skipSpace s)) a rest) :
    Reads (afterSpace read s) a rest := by
  obtain ⟨_, h⟩ := h
  exact ⟨_, by rw [Json.afterSpace, h]; rfl⟩

theorem Reads.behind_map (b : UInt8) (f : α → β) {r : Except Fault (Step α s)}
    (h : Reads r a rest) : Reads (r.map fun p => (p.behind b).map f) (f a) rest := by
  obtain ⟨_, rfl⟩ := h
  exact ⟨_, rfl⟩

theorem Gathers.behind (b : UInt8) {r : Except Fault (Within α s)} (h : Gathers r a rest) :
    Reads (r.map (Within.behind b)) a rest := by
  obtain ⟨_, rfl⟩ := h
  exact ⟨_, rfl⟩

theorem Gathers.behind_map (b : UInt8) (f : α → β) {r : Except Fault (Within α s)}
    (h : Gathers r a rest) : Reads (r.map fun p => (p.behind b).map f) (f a) rest := by
  obtain ⟨_, rfl⟩ := h
  exact ⟨_, rfl⟩

end

/-! ### Blanks -/

/-- The text begins with something, and not with a blank. -/
def Shown (s : List UInt8) : Prop :=
  ∃ b t, s = b :: t ∧ isSpace b = false

theorem Shown.append {s : List UInt8} (h : Shown s) (t : List UInt8) : Shown (s ++ t) := by
  obtain ⟨b, u, rfl, hb⟩ := h
  exact ⟨b, u ++ t, rfl, hb⟩

theorem blank_nil : Blank [] :=
  List.forall_mem_nil _

theorem skipSpace_of_blank {s : List UInt8} (h : Blank s) : skipSpace s = [] :=
  List.dropWhile_eq_nil_iff.2 h

theorem skipSpace_cons {b : UInt8} {s : List UInt8} (h : isSpace b = false) :
    skipSpace (b :: s) = b :: s := by
  simp [skipSpace, h]

theorem skipSpace_append {blank s : List UInt8} (hblank : Blank blank) (hs : Shown s) :
    skipSpace (blank ++ s) = s := by
  obtain ⟨b, t, rfl, hb⟩ := hs
  unfold skipSpace
  rw [List.dropWhile_append_of_pos hblank]
  exact skipSpace_cons hb

/-! ### Words -/

theorem gathers_literal (letters rest : List UInt8) :
    Gathers (literal letters (letters ++ rest)) () rest := by
  induction letters with
  | nil => exact ⟨_, by simp only [literal, List.nil_append]; rfl⟩
  | cons a letters ih =>
    obtain ⟨_, ih⟩ := ih
    exact ⟨_, by simp only [literal, List.cons_append, if_true, ih]; rfl⟩

/-! ### Numbers -/

/-- The text does not begin with a digit. -/
def NoDigit (s : List UInt8) : Prop :=
  ∀ b ∈ s.head?, isDigit b = false

/-- Byte that may stand in a number behind its first digit. -/
def continues (b : UInt8) : Bool :=
  isDigit b ∨ b = byte '.' ∨ isExponentMark b

/-- The text does not go on with a number. -/
def Ends (s : List UInt8) : Prop :=
  ∀ b ∈ s.head?, continues b = false

theorem Ends.noDigit {s : List UInt8} (h : Ends s) : NoDigit s := by
  intro b hb
  have := h b hb
  simp only [continues, decide_eq_false_iff_not, not_or] at this
  simpa using this.1

theorem ends_cons {b : UInt8} {s : List UInt8} (h : continues b = false) : Ends (b :: s) := by
  simpa [Ends] using h

theorem Blank.ends {s : List UInt8} (h : Blank s) : Ends s := by
  intro b hb
  have hspace := h b (List.mem_of_mem_head? hb)
  simp only [isSpace, decide_eq_true_eq] at hspace
  obtain rfl | rfl | rfl | rfl := hspace <;> decide

theorem Blank.ends_append {s t : List UInt8} (h : Blank s) (ht : Ends t) : Ends (s ++ t) := by
  cases s with
  | nil => exact ht
  | cons b s => exact fun c hc => h.ends c hc

section

variable {rest s : List UInt8}

theorem digits_append {ds : List Nat} (h : SpellsDigits ds s) (hrest : NoDigit rest) :
    ∃ hle, digits (s ++ rest) = ⟨ds, rest, hle⟩ := by
  have htake : (s ++ rest).takeWhile isDigit = s := by
    rw [List.takeWhile_append_of_pos h.1]
    cases rest with
    | nil => simp
    | cons b rest => simp [hrest b rfl]
  have hdrop : (s ++ rest).dropWhile isDigit = rest := by
    rw [List.dropWhile_append_of_pos h.1]
    cases rest with
    | nil => simp
    | cons b rest => simp [hrest b rfl]
  refine ⟨by simp, ?_⟩
  simp only [digits, htake, hdrop, h.2]

theorem reads_wholePart {ds : List Nat} (h : SpellsWhole ds s) (hrest : NoDigit rest) :
    Reads (wholePart (s ++ rest)) ds rest := by
  cases h with
  | zero =>
    have hnone : ¬rest.head?.any isDigit = true := by
      cases rest with
      | nil => simp
      | cons b rest => simp [hrest b rfl]
    simp only [wholePart, List.cons_append, List.nil_append, if_true, if_neg hnone]
    exact ⟨_, rfl⟩
  | digits lead nonzero more =>
    obtain ⟨_, hdigits⟩ := digits_append more hrest
    simp only [wholePart, List.cons_append, if_neg nonzero, lead, if_true, hdigits]
    exact ⟨_, rfl⟩

theorem gathers_fractionPart {ds : Option (List Nat)} (h : SpellsFraction ds s)
    (hdigit : NoDigit rest) (hpoint : ∀ b ∈ rest.head?, b ≠ byte '.') :
    Gathers (fractionPart (s ++ rest)) ds rest := by
  cases h with
  | none =>
    cases rest with
    | nil => exact ⟨_, rfl⟩
    | cons b rest =>
      simp only [fractionPart, List.nil_append, if_neg (hpoint b rfl)]
      exact ⟨_, rfl⟩
  | @some ds s nonempty digits =>
    obtain ⟨_, hdigits⟩ := digits_append digits hdigit
    have hsome : ¬ds.isEmpty = true := by
      rw [← digits.2]
      simpa using nonempty
    simp only [fractionPart, List.cons_append, if_true, hdigits, if_neg hsome]
    exact ⟨_, rfl⟩

theorem exponentSign_append {down : Bool} (h : SpellsSign down s) {b : UInt8}
    (hb : isDigit b = true) (rest : List UInt8) :
    ∃ hle, exponentSign (s ++ b :: rest) = ⟨down, b :: rest, hle⟩ := by
  cases h with
  | none =>
    have hminus : b ≠ byte '-' := by rintro rfl; exact absurd hb (by decide)
    have hplus : b ≠ byte '+' := by rintro rfl; exact absurd hb (by decide)
    simp only [exponentSign, List.nil_append, if_neg hminus, if_neg hplus]
    exact ⟨Nat.le_refl _, rfl⟩
  | plus => exact ⟨_, rfl⟩
  | minus => exact ⟨_, rfl⟩

theorem gathers_exponentPart {ex : Option (Bool × List Nat)} (h : SpellsExponent ex s)
    (hrest : Ends rest) : Gathers (exponentPart (s ++ rest)) ex rest := by
  cases h with
  | none =>
    cases rest with
    | nil => exact ⟨_, rfl⟩
    | cons b rest =>
      have hmark : ¬isExponentMark b = true := by
        have := hrest b rfl
        simp only [continues, decide_eq_false_iff_not, not_or] at this
        exact this.2.2
      simp only [exponentPart, List.nil_append, if_neg hmark]
      exact ⟨_, rfl⟩
  | @some mark b down sign s ds isMark signed lead more =>
    obtain ⟨_, hdigits⟩ := digits_append more hrest.noDigit
    obtain ⟨_, hsign⟩ := exponentSign_append signed lead (s ++ rest)
    have htext : (mark :: sign ++ b :: s) ++ rest = mark :: (sign ++ b :: (s ++ rest)) := by simp
    rw [htext]
    unfold exponentPart
    simp only [isMark, if_true]
    split
    · next heq => rw [hsign] at heq; cases heq
    · next c after heq =>
      rw [hsign] at heq
      cases heq
      simp only [lead, if_true, hdigits, hsign]
      exact ⟨_, rfl⟩

theorem SpellsExponent.noDigit {ex : Option (Bool × List Nat)} (h : SpellsExponent ex s)
    (hrest : Ends rest) : NoDigit (s ++ rest) := by
  cases h with
  | none => exact hrest.noDigit
  | @some mark _ _ _ _ _ isMark _ _ _ =>
    intro c hc
    obtain rfl : mark = c := by simpa using hc
    obtain rfl | rfl : mark = byte 'e' ∨ mark = byte 'E' := by simpa [isExponentMark] using isMark
    · rfl
    · rfl

theorem SpellsExponent.noPoint {ex : Option (Bool × List Nat)} (h : SpellsExponent ex s)
    (hrest : Ends rest) : ∀ b ∈ (s ++ rest).head?, b ≠ byte '.' := by
  cases h with
  | none =>
    intro b hb
    have := hrest b hb
    simp only [continues, decide_eq_false_iff_not, not_or] at this
    exact this.2.1
  | @some mark _ _ _ _ _ isMark _ _ _ =>
    intro c hc
    obtain rfl : mark = c := by simpa using hc
    obtain rfl | rfl : mark = byte 'e' ∨ mark = byte 'E' := by simpa [isExponentMark] using isMark
    · decide
    · decide

theorem SpellsFraction.noDigit {ds : Option (List Nat)} (h : SpellsFraction ds s)
    (hrest : NoDigit rest) : NoDigit (s ++ rest) := by
  cases h with
  | none => exact hrest
  | some nonempty digits =>
    intro c hc
    obtain rfl : byte '.' = c := by simpa using hc
    rfl

theorem reads_numeral {n : Numeral} (h : n.Spells s) (hrest : Ends rest) :
    Reads (numeral (s ++ rest)) n rest := by
  obtain ⟨hwhole, hfraction, hexponent⟩ := h
  rename_i w f e whole fraction exponent
  have hdigit := hexponent.noDigit hrest
  obtain ⟨_, hw⟩ := reads_wholePart hwhole (hfraction.noDigit hdigit)
  obtain ⟨_, hf⟩ := gathers_fractionPart hfraction hdigit (hexponent.noPoint hrest)
  obtain ⟨_, he⟩ := gathers_exponentPart hexponent hrest
  have htext : (w ++ (f ++ e)) ++ rest = w ++ (f ++ (e ++ rest)) := by simp
  rw [htext]
  simp only [numeral, bind, Except.bind, hw, hf, he]
  exact ⟨_, rfl⟩

/-- The text behind a number matters only to the place of a fault. -/
theorem toNumber_eq_ok {n : Numeral} {negative : Bool} {x : Number}
    (h : n.toNumber negative [] = .ok x) (rest : List UInt8) :
    n.toNumber negative rest = .ok x := by
  obtain ⟨whole, fraction, exponent⟩ := n
  revert h
  simp only [Numeral.toNumber]
  generalize gather 0 whole = gathered
  obtain ⟨word, dropped⟩ := gathered
  dsimp only
  split
  · exact id
  · generalize gather word _ = left
    intro h
    split at h
    · split at h
      · next hscale => simpa only [hscale] using h
      · cases h
    · split at h
      · split at h
        · next hscale => simpa only [hscale] using h
        · cases h
      · split at h
        · cases h
        · next hzero => rwa [if_neg hzero]
/-- First byte of a number without its sign. -/
theorem Numeral.Spells.exists_cons {n : Numeral} (h : n.Spells s) :
    ∃ b t, s = b :: t ∧ isDigit b = true := by
  obtain ⟨hwhole, _, _⟩ := h
  cases hwhole with
  | zero => exact ⟨_, _, rfl, rfl⟩
  | digits lead _ _ => exact ⟨_, _, rfl, lead⟩

theorem reads_number {x : Number} (h : x.Spells s) (hrest : Ends rest) :
    Reads (number (s ++ rest)) x rest := by
  cases h with
  | @positive n _ _ digits value =>
    obtain ⟨_, hnumeral⟩ := reads_numeral digits hrest
    obtain ⟨b, t, rfl, hb⟩ := digits.exists_cons
    have hminus : b ≠ byte '-' := by rintro rfl; exact absurd hb (by decide)
    simp only [List.cons_append] at hnumeral
    simp only [number, List.cons_append, if_neg hminus, bind, Except.bind, hnumeral,
      toNumber_eq_ok value]
    exact ⟨_, rfl⟩
  | @negative n _ s digits value =>
    obtain ⟨_, hnumeral⟩ := reads_numeral digits hrest
    simp only [number, List.cons_append, if_true, bind, Except.bind, hnumeral,
      toNumber_eq_ok value]
    exact ⟨_, rfl⟩

end

/-! ### Strings -/

/-- Byte that stands for itself in a string. -/
def Plain (b : UInt8) : Prop :=
  b ≠ byte '"' ∧ b ≠ byte '\\' ∧ 0x20 ≤ b

section

variable {whole rest s : List UInt8}

theorem plain_of_le {b : UInt8} (h : 0x80 ≤ b.toNat) : Plain b := by
  refine ⟨?_, ?_, ?_⟩
  · rintro rfl
    exact absurd h (by decide)
  · rintro rfl
    exact absurd h (by decide)
  · rw [UInt8.le_iff_toNat_le]
    exact Nat.le_trans (by decide) h

theorem plain_encodeChar {c : Char} (shown : 0x20 ≤ c.toNat) (quote : c ≠ '"')
    (backslash : c ≠ '\\') : ∀ b ∈ Text.encodeChar c, Plain b := by
  intro b hb
  have hrange := Text.toNat_ranges c
  simp only [Text.encodeChar] at hb
  split_ifs at hb with hone htwo hthree
  · obtain rfl : b = c.toNat.toUInt8 := by simpa using hb
    have hvalue : c.toNat.toUInt8.toNat = c.toNat := Text.toNat_toUInt8 (by omega)
    have hne : ∀ d : Char, d.toNat < 0x80 → c ≠ d → c.toNat.toUInt8 ≠ byte d := by
      intro d hd hcd heq
      apply hcd
      apply Char.toNat_inj.1
      rw [← hvalue, heq]
      exact Text.toNat_toUInt8 (by omega)
    refine ⟨hne _ (by decide) quote, hne _ (by decide) backslash, ?_⟩
    rw [UInt8.le_iff_toNat_le, hvalue]
    exact shown
  all_goals
    apply plain_of_le
    simp only [List.mem_cons, List.not_mem_nil, or_false] at hb
  · obtain rfl | rfl := hb <;> rw [Text.toNat_toUInt8 (by omega)] <;> omega
  · obtain rfl | rfl | rfl := hb <;> rw [Text.toNat_toUInt8 (by omega)] <;> omega
  · obtain rfl | rfl | rfl | rfl := hb <;> rw [Text.toNat_toUInt8 (by omega)] <;> omega

theorem stringBytes_plain (held : List UInt8) (hs : ∀ b ∈ s, Plain b)
    (h : (s ++ rest).length ≤ whole.length) :
    ∃ h', stringBytes held (s ++ rest) h = stringBytes (s.reverse ++ held) rest h' := by
  induction s generalizing held with
  | nil => exact ⟨h, rfl⟩
  | cons b s ih =>
    obtain ⟨hquote, hbackslash, hshown⟩ := hs b (List.mem_cons_self ..)
    obtain ⟨h', hmore⟩ := ih (b :: held) (fun c hc => hs c (List.mem_cons_of_mem _ hc))
      (Nat.le_of_succ_le h)
    refine ⟨h', ?_⟩
    change stringBytes held (b :: (s ++ rest)) h = _
    rw [stringBytes, if_neg hquote, if_neg hbackslash, if_neg (UInt8.not_lt.2 hshown), hmore]
    simp

theorem stringBytes_escape {held value : List UInt8} (he : Reads (escape (s ++ rest)) value rest)
    (h : (byte '\\' :: s ++ rest).length ≤ whole.length) :
    ∃ h', stringBytes held (byte '\\' :: s ++ rest) h =
      stringBytes (value.reverse ++ held) rest h' := by
  obtain ⟨hlt, he⟩ := he
  refine ⟨?_, ?_⟩
  · simp at h hlt ⊢
    omega
  · change stringBytes held (byte '\\' :: (s ++ rest)) h = _
    rw [stringBytes, if_neg (by decide), if_pos rfl]
    simp only [he]

theorem SpellsUnit.exists_hexFour {n : Nat} (h : SpellsUnit n s) :
    ∃ t, s = byte '\\' :: byte 'u' :: t ∧ ∀ rest, Reads (hexFour (t ++ rest)) n rest := by
  obtain ⟨ha, hb, hc, hd⟩ := h
  refine ⟨_, rfl, fun rest => ?_⟩
  simp only [List.cons_append, List.nil_append, hexFour, ha, hb, hc, hd]
  exact ⟨_, rfl⟩

theorem escapedByte?_u : escapedByte? (byte 'u') = none := by
  decide

theorem reads_escape_unit {n : Nat} (h : SpellsUnit n s) (alone : n < 0xD800 ∨ 0xDFFF < n)
    (rest : List UInt8) :
    ∃ t, s = byte '\\' :: t ∧
      Reads (escape (t ++ rest)) (Text.encodeChar (Char.ofNat n)) rest := by
  obtain ⟨t, rfl, hfour⟩ := h.exists_hexFour
  obtain ⟨_, hfour⟩ := hfour rest
  refine ⟨_, rfl, ?_⟩
  simp only [escape, List.cons_append, escapedByte?_u, if_true, unicodeEscape, bind, Except.bind,
    hfour, if_neg (show ¬(0xDC00 ≤ n ∧ n ≤ 0xDFFF) by omega),
    if_neg (show ¬(0xD800 ≤ n ∧ n ≤ 0xDBFF) by omega)]
  exact ⟨_, rfl⟩

theorem reads_lowSurrogate {low : Nat} (h : SpellsUnit low s)
    (hlow : 0xDC00 ≤ low ∧ low ≤ 0xDFFF) (rest : List UInt8) :
    Reads (lowSurrogate (s ++ rest)) low rest := by
  obtain ⟨t, rfl, hfour⟩ := h.exists_hexFour
  obtain ⟨_, hfour⟩ := hfour rest
  simp only [lowSurrogate, List.cons_append, ne_eq, not_true, if_false, bind, Except.bind, hfour,
    if_pos hlow]
  exact ⟨_, rfl⟩

theorem reads_escape_pair {high low : Nat} {t : List UInt8} (hs : SpellsUnit high s)
    (ht : SpellsUnit low t) (hhigh : 0xD800 ≤ high ∧ high ≤ 0xDBFF)
    (hlow : 0xDC00 ≤ low ∧ low ≤ 0xDFFF) (rest : List UInt8) :
    ∃ u, s ++ t = byte '\\' :: u ∧ Reads (escape (u ++ rest))
      (Text.encodeChar (Char.ofNat ((high - 0xD800) * 0x400 + (low - 0xDC00) + 0x10000))) rest := by
  obtain ⟨u, rfl, hfour⟩ := hs.exists_hexFour
  obtain ⟨_, hfour⟩ := hfour (t ++ rest)
  obtain ⟨_, hsecond⟩ := reads_lowSurrogate ht hlow rest
  refine ⟨byte 'u' :: (u ++ t), rfl, ?_⟩
  rw [List.cons_append, List.append_assoc]
  simp only [escape, escapedByte?_u, if_true, unicodeEscape,
    bind, Except.bind, hfour, if_neg (show ¬(0xDC00 ≤ high ∧ high ≤ 0xDFFF) by omega),
    if_pos hhigh, hsecond]
  exact ⟨_, rfl⟩

theorem reads_escape_letter {b x : UInt8} (h : escapedByte? b = some x) :
    Reads (escape (b :: rest)) (Text.encodeChar (Char.ofNat x.toNat)) rest := by
  have hcode : Text.encodeChar (Char.ofNat x.toNat) = [x] := by
    unfold escapedByte? at h
    split_ifs at h
    all_goals
      obtain rfl := Option.some.inj h
      first
        | decide
        | subst_vars
          decide
  rw [hcode]
  simp only [escape, h]
  exact ⟨_, rfl⟩

/-- One character of a string is read, whatever form it has. -/
theorem stringBytes_char {c : Char} (hc : SpellsChar c s) (held : List UInt8)
    (h : (s ++ rest).length ≤ whole.length) :
    ∃ h', stringBytes held (s ++ rest) h =
      stringBytes ((Text.encodeChar c).reverse ++ held) rest h' := by
  cases hc with
  | plain shown quote backslash =>
    exact stringBytes_plain held (plain_encodeChar shown quote backslash) h
  | letter hletter => exact stringBytes_escape (s := [_]) (reads_escape_letter hletter) h
  | unit hunit alone =>
    obtain ⟨t, rfl, hescape⟩ := reads_escape_unit hunit alone rest
    exact stringBytes_escape hescape h
  | pair hs ht hhigh hlow =>
    obtain ⟨u, hu, hescape⟩ := reads_escape_pair hs ht hhigh hlow rest
    revert h
    rw [hu]
    exact stringBytes_escape hescape

theorem reads_stringBytes {cs : List Char} (hs : SpellsTail cs s) (held : List UInt8)
    (h : (s ++ rest).length ≤ whole.length) :
    Reads (stringBytes held (s ++ rest) h) (held.reverse ++ Text.encode cs) rest := by
  induction hs generalizing held with
  | nil =>
    change Reads (stringBytes held (byte '"' :: rest) h) _ _
    rw [stringBytes, if_pos rfl, Text.encode_nil, List.append_nil]
    exact ⟨_, rfl⟩
  | @cons c cs s t head tail ih =>
    revert h
    rw [List.append_assoc]
    intro h
    obtain ⟨h', hchar⟩ := stringBytes_char head held h
    obtain ⟨hlt, hmore⟩ := ih ((Text.encodeChar c).reverse ++ held) h'
    exact ⟨hlt, by rw [hchar, hmore]; simp⟩

theorem reads_stringTail {text : String} (hs : SpellsTail text.toList s) (rest : List UInt8) :
    Reads (stringTail (s ++ rest)) text rest := by
  obtain ⟨_, hbytes⟩ := reads_stringBytes hs [] (length_self_le (s ++ rest))
  have hdecode : Text.ofUtf8? (Text.encode text.toList) = some text := by
    simp [Text.ofUtf8?, Text.decode?_encode]
  simp only [stringTail, bind, Except.bind, hbytes, List.reverse_nil, List.nil_append, hdecode]
  exact ⟨_, rfl⟩

end

end LiveAudit.Json
