import Mathlib.Tactic.SplitIfs
import LiveAudit.Proofs.Utf8
import LiveAudit.Url.Address
import LiveAudit.Url.Path

/-!
# Percent escapes and back

What a text is escaped as reads back as that text (`Url.unescape_escape`), as long as the percent
sign itself is escaped, and with it all that is not ASCII. So a segment keeps its text, however much
of it must be escaped (`Url.ofUtf8?_segment`).

A segment of one or two dots is no name but a step, and the dots may be escaped. Since each form of
it reads back as the dots (`Url.unescape_of_isDoubleDot`), an escaped text is such a segment only if
it is the dots themselves.
-/

namespace LiveAudit.Url

open Text

/-! ### Escapes -/

/-- A digit that an escape is written with is read back. -/
theorem digitValue?_upperDigit : ∀ n < 16,
    encodeChar (upperDigit n) = [(upperDigit n).toNat.toUInt8] ∧
      digitValue? (upperDigit n).toNat.toUInt8 = some n := by
  decide

/-- A byte that is no percent sign stands for itself. -/
theorem unescape_cons_of_ne {b : UInt8} (h : b ≠ '%'.toNat.toUInt8) (rest : List UInt8) :
    unescape (b :: rest) = b :: unescape rest := by
  have hb : (b == '%'.toNat.toUInt8) = false := beq_eq_false_iff_ne.2 h
  match rest with
  | [] => rfl
  | [c] => rfl
  | c :: d :: rest => simp only [unescape, hb]

/-- An escaped byte is read back. -/
theorem unescape_escapeByte (b : UInt8) (rest : List UInt8) :
    unescape (encode (escapeByte b) ++ rest) = b :: unescape rest := by
  have hb := b.toNat_lt
  obtain ⟨hhigh, hhigh'⟩ := digitValue?_upperDigit (b.toNat / 16) (by omega)
  obtain ⟨hlow, hlow'⟩ := digitValue?_upperDigit (b.toNat % 16) (by omega)
  have hself : (16 * (b.toNat / 16) + b.toNat % 16).toUInt8 = b := by
    rw [Nat.div_add_mod]
    exact UInt8.ofNat_toNat
  have hmark : encodeChar '%' = ['%'.toNat.toUInt8] := rfl
  simp only [escapeByte, encode_cons, encode_nil, hmark, hhigh, hlow, List.append_nil,
    List.cons_append, List.nil_append, unescape, beq_self_eq_true, hhigh', hlow', hself]

/-- Escaped bytes are read back. -/
theorem unescape_escapeBytes (bytes rest : List UInt8) :
    unescape (encode (bytes.flatMap escapeByte) ++ rest) = bytes ++ unescape rest := by
  induction bytes with
  | nil => rfl
  | cons b bytes ih =>
    rw [List.flatMap_cons, encode_append, List.append_assoc, unescape_escapeByte, ih,
      List.cons_append]

/-- What a text is escaped as is read back, if the class of escaped characters has the percent sign
and all that are not ASCII. -/
theorem unescape_escape {escaped : Char → Bool} (hmark : escaped '%')
    (hascii : ∀ c, escaped c = false → c.toNat < 0x80) (s : List Char) :
    unescape (encode (escape escaped s)) = encode s := by
  induction s with
  | nil => rfl
  | cons c s ih =>
    rw [escape, List.flatMap_cons, encode_append, encode_cons]
    by_cases hc : escaped c
    · rw [if_pos hc, escapeChar, unescape_escapeBytes]
      exact congrArg (encodeChar c ++ ·) ih
    · have hplain : c.toNat < 0x80 := hascii c (Bool.eq_false_iff.2 hc)
      have hcode : encodeChar c = [c.toNat.toUInt8] := by simp [encodeChar, hplain]
      have hne : c.toNat.toUInt8 ≠ '%'.toNat.toUInt8 := by
        intro h
        have hnat := congrArg UInt8.toNat h
        rw [toNat_toUInt8 (by omega), toNat_toUInt8 (by decide)] at hnat
        have hself : c = '%' := by rw [← Char.ofNat_toNat c, hnat, Char.ofNat_toNat]
        exact hc (hself ▸ hmark)
      rw [if_neg hc, encode_cons, encode_nil, hcode]
      exact (unescape_cons_of_ne hne _).trans (congrArg (c.toNat.toUInt8 :: ·) ih)

/-- The characters of an escape. -/
theorem mem_escapeByte {c : Char} {b : UInt8} (h : c ∈ escapeByte b) :
    c = '%' ∨ ∃ n < 16, c = upperDigit n := by
  have hb := b.toNat_lt
  simp only [escapeByte, List.mem_cons, List.not_mem_nil, or_false] at h
  rcases h with h | h | h
  · exact .inl h
  · exact .inr ⟨_, by omega, h⟩
  · exact .inr ⟨_, by omega, h⟩

/-- No slash is left in an escaped text, if slashes are escaped. -/
theorem slash_not_mem_escape {escaped : Char → Bool} (hslash : escaped '/') (s : List Char) :
    '/' ∉ escape escaped s := by
  have hdigit : ∀ n < 16, '/' ≠ upperDigit n := by decide
  intro h
  obtain ⟨c, -, hc⟩ := List.mem_flatMap.1 h
  split_ifs at hc with hescaped
  · obtain ⟨b, -, hb⟩ := List.mem_flatMap.1 hc
    rcases mem_escapeByte hb with hmark | ⟨n, hn, hdig⟩
    · exact absurd hmark (by decide)
    · exact hdigit n hn hdig
  · obtain rfl := List.mem_singleton.1 hc
    exact hescaped hslash

/-! ### Dots -/

/-- The small form of a character, by its code point. -/
theorem toNat_toLower (c : Char) :
    c.toLower.toNat = if 65 ≤ c.toNat ∧ c.toNat ≤ 90 then c.toNat + 32 else c.toNat := by
  have hrange : (c.val ≥ 'A'.val ∧ c.val ≤ 'Z'.val) ↔ 65 ≤ c.toNat ∧ c.toNat ≤ 90 := Iff.rfl
  unfold Char.toLower
  by_cases h : 65 ≤ c.toNat ∧ c.toNat ≤ 90
  · rw [dif_pos (hrange.2 h), if_pos h]
    change (c.val + 32).toNat = c.val.toNat + 32
    have hval : c.val.toNat ≤ 90 := h.2
    rw [UInt32.toNat_add]
    exact Nat.mod_eq_of_lt (by change c.val.toNat + 32 < _; omega)
  · rw [dif_neg (mt hrange.1 h), if_neg h]

/-- Characters with one code point are one. -/
theorem eq_of_toNat {c x : Char} (h : c.toNat = x.toNat) : c = x := by
  rw [← Char.ofNat_toNat c, h, Char.ofNat_toNat]

/-- A character whose small form is no letter is that form. -/
theorem eq_of_toLower {c x : Char} (hx : x.toNat < 97) (h : c.toLower = x) : c = x := by
  have hnat := toNat_toLower c
  rw [h] at hnat
  split_ifs at hnat with hc
  · omega
  · exact eq_of_toNat hnat.symm

/-- There are two characters whose small form is the last one in the escape of a dot. -/
theorem eq_of_toLower_e {c : Char} (h : c.toLower = 'e') : c = 'e' ∨ c = 'E' := by
  have hnat := toNat_toLower c
  have he : 'e'.toNat = 'E'.toNat + 32 := rfl
  rw [h] at hnat
  split_ifs at hnat with hc
  · exact .inr (eq_of_toNat (by omega))
  · exact .inl (eq_of_toNat hnat.symm)

/-- A dot at the front of a text is read as one, escaped or not. -/
theorem unescape_dot {s rest : List Char}
    (h : s.map asciiLower = '.' :: rest ∨ s.map asciiLower = '%' :: '2' :: 'e' :: rest) :
    ∃ s', s'.map asciiLower = rest ∧
      unescape (encode s) = '.'.toNat.toUInt8 :: unescape (encode s') := by
  rcases h with h | h
  · obtain ⟨c, s', rfl, hc, hrest⟩ := List.map_eq_cons_iff.1 h
    obtain rfl := eq_of_toLower (by decide) hc
    exact ⟨s', hrest, unescape_cons_of_ne (by decide) _⟩
  · obtain ⟨c, s₁, rfl, hc, h₁⟩ := List.map_eq_cons_iff.1 h
    obtain rfl := eq_of_toLower (by decide) hc
    obtain ⟨c, s₂, rfl, hc, h₂⟩ := List.map_eq_cons_iff.1 h₁
    obtain rfl := eq_of_toLower (by decide) hc
    obtain ⟨c, s', rfl, hc, hrest⟩ := List.map_eq_cons_iff.1 h₂
    rcases eq_of_toLower_e hc with rfl | rfl
    · exact ⟨s', hrest, rfl⟩
    · exact ⟨s', hrest, rfl⟩

/-- A segment that stays where it is reads as a dot. -/
theorem unescape_of_isSingleDot {s : List Char} (h : isSingleDot s) :
    unescape (encode s) = encode ['.'] := by
  have hform : s.map asciiLower = '.' :: [] ∨ s.map asciiLower = '%' :: '2' :: 'e' :: [] := by
    simpa [isSingleDot] using h
  obtain ⟨s', hs', hread⟩ := unescape_dot hform
  obtain rfl := List.map_eq_nil_iff.1 hs'
  exact hread

/-- A segment that goes up reads as two dots. -/
theorem unescape_of_isDoubleDot {s : List Char} (h : isDoubleDot s) :
    unescape (encode s) = encode ['.', '.'] := by
  have hform : ∃ rest, (s.map asciiLower = '.' :: rest ∨
      s.map asciiLower = '%' :: '2' :: 'e' :: rest) ∧
        (rest = '.' :: [] ∨ rest = '%' :: '2' :: 'e' :: []) := by
    simp only [isDoubleDot, List.map_cons, List.map_nil, List.contains_eq_mem, List.mem_cons,
      List.not_mem_nil, or_false, decide_eq_true_eq] at h
    rcases h with h | h | h | h
    · exact ⟨_, .inl h, .inl rfl⟩
    · exact ⟨_, .inr h, .inr rfl⟩
    · exact ⟨_, .inr h, .inl rfl⟩
    · exact ⟨_, .inl h, .inr rfl⟩
  obtain ⟨rest, hfirst, hsecond⟩ := hform
  obtain ⟨s₁, hs₁, hread₁⟩ := unescape_dot hfirst
  obtain ⟨s₂, hs₂, hread₂⟩ := unescape_dot (hs₁ ▸ hsecond)
  obtain rfl := List.map_eq_nil_iff.1 hs₂
  rw [hread₁, hread₂]
  rfl

/-! ### Segments and numbers -/

/-- The bytes of a segment are read back, whatever its text is. -/
theorem unescape_segment (special : Bool) (s : List Char) :
    unescape (encode (escape (escapedInSegment special) s)) = encode s := by
  have hascii : ∀ c, escapedInSegment special c = false → c.toNat < 0x80 := by
    intro c hc
    simp only [escapedInSegment, escapedInPath, escapedInFragment, isControl,
      Bool.or_eq_false_iff, decide_eq_false_iff_not] at hc
    omega
  exact unescape_escape (by cases special <;> rfl) hascii s

/-- A segment is read back, whatever its text is. -/
theorem ofUtf8?_segment (special : Bool) (s : List Char) :
    ofUtf8? (unescape (encode (escape (escapedInSegment special) s))) =
      some (String.ofList s) := by
  rw [unescape_segment, ofUtf8?, decode?_encode]
  rfl

/-- A decimal number is read back. -/
theorem numberIn?_decimal (n : Nat) : numberIn? 10 (decimal n) = some n := by
  have hdigit : ∀ d < 10, digitIn? 10 (hexDigit d) = some d := by decide
  induction n using decimal.induct with
  | case1 n hn =>
    rw [decimal, if_pos hn]
    simp [numberIn?, hdigit n hn]
  | case2 n hn ih =>
    have hlast := hdigit (n % 10) (by omega)
    rw [numberIn?] at ih
    rw [decimal, if_neg hn, numberIn?, List.foldlM_append, ih]
    simp [hlast, Nat.div_add_mod]

end LiveAudit.Url
