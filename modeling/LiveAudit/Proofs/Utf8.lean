import Mathlib.Tactic.SplitIfs
import LiveAudit.Text.Utf8

/-!
# Texts as bytes and back

The code of a text is read back as that text (`Text.decode?_encode`). The lead byte of a character
tells how many bytes it has, and the second one must not make the code overlong, a surrogate or one
above the last code point; no character is coded so (`Text.mayFollow_of_bounds`).
-/

namespace LiveAudit.Text

/-- A byte made of a small number has its value. -/
theorem toNat_toUInt8 {n : Nat} (h : n < 256) : n.toUInt8.toNat = n := by
  rw [Nat.toUInt8, UInt8.toNat_ofNat']
  exact Nat.mod_eq_of_lt h

/-- A byte with its mark is a continuation of six bits. -/
theorem continuation?_marked (n : Nat) :
    continuation? (0x80 + n % 0x40).toUInt8 = some (n % 0x40) := by
  have hn : (0x80 + n % 0x40).toUInt8.toNat = 0x80 + n % 0x40 := toNat_toUInt8 (by omega)
  rw [continuation?, hn, if_pos (by omega), Nat.add_sub_cancel_left]

/-- A code point is no surrogate, and not above the last one. -/
theorem toNat_ranges (c : Char) : c.toNat < 0xD800 ∨ 0xDFFF < c.toNat ∧ c.toNat < 0x110000 :=
  c.valid

section

variable {a b c d : UInt8} {s : List UInt8}

/-- A lead byte below 0xE0 and its continuation are a character. -/
theorem head_two (ha : 0x80 ≤ a.toNat) (hb : mayFollow a b) (hlead : a.toNat < 0xE0) :
    head a (b :: s) =
      .char (Char.ofNat ((a.toNat - 0xC0) * 0x40 + (b.toNat - 0x80))) 2 := by
  simp [head, Nat.not_lt.2 ha, hb, hlead]

/-- A lead byte from 0xE0 on and two continuations are a character. -/
theorem head_three {z : Nat} (ha : 0xE0 ≤ a.toNat) (hb : mayFollow a b)
    (hc : continuation? c = some z) (hlead : a.toNat < 0xF0) :
    head a (b :: c :: s) =
      .char (Char.ofNat ((a.toNat - 0xE0) * 0x1000 + (b.toNat - 0x80) * 0x40 + z)) 3 := by
  have ha' : ¬a.toNat < 0x80 := by omega
  simp [head, ha', hb, Nat.not_lt.2 ha, hc, hlead]

/-- A lead byte from 0xF0 on and three continuations are a character. -/
theorem head_four {z w : Nat} (ha : 0xF0 ≤ a.toNat) (hb : mayFollow a b)
    (hc : continuation? c = some z) (hd : continuation? d = some w) :
    head a (b :: c :: d :: s) = .char (Char.ofNat ((a.toNat - 0xF0) * 0x40000
      + (b.toNat - 0x80) * 0x1000 + z * 0x40 + w)) 4 := by
  have ha' : ¬a.toNat < 0x80 := by omega
  have ha'' : ¬a.toNat < 0xE0 := by omega
  simp [head, ha', hb, ha'', hc, hd, Nat.not_lt.2 ha]

end

/-- The second byte of a character may follow the first. -/
theorem mayFollow_of_bounds {x y : Nat} {a b : UInt8} (ha : a.toNat = x) (hb : b.toNat = y)
    (hx : 0xC2 ≤ x ∧ x < 0xF5) (hy : 0x80 ≤ y ∧ y < 0xC0) (hE0 : x = 0xE0 → 0xA0 ≤ y)
    (hED : x = 0xED → y < 0xA0) (hF0 : x = 0xF0 → 0x90 ≤ y) (hF4 : x = 0xF4 → y < 0x90) :
    mayFollow a b := by
  simp only [mayFollow, ha, hb]
  split_ifs <;> first | omega | (rw [decide_eq_true_eq]; omega)

/-- Where a character stands, it is read, and the other bytes of its code are stepped over. -/
theorem decodeFrom?_of_head {a : UInt8} {s : List UInt8} {c : Char} {width : Nat}
    (h : head a s = .char c width) :
    decodeFrom? 0 (a :: s) = (decodeFrom? (width - 1) s).map (c :: ·) := by
  rw [decodeFrom?, h]

/-- The code of a character is read as that character, whatever comes behind it. -/
theorem decodeFrom?_encodeChar (c : Char) (rest : List UInt8) :
    decodeFrom? 0 (encodeChar c ++ rest) = (decodeFrom? 0 rest).map (c :: ·) := by
  have hranges := toNat_ranges c
  have hself : ∀ {n : Nat}, n = c.toNat → Char.ofNat n = c := by
    rintro n rfl
    exact Char.ofNat_toNat c
  unfold encodeChar
  dsimp only
  split_ifs with h1 h2 h3
  · have ha : c.toNat.toUInt8.toNat = c.toNat := toNat_toUInt8 (by omega)
    have hhead : head c.toNat.toUInt8 rest = .char c 1 := by
      simp [head, ha, h1, Char.ofNat_toNat]
    exact decodeFrom?_of_head hhead
  · have ha : (0xC0 + c.toNat / 0x40).toUInt8.toNat = 0xC0 + c.toNat / 0x40 :=
      toNat_toUInt8 (by omega)
    have hb : (0x80 + c.toNat % 0x40).toUInt8.toNat = 0x80 + c.toNat % 0x40 :=
      toNat_toUInt8 (by omega)
    have hfollow : mayFollow (0xC0 + c.toNat / 0x40).toUInt8 (0x80 + c.toNat % 0x40).toUInt8 :=
      mayFollow_of_bounds ha hb (by omega) (by omega) (by omega) (by omega) (by omega) (by omega)
    have hhead := head_two (s := rest) (by omega) hfollow (by omega)
    rw [ha, hb, hself (by omega)] at hhead
    exact decodeFrom?_of_head hhead
  · have ha : (0xE0 + c.toNat / 0x1000).toUInt8.toNat = 0xE0 + c.toNat / 0x1000 :=
      toNat_toUInt8 (by omega)
    have hb : (0x80 + c.toNat / 0x40 % 0x40).toUInt8.toNat = 0x80 + c.toNat / 0x40 % 0x40 :=
      toNat_toUInt8 (by omega)
    have hfollow : mayFollow (0xE0 + c.toNat / 0x1000).toUInt8
        (0x80 + c.toNat / 0x40 % 0x40).toUInt8 :=
      mayFollow_of_bounds ha hb (by omega) (by omega) (by omega) (by omega) (by omega) (by omega)
    have hhead := head_three (s := rest) (by omega) hfollow (continuation?_marked c.toNat)
      (by omega)
    rw [ha, hb, hself (by omega)] at hhead
    exact decodeFrom?_of_head hhead
  · have ha : (0xF0 + c.toNat / 0x40000).toUInt8.toNat = 0xF0 + c.toNat / 0x40000 :=
      toNat_toUInt8 (by omega)
    have hb : (0x80 + c.toNat / 0x1000 % 0x40).toUInt8.toNat = 0x80 + c.toNat / 0x1000 % 0x40 :=
      toNat_toUInt8 (by omega)
    have hfollow : mayFollow (0xF0 + c.toNat / 0x40000).toUInt8
        (0x80 + c.toNat / 0x1000 % 0x40).toUInt8 :=
      mayFollow_of_bounds ha hb (by omega) (by omega) (by omega) (by omega) (by omega) (by omega)
    have hhead := head_four (s := rest) (by omega) hfollow (continuation?_marked (c.toNat / 0x40))
      (continuation?_marked c.toNat)
    rw [ha, hb, hself (by omega)] at hhead
    exact decodeFrom?_of_head hhead

/-- What a text is encoded as is decoded to it. -/
theorem decode?_encode (s : List Char) : decode? (encode s) = some s := by
  induction s with
  | nil => rfl
  | cons c s ih =>
    rw [decode?] at ih ⊢
    rw [encode_cons, decodeFrom?_encodeChar, ih]
    rfl

/-- Texts with one code are one. -/
theorem encode_injective : Function.Injective encode := by
  intro s s' h
  have hdecode := decode?_encode s
  rw [h, decode?_encode] at hdecode
  exact (Option.some.inj hdecode).symm

end LiveAudit.Text
