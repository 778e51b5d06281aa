import LiveAudit.Proofs.Scanning

/-!
# Steps between brackets

How the readers go from one element of a list or an object to the next, and out at its closing
bracket. A loop stops in front of the bracket, perhaps with blanks before it (`Closes`), and the
closing step takes both.
-/

namespace LiveAudit.Json

/-- Byte that neither stands between elements nor closes a bracket. -/
def Opens (b : UInt8) : Prop :=
  isSpace b = false ∧ b ≠ byte ',' ∧ b ≠ Bracket.list.closing ∧ b ≠ Bracket.object.closing

instance (b : UInt8) : Decidable (Opens b) :=
  inferInstanceAs (Decidable (_ ∧ _))

/-- The text begins with an element. -/
def Opening (s : List UInt8) : Prop :=
  ∃ b t, s = b :: t ∧ Opens b

theorem Opening.append {s : List UInt8} (h : Opening s) (t : List UInt8) : Opening (s ++ t) := by
  obtain ⟨b, u, rfl, hb⟩ := h
  exact ⟨b, u ++ t, rfl, hb⟩

theorem Opening.shown {s : List UInt8} (h : Opening s) : Shown s := by
  obtain ⟨b, t, hs, hb⟩ := h
  exact ⟨b, t, hs, hb.1⟩

/-- Byte that a number begins with. -/
def Leads (b : UInt8) : Prop :=
  b = byte '-' ∨ isDigit b = true

instance (b : UInt8) : Decidable (Leads b) :=
  inferInstanceAs (Decidable (_ ∨ _))

theorem Leads.ne {b c : UInt8} (hb : Leads b) (hc : ¬Leads c) : b ≠ c := by
  rintro rfl
  exact hc hb

theorem Leads.opens {b : UInt8} (h : Leads b) : Opens b := by
  refine ⟨?_, h.ne (by decide), h.ne (by decide), h.ne (by decide)⟩
  rw [isSpace, decide_eq_false_iff_not]
  rintro (rfl | rfl | rfl | rfl) <;> exact absurd h (by decide)

section

variable {s rest : List UInt8}

theorem Number.Spells.exists_cons {x : Number} (h : x.Spells s) : ∃ b t, s = b :: t ∧ Leads b := by
  cases h with
  | positive digits _ =>
    obtain ⟨b, t, rfl, hb⟩ := digits.exists_cons
    exact ⟨b, t, rfl, .inr hb⟩
  | negative => exact ⟨_, _, rfl, .inl rfl⟩

theorem Numeral.Spells.opening {n : Numeral} (h : n.Spells s) : Opening s := by
  obtain ⟨b, t, hs, hb⟩ := h.exists_cons
  exact ⟨b, t, hs, Leads.opens (.inr hb)⟩

theorem Formed.opening (h : Formed s) : Opening s := by
  cases h with
  | null => exact ⟨_, _, rfl, by decide⟩
  | true => exact ⟨_, _, rfl, by decide⟩
  | false => exact ⟨_, _, rfl, by decide⟩
  | positive h => exact h.opening
  | negative h => exact ⟨_, _, rfl, by decide⟩
  | string h => exact ⟨_, _, rfl, by decide⟩
  | array h => exact ⟨_, _, rfl, by decide⟩
  | object h => exact ⟨_, _, rfl, by decide⟩

theorem Value.Spells.opening {v : Value} (h : v.Spells s) : Opening s :=
  h.formed.opening

/-! ### Closing -/

theorem isSpace_closing (b : Bracket) : isSpace b.closing = false := by
  cases b <;> decide

/-- What a loop leaves: the closing bracket, perhaps behind blanks. -/
def Closes (b : Bracket) (rest s : List UInt8) : Prop :=
  ∃ blank, Blank blank ∧ s = blank ++ b.closing :: rest

theorem Closes.skipSpace {b : Bracket} (h : Closes b rest s) : skipSpace s = b.closing :: rest := by
  obtain ⟨blank, hblank, rfl⟩ := h
  exact skipSpace_append hblank ⟨_, _, rfl, isSpace_closing b⟩

theorem Closes.reads {b : Bracket} (h : Closes b rest s) : Reads (b.close s) () rest := by
  apply Reads.afterSpace
  rw [h.skipSpace]
  simp only [if_true]
  exact ⟨_, rfl⟩

theorem Gathers.reads_enclose {α : Type} {b : Bracket} {left : List UInt8} {a : α}
    {body : (s : List UInt8) → Except Fault (Within α s)} (hbody : Gathers (body s) a left)
    (hclose : Reads (b.close left) () rest) : Reads (b.enclose body s) a rest := by
  obtain ⟨_, hbody⟩ := hbody
  obtain ⟨_, hclose⟩ := hclose
  simp only [Bracket.enclose, hbody, hclose]
  exact ⟨_, rfl⟩

/-! ### Items -/

theorem skipSpace_comma {blank : List UInt8} (h : Blank blank) :
    skipSpace (blank ++ [byte ','] ++ s) = byte ',' :: s := by
  rw [List.append_assoc]
  exact skipSpace_append h ⟨_, _, rfl, by decide⟩

theorem nextItem_closing {first : Bool} (h : Closes .list rest s) :
    nextItem first s = .ok none := by
  have hskip := h.skipSpace
  unfold nextItem
  split
  · next heq => rw [hskip] at heq; cases heq
  · next heq =>
    rw [hskip] at heq
    cases heq
    rw [if_pos rfl]

theorem nextItem_element {first : Bool} {comma blank : List UInt8}
    (hcomma : SpellsComma first comma) (hblank : Blank blank) (hs : Opening s) :
    ∃ hle, nextItem first (comma ++ (blank ++ s)) = .ok (some ⟨blank ++ s, hle⟩) := by
  have hskip := skipSpace_append hblank hs.shown
  obtain ⟨b, t, rfl, hb⟩ := hs
  cases hcomma with
  | first =>
    refine ⟨length_self_le _, ?_⟩
    change nextItem true (blank ++ b :: t) = _
    unfold nextItem
    split
    · next heq => rw [hskip] at heq; cases heq
    · next heq =>
      rw [hskip] at heq
      cases heq
      rw [if_neg hb.2.2.1, if_pos rfl]
  | next hlead =>
    have hfirst := skipSpace_comma (s := blank ++ b :: t) hlead
    refine ⟨length_le_of_skipSpace hfirst, ?_⟩
    unfold nextItem
    split
    · next heq => rw [hfirst] at heq; cases heq
    · next heq =>
      rw [hfirst] at heq
      cases heq
      rw [if_neg (by decide), if_neg (by decide), if_pos rfl]
      simp only [hskip, if_neg hb.2.2.1]

/-! ### Behind an element -/

theorem ends_closing (b : Bracket) {blank : List UInt8} (h : Blank blank) :
    Ends (blank ++ b.closing :: rest) := by
  apply h.ends_append
  apply ends_cons
  cases b <;> decide

theorem SpellsComma.ends {comma : List UInt8} (h : SpellsComma false comma) :
    Ends (comma ++ s) := by
  cases h with
  | next hblank =>
    rw [List.append_assoc]
    exact hblank.ends_append (ends_cons (by decide))

/-- A number that is an item ends there. -/
theorem FormedItems.ends (h : FormedItems false s) (rest : List UInt8) :
    Ends (s ++ Bracket.list.closing :: rest) := by
  cases h with
  | nil blank => exact ends_closing .list blank
  | cons hcomma _ _ _ =>
    rw [List.append_assoc]
    exact hcomma.ends

theorem FormedMembers.ends (h : FormedMembers false s) (rest : List UInt8) :
    Ends (s ++ Bracket.object.closing :: rest) := by
  cases h with
  | nil blank => exact ends_closing .object blank
  | cons hcomma _ _ _ _ _ =>
    rw [List.append_assoc]
    exact hcomma.ends

theorem SpellsEntries.ends {entries : List (String × List UInt8)}
    (h : SpellsEntries false entries s) (rest : List UInt8) :
    Ends (s ++ Bracket.object.closing :: rest) := by
  cases h with
  | nil blank => exact ends_closing .object blank
  | cons hcomma _ _ _ _ =>
    rw [List.append_assoc]
    exact hcomma.ends

/-! ### Keys -/

theorem nextKey_closing {first : Bool} (h : Closes .object rest s) :
    nextKey first s = .ok none := by
  have hskip := h.skipSpace
  unfold nextKey
  split
  · next heq => rw [hskip] at heq; cases heq
  · next heq =>
    rw [hskip] at heq
    cases heq
    rw [if_pos rfl]

theorem nextKey_element {first : Bool} {comma blank : List UInt8}
    (hcomma : SpellsComma first comma) (hblank : Blank blank) :
    ∃ hlt, nextKey first (comma ++ (blank ++ byte '"' :: s)) = .ok (some ⟨s, hlt⟩) := by
  have hskip := skipSpace_append hblank ⟨byte '"', s, rfl, by decide⟩
  cases hcomma with
  | first =>
    refine ⟨length_lt_of_skipSpace hskip, ?_⟩
    change nextKey true (blank ++ byte '"' :: s) = _
    unfold nextKey
    split
    · next heq => rw [hskip] at heq; cases heq
    · next heq =>
      rw [hskip] at heq
      cases heq
      rw [if_neg (by decide), if_pos rfl, if_pos rfl]
  | next hlead =>
    have hfirst := skipSpace_comma (s := blank ++ byte '"' :: s) hlead
    refine ⟨Nat.lt_trans (length_lt_of_skipSpace hskip) (length_lt_of_skipSpace hfirst), ?_⟩
    unfold nextKey
    split
    · next heq => rw [hfirst] at heq; cases heq
    · next heq =>
      rw [hfirst] at heq
      cases heq
      rw [if_neg (by decide), if_neg (by decide), if_pos rfl]
      split
      · next heq => rw [hskip] at heq; cases heq
      · next heq =>
        rw [hskip] at heq
        cases heq
        rw [if_pos rfl]

theorem reads_colon {blank : List UInt8} (h : Blank blank) (rest : List UInt8) :
    Reads (colon (blank ++ byte ':' :: rest)) () rest := by
  apply Reads.afterSpace
  rw [skipSpace_append h ⟨_, _, rfl, by decide⟩]
  simp only [if_true]
  exact ⟨_, rfl⟩

theorem FormedKey.opening (h : FormedKey s) : Opening s := by
  obtain ⟨htail, hblank⟩ := h
  exact ⟨_, _, rfl, by decide⟩

/-- A key of the grammar and its colon are read one behind the other. -/
theorem SpellsKey.reads {key : String} (h : SpellsKey key s) :
    ∃ t, s = byte '"' :: t ∧ ∀ rest, ∃ u, Reads (stringTail (t ++ rest)) key u ∧
      Reads (colon u) () rest := by
  obtain ⟨htail, hblank⟩ := h
  rename_i tail blank
  refine ⟨tail ++ (blank ++ [byte ':']), rfl, fun rest => ⟨blank ++ byte ':' :: rest, ?_, ?_⟩⟩
  · have htext : tail ++ (blank ++ [byte ':']) ++ rest = tail ++ (blank ++ byte ':' :: rest) := by
      simp
    rw [htext]
    exact reads_stringTail htail _
  · exact reads_colon hblank rest

end

end LiveAudit.Json
