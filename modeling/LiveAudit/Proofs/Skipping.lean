import LiveAudit.Proofs.Brackets

/-!
# Passing over values

The machine that skips a value takes every text in the form of a value, however deep, and leaves
what stands behind it (`Formed.reads_skipValue`). Its stack of open brackets is the path to the
value that is being skipped: when the value ends, the machine is where it was before (`Passes`), so
the induction is on the form of the text with any stack below.
-/

namespace LiveAudit.Json

variable {whole rest s : List UInt8}

/-! ### Strings and numbers -/

theorem skipString_plain (hs : ∀ b ∈ s, Plain b) (h : (s ++ rest).length ≤ whole.length) :
    ∃ h', skipString (s ++ rest) h = skipString rest h' := by
  induction s with
  | nil => exact ⟨h, rfl⟩
  | cons b s ih =>
    obtain ⟨hquote, hbackslash, hshown⟩ := hs b (List.mem_cons_self ..)
    obtain ⟨h', hmore⟩ := ih (fun c hc => hs c (List.mem_cons_of_mem _ hc)) (Nat.le_of_succ_le h)
    refine ⟨h', ?_⟩
    change skipString (b :: (s ++ rest)) h = _
    rw [skipString.eq_def]
    simp only [if_neg hquote, if_neg hbackslash, if_neg (UInt8.not_lt.2 hshown), hmore]

theorem skipString_unit {n : Nat} (hs : SpellsUnit n s) (h : (s ++ rest).length ≤ whole.length) :
    ∃ h', skipString (s ++ rest) h = skipString rest h' := by
  obtain ⟨t, rfl, hfour⟩ := hs.exists_hexFour
  obtain ⟨hlt, hfour⟩ := hfour rest
  refine ⟨?_, ?_⟩
  · simp only [List.cons_append, List.length_cons] at h
    omega
  · change skipString (byte '\\' :: byte 'u' :: (t ++ rest)) h = _
    rw [skipString, if_neg (by decide), if_pos rfl]
    simp only [escapedByte?_u, Option.isSome_none, Bool.false_eq_true, if_false, if_true, hfour]

theorem reads_skipString (hs : FormedTail s) (h : (s ++ rest).length ≤ whole.length) :
    Reads (skipString (s ++ rest) h) () rest := by
  induction hs with
  | nil =>
    change Reads (skipString (byte '"' :: rest) h) () rest
    rw [skipString.eq_def]
    exact ⟨_, rfl⟩
  | plain shown quote backslash _ ih =>
    revert h
    rw [List.append_assoc]
    intro h
    obtain ⟨h', hplain⟩ := skipString_plain (plain_encodeChar shown quote backslash) h
    rw [hplain]
    exact ih h'
  | @letter b x t hletter _ ih =>
    have h' : (t ++ rest).length ≤ whole.length := by
      simp only [List.cons_append, List.length_cons] at h
      omega
    change Reads (skipString (byte '\\' :: b :: (t ++ rest)) h) () rest
    rw [skipString, if_neg (by decide), if_pos rfl]
    simp only [hletter, Option.isSome_some, if_true]
    exact ih h'
  | unit hunit _ ih =>
    revert h
    rw [List.append_assoc]
    intro h
    obtain ⟨h', hskip⟩ := skipString_unit hunit h
    rw [hskip]
    exact ih h'

theorem reads_skipNumeral {n : Numeral} (h : n.Spells s) (hrest : Ends rest) :
    Reads (skipNumeral (s ++ rest)) () rest := by
  obtain ⟨_, hnumeral⟩ := reads_numeral h hrest
  rw [skipNumeral, hnumeral]
  exact ⟨_, rfl⟩

/-! ### Tokens -/

/-- From where a token has been read, the machine comes to the end of the value: at once, or at the
end of the bracket that the token has opened. -/
def Passes (inner : Option Bracket) (text rest : List UInt8) : Prop :=
  match inner with
  | none => text = rest
  | some b => ∀ (whole : List UInt8) (outer : List Bracket) (h : text.length < whole.length),
      ∃ h', skipOpen true (b :: outer) text h = skipOpen false outer rest h'

theorem reads_skipToken_positive {n : Numeral} {blank : List UInt8} (h : n.Spells s)
    (hblank : Blank blank) (hrest : Ends rest) :
    Reads (skipToken (blank ++ (s ++ rest))) none rest := by
  have hnumeral := reads_skipNumeral h hrest
  apply Reads.afterSpace
  rw [skipSpace_append hblank (h.opening.shown.append rest)]
  obtain ⟨b, t, rfl, hdigit⟩ := h.exists_cons
  have hb : Leads b := .inr hdigit
  have hminus : b ≠ byte '-' := by rintro rfl; exact absurd hdigit (by decide)
  rw [List.cons_append] at hnumeral ⊢
  simp only [if_neg (hb.ne (c := byte 'n') (by decide)),
    if_neg (hb.ne (c := byte 't') (by decide)), if_neg (hb.ne (c := byte 'f') (by decide)),
    if_neg hminus, hdigit, if_true]
  exact hnumeral.map _

theorem reads_skipToken_negative {n : Numeral} {blank : List UInt8} (h : n.Spells s)
    (hblank : Blank blank) (hrest : Ends rest) :
    Reads (skipToken (blank ++ byte '-' :: (s ++ rest))) none rest := by
  have hnumeral := reads_skipNumeral h hrest
  apply Reads.afterSpace
  rw [skipSpace_append hblank ⟨byte '-', s ++ rest, rfl, by decide⟩]
  change Reads
    ((skipNumeral (s ++ rest)).map fun p => (p.behind (byte '-')).map fun _ => none) _ _
  exact hnumeral.behind_map (byte '-') fun _ => none

theorem reads_skipToken_word {b : UInt8} {letters blank : List UInt8} (hblank : Blank blank)
    (hword : (b, letters) ∈ [(byte 'n', nullTail), (byte 't', trueTail), (byte 'f', falseTail)]) :
    Reads (skipToken (blank ++ b :: (letters ++ rest))) none rest := by
  have hletters := gathers_literal letters rest
  simp only [List.mem_cons, List.not_mem_nil, or_false, Prod.mk.injEq] at hword
  have hspace : isSpace b = false := by
    obtain ⟨rfl, _⟩ | ⟨rfl, _⟩ | ⟨rfl, _⟩ := hword <;> decide
  apply Reads.afterSpace
  rw [skipSpace_append hblank ⟨b, letters ++ rest, rfl, hspace⟩]
  obtain ⟨rfl, rfl⟩ | ⟨rfl, rfl⟩ | ⟨rfl, rfl⟩ := hword
  all_goals exact hletters.behind_map _ fun _ => none

theorem reads_skipToken_string {blank : List UInt8} (hs : FormedTail s) (hblank : Blank blank) :
    Reads (skipToken (blank ++ byte '"' :: (s ++ rest))) none rest := by
  have hstring := reads_skipString hs (length_self_le (s ++ rest))
  apply Reads.afterSpace
  rw [skipSpace_append hblank ⟨byte '"', s ++ rest, rfl, by decide⟩]
  exact hstring.behind_map _ fun _ => none

theorem reads_skipToken_bracket (b : Bracket) {blank : List UInt8} (hblank : Blank blank) :
    Reads (skipToken (blank ++ b.opening :: rest)) (some b) rest := by
  apply Reads.afterSpace
  have hopening : isSpace b.opening = false := by cases b <;> decide
  rw [skipSpace_append hblank ⟨_, _, rfl, hopening⟩]
  cases b with
  | list => exact ⟨_, rfl⟩
  | object => exact ⟨_, rfl⟩

/-! ### The machine -/

theorem skipOpen_closing {b : Bracket} {first : Bool} {outer : List Bracket}
    (hs : Closes b rest s) (h : s.length < whole.length) :
    ∃ h', skipOpen first (b :: outer) s h = skipOpen false outer rest h' := by
  have hskip := hs.skipSpace
  refine ⟨Nat.lt_trans (length_lt_of_skipSpace hskip) h, ?_⟩
  rw [skipOpen]
  split
  · next heq => rw [hskip] at heq; cases heq
  · next heq =>
    rw [hskip] at heq
    cases heq
    rw [if_pos rfl]

/-- One element and the comma in front of it are passed over. -/
theorem skipOpen_element {b : Bracket} {first : Bool} {outer : List Bracket}
    {comma blank text : List UInt8} {inner : Option Bracket} (hcomma : SpellsComma first comma)
    (hblank : Blank blank) (hs : Opening s)
    (helement : Reads (skipElement b (blank ++ s)) inner text)
    (hpasses : Passes inner text rest) (h : (comma ++ (blank ++ s)).length < whole.length) :
    ∃ h', skipOpen first (b :: outer) (comma ++ (blank ++ s)) h =
      skipOpen false (b :: outer) rest h' := by
  have hskip := skipSpace_append hblank hs.shown
  obtain ⟨hlt, helement⟩ := helement
  obtain ⟨c, s, rfl, hc⟩ := hs
  have hclosing : c ≠ b.closing := by
    cases b
    · exact hc.2.2.1
    · exact hc.2.2.2
  -- Behind the comma, the machine reads the element and comes to its end.
  have hgo : ∃ h' : rest.length < whole.length, ∀ h₁ h₂, (match inner with
      | none => skipOpen false (b :: outer) text h₁
      | some i => skipOpen true (i :: b :: outer) text h₂) =
      skipOpen false (b :: outer) rest h' := by
    have hshort : text.length < whole.length := by
      simp only [List.length_append] at h hlt
      omega
    cases inner with
    | none =>
      obtain rfl : text = rest := hpasses
      exact ⟨hshort, fun _ _ => rfl⟩
    | some i =>
      obtain ⟨h', heq⟩ := hpasses whole (b :: outer) hshort
      exact ⟨h', fun _ _ => heq⟩
  obtain ⟨h', hgo⟩ := hgo
  refine ⟨h', ?_⟩
  cases hcomma with
  | first =>
    change skipOpen true (b :: outer) (blank ++ c :: s) _ = _
    rw [skipOpen]
    split
    · next heq => rw [hskip] at heq; cases heq
    · next heq =>
      rw [hskip] at heq
      cases heq
      rw [if_neg hclosing, if_pos rfl]
      simp only [helement]
      exact hgo _ _
  | next hlead =>
    have hfirst := skipSpace_comma (s := blank ++ c :: s) hlead
    have hcomma : byte ',' ≠ b.closing := by cases b <;> decide
    rw [skipOpen]
    split
    · next heq => rw [hfirst] at heq; cases heq
    · next heq =>
      rw [hfirst] at heq
      cases heq
      rw [if_neg hcomma, if_neg (by decide), if_pos rfl]
      simp only [helement]
      exact hgo _ _

theorem reads_skipKey {lead : List UInt8} (hs : FormedKey s) (hlead : Blank lead)
    (rest : List UInt8) : Reads (skipKey (lead ++ (s ++ rest))) () rest := by
  obtain ⟨htail, hblank⟩ := hs
  rename_i tail blank
  have htext : byte '"' :: tail ++ (blank ++ [byte ':']) ++ rest =
      byte '"' :: (tail ++ (blank ++ byte ':' :: rest)) := by simp
  obtain ⟨_, hstring⟩ :=
    reads_skipString htail (length_self_le (tail ++ (blank ++ byte ':' :: rest)))
  obtain ⟨_, hcolon⟩ := reads_colon hblank rest
  apply Reads.afterSpace
  rw [htext, skipSpace_append hlead ⟨_, _, rfl, by decide⟩]
  simp only [if_true, bind, Except.bind, hstring, hcolon]
  exact ⟨_, rfl⟩

theorem reads_skipMember {lead text : List UInt8} {inner : Option Bracket} (hs : FormedKey s)
    (hlead : Blank lead) (htoken : Reads (skipToken rest) inner text) :
    Reads (skipElement .object (lead ++ (s ++ rest))) inner text := by
  obtain ⟨_, hkey⟩ := reads_skipKey hs hlead rest
  obtain ⟨_, htoken⟩ := htoken
  simp only [skipElement, bind, Except.bind, hkey, htoken]
  exact ⟨_, rfl⟩

/-! ### Values -/

mutual

theorem Formed.passes {s rest blank : List UInt8} (hblank : Blank blank) (hrest : Ends rest) :
    Formed s →
    ∃ inner text, Reads (skipToken (blank ++ (s ++ rest))) inner text ∧ Passes inner text rest
  | .null => ⟨none, rest, reads_skipToken_word hblank (by simp), rfl⟩
  | .true => ⟨none, rest, reads_skipToken_word hblank (by simp), rfl⟩
  | .false => ⟨none, rest, reads_skipToken_word hblank (by simp), rfl⟩
  | .positive h => ⟨none, rest, reads_skipToken_positive h hblank hrest, rfl⟩
  | .negative h => ⟨none, rest, reads_skipToken_negative h hblank hrest, rfl⟩
  | .string h => ⟨none, rest, reads_skipToken_string h hblank, rfl⟩
  | .array h => by
    rw [List.cons_append, List.append_assoc]
    exact ⟨some .list, _, reads_skipToken_bracket .list hblank,
      fun _ outer hle => FormedItems.passes h outer hle⟩
  | .object h => by
    rw [List.cons_append, List.append_assoc]
    exact ⟨some .object, _, reads_skipToken_bracket .object hblank,
      fun _ outer hle => FormedMembers.passes h outer hle⟩

theorem FormedItems.passes {whole rest t : List UInt8} {first : Bool} :
    FormedItems first t → (outer : List Bracket) →
    (h : (t ++ Bracket.list.closing :: rest).length < whole.length) →
    ∃ h', skipOpen first (.list :: outer) (t ++ Bracket.list.closing :: rest) h =
      skipOpen false outer rest h'
  | .nil blank, outer, h => skipOpen_closing ⟨t, blank, rfl⟩ h
  | @FormedItems.cons _ comma blank s more hcomma hblank hs hmore, outer, h => by
    have htext : comma ++ (blank ++ (s ++ more)) ++ Bracket.list.closing :: rest =
        comma ++ (blank ++ (s ++ (more ++ Bracket.list.closing :: rest))) := by
      simp only [List.append_assoc]
    obtain ⟨inner, text, htoken, hpasses⟩ := Formed.passes hblank (hmore.ends rest) hs
    revert h
    rw [htext]
    intro h
    obtain ⟨h₁, hfirst⟩ :=
      skipOpen_element (b := .list) hcomma hblank (hs.opening.append _) htoken hpasses h
    obtain ⟨h₂, hrest⟩ := FormedItems.passes hmore outer h₁
    exact ⟨h₂, hfirst.trans hrest⟩

theorem FormedMembers.passes {whole rest t : List UInt8} {first : Bool} :
    FormedMembers first t → (outer : List Bracket) →
    (h : (t ++ Bracket.object.closing :: rest).length < whole.length) →
    ∃ h', skipOpen first (.object :: outer) (t ++ Bracket.object.closing :: rest) h =
      skipOpen false outer rest h'
  | .nil blank, outer, h => skipOpen_closing ⟨t, blank, rfl⟩ h
  | @FormedMembers.cons _ comma lead key blank s more hcomma hlead hkey hblank hs hmore,
      outer, h => by
    have htext :
        comma ++ (lead ++ (key ++ (blank ++ (s ++ more)))) ++ Bracket.object.closing :: rest =
        comma ++ (lead ++ (key ++ (blank ++ (s ++ (more ++ Bracket.object.closing :: rest))))) := by
      simp only [List.append_assoc]
    obtain ⟨inner, text, htoken, hpasses⟩ := Formed.passes hblank (hmore.ends rest) hs
    have helement := reads_skipMember hkey hlead htoken
    revert h
    rw [htext]
    intro h
    obtain ⟨h₁, hfirst⟩ :=
      skipOpen_element (b := .object) hcomma hlead (hkey.opening.append _) helement hpasses h
    obtain ⟨h₂, hrest⟩ := FormedMembers.passes hmore outer h₁
    exact ⟨h₂, hfirst.trans hrest⟩

end

/-- Every text in the form of a value is passed over. -/
theorem Formed.reads_skipValue {blank : List UInt8} (hs : Formed s) (hblank : Blank blank)
    (hrest : Ends rest) : Reads (skipValue (blank ++ (s ++ rest))) () rest := by
  obtain ⟨inner, text, ⟨hlt, htoken⟩, hpasses⟩ := hs.passes hblank hrest
  simp only [skipValue, bind, Except.bind, htoken]
  cases inner with
  | none =>
    obtain rfl : text = rest := hpasses
    exact ⟨_, rfl⟩
  | some b =>
    obtain ⟨h', hopen⟩ := hpasses _ [] hlt
    rw [skipOpen] at hopen
    exact ⟨_, hopen⟩

end LiveAudit.Json
