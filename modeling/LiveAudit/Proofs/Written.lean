import LiveAudit.Json.Printer
import LiveAudit.Proofs.RecordTexts

/-!
# Written texts are texts of their values

What is written for a value is a text of it (`Value.spells_write`), if there is no double in the
value: whether the shortest decimal digits of a double read back as that double is not looked into
here. So every format that takes the value takes the written text (`Format.readText_compact`).
-/

namespace LiveAudit.Json

open Text

theorem encode_cons_ascii {c : Char} (h : c.toNat < 0x80) (cs : List Char) :
    encode (c :: cs) = byte c :: encode cs := by
  simp [encodeChar, h, byte]

/-! ### Integers -/

section

variable {n d : Nat}

/-- The code of a decimal digit is a digit with its value. -/
theorem encodeChar_digit (h : d < 10) :
    ∃ b, encodeChar (hexDigit d) = [b] ∧ isDigit b = true ∧ digitValue b = d ∧
      (d ≠ 0 → b ≠ byte '0') := by
  have hall : ∀ d < 10, encodeChar (hexDigit d) = [(48 + d).toUInt8] ∧
      isDigit (48 + d).toUInt8 = true ∧ digitValue (48 + d).toUInt8 = d ∧
      (d ≠ 0 → (48 + d).toUInt8 ≠ byte '0') := by
    decide
  exact ⟨_, hall d h⟩

theorem isDigit_decimal (n : Nat) : ∀ b ∈ encode (decimal n), isDigit b = true := by
  induction n using decimal.induct with
  | case1 n hn =>
    obtain ⟨b, hb, hdigit, _, _⟩ := encodeChar_digit hn
    rw [decimal, if_pos hn]
    simpa [hb] using hdigit
  | case2 n hn ih =>
    obtain ⟨b, hb, hdigit, _, _⟩ := encodeChar_digit (Nat.mod_lt n (show 0 < 10 by decide))
    rw [decimal, if_neg hn, encode_append]
    intro c hc
    rcases List.mem_append.1 hc with hc | hc
    · exact ih c hc
    · obtain rfl : c = b := by simpa [hb] using hc
      exact hdigit

/-- Digits are gathered one by one, as long as the word does not overflow. -/
theorem gather_append {word m : Nat} {ds : List Nat} (h : gather word ds = (m, []))
    (hlt : m * 10 + d < UInt64.size) : gather word (ds ++ [d]) = (m * 10 + d, []) := by
  induction ds generalizing word with
  | nil =>
    obtain rfl : word = m := congrArg Prod.fst h
    simp [gather, hlt]
  | cons e ds ih =>
    rw [List.cons_append, gather]
    rw [gather] at h
    split at h
    · next hword => rw [if_pos hword, ih h]
    · cases h

theorem gather_decimal (h : n < UInt64.size) :
    gather 0 ((encode (decimal n)).map digitValue) = (n, []) := by
  induction n using decimal.induct with
  | case1 n hn =>
    obtain ⟨b, hb, _, hvalue, _⟩ := encodeChar_digit hn
    rw [decimal, if_pos hn]
    simp [hb, hvalue, gather, h]
  | case2 n hn ih =>
    obtain ⟨b, hb, _, hvalue, _⟩ := encodeChar_digit (Nat.mod_lt n (show 0 < 10 by decide))
    have hsplit : n / 10 * 10 + n % 10 = n := by omega
    have hfront := ih (by omega)
    have hlast := gather_append (d := n % 10) hfront (by omega)
    rw [decimal, if_neg hn, encode_append, List.map_append]
    simpa [hb, hvalue, hsplit] using hlast

/-- Decimal digits have no leading zero. -/
theorem exists_lead_decimal (h : n ≠ 0) :
    ∃ b t, encode (decimal n) = b :: t ∧ b ≠ byte '0' := by
  induction n using decimal.induct with
  | case1 n hn =>
    obtain ⟨b, hb, _, _, hne⟩ := encodeChar_digit hn
    rw [decimal, if_pos hn]
    exact ⟨b, [], by simp [hb], hne h⟩
  | case2 n hn ih =>
    obtain ⟨b, t, heq, hne⟩ := ih (by omega)
    rw [decimal, if_neg hn, encode_append, heq]
    exact ⟨b, _, rfl, hne⟩

theorem spellsWhole_decimal (n : Nat) :
    SpellsWhole ((encode (decimal n)).map digitValue) (encode (decimal n)) := by
  have hdigits := isDigit_decimal n
  by_cases hn : n = 0
  · subst hn
    rw [decimal, if_pos (by decide)]
    exact .zero
  · obtain ⟨b, t, heq, hne⟩ := exists_lead_decimal hn
    rw [heq] at hdigits ⊢
    exact .digits (hdigits b (List.mem_cons_self ..)) hne
      ⟨fun c hc => hdigits c (List.mem_cons_of_mem _ hc), rfl⟩

/-- Digits without a fraction and an exponent that fit into a word are an integer, but for minus
zero. -/
theorem toNumber_integer {ds : List Nat} {negative : Bool} {word : Nat} {w : Whole}
    (hgather : gather 0 ds = (word, []))
    (hvalue : (if negative then -(word : Int) else word) = w.value)
    (hzero : ¬(negative = true ∧ word = 0)) (rest : List UInt8) :
    Numeral.toNumber negative ⟨ds, none, none⟩ rest = .ok (.integer w) := by
  have hwhole : Whole.ofInt? w.value = some w := dif_pos w.inRange
  simp only [Numeral.toNumber, hgather, hvalue, hwhole, if_neg hzero]

theorem spells_signedDecimal (w : Whole) :
    (Number.integer w).Spells (encode (signedDecimal w.value)) := by
  have hrange := w.inRange
  have hword : w.value.natAbs < UInt64.size := by
    rw [UInt64.size]
    omega
  have hspells := Numeral.Spells.mk (spellsWhole_decimal w.value.natAbs) .none .none
  rw [List.append_nil, List.append_nil] at hspells
  unfold signedDecimal
  split
  · next hneg =>
    rw [encode_cons_ascii (by decide)]
    refine .negative hspells (toNumber_integer (gather_decimal hword) ?_ ?_ [])
    · rw [if_pos rfl]
      omega
    · rintro ⟨-, hzero⟩
      omega
  · next hpos =>
    refine .positive hspells (toNumber_integer (gather_decimal hword) ?_ ?_ [])
    · rw [if_neg Bool.false_ne_true]
      omega
    · rintro ⟨hneg, -⟩
      exact Bool.false_ne_true hneg

end

/-! ### Strings -/

theorem encode_singleton (c : Char) : encode [c] = encodeChar c :=
  List.append_nil _

theorem hexValue?_hexDigit {d : Nat} (h : d < 16) :
    ∃ b, encodeChar (hexDigit d) = [b] ∧ hexValue? b = some d := by
  have hall : ∀ d < 16, ∃ b ∈ encodeChar (hexDigit d),
      encodeChar (hexDigit d) = [b] ∧ hexValue? b = some d := by
    decide
  obtain ⟨b, _, hb⟩ := hall d h
  exact ⟨b, hb⟩

theorem spellsChar_writeChar (c : Char) : SpellsChar c (encode (writeChar c)) := by
  unfold writeChar
  split_ifs with hplain hn hr ht hb hf hcontrol
  · obtain rfl | rfl := hplain
    · exact .letter (b := byte '"') (x := byte '"') rfl
    · exact .letter (b := byte '\\') (x := byte '\\') rfl
  · subst hn
    exact .letter (b := byte 'n') (x := 10) rfl
  · subst hr
    exact .letter (b := byte 'r') (x := 13) rfl
  · subst ht
    exact .letter (b := byte 't') (x := 9) rfl
  · obtain rfl : c = Char.ofNat 8 := Char.toNat_inj.1 hb
    exact .letter (b := byte 'b') (x := 8) rfl
  · obtain rfl : c = Char.ofNat 12 := Char.toNat_inj.1 hf
    exact .letter (b := byte 'f') (x := 12) rfl
  · obtain ⟨x, hx, hxvalue⟩ := hexValue?_hexDigit (d := c.toNat / 16) (by omega)
    obtain ⟨y, hy, hyvalue⟩ := hexValue?_hexDigit (d := c.toNat % 16) (by omega)
    have hunit : SpellsUnit c.toNat (encode ['\\', 'u', '0', '0', hexDigit (c.toNat / 16),
        hexDigit (c.toNat % 16)]) := by
      have hmk := SpellsUnit.mk (a := byte '0') (b := byte '0') (x := 0) (y := 0) rfl rfl hxvalue
        hyvalue
      rw [show 0 * 4096 + 0 * 256 + c.toNat / 16 * 16 + c.toNat % 16 = c.toNat by omega] at hmk
      simp only [encode_cons, hx, hy]
      exact hmk
    have hchar := SpellsChar.unit hunit (by omega)
    rwa [Char.ofNat_toNat] at hchar
  · rw [encode_singleton]
    exact .plain (by omega) (fun h => hplain (.inl h)) (fun h => hplain (.inr h))

theorem spellsTail_write (cs : List Char) :
    SpellsTail cs (encode (cs.flatMap writeChar ++ ['"'])) := by
  induction cs with
  | nil => exact .nil
  | cons c cs ih =>
    rw [List.flatMap_cons, List.append_assoc, encode_append]
    exact .cons (spellsChar_writeChar c) ih

theorem spellsKey_write (key : String) :
    SpellsKey key (encode (writeString key) ++ [byte ':']) := by
  have hmk := SpellsKey.mk (t := []) (spellsTail_write key.toList) blank_nil
  unfold writeString
  rw [List.cons_append, encode_cons_ascii (by decide)]
  exact hmk

/-! ### Values -/

namespace Value

mutual

/-- There is no double in the value. -/
def Floatless : Value → Prop
  | .float _ => False
  | .array items => FloatlessItems items
  | .object members => FloatlessMembers members
  | .null => True
  | .bool _ => True
  | .integer _ => True
  | .string _ => True

def FloatlessItems : List Value → Prop
  | [] => True
  | v :: rest => Floatless v ∧ FloatlessItems rest

def FloatlessMembers : List (String × Value) → Prop
  | [] => True
  | (_, v) :: rest => Floatless v ∧ FloatlessMembers rest

end

theorem floatlessMembers_iff {members : List (String × Value)} :
    FloatlessMembers members ↔ ∀ m ∈ members, m.2.Floatless := by
  induction members with
  | nil => simp [FloatlessMembers]
  | cons m rest ih =>
    obtain ⟨key, v⟩ := m
    rw [FloatlessMembers, ih, List.forall_mem_cons]

mutual

/-- What is written for a value is a text of it. -/
theorem spells_write : (v : Value) → v.Floatless → v.Spells (encode v.write)
  | .null, _ => by
    rw [Spells]
    rfl
  | .bool b, _ => by
    cases b <;> rw [Spells] <;> rfl
  | .integer n, _ => by
    rw [Spells, write]
    exact spells_signedDecimal n
  | .float x, h => by
    rw [Floatless] at h
    exact h.elim
  | .string s, _ => by
    rw [Spells, write]
    exact ⟨_, spellsTail_write s.toList, rfl⟩
  | .array items, h => by
    rw [Floatless] at h
    rw [Spells, write, List.cons_append, encode_cons_ascii (by decide), encode_append]
    exact ⟨encode (writeItems items), spells_writeItems items h .first fun _ => rfl, rfl⟩
  | .object members, h => by
    rw [Floatless] at h
    rw [Spells, write, List.cons_append, encode_cons_ascii (by decide), encode_append]
    exact ⟨encode (writeMembers members), spells_writeMembers members h .first fun _ => rfl, rfl⟩

theorem spells_writeItems : (items : List Value) → FloatlessItems items →
    ∀ {first : Bool} {comma : List UInt8}, SpellsComma first comma → (items = [] → first = true) →
      SpellsItems first items (comma ++ encode (writeItems items))
  | [], _, _, comma, hcomma, hfirst => by
    obtain rfl := hfirst rfl
    cases hcomma
    rw [SpellsItems, writeItems]
    exact blank_nil
  | [v], h, _, comma, hcomma, _ => by
    rw [FloatlessItems] at h
    rw [SpellsItems, writeItems]
    refine ⟨comma, [], _, [], hcomma, blank_nil, spells_write v h.1, ?_, by simp⟩
    rw [SpellsItems]
    exact blank_nil
  | v :: w :: rest, h, _, comma, hcomma, _ => by
    rw [FloatlessItems] at h
    rw [SpellsItems, writeItems.eq_3 v _ (by simp), encode_append, encode_cons_ascii (by decide)]
    exact ⟨comma, [], _, byte ',' :: encode (writeItems (w :: rest)), hcomma, blank_nil,
      spells_write v h.1, spells_writeItems (w :: rest) h.2 (.next blank_nil) nofun, by simp⟩

theorem spells_writeMembers : (members : List (String × Value)) → FloatlessMembers members →
    ∀ {first : Bool} {comma : List UInt8}, SpellsComma first comma →
      (members = [] → first = true) →
      SpellsMembers first members (comma ++ encode (writeMembers members))
  | [], _, _, comma, hcomma, hfirst => by
    obtain rfl := hfirst rfl
    cases hcomma
    rw [SpellsMembers, writeMembers]
    exact blank_nil
  | [(k, v)], h, _, comma, hcomma, _ => by
    rw [FloatlessMembers] at h
    rw [SpellsMembers, writeMembers, encode_append, encode_cons_ascii (by decide)]
    refine ⟨comma, [], _, [], _, [], hcomma, blank_nil, spellsKey_write k, blank_nil,
      spells_write v h.1, ?_, by simp⟩
    rw [SpellsMembers]
    exact blank_nil
  | (k, v) :: m :: rest, h, _, comma, hcomma, _ => by
    rw [FloatlessMembers] at h
    rw [SpellsMembers, writeMembers.eq_3 k v _ (by simp), encode_append, encode_append,
      encode_cons_ascii (by decide), encode_cons_ascii (by decide)]
    exact ⟨comma, [], _, [], _, byte ',' :: encode (writeMembers (m :: rest)), hcomma,
      blank_nil, spellsKey_write k, blank_nil, spells_write v h.1,
      spells_writeMembers (m :: rest) h.2 (.next blank_nil) nofun, by simp⟩

end

end Value

/-! ### Records -/

namespace Fields

/-- The members are those of the record, in the order of its fields. -/
def Writes : {ρ : Type} → Fields ρ → ρ → List (String × Value) → Prop
  | _, .done, _, members => members = []
  | _, .cons _ _, _, [] => False
  | _, .cons field more, (a, r), (key, v) :: members =>
    field.answers key = true ∧ (∀ m ∈ members, field.answers m.1 = false) ∧
      field.form.ofValue v = .ok a ∧ more.Writes r members

section

variable {α ρ : Type} {label : String} {form : Format α} {more : Fields ρ} {a : α} {r : ρ}
  {v : Value} {members : List (String × Value)}

theorem answers_label (names : List String) (absent cut : Option α) (key : String) :
    (Field.mk label names form absent cut).answers key = (key == label || names.contains key) :=
  rfl

theorem writes_required (hothers : ∀ m ∈ members, m.1 ≠ label) (hv : form.ofValue v = .ok a)
    (hmore : more.Writes r members) :
    (cons (.required label form) more).Writes (a, r) ((label, v) :: members) :=
  ⟨by simp [Field.required, answers_label],
    fun m hm => by simpa [Field.required, answers_label] using hothers m hm, hv, hmore⟩

theorem writes_optional {default : α} (hothers : ∀ m ∈ members, m.1 ≠ label)
    (hv : form.ofValue v = .ok a) (hmore : more.Writes r members) :
    (cons (.optional label form default) more).Writes (a, r) ((label, v) :: members) :=
  ⟨by simp [Field.optional, answers_label],
    fun m hm => by simpa [Field.optional, answers_label] using hothers m hm, hv, hmore⟩

theorem writes_nullable {o : Option α} (hothers : ∀ m ∈ members, m.1 ≠ label)
    (hv : form.option.ofValue v = .ok o) (hmore : more.Writes r members) :
    (cons (.nullable label form) more).Writes (o, r) ((label, v) :: members) :=
  ⟨by simp [Field.nullable, answers_label],
    fun m hm => by simpa [Field.nullable, answers_label] using hothers m hm, hv, hmore⟩

end

/-- Members that the first field does not answer go to the others. -/
theorem ofMembers_behind {α ρ : Type} {field : Field α} {more : Fields ρ}
    {members : List (String × Value)} {o : Option α} {d : more.Draft}
    (h : ∀ m ∈ members, field.answers m.1 = false) :
    (cons field more).ofMembers (o, d) members =
      (more.ofMembers d members).map fun d => (o, d) := by
  induction members generalizing d with
  | nil => rfl
  | cons m members ih =>
    obtain ⟨key, v⟩ := m
    have hkey := h _ (List.mem_cons_self ..)
    have hrest := fun m hm => h m (List.mem_cons_of_mem _ hm)
    simp only [ofMembers, slot, hkey, Bool.false_eq_true, if_false]
    cases more.slot d key with
    | unknown => exact ih hrest
    | taken label => rfl
    | vacant form =>
      simp only [Slot.map, Format.map]
      cases form.ofValue v with
      | error c => rfl
      | ok d => exact ih hrest

theorem ofObject_of_writes {ρ : Type} {fs : Fields ρ} {r : ρ} {members : List (String × Value)}
    (h : fs.Writes r members) : fs.ofObject members = .ok r := by
  have hfinish : ∃ d, fs.ofMembers fs.blank members = .ok d ∧ fs.finish d = .ok r := by
    induction fs generalizing members with
    | done =>
      obtain rfl : members = [] := h
      exact ⟨(), rfl, rfl⟩
    | cons field more ih =>
      obtain ⟨a, r⟩ := r
      cases members with
      | nil => exact h.elim
      | cons m members =>
        obtain ⟨key, v⟩ := m
        obtain ⟨hkey, hothers, hv, hmore⟩ := h
        obtain ⟨d, hd, hr⟩ := ih hmore
        refine ⟨(some a, d), ?_, ?_⟩
        · simp only [ofMembers, slot, blank, hkey, if_true, Format.map, hv, Except.map]
          rw [ofMembers_behind hothers, hd]
          rfl
        · simp only [finish]
          rw [hr]
          rfl
  obtain ⟨d, hd, hr⟩ := hfinish
  simp only [ofObject, bind, Except.bind, hd, hr]

theorem ofValue_record {ρ α : Type} {fs : Fields ρ} {type : String} {f : ρ → α} {r : ρ}
    {members : List (String × Value)} (h : fs.Writes r members) :
    ((fs.format type).map f).ofValue (.object members) = .ok (f r) := by
  simp only [Format.map, Fields.format, ofObject_of_writes h]
  rfl

end Fields

namespace Format

/-- A value that a format takes is taken again from what is written for it. -/
theorem readText_compact {α : Type} {form : Format α} (h : form.Accepts) {v : Value} {a : α}
    (hv : form.ofValue v = .ok a) (hfloat : v.Floatless) (hdepth : v.nesting ≤ allowance) :
    form.readText (utf8 v.compact) = .ok a := by
  have hread := readText_of_spells h hv (v.spells_write hfloat) hdepth blank_nil blank_nil
  simpa [utf8, Value.compact] using hread

theorem ofWord_value (n : UInt64) : (Whole.ofWord n).value = n.toNat :=
  rfl

theorem ofValue_stringOption (o : Option String) :
    string.option.ofValue (.ofStringOption o) = .ok o := by
  cases o <;> rfl

theorem ofValue_integer {α : Type} {expected : String} {convert : Int → Option α} {w : Whole}
    {a : α} (h : convert w.value = some a) :
    (integer expected convert).ofValue (.integer w) = .ok a := by
  unfold integer
  dsimp only
  rw [h]

theorem ofValue_word (expected : String) (n : UInt64) :
    (integer expected toWord?).ofValue (.ofWord n) = .ok n := by
  have hn := n.toNat_lt
  have hrange : 0 ≤ (n.toNat : Int) ∧ (n.toNat : Int) < UInt64.size := by
    refine ⟨Int.natCast_nonneg _, ?_⟩
    exact_mod_cast hn
  apply ofValue_integer
  rw [ofWord_value, toWord?, if_pos hrange]
  simp

theorem ofValue_word64 (n : UInt64) : word64.ofValue (.ofWord n) = .ok n := by
  rw [word64, ofValue_word]

theorem ofValue_size (n : UInt64) : size.ofValue (.ofWord n) = .ok n := by
  rw [size, ofValue_word]

theorem ofValue_word32 (n : UInt32) : word32.ofValue (.ofWord32 n) = .ok n := by
  have hn := n.toNat_lt
  have hrange : 0 ≤ (n.toUInt64.toNat : Int) ∧ (n.toUInt64.toNat : Int) < UInt32.size := by
    refine ⟨Int.natCast_nonneg _, ?_⟩
    rw [UInt32.toNat_toUInt64]
    exact_mod_cast hn
  apply ofValue_integer
  rw [ofWord_value, if_pos hrange]
  simp

end Format

namespace Value

theorem floatless_ofStringOption (o : Option String) : (ofStringOption o).Floatless := by
  cases o <;> simp [ofStringOption, ofOption, Floatless]

theorem nesting_ofStringOption (o : Option String) : (ofStringOption o).nesting = 0 := by
  cases o <;> simp [ofStringOption, ofOption, nesting]

end Value

end LiveAudit.Json
