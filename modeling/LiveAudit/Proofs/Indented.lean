import LiveAudit.Proofs.Written

/-!
# What is written over several lines

The indented form of a value is a text of the value like the compact one: the line ends and blanks
that are put in stand only where blanks may stand (`Value.spells_writeIndented`). So a format reads
it back (`Format.readText_indented`).
-/

namespace LiveAudit.Json

open Text

theorem blank_space : Blank [byte ' '] :=
  List.forall_mem_singleton.2 (by decide)

namespace Value

theorem blank_newLine (depth : Nat) : Blank (encode (newLine depth)) := by
  have hspaces (n : Nat) : Blank (encode (List.replicate n ' ')) := by
    induction n with
    | zero => exact blank_nil
    | succ n ih =>
      rw [List.replicate_succ, encode_cons_ascii (by decide)]
      exact List.forall_mem_cons.2 ⟨by decide, ih⟩
  rw [newLine, encode_cons_ascii (by decide)]
  exact List.forall_mem_cons.2 ⟨by decide, hspaces _⟩

mutual

/-- What is written for a value over several lines is a text of it. -/
theorem spells_writeIndented (depth : Nat) :
    (v : Value) → v.Floatless → v.Spells (encode (v.writeIndented depth))
  | .null, _ => by
    rw [Spells]
    rfl
  | .bool b, _ => by
    cases b <;> rw [Spells] <;> rfl
  | .integer n, _ => by
    rw [Spells, writeIndented]
    exact spells_signedDecimal n
  | .float x, h => by
    rw [Floatless] at h
    exact h.elim
  | .string s, _ => by
    rw [Spells, writeIndented]
    exact ⟨_, spellsTail_write s.toList, rfl⟩
  | .array [], _ => by
    rw [Spells]
    exact ⟨[], by rw [SpellsItems]; exact blank_nil, rfl⟩
  | .array (v :: rest), h => by
    rw [Floatless] at h
    have htext : encode (writeIndented depth (.array (v :: rest))) = Bracket.list.opening ::
        (encode (indentedItems (depth + 1) (v :: rest)) ++ encode (newLine depth) ++
          [Bracket.list.closing]) := by
      rw [writeIndented.eq_2 depth _ (by simp), List.cons_append, List.cons_append,
        encode_cons_ascii (by decide), encode_append, encode_append]
      rfl
    rw [Spells, htext]
    exact ⟨_, spells_indentedItems (depth + 1) (v :: rest) h .first nofun (blank_newLine depth),
      rfl⟩
  | .object [], _ => by
    rw [Spells]
    exact ⟨[], by rw [SpellsMembers]; exact blank_nil, rfl⟩
  | .object (m :: rest), h => by
    rw [Floatless] at h
    have htext : encode (writeIndented depth (.object (m :: rest))) = Bracket.object.opening ::
        (encode (indentedMembers (depth + 1) (m :: rest)) ++ encode (newLine depth) ++
          [Bracket.object.closing]) := by
      rw [writeIndented.eq_4 depth _ (by simp), List.cons_append, List.cons_append,
        encode_cons_ascii (by decide), encode_append, encode_append]
      rfl
    rw [Spells, htext]
    exact ⟨_, spells_indentedMembers (depth + 1) (m :: rest) h .first nofun (blank_newLine depth),
      rfl⟩

theorem spells_indentedItems (depth : Nat) : (items : List Value) → FloatlessItems items →
    ∀ {first : Bool} {comma behind : List UInt8}, SpellsComma first comma →
      (items = [] → first = true) → Blank behind →
      SpellsItems first items (comma ++ (encode (indentedItems depth items) ++ behind))
  | [], _, _, comma, behind, hcomma, hfirst, hbehind => by
    obtain rfl := hfirst rfl
    cases hcomma
    rw [SpellsItems, indentedItems]
    exact hbehind
  | [v], h, _, comma, behind, hcomma, _, hbehind => by
    rw [FloatlessItems] at h
    rw [SpellsItems, indentedItems, encode_append]
    refine ⟨comma, _, _, behind, hcomma, blank_newLine depth, spells_writeIndented depth v h.1, ?_,
      by simp⟩
    rw [SpellsItems]
    exact hbehind
  | v :: w :: rest, h, _, comma, behind, hcomma, _, hbehind => by
    rw [FloatlessItems] at h
    rw [SpellsItems, indentedItems.eq_3 depth v _ (by simp), encode_append, encode_append,
      encode_cons_ascii (by decide)]
    exact ⟨comma, _, _, byte ',' :: (encode (indentedItems depth (w :: rest)) ++ behind), hcomma,
      blank_newLine depth, spells_writeIndented depth v h.1,
      spells_indentedItems depth (w :: rest) h.2 (.next blank_nil) nofun hbehind, by simp⟩

theorem spells_indentedMembers (depth : Nat) : (members : List (String × Value)) →
    FloatlessMembers members →
    ∀ {first : Bool} {comma behind : List UInt8}, SpellsComma first comma →
      (members = [] → first = true) → Blank behind →
      SpellsMembers first members (comma ++ (encode (indentedMembers depth members) ++ behind))
  | [], _, _, comma, behind, hcomma, hfirst, hbehind => by
    obtain rfl := hfirst rfl
    cases hcomma
    rw [SpellsMembers, indentedMembers]
    exact hbehind
  | [(k, v)], h, _, comma, behind, hcomma, _, hbehind => by
    rw [FloatlessMembers] at h
    rw [SpellsMembers, indentedMembers, encode_append, encode_append, encode_cons_ascii (by decide),
      encode_cons_ascii (by decide)]
    refine ⟨comma, _, _, [byte ' '], _, behind, hcomma, blank_newLine depth, spellsKey_write k,
      blank_space, spells_writeIndented depth v h.1, ?_, by simp⟩
    rw [SpellsMembers]
    exact hbehind
  | (k, v) :: m :: rest, h, _, comma, behind, hcomma, _, hbehind => by
    rw [FloatlessMembers] at h
    rw [SpellsMembers, indentedMembers.eq_3 depth k v _ (by simp), encode_append, encode_append,
      encode_cons_ascii (by decide), encode_append, encode_cons_ascii (by decide),
      encode_cons_ascii (by decide)]
    exact ⟨comma, _, _, [byte ' '], _,
      byte ',' :: (encode (indentedMembers depth (m :: rest)) ++ behind), hcomma,
      blank_newLine depth, spellsKey_write k, blank_space, spells_writeIndented depth v h.1,
      spells_indentedMembers depth (m :: rest) h.2 (.next blank_nil) nofun hbehind, by simp⟩

end

end Value

/-- A value that a format takes is taken again from what is written for it over several lines. -/
theorem Format.readText_indented {α : Type} {form : Format α} (h : form.Accepts) {v : Value} {a : α}
    (hv : form.ofValue v = .ok a) (hfloat : v.Floatless) (hdepth : v.nesting ≤ allowance) :
    form.readText (utf8 v.indented) = .ok a := by
  have hread := readText_of_spells h hv (v.spells_writeIndented 0 hfloat) hdepth blank_nil blank_nil
  simpa [utf8, Value.indented] using hread

end LiveAudit.Json
