import LiveAudit.Proofs.Acceptance

/-!
# Texts of records

A record takes every text of a value that it takes, the keys in any order and unknown keys passed
over (`Fields.accepts_format`). Only what stands under a key of the record counts against the
allowance of brackets; the value of an unknown key may be nested to any depth
(`Fields.reads_format_object`).
-/

namespace LiveAudit.Json.Fields

/-- All fields take every text of the values that they take. -/
def Accept : {ρ : Type} → Fields ρ → Prop
  | _, .done => True
  | _, .cons field more => field.form.Accepts ∧ more.Accept

/-- The key is one of a field. -/
def knows : {ρ : Type} → Fields ρ → String → Bool
  | _, .done, _ => false
  | _, .cons field more, key => field.answers key || more.knows key

section

variable {ρ : Type} {fs : Fields ρ}

theorem Accept.slot (h : fs.Accept) {draft : fs.Draft} {key : String} {form : Format fs.Draft}
    (hslot : fs.slot draft key = .vacant form) : form.Accepts ∧ fs.knows key = true := by
  induction fs with
  | done => cases hslot
  | cons field more ih =>
    obtain ⟨hfield, hmore⟩ := h
    simp only [Fields.slot] at hslot
    split at hslot
    · next hanswers =>
      split at hslot
      · cases hslot
      · obtain rfl := Slot.vacant.inj hslot
        exact ⟨hfield.map _, by simp [knows, hanswers]⟩
    · cases hrest : more.slot draft.2 key with
      | unknown => rw [hrest] at hslot; cases hslot
      | taken label => rw [hrest] at hslot; cases hslot
      | vacant place =>
        rw [hrest] at hslot
        obtain rfl := Slot.vacant.inj hslot
        obtain ⟨haccepts, hknows⟩ := ih hmore hrest
        exact ⟨haccepts.map _, by simp [knows, hknows]⟩

end

/-! ### Objects -/

section

variable {ρ : Type} {fs : Fields ρ} {depth : Nat} {whole s u left left' rest : List UInt8}
  {key : String} {first : Bool} {draft : fs.Draft} {t : { t : List UInt8 // t.length < s.length }}

theorem objectLoop_unknown (hnext : nextKey first s = .ok (some t))
    (hkey : Reads (stringTail t.1) key u) (hcolon : Reads (colon u) () left)
    (hslot : fs.slot draft key = .unknown) (hskip : Reads (skipValue left) () left')
    (hle : s.length ≤ whole.length) :
    ∃ hle', fs.objectLoop depth first draft s hle =
      fs.objectLoop depth false draft left' hle' := by
  obtain ⟨hlt₁, hkey⟩ := hkey
  obtain ⟨hlt₂, hcolon⟩ := hcolon
  obtain ⟨hlt₃, hskip⟩ := hskip
  refine ⟨by have := t.2; omega, ?_⟩
  rw [objectLoop, hnext]
  simp only [hkey]
  split
  · next heq => rw [hslot] at heq; cases heq
  · simp only [bind, Except.bind, hcolon, hskip]
    rfl
  · next heq => rw [hslot] at heq; cases heq

theorem objectLoop_vacant {form : Format fs.Draft} {draft' : fs.Draft}
    (hnext : nextKey first s = .ok (some t)) (hkey : Reads (stringTail t.1) key u)
    (hcolon : Reads (colon u) () left) (hslot : fs.slot draft key = .vacant form)
    (hread : Reads (form.read depth left) draft' left') (hle : s.length ≤ whole.length) :
    ∃ hle', fs.objectLoop depth first draft s hle =
      fs.objectLoop depth false draft' left' hle' := by
  obtain ⟨hlt₁, hkey⟩ := hkey
  obtain ⟨hlt₂, hcolon⟩ := hcolon
  obtain ⟨hlt₃, hread⟩ := hread
  refine ⟨by have := t.2; omega, ?_⟩
  rw [objectLoop, hnext]
  simp only [hkey]
  split
  · next heq => rw [hslot] at heq; cases heq
  · next heq => rw [hslot] at heq; cases heq
  · next heq =>
    rw [hslot] at heq
    obtain rfl := Slot.vacant.inj heq
    simp only [bind, Except.bind, hcolon, hread]
    rfl

variable (fs depth) in
/-- How a member stands in a text: the value of a key that the record knows is spelled, within the
allowance of brackets; under any other key the bytes only have the form of a value. -/
structure Stands (m : String × Value) (e : String × List UInt8) : Prop where
  key : m.1 = e.1
  formed : Formed e.2
  spells : fs.knows m.1 = true → m.2.Spells e.2
  shallow : fs.knows m.1 = true → m.2.nesting ≤ depth

/-- The members of an object are put into the draft up to its closing bracket, as they are when they
stand there as values. -/
theorem gathers_objectLoop (h : fs.Accept) {members : List (String × Value)} {draft' : fs.Draft}
    {entries : List (String × List UInt8)} {text : List UInt8}
    (hmembers : fs.ofMembers draft members = .ok draft') (htext : SpellsEntries first entries text)
    (hstands : List.Forall₂ (fs.Stands depth) members entries)
    (hle : (text ++ Bracket.object.closing :: rest).length ≤ whole.length) :
    ∃ left, Closes .object rest left ∧ Gathers (fs.objectLoop depth first draft
      (text ++ Bracket.object.closing :: rest) hle) draft' left := by
  induction hstands generalizing draft first text with
  | nil =>
    obtain ⟨hblank⟩ := htext
    obtain rfl := Except.ok.inj hmembers
    have hclose : Closes .object rest (text ++ Bracket.object.closing :: rest) :=
      ⟨text, hblank, rfl⟩
    refine ⟨_, hclose, ?_⟩
    rw [objectLoop, nextKey_closing hclose]
    exact ⟨_, rfl⟩
  | @cons m e members entries hstand _ ih =>
    obtain ⟨k, v⟩ := m
    obtain ⟨_, hs, hspells, hshallow⟩ := hstand
    cases htext with
    | @cons _ _ comma lead key blank s more _ hcomma hlead hkey hblank hmore =>
    obtain rfl : k = _ := ‹_›
    obtain ⟨tail, rfl, hkeys⟩ := hkey.reads
    obtain ⟨u, htail, hcolon⟩ := hkeys (blank ++ (s ++ (more ++ Bracket.object.closing :: rest)))
    obtain ⟨_, hnext⟩ := nextKey_element
      (s := tail ++ (blank ++ (s ++ (more ++ Bracket.object.closing :: rest)))) hcomma hlead
    have hends := hmore.ends rest
    have hsplit : comma ++ (lead ++ (byte '"' :: tail ++ (blank ++ (s ++ more)))) ++
        Bracket.object.closing :: rest = comma ++ (lead ++ byte '"' ::
          (tail ++ (blank ++ (s ++ (more ++ Bracket.object.closing :: rest))))) := by
      simp only [List.append_assoc, List.cons_append]
    revert hle
    rw [hsplit]
    intro hle
    -- What the loop does with this member is what `ofMembers` does with it.
    have hstep : ∃ draft₁, fs.ofMembers draft₁ members = .ok draft' ∧
        ∃ hle', fs.objectLoop depth first draft (comma ++ (lead ++ byte '"' ::
          (tail ++ (blank ++ (s ++ (more ++ Bracket.object.closing :: rest)))))) hle =
            fs.objectLoop depth false draft₁
              (more ++ Bracket.object.closing :: rest) hle' := by
      rw [ofMembers] at hmembers
      split at hmembers
      · cases hmembers
      · next hslot =>
        exact ⟨draft, hmembers,
          objectLoop_unknown hnext htail hcolon hslot (hs.reads_skipValue hblank hends) hle⟩
      · next form hslot =>
        split at hmembers
        · cases hmembers
        · next draft₁ hv =>
          obtain ⟨haccepts, hknows⟩ := h.slot hslot
          exact ⟨draft₁, hmembers, objectLoop_vacant hnext htail hcolon hslot
            (haccepts depth hv (hspells hknows) (hshallow hknows) hblank hends) hle⟩
    obtain ⟨draft₁, hmembers, hle', hstep⟩ := hstep
    obtain ⟨left, hclose, hgathers⟩ := ih hmembers hmore hle'
    exact ⟨left, hclose, hstep ▸ hgathers⟩

theorem gathers_objectBody (h : fs.Accept) {members : List (String × Value)} {r : ρ}
    {entries : List (String × List UInt8)} {text : List UInt8}
    (hmembers : fs.ofObject members = .ok r) (htext : SpellsEntries true entries text)
    (hstands : List.Forall₂ (fs.Stands depth) members entries) (rest : List UInt8) :
    ∃ left, Closes .object rest left ∧
      Gathers (fs.objectBody depth (text ++ Bracket.object.closing :: rest)) r left := by
  simp only [ofObject, bind, Except.bind] at hmembers
  split at hmembers
  · cases hmembers
  · next draft hdraft =>
    obtain ⟨left, hclose, _, hloop⟩ := gathers_objectLoop h hdraft htext hstands
      (length_self_le (text ++ Bracket.object.closing :: rest))
    refine ⟨left, hclose, ?_⟩
    simp only [objectBody, hloop, hmembers]
    exact ⟨_, rfl⟩

end

/-! ### Lists -/

/-- Fields in their order are read up to the closing bracket, as they are from the items. -/
theorem gathers_listBody {ρ : Type} {fs : Fields ρ} (h : fs.Accept) {depth index : Nat}
    {expected : String} {items : List Value} {r : ρ} {first : Bool} {text : List UInt8}
    (hitems : fs.ofItems expected index items = .ok (r, []))
    (htext : Value.SpellsItems first items text) (hdepth : Value.nestingItems items ≤ depth)
    (rest : List UInt8) :
    ∃ left, Closes .list rest left ∧ Gathers (fs.listBody depth expected index first
      (text ++ Bracket.list.closing :: rest)) r left := by
  induction fs generalizing index items first text with
  | done =>
    obtain ⟨rfl, rfl⟩ := Prod.mk.inj (Except.ok.inj hitems)
    rw [Value.SpellsItems] at htext
    exact ⟨_, ⟨text, htext, rfl⟩, _, rfl⟩
  | cons field more ih =>
    obtain ⟨hfield, hmore⟩ := h
    cases items with
    | nil =>
      simp only [ofItems] at hitems
      split at hitems
      · cases hitems
      · next a hcut =>
        obtain ⟨⟨r, _⟩, hrest, heq⟩ := map_eq_ok hitems
        obtain ⟨rfl, rfl⟩ := Prod.mk.inj heq
        obtain ⟨left, hclose, _, hbody⟩ := ih hmore hrest htext hdepth
        rw [Value.SpellsItems] at htext
        have hclosing : Closes .list rest (text ++ Bracket.list.closing :: rest) :=
          ⟨text, htext, rfl⟩
        refine ⟨left, hclose, ?_⟩
        simp only [listBody, nextItem_closing hclosing, hcut, hbody]
        exact ⟨_, rfl⟩
    | cons v items =>
      rw [Value.SpellsItems] at htext
      obtain ⟨comma, blank, s, tail, hcomma, hblank, hs, htail, rfl⟩ := htext
      rw [Value.nestingItems, Nat.max_le] at hdepth
      simp only [ofItems] at hitems
      split at hitems
      · cases hitems
      · next a ha =>
        obtain ⟨⟨r, _⟩, hrest, heq⟩ := map_eq_ok hitems
        obtain ⟨rfl, rfl⟩ := Prod.mk.inj heq
        obtain ⟨left, hclose, _, hbody⟩ := ih hmore hrest htail hdepth.2
        obtain ⟨_, hitem⟩ := hfield depth ha hs hdepth.1 hblank (htail.formed.ends rest)
        obtain ⟨_, hnext⟩ := nextItem_element hcomma hblank
          (hs.opening.append (tail ++ Bracket.list.closing :: rest))
        have hsplit : comma ++ (blank ++ (s ++ tail)) ++ Bracket.list.closing :: rest =
            comma ++ (blank ++ (s ++ (tail ++ Bracket.list.closing :: rest))) := by
          simp only [List.append_assoc]
        refine ⟨left, hclose, ?_⟩
        rw [hsplit]
        simp only [listBody, hnext, hitem, hbody]
        exact ⟨_, rfl⟩

/-! ### Records -/

section

variable {ρ : Type} {fs : Fields ρ} {type : String} {depth : Nat} {s blank rest : List UInt8}
  {r : ρ}

/-- An object is read whatever stands under the keys that the record does not know. -/
theorem reads_format_object (h : fs.Accept) {members : List (String × Value)}
    {entries : List (String × List UInt8)} (hmembers : fs.ofObject members = .ok r)
    (hs : SpellsEntries true entries s) (hstands : List.Forall₂ (fs.Stands depth) members entries)
    (hblank : Blank blank) :
    Reads ((fs.format type).read (depth + 1) (blank ++
      (Bracket.object.opening :: (s ++ [Bracket.object.closing]) ++ rest))) r rest := by
  obtain ⟨left, hclose, hbody⟩ := gathers_objectBody h hmembers hs hstands rest
  have henclose := hbody.reads_enclose hclose.reads
  unfold Fields.format
  dsimp only
  apply Reads.afterSpace
  rw [List.cons_append, List.append_assoc, skipSpace_append hblank ⟨_, _, rfl, by decide⟩]
  dsimp only
  rw [if_pos (.inr rfl), if_neg (by decide)]
  exact henclose.behind _

/-- The members of a text of an object stand in it. -/
theorem exists_stands {members : List (String × Value)} {first : Bool}
    (h : Value.SpellsMembers first members s) (hdepth : Value.nestingMembers members ≤ depth) :
    ∃ entries, SpellsEntries first entries s ∧ List.Forall₂ (fs.Stands depth) members entries := by
  obtain ⟨entries, hentries, hall⟩ := h.exists_entries
  have hshallow := Value.nestingMembers_le_iff.1 hdepth
  refine ⟨entries, hentries, ?_⟩
  clear h hentries hdepth
  induction hall with
  | nil => exact .nil
  | cons hm _ ih =>
    obtain ⟨hkey, hs⟩ := hm
    obtain ⟨hfirst, hrest⟩ := List.forall_mem_cons.1 hshallow
    exact .cons ⟨hkey, hs.formed, fun _ => hs, fun _ => hfirst⟩ (ih hrest)

theorem accepts_format (h : fs.Accept) : (fs.format type).Accepts := by
  intro depth v r s blank rest hv hs hdepth hblank _
  cases v with
  | object members =>
    rw [Value.nesting] at hdepth
    obtain ⟨depth, rfl⟩ : ∃ d, depth = d + 1 := ⟨depth - 1, by omega⟩
    rw [Value.Spells] at hs
    obtain ⟨t, ht, rfl⟩ := hs
    obtain ⟨entries, hentries, hstands⟩ := exists_stands ht (Nat.le_of_succ_le_succ hdepth)
    exact reads_format_object h hv hentries hstands hblank
  | array items =>
    rw [Value.nesting] at hdepth
    obtain ⟨depth, rfl⟩ : ∃ d, depth = d + 1 := ⟨depth - 1, by omega⟩
    rw [Value.Spells] at hs
    obtain ⟨t, ht, rfl⟩ := hs
    have hitems : ∃ items',
        fs.ofItems (fs.described type) 0 items = .ok (r, items') ∧ items' = [] := by
      simp only [Fields.format] at hv
      split at hv
      · cases hv
      · next hfound =>
        obtain rfl := Except.ok.inj hv
        exact ⟨_, hfound, rfl⟩
      · cases hv
    obtain ⟨_, hitems, rfl⟩ := hitems
    obtain ⟨left, hclose, hbody⟩ := gathers_listBody h hitems ht
      (show Value.nestingItems items ≤ depth by omega) rest
    have henclose := hbody.reads_enclose hclose.reads
    unfold Fields.format
    dsimp only
    apply Reads.afterSpace
    rw [List.cons_append, List.append_assoc, skipSpace_append hblank ⟨_, _, rfl, by decide⟩]
    dsimp only
    rw [if_pos (.inl rfl), if_pos rfl]
    exact henclose.behind _
  | _ => cases hv

end

end LiveAudit.Json.Fields

namespace LiveAudit.Json.Format

theorem readText_of_reads {α : Type} {form : Format α} {a : α} {text rest : List UInt8}
    (hread : Reads (form.read allowance text) a rest) (hrest : Blank rest) :
    form.readText text = .ok a := by
  obtain ⟨_, hread⟩ := hread
  simp only [readText, hread, skipSpace_of_blank hrest]

/-- A whole text of a value is read as what the value stands for. -/
theorem readText_of_spells {α : Type} {form : Format α} (h : form.Accepts) {v : Value} {a : α}
    {s blank blank' : List UInt8} (hv : form.ofValue v = .ok a) (hs : v.Spells s)
    (hdepth : v.nesting ≤ allowance) (hblank : Blank blank) (hblank' : Blank blank') :
    form.readText (blank ++ (s ++ blank')) = .ok a :=
  readText_of_reads (h allowance hv hs hdepth hblank hblank'.ends) hblank'

end LiveAudit.Json.Format
