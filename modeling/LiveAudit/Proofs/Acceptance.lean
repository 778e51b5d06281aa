import LiveAudit.Proofs.Skipping

/-!
# Texts and values are read alike

A format reads from a text and from a value. Where it takes a value, it takes every text of that
value with the same result (`Format.Accepts`), as long as the brackets of the text are within the
allowance. Each way of building formats keeps this; keys that a record does not know are passed over
whatever stands under them.
-/

namespace LiveAudit.Json

/-- With an allowance of `depth` brackets, every text of a value is read as what the value stands
for. -/
def Format.AcceptsWithin {α : Type} (form : Format α) (depth : Nat) : Prop :=
  ∀ {v : Value} {a : α} {s blank rest : List UInt8}, form.ofValue v = .ok a → v.Spells s →
    v.nesting ≤ depth → Blank blank → Ends rest →
    Reads (form.read depth (blank ++ (s ++ rest))) a rest

def Format.Accepts {α : Type} (form : Format α) : Prop :=
  ∀ depth, form.AcceptsWithin depth

theorem map_eq_ok {ε α β : Type} {f : α → β} {x : Except ε α} {b : β}
    (h : x.map f = .ok b) : ∃ a, x = .ok a ∧ f a = b := by
  cases x with
  | error c => cases h
  | ok a => exact ⟨a, rfl, Except.ok.inj h⟩

theorem mapM_cons_eq_ok {ε α β : Type} {f : α → Except ε β} {a : α} {l : List α} {bs : List β}
    (h : (a :: l).mapM f = .ok bs) :
    ∃ b bs', f a = .ok b ∧ l.mapM f = .ok bs' ∧ bs = b :: bs' := by
  rw [List.mapM_cons] at h
  cases ha : f a with
  | error c => rw [ha] at h; cases h
  | ok b =>
    cases hl : l.mapM f with
    | error c => rw [ha, hl] at h; cases h
    | ok bs' =>
      rw [ha, hl] at h
      exact ⟨b, bs', rfl, rfl, (Except.ok.inj h).symm⟩

namespace Format

section

variable {α β : Type} {form : Format α} {depth : Nat}

theorem Accepts.map (h : form.Accepts) (f : α → β) : (form.map f).Accepts := by
  intro depth v b s blank rest hv hs hdepth hblank hrest
  obtain ⟨a, ha, rfl⟩ := map_eq_ok hv
  exact (h depth ha hs hdepth hblank hrest).map f

/-! ### Values without parts -/

theorem reads_stringOr (expected : String) {text : String} {s blank rest : List UInt8}
    (h : Reads (stringTail s) text rest) (hblank : Blank blank) :
    Reads (stringOr expected (blank ++ byte '"' :: s)) text rest := by
  apply Reads.afterSpace
  rw [skipSpace_append hblank ⟨_, _, rfl, by decide⟩]
  dsimp only
  rw [if_pos rfl]
  exact h.behind _

theorem accepts_string : string.Accepts := by
  intro depth v a s blank rest hv hs _ hblank _
  cases v with
  | string text =>
    obtain rfl := Except.ok.inj hv
    rw [Value.Spells] at hs
    obtain ⟨t, htail, rfl⟩ := hs
    exact reads_stringOr _ (reads_stringTail htail rest) hblank
  | _ => cases hv

theorem accepts_integer {expected : String} {convert : Int → Option α} :
    (integer expected convert).Accepts := by
  intro depth v a s blank rest hv hs _ hblank hrest
  cases v with
  | integer n =>
    rw [Value.Spells] at hs
    obtain ⟨_, hnumber⟩ := reads_number hs hrest
    have hlead : (s ++ rest).head?.any (fun b => decide (b = byte '-' ∨ isDigit b = true)) =
        true := by
      obtain ⟨b, t, rfl, hb⟩ := hs.exists_cons
      exact decide_eq_true hb
    unfold integer at hv ⊢
    dsimp only at hv ⊢
    apply Reads.afterSpace
    rw [skipSpace_append hblank (hs.formed.opening.shown.append rest)]
    cases hconvert : convert n.value with
    | none => simp [hconvert] at hv
    | some x =>
      rw [hconvert] at hv
      obtain rfl := Except.ok.inj hv
      simp only [hlead, if_true, hnumber, hconvert]
      exact ⟨_, rfl⟩
  | _ => cases hv

theorem accepts_word32 : word32.Accepts :=
  accepts_integer

theorem accepts_word64 : word64.Accepts :=
  accepts_integer

/-! ### Values with parts -/

/-- The text of a value begins with an `n` only if the value is null. -/
theorem ne_of_spells {v : Value} {b : UInt8} {s : List UInt8} (hs : v.Spells (b :: s))
    (hv : v ≠ .null) : b ≠ byte 'n' := by
  cases v with
  | null => exact absurd rfl hv
  | bool c =>
    cases c <;> rw [Value.Spells] at hs <;> cases hs <;> decide
  | integer n =>
    rw [Value.Spells] at hs
    obtain ⟨_, _, heq, hb⟩ := hs.exists_cons
    cases heq
    exact hb.ne (by decide)
  | float x =>
    rw [Value.Spells] at hs
    obtain ⟨_, _, heq, hb⟩ := hs.exists_cons
    cases heq
    exact hb.ne (by decide)
  | string text =>
    rw [Value.Spells] at hs
    obtain ⟨_, _, heq⟩ := hs
    cases heq
    decide
  | array items =>
    rw [Value.Spells] at hs
    obtain ⟨_, _, heq⟩ := hs
    cases heq
    decide
  | object members =>
    rw [Value.Spells] at hs
    obtain ⟨_, _, heq⟩ := hs
    cases heq
    decide

theorem Accepts.option (h : form.Accepts) : form.option.Accepts := by
  intro depth v a s blank rest hv hs hdepth hblank hrest
  unfold Format.option at hv ⊢
  dsimp only at hv ⊢
  apply Reads.afterSpace
  rw [skipSpace_append hblank (hs.opening.shown.append rest)]
  by_cases hnull : v = .null
  · subst hnull
    obtain rfl := Except.ok.inj hv
    rw [Value.Spells] at hs
    subst hs
    exact (gathers_literal nullTail rest).behind_map _ fun _ => none
  · have hv : (form.ofValue v).map some = .ok a := by
      cases v with
      | null => exact absurd rfl hnull
      | _ => exact hv
    obtain ⟨x, hx, rfl⟩ := map_eq_ok hv
    have hread := h depth hx hs hdepth blank_nil hrest
    obtain ⟨b, t, rfl, _⟩ := hs.opening
    simp only [List.cons_append, List.nil_append, if_neg (ne_of_spells hs hnull)] at hread ⊢
    exact hread.map some

theorem listItems_element {whole s left : List UInt8} {item : Reader α} {first : Bool}
    (held : List α) {a : α} {t : { t : List UInt8 // t.length ≤ s.length }}
    (hnext : nextItem first s = .ok (some t))
    (hitem : Reads (item t.1) a left) (hle : s.length ≤ whole.length) :
    ∃ hle', listItems item first held s hle =
      listItems item false (a :: held) left hle' := by
  obtain ⟨hlt, hitem⟩ := hitem
  refine ⟨Nat.le_trans (Nat.le_of_lt hlt) (Nat.le_trans t.2 hle), ?_⟩
  rw [listItems, hnext]
  simp only [hitem]

/-- The items of a list are read up to its closing bracket. -/
theorem gathers_listItems (h : form.AcceptsWithin depth) {whole rest : List UInt8}
    {items : List Value} {as : List α} (held : List α) {first : Bool} {t : List UInt8}
    (hitems : items.mapM form.ofValue = .ok as) (ht : Value.SpellsItems first items t)
    (hdepth : Value.nestingItems items ≤ depth)
    (hle : (t ++ Bracket.list.closing :: rest).length ≤ whole.length) :
    ∃ left, Closes .list rest left ∧ Gathers (listItems (form.read depth) first held
      (t ++ Bracket.list.closing :: rest) hle) (held.reverse ++ as) left := by
  induction items generalizing as held first t with
  | nil =>
    rw [Value.SpellsItems] at ht
    have hclose : Closes .list rest (t ++ Bracket.list.closing :: rest) := ⟨t, ht, rfl⟩
    obtain rfl : [] = as := Except.ok.inj hitems
    refine ⟨_, hclose, ?_⟩
    rw [listItems, nextItem_closing hclose, List.append_nil]
    exact ⟨_, rfl⟩
  | cons v items ih =>
    rw [Value.SpellsItems] at ht
    obtain ⟨comma, blank, s, more, hcomma, hblank, hs, hmore, rfl⟩ := ht
    rw [Value.nestingItems, Nat.max_le] at hdepth
    obtain ⟨a, as, ha, has, rfl⟩ := mapM_cons_eq_ok hitems
    have htext : comma ++ (blank ++ (s ++ more)) ++ Bracket.list.closing :: rest =
        comma ++ (blank ++ (s ++ (more ++ Bracket.list.closing :: rest))) := by
      simp only [List.append_assoc]
    have hitem := h ha hs hdepth.1 hblank (hmore.formed.ends rest)
    obtain ⟨_, hnext⟩ := nextItem_element hcomma hblank
      (hs.opening.append (more ++ Bracket.list.closing :: rest))
    revert hle
    rw [htext]
    intro hle
    obtain ⟨hle', hstep⟩ := listItems_element held hnext hitem hle
    obtain ⟨left, hclose, hgathers⟩ := ih (a :: held) has hmore hdepth.2 hle'
    refine ⟨left, hclose, ?_⟩
    rw [hstep]
    simpa using hgathers

theorem reads_listTail (h : form.AcceptsWithin depth) {items : List Value} {as : List α}
    {t : List UInt8} (hitems : items.mapM form.ofValue = .ok as)
    (ht : Value.SpellsItems true items t) (hdepth : Value.nestingItems items ≤ depth)
    (rest : List UInt8) :
    Reads (listTail (form.read depth) (t ++ Bracket.list.closing :: rest)) as rest := by
  obtain ⟨left, hclose, hgathers⟩ :=
    gathers_listItems h [] hitems ht hdepth (length_self_le (t ++ Bracket.list.closing :: rest))
  exact hgathers.reads_enclose hclose.reads

theorem Accepts.list (h : form.Accepts) : form.list.Accepts := by
  intro depth v as s blank rest hv hs hdepth hblank _
  cases v with
  | array items =>
    rw [Value.Spells] at hs
    obtain ⟨t, ht, rfl⟩ := hs
    rw [Value.nesting] at hdepth
    obtain ⟨depth, rfl⟩ : ∃ d, depth = d + 1 := ⟨depth - 1, by omega⟩
    have htail := reads_listTail (h depth) hv ht (by omega) rest
    unfold Format.list
    dsimp only
    apply Reads.afterSpace
    rw [List.cons_append, List.append_assoc,
      skipSpace_append hblank ⟨_, _, rfl, by decide⟩]
    exact htail.behind _
  | _ => cases hv

end

/-! ### Free values -/

theorem mapM_any (items : List Value) : items.mapM any.ofValue = .ok items := by
  induction items with
  | nil => rfl
  | cons v items ih =>
    rw [List.mapM_cons, ih]
    rfl

section

variable {depth : Nat} {rest : List UInt8}

theorem objectMembers_element {whole s u left left' : List UInt8} {key : String} {v : Value}
    {first : Bool} (held : List (String × Value)) {t : { t : List UInt8 // t.length < s.length }}
    (hnext : nextKey first s = .ok (some t)) (hkey : Reads (stringTail t.1) key u)
    (hcolon : Reads (colon u) () left) (hitem : Reads (anyValue depth left) v left')
    (hle : s.length ≤ whole.length) :
    ∃ hle', objectMembers (anyValue depth) first held s hle =
      objectMembers (anyValue depth) false ((key, v) :: held) left' hle' := by
  obtain ⟨hlt₁, hkey⟩ := hkey
  obtain ⟨hlt₂, hcolon⟩ := hcolon
  obtain ⟨hlt₃, hitem⟩ := hitem
  refine ⟨by have := t.2; omega, ?_⟩
  rw [objectMembers, hnext]
  simp only [hkey, hcolon, hitem]

/-- The members of an object are read up to its closing bracket. -/
theorem gathers_objectMembers (h : any.AcceptsWithin depth) {whole : List UInt8}
    {members : List (String × Value)} (held : List (String × Value)) {first : Bool}
    {t : List UInt8} (ht : Value.SpellsMembers first members t)
    (hdepth : Value.nestingMembers members ≤ depth)
    (hle : (t ++ Bracket.object.closing :: rest).length ≤ whole.length) :
    ∃ left, Closes .object rest left ∧ Gathers (objectMembers (anyValue depth) first
      held (t ++ Bracket.object.closing :: rest) hle) (held.reverse ++ members) left := by
  induction members generalizing held first t with
  | nil =>
    rw [Value.SpellsMembers] at ht
    have hclose : Closes .object rest (t ++ Bracket.object.closing :: rest) := ⟨t, ht, rfl⟩
    refine ⟨_, hclose, ?_⟩
    rw [objectMembers, nextKey_closing hclose, List.append_nil]
    exact ⟨_, rfl⟩
  | cons m members ih =>
    obtain ⟨k, v⟩ := m
    rw [Value.SpellsMembers] at ht
    obtain ⟨comma, lead, key, blank, s, more, hcomma, hlead, hkey, hblank, hs, hmore, rfl⟩ := ht
    rw [Value.nestingMembers, Nat.max_le] at hdepth
    obtain ⟨tail, rfl, hkeys⟩ := hkey.reads
    obtain ⟨u, htail, hcolon⟩ := hkeys (blank ++ (s ++ (more ++ Bracket.object.closing :: rest)))
    have hitem := h (v := v) rfl hs hdepth.1 hblank (hmore.formed.ends rest)
    obtain ⟨_, hnext⟩ := nextKey_element
      (s := tail ++ (blank ++ (s ++ (more ++ Bracket.object.closing :: rest)))) hcomma hlead
    have htext : comma ++ (lead ++ (byte '"' :: tail ++ (blank ++ (s ++ more)))) ++
        Bracket.object.closing :: rest = comma ++ (lead ++ byte '"' ::
          (tail ++ (blank ++ (s ++ (more ++ Bracket.object.closing :: rest))))) := by
      simp only [List.append_assoc, List.cons_append]
    revert hle
    rw [htext]
    intro hle
    obtain ⟨hle', hstep⟩ := objectMembers_element held hnext htail hcolon hitem hle
    obtain ⟨left, hclose, hgathers⟩ := ih ((k, v) :: held) hmore hdepth.2 hle'
    refine ⟨left, hclose, ?_⟩
    rw [hstep]
    simpa using hgathers

theorem reads_anyWith_number {element : Option (Reader Value)} {x : Number} {s blank : List UInt8}
    (hs : x.Spells s) (hblank : Blank blank) (hrest : Ends rest) :
    Reads (anyWith element (blank ++ (s ++ rest))) x.toValue rest := by
  have hnumber := reads_number hs hrest
  apply Reads.afterSpace
  rw [skipSpace_append hblank (hs.formed.opening.shown.append rest)]
  obtain ⟨b, t, rfl, hb⟩ := hs.exists_cons
  rw [List.cons_append] at hnumber ⊢
  dsimp only
  rw [if_neg (hb.ne (by decide)), if_neg (hb.ne (by decide)), if_neg (hb.ne (by decide)),
    if_pos (show b = byte '-' ∨ isDigit b = true from hb)]
  exact hnumber.map _

/-- A value without parts needs no reader of elements. -/
theorem reads_anyWith {element : Option (Reader Value)} {v : Value} {s blank : List UInt8}
    (hs : v.Spells s) (hblank : Blank blank) (hrest : Ends rest)
    (hlist : ∀ items t, v = .array items → Value.SpellsItems true items t → ∃ read,
      element = some read ∧ Reads (listTail read (t ++ Bracket.list.closing :: rest)) items rest)
    (hobject : ∀ members t, v = .object members → Value.SpellsMembers true members t → ∃ read,
      element = some read ∧
        Reads (objectTail read (t ++ Bracket.object.closing :: rest)) members rest) :
    Reads (anyWith element (blank ++ (s ++ rest))) v rest := by
  have hskip := skipSpace_append hblank (hs.opening.shown.append rest)
  cases v with
  | null =>
    rw [Value.Spells] at hs
    subst hs
    apply Reads.afterSpace
    rw [hskip]
    exact (gathers_literal nullTail rest).behind_map _ fun _ => Value.null
  | bool b =>
    cases b <;> rw [Value.Spells] at hs <;> subst hs <;> apply Reads.afterSpace <;> rw [hskip]
    · exact (gathers_literal falseTail rest).behind_map _ fun _ => Value.bool false
    · exact (gathers_literal trueTail rest).behind_map _ fun _ => Value.bool true
  | integer n =>
    rw [Value.Spells] at hs
    exact reads_anyWith_number hs hblank hrest
  | float x =>
    rw [Value.Spells] at hs
    exact reads_anyWith_number hs hblank hrest
  | string text =>
    rw [Value.Spells] at hs
    obtain ⟨t, htail, rfl⟩ := hs
    apply Reads.afterSpace
    rw [hskip]
    exact (reads_stringTail htail rest).behind_map _ Value.string
  | array items =>
    rw [Value.Spells] at hs
    obtain ⟨t, ht, rfl⟩ := hs
    obtain ⟨read, rfl, hread⟩ := hlist items t rfl ht
    apply Reads.afterSpace
    rw [hskip, List.cons_append, List.append_assoc]
    exact (hread.map Value.array).behind _
  | object members =>
    rw [Value.Spells] at hs
    obtain ⟨t, ht, rfl⟩ := hs
    obtain ⟨read, rfl, hread⟩ := hobject members t rfl ht
    apply Reads.afterSpace
    rw [hskip, List.cons_append, List.append_assoc]
    exact (hread.map Value.object).behind _

theorem acceptsWithin_any (depth : Nat) : any.AcceptsWithin depth := by
  induction depth with
  | zero =>
    intro v a s blank rest hv hs hdepth hblank hrest
    obtain rfl := Except.ok.inj hv
    change Reads (anyWith none _) _ _
    apply reads_anyWith hs hblank hrest
    · rintro items t rfl _
      simp [Value.nesting] at hdepth
    · rintro members t rfl _
      simp [Value.nesting] at hdepth
  | succ depth ih =>
    intro v a s blank rest hv hs hdepth hblank hrest
    obtain rfl := Except.ok.inj hv
    change Reads (anyWith (some (anyValue depth)) _) _ _
    apply reads_anyWith hs hblank hrest
    · rintro items t rfl ht
      rw [Value.nesting] at hdepth
      exact ⟨_, rfl, reads_listTail ih (mapM_any items) ht (by omega) rest⟩
    · rintro members t rfl ht
      rw [Value.nesting] at hdepth
      obtain ⟨left, hclose, hgathers⟩ :=
        gathers_objectMembers ih [] ht (by omega)
          (length_self_le (t ++ Bracket.object.closing :: rest))
      exact ⟨_, rfl, hgathers.reads_enclose hclose.reads⟩

theorem accepts_any : any.Accepts :=
  acceptsWithin_any

theorem accepts_shape {α : Type} {type : String} {take : Value → Option α} :
    (shape type take).Accepts := by
  intro depth v a s blank rest hv hs hdepth hblank hrest
  obtain ⟨_, hread⟩ := acceptsWithin_any depth (v := v) rfl hs hdepth hblank hrest
  have hread : anyValue depth (blank ++ (s ++ rest)) = .ok ⟨v, rest, _⟩ := hread
  unfold shape at hv ⊢
  dsimp only at hv ⊢
  cases htake : take v with
  | none => simp [htake] at hv
  | some x =>
    rw [htake] at hv
    obtain rfl := Except.ok.inj hv
    simp only [hread, htake]
    exact ⟨_, rfl⟩

/-! ### Names of cases -/

theorem reads_unit {blank : List UInt8} (hblank : Blank blank) (rest : List UInt8) :
    Reads (unit (blank ++ byte 'n' :: (nullTail ++ rest))) () rest := by
  apply Reads.afterSpace
  rw [skipSpace_append hblank ⟨_, _, rfl, by decide⟩]
  exact (gathers_literal nullTail rest).behind _

section

variable {α : Type} {cases : List (String × α)} {name : String} {a : α} {depth : Nat}
  {s blank rest : List UInt8}

theorem reads_oneOf_name (hlookup : cases.lookup name = some a)
    (hs : (Value.string name).Spells s) (hblank : Blank blank) :
    Reads ((oneOf cases).read depth (blank ++ (s ++ rest))) a rest := by
  have hskip := skipSpace_append hblank (hs.opening.shown.append rest)
  rw [Value.Spells] at hs
  obtain ⟨t, htail, rfl⟩ := hs
  obtain ⟨_, hname⟩ := reads_stringTail htail rest
  unfold oneOf
  dsimp only
  apply Reads.afterSpace
  rw [hskip]
  simp only [List.cons_append, if_true, bind, Except.bind, hname, hlookup]
  exact ⟨_, rfl⟩

theorem reads_oneOf_member (hlookup : cases.lookup name = some a)
    (hs : (Value.object [(name, .null)]).Spells s) (hdepth : depth ≠ 0) (hblank : Blank blank) :
    Reads ((oneOf cases).read depth (blank ++ (s ++ rest))) a rest := by
  have hskip := skipSpace_append hblank (hs.opening.shown.append rest)
  rw [Value.Spells] at hs
  obtain ⟨t, ht, rfl⟩ := hs
  rw [Value.SpellsMembers] at ht
  obtain ⟨comma, lead, key, blank', s, more, hcomma, hlead, hkey, hblank', hs, hmore, rfl⟩ := ht
  cases hcomma
  rw [Value.Spells] at hs
  rw [Value.SpellsMembers] at hmore
  subst hs
  obtain ⟨tail, rfl, hkeys⟩ := hkey.reads
  have hclose : Closes .object rest (more ++ Bracket.object.closing :: rest) := ⟨more, hmore, rfl⟩
  obtain ⟨u, htail, _, hcolon⟩ :=
    hkeys (blank' ++ byte 'n' :: (nullTail ++ (more ++ Bracket.object.closing :: rest)))
  obtain ⟨_, hname⟩ := reads_stringOr "variant identifier" htail hlead
  obtain ⟨_, hunit⟩ := reads_unit hblank' (more ++ Bracket.object.closing :: rest)
  have htext : Bracket.object.opening :: ([] ++ (lead ++ (byte '"' :: tail ++ (blank' ++
      (byte 'n' :: nullTail ++ more)))) ++ [Bracket.object.closing]) ++ rest =
      Bracket.object.opening :: (lead ++ byte '"' :: (tail ++ (blank' ++ byte 'n' ::
        (nullTail ++ (more ++ Bracket.object.closing :: rest))))) := by
    simp
  unfold oneOf
  dsimp only
  apply Reads.afterSpace
  rw [hskip, htext]
  simp only [if_neg (show ¬Bracket.object.opening = byte '"' by decide), if_true, if_neg hdepth,
    bind, Except.bind, hname, hlookup, Step.map, hcolon, hunit]
  split
  · next heq => rw [hclose.skipSpace] at heq; cases heq
  · next heq =>
    rw [hclose.skipSpace] at heq
    cases heq
    rw [if_pos rfl]
    exact ⟨_, rfl⟩

theorem accepts_oneOf : (oneOf cases).Accepts := by
  intro depth v a s blank rest hv hs hdepth hblank _
  unfold oneOf at hv
  dsimp only at hv
  split at hv
  · split at hv
    · next hlookup =>
      obtain rfl := Except.ok.inj hv
      exact reads_oneOf_name hlookup hs hblank
    · cases hv
  · split at hv
    · next hlookup =>
      obtain rfl := Except.ok.inj hv
      refine reads_oneOf_member hlookup hs ?_ hblank
      rintro rfl
      simp [Value.nesting] at hdepth
    · cases hv
    · cases hv
  · cases hv
  · cases hv

end

end

end Format

end LiveAudit.Json
