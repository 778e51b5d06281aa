import Mathlib.Data.List.Forall2
import LiveAudit.Proofs.RecordTexts

/-!
# Two readings of one text

A format that makes something of what it reads follows a plainer format that does not: wherever the
one reads a text, the other reads the same part of it, and what the one returns is made of what the
other does (`Format.Follows`). Formats built alike from formats that follow each other follow each
other; for a record, the drafts are compared key by key (`Fields.Follows`). So what became of an
identifier or a verdict can be told for every text that is accepted, whatever else stands in it.
-/

namespace LiveAudit.Json

/-! ### Taking readers apart -/

section

variable {α β : Type} {s rest : List UInt8} {a : α} {b : β}

theorem Reads.of_map {f : α → β} {r : Except Fault (Step α s)}
    (h : Reads (r.map (Step.map f)) b rest) : ∃ a, Reads r a rest ∧ f a = b := by
  obtain ⟨_, h⟩ := h
  obtain ⟨⟨a, rest, hlt⟩, rfl, heq⟩ := map_eq_ok h
  cases heq
  exact ⟨a, ⟨hlt, rfl⟩, rfl⟩

theorem Reads.of_behind {c : UInt8} {r : Except Fault (Step α s)}
    (h : Reads (r.map (Step.behind c)) a rest) : Reads r a rest := by
  obtain ⟨_, h⟩ := h
  obtain ⟨⟨a, rest, hlt⟩, rfl, heq⟩ := map_eq_ok h
  cases heq
  exact ⟨hlt, rfl⟩

/-- What stands in a bracket is gathered up to where the bracket is closed. -/
theorem Reads.of_enclose {b : Bracket} {body : (s : List UInt8) → Except Fault (Within α s)}
    (h : Reads (b.enclose body s) a rest) :
    ∃ left, Gathers (body s) a left ∧ Reads (b.close left) () rest := by
  obtain ⟨_, h⟩ := h
  unfold Bracket.enclose at h
  split at h
  · cases h
  · next p hbody =>
    split at h
    · cases h
    · next q hclose =>
      cases h
      exact ⟨p.rest, ⟨p.within, hbody⟩, q.shorter, hclose⟩

end

/-! ### Formats -/

/-- Where `read` takes a value, `plain` takes one from the same text, and the two are related. -/
def Follows {α β : Type} (read : Reader α) (plain : Reader β) (R : β → α → Prop) : Prop :=
  ∀ {s rest : List UInt8} {a : α}, Reads (read s) a rest → ∃ b, Reads (plain s) b rest ∧ R b a

theorem Follows.afterSpace {α β : Type} {read : Reader α} {plain : Reader β} {R : β → α → Prop}
    (h : Follows read plain R) : Follows (afterSpace read) (afterSpace plain) R := by
  intro s rest a hspace
  obtain ⟨_, hspace⟩ := hspace
  obtain ⟨⟨a, rest, hlt⟩, hread, heq⟩ := map_eq_ok hspace
  cases heq
  obtain ⟨b, hplain, hba⟩ := h ⟨hlt, hread⟩
  exact ⟨b, hplain.afterSpace, hba⟩

/-- Whatever the allowance is, one format follows the other. -/
def Format.Follows {α β : Type} (form : Format α) (plain : Format β) (R : β → α → Prop) : Prop :=
  ∀ depth, Json.Follows (form.read depth) (plain.read depth) R

namespace Format

section

variable {α β γ δ : Type} {form : Format α} {plain : Format β} {R : β → α → Prop}

theorem Follows.refl (form : Format α) : form.Follows form Eq :=
  fun _ _ _ _ h => ⟨_, h, rfl⟩

theorem Follows.map {R' : δ → γ → Prop} (h : form.Follows plain R) (f : α → γ) (g : β → δ)
    (hR : ∀ b a, R b a → R' (g b) (f a)) : (form.map f).Follows (plain.map g) R' := by
  intro depth s rest c hmapped
  obtain ⟨a, hread, rfl⟩ := Reads.of_map hmapped
  obtain ⟨b, hplain, hba⟩ := h depth hread
  exact ⟨g b, hplain.map g, hR b a hba⟩

/-- What a mapped format reads is made of what the format itself reads. -/
theorem Follows.of_map (form : Format α) (f : α → γ) :
    (form.map f).Follows form fun a c => f a = c :=
  fun _ _ _ _ h => Reads.of_map h

theorem Follows.shape {type : String} {take : Value → Option α} :
    (shape type take).Follows any fun v a => take v = some a := by
  intro depth s rest a h
  obtain ⟨_, h⟩ := h
  unfold Format.shape at h
  dsimp only at h
  split at h
  · cases h
  · next p hread =>
    split at h
    · next x htake =>
      cases h
      exact ⟨p.value, ⟨p.shorter, hread⟩, htake⟩
    · cases h

theorem Follows.option (h : form.Follows plain R) :
    form.option.Follows plain.option (Option.Rel R) := by
  intro depth
  unfold Format.option
  dsimp only
  apply Json.Follows.afterSpace
  intro s rest a hread
  cases s with
  | nil =>
    obtain ⟨x, hx, rfl⟩ := Reads.of_map hread
    obtain ⟨b, hb, hR⟩ := h depth hx
    exact ⟨some b, hb.map some, .some hR⟩
  | cons c t =>
    by_cases hc : c = byte 'n'
    · simp only [if_pos hc] at hread ⊢
      obtain ⟨hlt, hread⟩ := hread
      obtain ⟨p, hliteral, hp⟩ := map_eq_ok hread
      cases hp
      exact ⟨none, ⟨hlt, by rw [hliteral]; rfl⟩, .none⟩
    · simp only [if_neg hc] at hread ⊢
      obtain ⟨x, hx, rfl⟩ := Reads.of_map hread
      obtain ⟨b, hb, hR⟩ := h depth hx
      exact ⟨some b, hb.map some, .some hR⟩

end

end Format

/-! ### Lists -/

theorem follows_listItems {α β : Type} {read : Reader α} {plain : Reader β} {R : β → α → Prop}
    (h : Follows read plain R) {whole s rest : List UInt8} {first : Bool} {held : List α}
    {held' : List β} {as : List α} (hle : s.length ≤ whole.length)
    (hheld : List.Forall₂ R held' held)
    (hitems : Gathers (listItems read first held s hle) as rest) :
    ∃ bs, Gathers (listItems plain first held' s hle) bs rest ∧
      List.Forall₂ R bs as := by
  induction hn : s.length using Nat.strong_induction_on generalizing s first held held' with
  | h n ih =>
    obtain ⟨hlt, hitems⟩ := hitems
    rw [listItems] at hitems
    split at hitems
    · cases hitems
    · next hnext =>
      cases hitems
      refine ⟨held'.reverse, ⟨hlt, ?_⟩, List.forall₂_reverse_iff.2 hheld⟩
      rw [listItems, hnext]
    · next t hnext =>
      split at hitems
      · cases hitems
      · next p hread =>
        have hread : Reads (read t.1) p.value p.rest := ⟨p.shorter, hread⟩
        obtain ⟨b, hplain, hba⟩ := h hread
        obtain ⟨hle', hstep⟩ := Format.listItems_element held' hnext hplain hle
        have hshort := p.shorter
        obtain ⟨bs, hbs, hR⟩ := ih p.rest.length (by have := t.2; omega) hle' (.cons hba hheld)
          ⟨hlt, hitems⟩ rfl
        exact ⟨bs, hstep ▸ hbs, hR⟩

theorem Format.Follows.list {α β : Type} {form : Format α} {plain : Format β} {R : β → α → Prop}
    (h : form.Follows plain R) : form.list.Follows plain.list (List.Forall₂ R) := by
  intro depth
  unfold Format.list
  dsimp only
  apply Json.Follows.afterSpace
  intro s rest as hread
  cases s with
  | nil =>
    obtain ⟨_, hread⟩ := hread
    cases hread
  | cons c t =>
    by_cases hc : c = Bracket.list.opening
    · cases depth with
      | zero =>
        simp only [if_pos hc] at hread
        obtain ⟨_, hread⟩ := hread
        cases hread
      | succ depth =>
        simp only [if_pos hc] at hread ⊢
        obtain ⟨left, hitems, hclose⟩ := Reads.of_enclose hread.of_behind
        obtain ⟨bs, hplain, hR⟩ := follows_listItems (h depth) (length_self_le t) .nil hitems
        exact ⟨bs, (Gathers.reads_enclose hplain hclose).behind c, hR⟩
    · simp only [if_neg hc] at hread
      obtain ⟨_, hread⟩ := hread
      cases hread

/-! ### Records -/

namespace Fields

/-- The fields of one record are read where those of another are. `D` relates what has been found of
them so far, and `R` what comes of it. -/
structure Follows {ρ σ : Type} (fs : Fields ρ) (gs : Fields σ) (D : gs.Draft → fs.Draft → Prop)
    (R : σ → ρ → Prop) : Prop where
  blank : D gs.blank fs.blank
  unknown : ∀ {e : gs.Draft} {d : fs.Draft} {key : String}, D e d →
    fs.slot d key = .unknown → gs.slot e key = .unknown
  vacant : ∀ {e : gs.Draft} {d : fs.Draft} {key : String} {form : Format fs.Draft}, D e d →
    fs.slot d key = .vacant form → ∃ plain, gs.slot e key = .vacant plain ∧ form.Follows plain D
  finish : ∀ {e : gs.Draft} {d : fs.Draft} {r : ρ}, D e d → fs.finish d = .ok r →
    ∃ q, gs.finish e = .ok q ∧ R q r
  listBody : ∀ {depth index : Nat} (index' : Nat) {expected : String} (expected' : String)
    {first : Bool} {s rest : List UInt8} {r : ρ},
    Gathers (fs.listBody depth expected index first s) r rest →
    ∃ q, Gathers (gs.listBody depth expected' index' first s) q rest ∧ R q r

theorem Follows.done : Follows .done .done (fun _ _ => True) (fun _ _ => True) where
  blank := trivial
  unknown _ _ := rfl
  vacant _ h := by cases h
  finish _ h := ⟨(), rfl, trivial⟩
  listBody := by
    intro depth index index' expected expected' first s rest r h
    rcases h with ⟨hle, h⟩
    cases h
    exact ⟨(), ⟨hle, rfl⟩, trivial⟩

section

variable {α β ρ σ : Type} {field : Field α} {plain : Field β} {more : Fields ρ} {more' : Fields σ}
  {R : β → α → Prop} {D : more'.Draft → more.Draft → Prop} {S : σ → ρ → Prop}
  {e : (cons plain more').Draft} {d : (cons field more).Draft} {key : String}

theorem Follows.unknown_cons (hmore : more.Follows more' D S)
    (hanswers : plain.answers = field.answers) (hd : D (Prod.snd e) (Prod.snd d))
    (hslot : (cons field more).slot d key = .unknown) :
    (cons plain more').slot e key = .unknown := by
  obtain ⟨o', e⟩ := e
  obtain ⟨o, d⟩ := d
  simp only [slot, hanswers] at hslot ⊢
  by_cases hkey : field.answers key = true
  · rw [if_pos hkey] at hslot
    cases o <;> cases hslot
  · rw [if_neg hkey] at hslot ⊢
    cases hrest : more.slot d key with
    | unknown => rw [hmore.unknown hd hrest]; rfl
    | taken label => rw [hrest] at hslot; cases hslot
    | vacant form => rw [hrest] at hslot; cases hslot

theorem Follows.vacant_cons (hmore : more.Follows more' D S)
    (hanswers : plain.answers = field.answers) (hform : field.form.Follows plain.form R)
    (ho : Option.Rel R (Prod.fst e) (Prod.fst d)) (hd : D (Prod.snd e) (Prod.snd d))
    {form : Format (cons field more).Draft} (hslot : (cons field more).slot d key = .vacant form) :
    ∃ form', (cons plain more').slot e key = .vacant form' ∧ form.Follows form' fun e d =>
      Option.Rel R (Prod.fst e) (Prod.fst d) ∧ D (Prod.snd e) (Prod.snd d) := by
  obtain ⟨o', e⟩ := e
  obtain ⟨o, d⟩ := d
  simp only [slot, hanswers] at hslot ⊢
  by_cases hkey : field.answers key = true
  · rw [if_pos hkey] at hslot ⊢
    cases ho with
    | some => cases hslot
    | none =>
      obtain rfl := Slot.vacant.inj hslot
      exact ⟨_, rfl, hform.map _ _ fun b a hba => ⟨.some hba, hd⟩⟩
  · rw [if_neg hkey] at hslot ⊢
    cases hrest : more.slot d key with
    | unknown => rw [hrest] at hslot; cases hslot
    | taken label => rw [hrest] at hslot; cases hslot
    | vacant place =>
      rw [hrest] at hslot
      obtain rfl := Slot.vacant.inj hslot
      obtain ⟨place', hplace, hfollows⟩ := hmore.vacant hd hrest
      rw [hplace]
      exact ⟨_, rfl, hfollows.map _ _ fun e d hd => ⟨ho, hd⟩⟩

theorem Follows.finish_cons (hmore : more.Follows more' D S)
    (habsent : Option.Rel R plain.absent field.absent)
    (ho : Option.Rel R (Prod.fst e) (Prod.fst d)) (hd : D (Prod.snd e) (Prod.snd d)) {r : α × ρ}
    (hfinish : (cons field more).finish d = .ok r) :
    ∃ q, (cons plain more').finish e = .ok q ∧ R q.1 r.1 ∧ S q.2 r.2 := by
  obtain ⟨o', e⟩ := e
  obtain ⟨o, d⟩ := d
  have hvalue : Option.Rel R (o' <|> plain.absent) (o <|> field.absent) := by
    cases ho with
    | some hba => exact .some hba
    | none => exact habsent
  simp only [Fields.finish] at hfinish ⊢
  generalize (o' <|> plain.absent) = p' at hvalue ⊢
  generalize (o <|> field.absent) = p at hvalue hfinish
  cases hvalue with
  | none => cases hfinish
  | some hba =>
    obtain ⟨r, hr, rfl⟩ := map_eq_ok hfinish
    obtain ⟨q, hq, hqr⟩ := hmore.finish hd hr
    exact ⟨(_, q), by rw [hq]; rfl, hba, hqr⟩

theorem Follows.listBody_cons (hmore : more.Follows more' D S)
    (hform : field.form.Follows plain.form R) (hcut : Option.Rel R plain.cut field.cut)
    {depth index index' : Nat} {expected expected' : String} {first : Bool} {s rest : List UInt8}
    {r : α × ρ} (h : Gathers ((cons field more).listBody depth expected index first s) r rest) :
    ∃ q, Gathers ((cons plain more').listBody depth expected' index' first s) q rest ∧
      R q.1 r.1 ∧ S q.2 r.2 := by
  obtain ⟨_, h⟩ := h
  rw [Fields.listBody] at h ⊢
  split at h
  · cases h
  · next hnext =>
    generalize plain.cut = c' at hcut ⊢
    generalize field.cut = c at hcut h
    cases hcut with
    | none => cases h
    | some hba =>
      obtain ⟨p, hmap, hp⟩ := map_eq_ok h
      cases hp
      obtain ⟨q, ⟨_, hq⟩, hqr⟩ := hmore.listBody (index' + 1) expected' ⟨p.within, hmap⟩
      refine ⟨(_, q), ?_, hba, hqr⟩
      simp only [hq]
      exact ⟨_, rfl⟩
  · next t hnext =>
    split at h
    · cases h
    · next p hread =>
      obtain ⟨w, hmap, hw⟩ := map_eq_ok h
      cases hw
      have hread : Reads (field.form.read depth t.1) p.value p.rest := ⟨p.shorter, hread⟩
      obtain ⟨b, ⟨_, hplain⟩, hba⟩ := hform depth hread
      obtain ⟨q, ⟨_, hq⟩, hqr⟩ := hmore.listBody (index' + 1) expected' ⟨w.within, hmap⟩
      refine ⟨(b, q), ?_, hba, hqr⟩
      simp only [hplain, hq]
      exact ⟨_, rfl⟩

theorem Follows.cons (hanswers : plain.answers = field.answers)
    (hform : field.form.Follows plain.form R) (habsent : Option.Rel R plain.absent field.absent)
    (hcut : Option.Rel R plain.cut field.cut) (hmore : more.Follows more' D S) :
    (Fields.cons field more).Follows (.cons plain more')
      (fun e d => Option.Rel R (Prod.fst e) (Prod.fst d) ∧ D (Prod.snd e) (Prod.snd d))
      (fun q r => R q.1 r.1 ∧ S q.2 r.2) where
  blank := ⟨.none, hmore.blank⟩
  unknown h hslot := hmore.unknown_cons hanswers h.2 hslot
  vacant h hslot := hmore.vacant_cons hanswers hform h.1 h.2 hslot
  finish h hfinish := hmore.finish_cons habsent h.1 h.2 hfinish
  listBody _ _ _ _ _ _ _ h := hmore.listBody_cons hform hcut h

end

section

variable {α β ρ σ : Type} {fs : Fields ρ} {gs : Fields σ} {D : gs.Draft → fs.Draft → Prop}
  {S : σ → ρ → Prop} {form : Format α} {plain : Format β} {R : β → α → Prop}

theorem Follows.required (hmore : fs.Follows gs D S) (label : String)
    (hform : form.Follows plain R) :
    (Fields.cons (.required label form) fs).Follows (.cons (.required label plain) gs)
      (fun e d => Option.Rel R (Prod.fst e) (Prod.fst d) ∧ D (Prod.snd e) (Prod.snd d))
      (fun q r => R q.1 r.1 ∧ S q.2 r.2) :=
  .cons rfl hform .none .none hmore

theorem Follows.optional (hmore : fs.Follows gs D S) (label : String)
    (hform : form.Follows plain R) {a : α} {b : β} (hdefault : R b a) :
    (Fields.cons (.optional label form a) fs).Follows (.cons (.optional label plain b) gs)
      (fun e d => Option.Rel R (Prod.fst e) (Prod.fst d) ∧ D (Prod.snd e) (Prod.snd d))
      (fun q r => R q.1 r.1 ∧ S q.2 r.2) :=
  .cons rfl hform (.some hdefault) (.some hdefault) hmore

end

section

variable {ρ σ : Type} {fs : Fields ρ} {gs : Fields σ} {D : gs.Draft → fs.Draft → Prop}
  {R : σ → ρ → Prop}

/-- A value and the colon in front of it, as the loop over an object reads them. -/
theorem exists_reads_value {δ : Type} {u : List UInt8} {read : Reader δ} {p : Step δ u}
    (h : (do
      let c ← colon u
      let p ← read c.rest
      return c.followedBy p : Except Fault (Step δ u)) = .ok p) :
    ∃ left, Reads (colon u) () left ∧ Reads (read left) p.value p.rest := by
  simp only [bind, Except.bind] at h
  split at h
  · cases h
  · next c hcolon =>
    split at h
    · cases h
    · next q hread =>
      cases h
      exact ⟨c.rest, ⟨c.shorter, hcolon⟩, q.shorter, hread⟩

theorem Follows.objectLoop (h : fs.Follows gs D R) {depth : Nat} {whole s rest : List UInt8}
    {first : Bool} {d d' : fs.Draft} {e : gs.Draft} (hle : s.length ≤ whole.length) (hd : D e d)
    (hloop : Gathers (fs.objectLoop depth first d s hle) d' rest) :
    ∃ e', Gathers (gs.objectLoop depth first e s hle) e' rest ∧ D e' d' := by
  induction hn : s.length using Nat.strong_induction_on generalizing s first d e with
  | h n ih =>
    obtain ⟨hlt, hloop⟩ := hloop
    rw [Fields.objectLoop] at hloop
    split at hloop
    · cases hloop
    · next hnext =>
      cases hloop
      refine ⟨e, ⟨hlt, ?_⟩, hd⟩
      rw [Fields.objectLoop, hnext]
    · next t hnext =>
      split at hloop
      · cases hloop
      · next key hkey =>
        have hkey : Reads (stringTail t.1) key.value key.rest := ⟨key.shorter, hkey⟩
        have hshort := key.shorter
        dsimp only at hloop
        split at hloop
        · cases hloop
        · next hslot =>
          split at hloop
          · cases hloop
          · next p hvalue =>
            obtain ⟨left, hcolon, hskip⟩ := exists_reads_value hvalue
            obtain ⟨hle', hstep⟩ :=
              objectLoop_unknown hnext hkey hcolon (h.unknown hd hslot) hskip hle
            obtain ⟨e', he', hd'⟩ := ih p.rest.length
              (by have := p.shorter; have := t.2; omega) hle' hd ⟨hlt, hloop⟩ rfl
            exact ⟨e', hstep ▸ he', hd'⟩
        · next form hslot =>
          split at hloop
          · cases hloop
          · next p hvalue =>
            obtain ⟨left, hcolon, hread⟩ := exists_reads_value hvalue
            obtain ⟨plain, hplain, hfollows⟩ := h.vacant hd hslot
            obtain ⟨e₁, hread, hd₁⟩ := hfollows depth hread
            obtain ⟨hle', hstep⟩ := objectLoop_vacant hnext hkey hcolon hplain hread hle
            obtain ⟨e', he', hd'⟩ := ih p.rest.length
              (by have := p.shorter; have := t.2; omega) hle' hd₁ ⟨hlt, hloop⟩ rfl
            exact ⟨e', hstep ▸ he', hd'⟩

theorem Follows.objectBody (h : fs.Follows gs D R) {depth : Nat} {s rest : List UInt8} {r : ρ}
    (hbody : Gathers (fs.objectBody depth s) r rest) :
    ∃ q, Gathers (gs.objectBody depth s) q rest ∧ R q r := by
  obtain ⟨_, hbody⟩ := hbody
  unfold Fields.objectBody at hbody
  split at hbody
  · cases hbody
  · next p hloop =>
    split at hbody
    · cases hbody
    · next x hfinish =>
      cases hbody
      obtain ⟨e, ⟨_, he⟩, hd⟩ := h.objectLoop (length_self_le s) h.blank ⟨p.within, hloop⟩
      obtain ⟨q, hq, hqr⟩ := h.finish hd hfinish
      refine ⟨q, ?_, hqr⟩
      simp only [Fields.objectBody, he, hq]
      exact ⟨_, rfl⟩

/-- A record follows another whose fields its own follow. -/
theorem Follows.format (h : fs.Follows gs D R) (type type' : String) :
    (fs.format type).Follows (gs.format type') R := by
  intro depth
  unfold Fields.format
  dsimp only
  apply Json.Follows.afterSpace
  intro s rest r hread
  cases s with
  | nil =>
    obtain ⟨_, hread⟩ := hread
    cases hread
  | cons b t =>
    dsimp only at hread ⊢
    split at hread
    · next hb =>
      cases depth with
      | zero =>
        obtain ⟨_, hread⟩ := hread
        cases hread
      | succ depth =>
        rw [if_pos hb]
        dsimp only at hread ⊢
        have hread := hread.of_behind
        by_cases hlist : b = Bracket.list.opening
        · rw [if_pos hlist] at hread ⊢
          obtain ⟨left, hbody, hclose⟩ := hread.of_enclose
          obtain ⟨q, hq, hqr⟩ := h.listBody 0 (gs.described type') hbody
          exact ⟨q, (hq.reads_enclose hclose).behind b, hqr⟩
        · rw [if_neg hlist] at hread ⊢
          obtain ⟨left, hbody, hclose⟩ := hread.of_enclose
          obtain ⟨q, hq, hqr⟩ := h.objectBody hbody
          exact ⟨q, (hq.reads_enclose hclose).behind b, hqr⟩
    · obtain ⟨_, hread⟩ := hread
      cases hread

end

end Fields

/-- A whole text that a format takes is taken by one that it follows. -/
theorem Format.Follows.readText {α β : Type} {form : Format α} {plain : Format β}
    {R : β → α → Prop} (h : form.Follows plain R) {text : List UInt8} {a : α}
    (hread : form.readText text = .ok a) : ∃ b, plain.readText text = .ok b ∧ R b a := by
  unfold Format.readText at hread
  split at hread
  · cases hread
  · next p hp =>
    split at hread
    · next hend =>
      cases hread
      have hp : Reads (form.read allowance text) p.value p.rest := ⟨p.shorter, hp⟩
      obtain ⟨b, ⟨_, hb⟩, hba⟩ := h allowance hp
      exact ⟨b, by simp only [Format.readText, hb, hend], hba⟩
    · cases hread

end LiveAudit.Json
