import Mathlib.Data.List.Lattice
import Mathlib.Data.List.Pairwise
import LiveAudit.Proofs.RecordTexts

/-!
# What an object says of a field

The members of an object are put into a draft one after another, but what a record is in the end can
be told field by field: each field looks at the values that stand under its names, and at no other
(`Fields.toOption_ofObject`). So the order of the members, the name that is used for a field and
members of no field make no difference.
-/

namespace LiveAudit.Json

theorem toOption_eq_some {ε α : Type} {x : Except ε α} {a : α} :
    x.toOption = some a ↔ x = .ok a := by
  cases x <;> simp [Except.toOption]

namespace Field

variable {α : Type} (f : Field α)

def names : List String :=
  f.label :: f.aliases

theorem answers_iff {key : String} : f.answers key = true ↔ key ∈ f.names := by
  simp [answers, names]

/-- Values that stand under the names of the field. -/
def values (members : List (String × Value)) : List Value :=
  (members.filter (f.answers ·.1)).map (·.2)

theorem values_of_answers {key : String} (h : f.answers key = true) (v : Value)
    (rest : List (String × Value)) : f.values ((key, v) :: rest) = v :: f.values rest := by
  simp [values, h]

theorem values_of_not_answers {key : String} (h : f.answers key = false) (v : Value)
    (rest : List (String × Value)) : f.values ((key, v) :: rest) = f.values rest := by
  simp [values, h]

/-- What the values of a field make of it: its rule holds where there is none, one value is read,
and two are one too many. -/
def take : List Value → Option α
  | [] => f.absent
  | [v] => (f.form.ofValue v).toOption
  | _ :: _ :: _ => none

/-- The order of the values makes no difference. -/
theorem take_perm {vs ws : List Value} (h : vs.Perm ws) : f.take vs = f.take ws := by
  match vs, ws, h with
  | [], ws, h =>
    obtain rfl := List.nil_perm.1 h
    rfl
  | [v], ws, h =>
    obtain rfl := List.singleton_perm.1 h
    rfl
  | v :: v' :: vs, ws, h =>
    obtain ⟨w, w', ws, rfl⟩ : ∃ w w' ws', ws = w :: w' :: ws' := by
      have hlength := h.length_eq
      match ws with
      | [] => simp at hlength
      | [w] => simp at hlength
      | w :: w' :: ws => exact ⟨w, w', ws, rfl⟩
    rfl

/-- Two values under names of the field are one too many. -/
theorem take_of_two {members : List (String × Value)} {key other : String} {v w : Value}
    (hne : key ≠ other) (hkey : f.answers key = true) (hother : f.answers other = true)
    (hv : (key, v) ∈ members) (hw : (other, w) ∈ members) : f.take (f.values members) = none := by
  have hkept : (key, v) ∈ members.filter (f.answers ·.1) := List.mem_filter.2 ⟨hv, hkey⟩
  have hkept' : (other, w) ∈ members.filter (f.answers ·.1) := List.mem_filter.2 ⟨hw, hother⟩
  unfold values
  generalize members.filter (f.answers ·.1) = kept at hkept hkept' ⊢
  match kept with
  | [] => cases hkept
  | [m] =>
    rw [List.mem_singleton] at hkept hkept'
    exact absurd (congrArg Prod.fst (hkept.trans hkept'.symm)) hne
  | _ :: _ :: _ => rfl

/-- A value may be replaced by one that is read alike. -/
theorem take_cons_congr {v w : Value}
    (h : (f.form.ofValue v).toOption = (f.form.ofValue w).toOption) (rest : List Value) :
    f.take (v :: rest) = f.take (w :: rest) := by
  cases rest with
  | nil => exact h
  | cons u rest => rfl

/-- Values that say the same under a name of the field are read alike. -/
def ReadsAlike (alike : String → Value → Value → Prop) : Prop :=
  ∀ {key : String} {v w : Value}, alike key v w → f.answers key = true →
    (f.form.ofValue v).toOption = (f.form.ofValue w).toOption

/-- What the place of the field in a draft holds after values have been put there. -/
def fill : Option α → List Value → Option (Option α)
  | held, [] => some held
  | none, v :: rest => (f.form.ofValue v).toOption.bind fun a => fill (some a) rest
  | some _, _ :: _ => none

theorem fill_none (vs : List Value) :
    ((f.fill none vs).bind fun held => held <|> f.absent) = f.take vs := by
  match vs with
  | [] => cases h : f.absent <;> simp [fill, take, h]
  | [v] => cases h : (f.form.ofValue v).toOption <;> simp [fill, take, h]
  | v :: w :: rest => cases h : (f.form.ofValue v).toOption <;> simp [fill, take, h]

end Field

namespace Fields

/-- Names of each field. -/
def names : {ρ : Type} → Fields ρ → List (List String)
  | _, .done => []
  | _, .cons field more => field.names :: more.names

/-- What the members of an object make of all fields, each taken by itself. -/
def take : {ρ : Type} → Fields ρ → List (String × Value) → Option ρ
  | _, .done, _ => some ()
  | _, .cons field more, members =>
    (field.take (field.values members)).bind fun a => (more.take members).map fun r => (a, r)

/-- No key is a name of two fields. -/
def Apart {ρ : Type} (fs : Fields ρ) : Prop :=
  fs.names.Pairwise List.Disjoint

section

variable {α ρ : Type} {fs : Fields ρ} {field : Field α} {more : Fields ρ} {key : String}

theorem knows_iff : fs.knows key = true ↔ ∃ group ∈ fs.names, key ∈ group := by
  induction fs with
  | done => simp [knows, names]
  | cons field more ih => simp [knows, names, ih, field.answers_iff]

/-- A key of no field has no place in a draft. -/
theorem slot_of_not_knows (h : fs.knows key = false) (draft : fs.Draft) :
    fs.slot draft key = .unknown := by
  induction fs with
  | done => rfl
  | cons field more ih =>
    obtain ⟨hfield, hmore⟩ := Bool.or_eq_false_iff.1 h
    simp only [slot, hfield, Bool.false_eq_true, if_false]
    rw [ih hmore]
    rfl

/-- A key of the first field is none of another. -/
theorem Apart.not_knows (h : (cons field more).Apart) (hkey : field.answers key = true) :
    more.knows key = false := by
  rw [Bool.eq_false_iff]
  intro hknows
  obtain ⟨group, hgroup, hmem⟩ := knows_iff.1 hknows
  exact (List.pairwise_cons.1 h).1 group hgroup (field.answers_iff.1 hkey) hmem

theorem Apart.tail (h : (cons field more).Apart) : more.Apart :=
  (List.pairwise_cons.1 h).2

/-- The place of the first field and the places of the others are filled independently. -/
theorem toOption_ofMembers (h : (cons field more).Apart) (members : List (String × Value))
    (held : Option α) (draft : more.Draft) :
    ((cons field more).ofMembers (held, draft) members).toOption =
      (field.fill held (field.values members)).bind fun held =>
        (more.ofMembers draft members).toOption.map fun draft => (held, draft) := by
  induction members generalizing held draft with
  | nil => rfl
  | cons m rest ih =>
    obtain ⟨key, v⟩ := m
    cases hkey : field.answers key with
    | true =>
      rw [field.values_of_answers hkey]
      have hmore : more.ofMembers draft ((key, v) :: rest) = more.ofMembers draft rest := by
        rw [ofMembers, slot_of_not_knows (h.not_knows hkey)]
      rw [hmore]
      simp only [ofMembers, slot, hkey, if_true]
      cases held with
      | some a => rfl
      | none =>
        simp only [Format.map]
        cases hv : field.form.ofValue v with
        | error c =>
          rw [Field.fill, hv]
          rfl
        | ok a =>
          rw [Field.fill, hv]
          exact ih (some a) draft
    | false =>
      rw [field.values_of_not_answers hkey]
      simp only [ofMembers, slot, hkey, Bool.false_eq_true, if_false]
      cases hslot : more.slot draft key with
      | unknown => exact ih held draft
      | taken label => exact (Option.bind_fun_none _).symm
      | vacant form =>
        simp only [Slot.map, Format.map]
        cases hv : form.ofValue v with
        | error c => exact (Option.bind_fun_none _).symm
        | ok draft' => exact ih held draft'

theorem toOption_finish (held : Option α) (draft : more.Draft) :
    ((cons field more).finish (held, draft)).toOption =
      (held <|> field.absent).bind fun a => (more.finish draft).toOption.map fun r => (a, r) := by
  simp only [finish]
  cases (held <|> field.absent) with
  | none => rfl
  | some a => cases more.finish draft <;> rfl

theorem toOption_ofObject_eq (fs : Fields ρ) (members : List (String × Value)) :
    (fs.ofObject members).toOption =
      (fs.ofMembers fs.blank members).toOption.bind fun draft => (fs.finish draft).toOption := by
  simp only [ofObject, bind, Except.bind]
  cases fs.ofMembers fs.blank members <;> rfl

/-- A record is what its fields make of the values under their names. -/
theorem toOption_ofObject (h : fs.Apart) (members : List (String × Value)) :
    (fs.ofObject members).toOption = fs.take members := by
  induction fs with
  | done =>
    rw [toOption_ofObject_eq]
    induction members with
    | nil => rfl
    | cons m rest ih => exact ih
  | cons field more ih =>
    rw [toOption_ofObject_eq, take, ← ih h.tail, ← field.fill_none, toOption_ofObject_eq]
    change ((cons field more).ofMembers (none, more.blank) members).toOption.bind _ = _
    rw [toOption_ofMembers h]
    cases field.fill none (field.values members) with
    | none => rfl
    | some held =>
      cases (more.ofMembers more.blank members).toOption with
      | none => exact (Option.bind_fun_none _).symm
      | some draft => exact toOption_finish held draft

/-- A record has no use for two names of one field. -/
theorem take_of_two {group : List String} {other : String} {v w : Value}
    {members : List (String × Value)} (hgroup : group ∈ fs.names) (hkey : key ∈ group)
    (hother : other ∈ group) (hne : key ≠ other) (hv : (key, v) ∈ members)
    (hw : (other, w) ∈ members) : fs.take members = none := by
  induction fs with
  | done => cases hgroup
  | cons field more ih =>
    rw [take]
    rcases List.mem_cons.1 hgroup with rfl | hmore
    · rw [field.take_of_two hne (field.answers_iff.2 hkey) (field.answers_iff.2 hother) hv hw]
      rfl
    · rw [ih hmore]
      exact Option.bind_fun_none _

end

/-! ### Other words -/

/-- Members that are put into other words: in another order, with another name of a field, with or
without a member of no field, or with a value that says the same. -/
inductive Rewords (names : List (List String)) (alike : String → Value → Value → Prop) :
    List (String × Value) → List (String × Value) → Prop
  | order {members others : List (String × Value)} (h : members.Perm others) :
      Rewords names alike members others
  | name {group : List String} {key other : String} (hgroup : group ∈ names) (hkey : key ∈ group)
      (hother : other ∈ group) (v : Value) (rest : List (String × Value)) :
      Rewords names alike ((key, v) :: rest) ((other, v) :: rest)
  | unknown {key : String} (h : ∀ group ∈ names, key ∉ group) (v : Value)
      (rest : List (String × Value)) : Rewords names alike ((key, v) :: rest) rest
  | value {key : String} {v w : Value} (h : alike key v w) (rest : List (String × Value)) :
      Rewords names alike ((key, v) :: rest) ((key, w) :: rest)
  | symm {members others : List (String × Value)} (h : Rewords names alike members others) :
      Rewords names alike others members
  | trans {members between others : List (String × Value)}
      (h : Rewords names alike members between) (h' : Rewords names alike between others) :
      Rewords names alike members others

/-- Values that say the same are read alike by all fields. -/
def ReadAlike (alike : String → Value → Value → Prop) : {ρ : Type} → Fields ρ → Prop
  | _, .done => True
  | _, .cons field more => field.ReadsAlike alike ∧ more.ReadAlike alike

section

variable {names : List (List String)} {alike : String → Value → Value → Prop}
  {members others : List (String × Value)}

/-- A field is the same in other words. -/
theorem take_field_of_rewords {α : Type} {field : Field α} (hapart : names.Pairwise List.Disjoint)
    (hfield : field.names ∈ names) (hreads : field.ReadsAlike alike)
    (h : Rewords names alike members others) :
    field.take (field.values members) = field.take (field.values others) := by
  have : Std.Symm (List.Disjoint : List String → List String → Prop) :=
    ⟨fun _ _ => List.Disjoint.symm⟩
  induction h with
  | order h => exact field.take_perm ((h.filter _).map _)
  | @name group key other hgroup hkey hother v rest =>
    have hsame : field.answers key = field.answers other := by
      by_cases hnames : field.names = group
      · rw [field.answers_iff.2 (hnames ▸ hkey), field.answers_iff.2 (hnames ▸ hother)]
      · have hdisjoint := hapart.forall hfield hgroup hnames
        have hneither {k : String} (hk : k ∈ group) : field.answers k = false := by
          rw [Bool.eq_false_iff]
          intro hanswers
          exact hdisjoint (field.answers_iff.1 hanswers) hk
        rw [hneither hkey, hneither hother]
    cases hanswers : field.answers key with
    | true =>
      rw [field.values_of_answers hanswers, field.values_of_answers (hsame ▸ hanswers)]
    | false =>
      rw [field.values_of_not_answers hanswers, field.values_of_not_answers (hsame ▸ hanswers)]
  | @unknown key h v rest =>
    have hanswers : field.answers key = false := by
      rw [Bool.eq_false_iff]
      intro hanswers
      exact h _ hfield (field.answers_iff.1 hanswers)
    rw [field.values_of_not_answers hanswers]
  | @value key v w h rest =>
    cases hanswers : field.answers key with
    | true =>
      rw [field.values_of_answers hanswers, field.values_of_answers hanswers]
      exact field.take_cons_congr (hreads h hanswers) _
    | false =>
      rw [field.values_of_not_answers hanswers, field.values_of_not_answers hanswers]
  | symm _ ih => exact ih.symm
  | trans _ _ ih ih' => exact ih.trans ih'

/-- A record is the same in other words. -/
theorem take_of_rewords {ρ : Type} {fs : Fields ρ} (hapart : names.Pairwise List.Disjoint)
    (hnames : fs.names ⊆ names) (hreads : fs.ReadAlike alike)
    (h : Rewords names alike members others) : fs.take members = fs.take others := by
  induction fs with
  | done => rfl
  | cons field more ih =>
    obtain ⟨hfield, hmore⟩ := List.cons_subset.1 hnames
    rw [take, take, take_field_of_rewords hapart hfield hreads.1 h, ih hmore hreads.2]

end

end Fields

end LiveAudit.Json
