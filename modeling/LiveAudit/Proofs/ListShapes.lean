import LiveAudit.Proofs.Members
import LiveAudit.Proofs.Survival

/-!
# Both shapes of a list of projects

A server lists projects as an array, or as an object with that array under `items`. How a project is
written is said member by member (`Project.Written`): identifiers are texts or integers, what is
usual may be left out, and members of no field may stand anywhere. Both shapes are read as the
projects that were written, and an array is never taken for the object, not even where an object may
be given as the list of its fields. Main statement: `ProjectList.read_in_both_shapes`.
-/

namespace LiveAudit

open Json (Value Field Fields Format Blank)

/-! ### Members under a key -/

namespace Json

/-- Values that stand under a key. -/
def Value.under (key : String) (members : List (String × Value)) : List Value :=
  (members.filter (·.1 = key)).map (·.2)

theorem Value.mem_under {key : String} {v : Value} {members : List (String × Value)} :
    v ∈ under key members ↔ (key, v) ∈ members := by
  simp [under]

/-- What stands under a key is no deeper than the only value there, if that has no brackets. -/
theorem Value.nesting_le_of_under {key : String} {v w : Value} {members : List (String × Value)}
    {depth : Nat} (hv : under key members = [v] ∨ under key members = []) (hzero : v.nesting = 0)
    (hw : (key, w) ∈ members) : w.nesting ≤ depth := by
  rw [← mem_under] at hw
  rcases hv with hv | hv
  · rw [hv, List.mem_singleton] at hw
    rw [hw, hzero]
    exact Nat.zero_le depth
  · rw [hv] at hw
    cases hw

/-- A field without further names takes the values under its label. -/
theorem Field.values_required {α : Type} (label : String) (form : Format α)
    (members : List (String × Value)) :
    (Field.required label form).values members = Value.under label members := by
  simp [values, Value.under, answers, required, beq_eq_decide]

theorem Field.values_optional {α : Type} (label : String) (form : Format α) (default : α)
    (members : List (String × Value)) :
    (Field.optional label form default).values members = Value.under label members := by
  simp [values, Value.under, answers, optional, beq_eq_decide]

/-- A list is read if each of its values is. -/
theorem mapM_eq_ok {ε α β : Type} {f : α → Except ε β} {as : List α} {bs : List β}
    (h : List.Forall₂ (fun a b => f a = .ok b) as bs) : as.mapM f = .ok bs := by
  induction h with
  | nil => rfl
  | cons ha _ ih =>
    rw [List.mapM_cons, ha, ih]
    rfl

theorem Value.nestingItems_le_iff {items : List Value} {depth : Nat} :
    nestingItems items ≤ depth ↔ ∀ v ∈ items, v.nesting ≤ depth := by
  induction items with
  | nil => simp [nestingItems]
  | cons v rest ih => rw [nestingItems, Nat.max_le, ih, List.forall_mem_cons]

end Json

/-! ### Projects as they are written -/

namespace Project

/-- Keys of a project. -/
def keys : List String :=
  ["id", "name", "status", "repo_url"]

/-- A text that may be missing is written once, as it is or as null, or left out if it is
missing. -/
def WrittenText (text : Option String) (values : List Value) : Prop :=
  values = [.ofStringOption text] ∨ values = [] ∧ text = none

/-- The members of an object are written for the project: no key of a project stands there twice,
and what stands under other keys has less than 100 brackets inside one another. -/
structure Written (p : Project) (members : List (String × Value)) : Prop where
  id : ∃ v, Value.under "id" members = [v] ∧ p.id.Names v
  name : Value.under "name" members = [.string p.name] ∨
    Value.under "name" members = [] ∧ p.name = ""
  status : WrittenText p.status (Value.under "status" members)
  repoUrl : WrittenText p.repoUrl (Value.under "repo_url" members)
  others : ∀ m ∈ members, m.1 ∉ keys → m.2.nesting < 100

section

variable {p : Project} {members : List (String × Value)}

theorem ofValue_ident {id : Ident} {v : Value} (h : id.Names v) :
    Ident.format.ofValue v = .ok id := by
  rcases h with rfl | ⟨n, rfl, rfl⟩ <;> rfl

theorem nesting_of_names {id : Ident} {v : Value} (h : id.Names v) : v.nesting = 0 := by
  rcases h with rfl | ⟨n, rfl, -⟩ <;> simp [Value.nesting]

theorem take_text {text : Option String} {label : String}
    (h : WrittenText text (Value.under label members)) :
    (Field.optional label Format.string.option none).take
      ((Field.optional label Format.string.option none).values members) = some text := by
  rw [Field.values_optional]
  rcases h with hvalues | ⟨hvalues, rfl⟩
  · rw [hvalues]
    exact Json.toOption_eq_some.2 (Format.ofValue_stringOption text)
  · rw [hvalues]
    rfl

theorem Written.take_id (h : p.Written members) :
    (Field.required "id" Ident.format).take
      ((Field.required "id" Ident.format).values members) = some p.id := by
  obtain ⟨v, hvalues, hid⟩ := h.id
  rw [Field.values_required, hvalues]
  exact Json.toOption_eq_some.2 (ofValue_ident hid)

theorem Written.take_name (h : p.Written members) :
    (Field.optional "name" Format.string "").take
      ((Field.optional "name" Format.string "").values members) = some p.name := by
  rw [Field.values_optional]
  rcases h.name with hvalues | ⟨hvalues, hname⟩
  · rw [hvalues]
    rfl
  · rw [hvalues, hname]
    rfl

/-- What is written for a project is read as that project. -/
theorem Written.ofValue (h : p.Written members) :
    Project.format.ofValue (.object members) = .ok p := by
  have hapart : fields.Apart := by
    simp [Fields.Apart, fields, Fields.names, Field.names, Field.required, Field.optional]
  have htake : fields.ofObject members = .ok (p.id, p.name, p.status, p.repoUrl, ()) := by
    rw [← Json.toOption_eq_some, Fields.toOption_ofObject hapart]
    simp only [fields, Fields.take, h.take_id, h.take_name, take_text h.status, take_text h.repoUrl]
    rfl
  change (fields.ofObject members).map _ = _
  rw [htake]
  rfl

/-- No member of a project is nested deeper than those that are none of its own. -/
theorem Written.nesting_le (h : p.Written members) : (Value.object members).nesting ≤ 100 := by
  rw [Value.nesting, Nat.add_le_add_iff_right (n := 1), Value.nestingMembers_le_iff]
  rintro ⟨key, w⟩ hw
  by_cases hkey : key ∈ keys
  · simp only [keys, List.mem_cons, List.not_mem_nil, or_false] at hkey
    obtain rfl | rfl | rfl | rfl := hkey
    · obtain ⟨v, hv, hid⟩ := h.id
      exact Value.nesting_le_of_under (.inl hv) (nesting_of_names hid) hw
    · exact Value.nesting_le_of_under (h.name.imp_right And.left) (by simp [Value.nesting]) hw
    · exact Value.nesting_le_of_under (h.status.imp_right And.left)
        (Value.nesting_ofStringOption _) hw
    · exact Value.nesting_le_of_under (h.repoUrl.imp_right And.left)
        (Value.nesting_ofStringOption _) hw
  · exact Nat.le_of_lt_succ (h.others _ hw hkey)

end

end Project

/-! ### Lists of projects -/

namespace ProjectList

/-- Objects that are written for projects, as an array. -/
def bare (written : List (List (String × Value))) : Value :=
  .array (written.map .object)

/-- The value is taken as these projects, and each of its texts is read as them. -/
def Means (v : Value) (ps : List Project) : Prop :=
  format.ofValue v = .ok ps ∧
    ∀ lead s trail, Blank lead → Blank trail → v.Spells s →
      format.readText (lead ++ (s ++ trail)) = .ok ps

theorem means_of_ofValue? {v : Value} {ps : List Project} (h : ofValue? v = some ps)
    (hdepth : v.nesting ≤ Format.allowance) : Means v ps := by
  have hvalue : format.ofValue v = .ok ps := by
    change (Format.shape "ProjectList" ofValue?).ofValue v = .ok ps
    simp only [Format.shape, h]
  exact ⟨hvalue, fun lead s trail hlead htrail hs =>
    Format.readText_of_spells Format.accepts_shape hvalue hs hdepth hlead htrail⟩

/-- An array is read as the list that it is, and an object as what stands under `items`. -/
theorem ofValue?_array (items : List Value) :
    ofValue? (.array items) = (Project.format.list.ofValue (.array items)).toOption :=
  rfl

theorem ofValue?_object {before after : List (String × Value)} {v : Value} {ps : List Project}
    (hothers : ∀ m ∈ before ++ after, m.1 ≠ "items") (hv : Project.format.list.ofValue v = .ok ps) :
    ofValue? (.object (before ++ ("items", v) :: after)) = some ps := by
  have hunder : Value.under "items" (before ++ ("items", v) :: after) = [v] := by
    have hnone {members : List (String × Value)} (h : ∀ m ∈ members, m.1 ≠ "items") :
        members.filter (·.1 = "items") = [] := by
      simpa [List.filter_eq_nil_iff] using h
    obtain ⟨hbefore, hafter⟩ := List.forall_mem_append.1 hothers
    simp [Value.under, hnone hbefore, hnone hafter]
  have htake : wrapped.take (before ++ ("items", v) :: after) = some (ps, ()) := by
    have hitems : (Field.required "items" Project.format.list).take [v] = some ps :=
      Json.toOption_eq_some.2 hv
    rw [wrapped, Fields.take, Field.values_required, hunder, hitems]
    rfl
  have hapart : wrapped.Apart := by
    simp [Fields.Apart, wrapped, Fields.names]
  rw [ofValue?, Fields.toOption_ofObject hapart, htake]
  rfl

section

variable {ps : List Project} {written : List (List (String × Value))}

theorem ofValue_bare (h : List.Forall₂ Project.Written ps written) :
    Project.format.list.ofValue (bare written) = .ok ps := by
  apply Json.mapM_eq_ok
  rw [List.forall₂_map_left_iff]
  exact h.flip.imp fun _ _ hp => hp.ofValue

theorem nesting_bare_le (h : List.Forall₂ Project.Written ps written) :
    (bare written).nesting ≤ 101 := by
  have hitems : ∀ v ∈ written.map Value.object, v.nesting ≤ 100 := by
    rw [List.forall_mem_map]
    induction h with
    | nil => simp
    | cons hp _ ih => exact List.forall_mem_cons.2 ⟨hp.nesting_le, ih⟩
  rw [bare, Value.nesting]
  exact Nat.succ_le_succ (Value.nestingItems_le_iff.2 hitems)

end

/-- Projects that are written one by one are read in both shapes, in their order: from the array
alone, and from an object that has it under `items`, whatever else stands in front of it or behind
it. The array is no object with `items`, also where the list of its fields may stand for an
object. -/
theorem read_in_both_shapes {ps : List Project} {written : List (List (String × Value))}
    (h : List.Forall₂ Project.Written ps written) :
    Means (bare written) ps ∧
      (∀ before after, (∀ m ∈ before ++ after, m.1 ≠ "items" ∧ m.2.nesting < 100) →
        Means (.object (before ++ ("items", bare written) :: after)) ps) ∧
      ∀ type, ∃ cause, (wrapped.format type).ofValue (bare written) = .error cause := by
  have hbare := ofValue_bare h
  have hdepth := nesting_bare_le h
  refine ⟨?_, ?_, ?_⟩
  · apply means_of_ofValue?
    · rw [bare, ofValue?_array, ← bare, hbare]
      rfl
    · exact hdepth.trans (by decide)
  · intro before after hothers
    apply means_of_ofValue? (ofValue?_object (fun m hm => (hothers m hm).1) hbare)
    have hmembers : Value.nestingMembers (before ++ ("items", bare written) :: after) ≤ 101 := by
      rw [Value.nestingMembers_le_iff]
      intro m hm
      rcases List.mem_append.1 hm with hm | hm
      · have := (hothers m (List.mem_append_left _ hm)).2
        omega
      rcases List.mem_cons.1 hm with rfl | hm
      · exact hdepth
      · have := (hothers m (List.mem_append_right _ hm)).2
        omega
    rw [Value.nesting]
    exact (Nat.succ_le_succ hmembers).trans (by decide)
  · intro type
    cases written with
    | nil => exact ⟨_, rfl⟩
    | cons members rest => exact ⟨_, rfl⟩

/-- Two projects, the first with a negative number for its identifier, its fields in another order
and a nested member of none. -/
theorem read_in_both_shapes_mixed :
    let p : Project := ⟨"-7", "", none, some "http://h"⟩
    let q : Project := ⟨"a", "b", none, none⟩
    let written : List (List (String × Value)) :=
      [[("repo_url", .string "http://h"), ("tags", .array [.array []]),
          ("id", .integer ⟨-7, by decide⟩)],
        [("id", .string "a"), ("name", .string "b"), ("status", .null)]]
    List.Forall₂ Project.Written [p, q] written ∧
      format.readText (Text.utf8 (bare written).compact) = .ok [p, q] ∧
      Means (.object [("total", .bool true), ("items", bare written), ("next", .object [])])
        [p, q] ∧
      Means (.object [("items", bare [])]) [] := by
  intro p q written
  have hp : p.Written written[0] := by
    constructor
    · exact ⟨.integer ⟨-7, by decide⟩, rfl, .inr ⟨_, rfl, by decide +kernel⟩⟩
    · exact .inr ⟨rfl, rfl⟩
    · exact .inr ⟨rfl, rfl⟩
    · exact .inl rfl
    · simp [written, Project.keys, Value.nesting, Value.nestingItems]
  have hq : q.Written written[1] := by
    constructor
    · exact ⟨.string "a", rfl, .inl rfl⟩
    · exact .inl rfl
    · exact .inl rfl
    · exact .inr ⟨rfl, rfl⟩
    · simp [written, Project.keys]
  have hwritten : List.Forall₂ Project.Written [p, q] written := .cons hp (.cons hq .nil)
  obtain ⟨hbare, hwrapped, -⟩ := read_in_both_shapes hwritten
  obtain ⟨-, hnone, -⟩ := read_in_both_shapes .nil
  refine ⟨hwritten, ?_, ?_, ?_⟩
  · have hspells : (bare written).Spells (Text.encode (bare written).write) := by
      apply Value.spells_write
      simp [written, bare, Value.Floatless, Value.FloatlessItems, Value.FloatlessMembers]
    have hread := hbare.2 [] _ [] Json.blank_nil Json.blank_nil hspells
    rw [List.nil_append, List.append_nil] at hread
    rw [Value.compact, Text.utf8, String.toList_ofList]
    exact hread
  · exact hwrapped [("total", .bool true)] [("next", .object [])]
      (by simp [Value.nesting, Value.nestingMembers])
  · exact hnone [] [] (by simp)

end ProjectList

end LiveAudit
