import LiveAudit.Proofs.Hints
import LiveAudit.Proofs.Members

/-!
# Payloads in other words

What event a payload is decides by what it says of the fields of its type, and not by how: a field
may go by any of its names, members may stand in any order and keys of no field among them, and the
identifier of a repository may be an integer or its decimal text. Main statement:
`Event.decoded_by_meaning`.
-/

namespace LiveAudit

open Json (Value Whole Field Fields Format)

/-! ### Identifiers -/

namespace Text

theorem hexDigit_eq_digitChar {n : Nat} (h : n < 10) : hexDigit n = n.digitChar := by
  have hall : ∀ d < 10, hexDigit d = d.digitChar := by decide
  exact hall n h

theorem decimal_eq_toDigits (n : Nat) : decimal n = Nat.toDigits 10 n := by
  induction n using decimal.induct with
  | case1 n h => rw [decimal, Nat.toDigits_eq_if (by decide), if_pos h, if_pos h,
      hexDigit_eq_digitChar h]
  | case2 n h ih => rw [decimal, Nat.toDigits_eq_if (by decide), if_neg h, if_neg h, ih,
      hexDigit_eq_digitChar (Nat.mod_lt n (by decide))]

/-- The decimal text of an integer is the usual one. -/
theorem ofList_signedDecimal (n : Int) : String.ofList (signedDecimal n) = toString n := by
  change _ = n.repr
  cases n with
  | ofNat m =>
    rw [signedDecimal, if_neg (by simp), decimal_eq_toDigits]
    rfl
  | negSucc m =>
    rw [signedDecimal, if_pos (Int.negSucc_lt_zero m), decimal_eq_toDigits]
    change _ = "-" ++ String.ofList (Nat.toDigits 10 (m + 1))
    exact String.toList_inj.1 (by simp)

end Text

/-- Under the key of an identifier, an integer says the same as its decimal text. -/
def Ident.Alike (key : String) (v w : Value) : Prop :=
  key = "repo_id" ∧ ∃ n : Whole, v = .integer n ∧ w = .string (toString n.value)

theorem Ident.readsAlike : (Field.required "repo_id" format).ReadsAlike Alike := by
  intro key v w halike _
  obtain ⟨_, n, rfl, rfl⟩ := halike
  have hread : ofValue? (.integer n) = ofValue? (.string (toString n.value)) :=
    congrArg some (Text.ofList_signedDecimal n.value)
  change ((Format.shape "IdRepr" ofValue?).ofValue _).toOption =
    ((Format.shape "IdRepr" ofValue?).ofValue _).toOption
  simp only [Format.shape, hread]

/-- Other fields are not asked for an identifier. -/
theorem Ident.readsAlike_of_not_mem {α : Type} {field : Json.Field α}
    (h : "repo_id" ∉ field.names) : field.ReadsAlike Alike := by
  intro key v w halike hanswers
  obtain ⟨rfl, _⟩ := halike
  exact absurd (field.answers_iff.1 hanswers) h

/-! ### Payloads -/

/-- An object is read by what it says of fields with these names. -/
structure ReadsByNames {α : Type} (form : Format α) (names : List (List String)) : Prop where
  reworded : ∀ {members others}, Fields.Rewords names Ident.Alike members others →
    (form.ofValue (.object members)).toOption = (form.ofValue (.object others)).toOption
  /-- Two names of one field are not accepted. -/
  twice : ∀ {group members} {key other : String} {v w : Value}, group ∈ names → key ∈ group →
    other ∈ group → key ≠ other → (key, v) ∈ members → (other, w) ∈ members →
    (form.ofValue (.object members)).toOption = none

theorem readsByNames_record {ρ α : Type} {fs : Fields ρ} (type : String) (f : ρ → α)
    (hapart : fs.Apart) (hreads : fs.ReadAlike Ident.Alike) :
    ReadsByNames ((fs.format type).map f) fs.names := by
  have htake (members : List (String × Value)) :
      (((fs.format type).map f).ofValue (.object members)).toOption =
        (fs.take members).map f := by
    rw [← Fields.toOption_ofObject hapart]
    change ((fs.ofObject members).map f).toOption = _
    cases fs.ofObject members <;> rfl
  constructor
  · intro members others h
    rw [htake, htake, Fields.take_of_rewords hapart (List.Subset.refl _) hreads h]
  · intro group members key other v w hgroup hkey hother hne hv hw
    rw [htake, Fields.take_of_two hgroup hkey hother hne hv hw]
    rfl

theorem SyncProgress.readsByNames : ReadsByNames format [["repo_id"], ["status"]] :=
  readsByNames_record _ _
    (by simp [Fields.Apart, Fields.names, Field.names, Field.required])
    ⟨Ident.readsAlike, Ident.readsAlike_of_not_mem (by decide), trivial⟩

theorem AuditProgress.readsByNames : ReadsByNames format
    [["repo_id"], ["file", "current_file"], ["files_done", "filesDone"],
      ["files_total", "filesTotal"]] :=
  readsByNames_record _ _
    (by simp [Fields.Apart, Fields.names, Field.names, Field.required, Field.optional,
      Field.withAliases])
    ⟨Ident.readsAlike, Ident.readsAlike_of_not_mem (by decide),
      Ident.readsAlike_of_not_mem (by decide), Ident.readsAlike_of_not_mem (by decide), trivial⟩

theorem AuditUpdate.readsByNames : ReadsByNames format [["repo_id"]] :=
  readsByNames_record _ _
    (by simp [Fields.Apart, Fields.names, Field.names, Field.required])
    ⟨Ident.readsAlike, trivial⟩

theorem ContractProgress.readsByNames : ReadsByNames format [["status"], ["index"], ["total"]] :=
  readsByNames_record _ _
    (by simp [Fields.Apart, Fields.names, Field.names, Field.required])
    ⟨Ident.readsAlike_of_not_mem (by decide), Ident.readsAlike_of_not_mem (by decide),
      Ident.readsAlike_of_not_mem (by decide), trivial⟩

namespace Event

/-- Names of the fields that the payload of a type has. -/
def fieldNames (kind : String) : List (List String) :=
  if kind = "sync_progress" then [["repo_id"], ["status"]]
  else if kind = "audit_progress" then
    [["repo_id"], ["file", "current_file"], ["files_done", "filesDone"],
      ["files_total", "filesTotal"]]
  else if kind = "audit_update" then [["repo_id"]]
  else if kind = "contract_progress" then [["status"], ["index"], ["total"]]
  else []

/-! ### Decoding -/

/-- The types that carry a payload. -/
def payloadKinds : List String :=
  ["sync_progress", "audit_progress", "audit_update", "contract_progress"]

/-- Event that is made of the payload of an envelope. -/
def carried {α : Type} (form : Format α) (make : α → Event) (e : Envelope) :
    Except Failure Event :=
  match form.ofValue e.payload with
  | .ok p => .ok (make p)
  | .error c => .error (.malformedEvent e.kind c.message)

section

variable {α : Type} {form : Format α} {make : α → Event} {e : Envelope}

theorem toOption_carried (form : Format α) (make : α → Event) (e : Envelope) :
    (carried form make e).toOption = (form.ofValue e.payload).toOption.map make := by
  unfold carried
  cases form.ofValue e.payload <;> rfl

theorem carried_eq_ok {event : Event} (h : carried form make e = .ok event) :
    ∃ p, event = make p := by
  unfold carried at h
  split at h
  · exact ⟨_, (Except.ok.inj h).symm⟩
  · cases h

/-- A payload that does not fit makes the event malformed. -/
theorem carried_eq_error {fault : Failure} (h : carried form make e = .error fault) :
    ∃ detail, fault = .malformedEvent e.kind detail := by
  unfold carried at h
  split at h
  · cases h
  · exact ⟨_, (Except.error.inj h).symm⟩

end

/-- A type either carries a payload, which is read by what it says of the fields of the type, or has
one event whatever comes with it. -/
theorem carried_or_constant (kind : String) :
    (kind ∈ payloadKinds ∧ ∃ (α : Type) (form : Format α) (make : α → Event),
      ReadsByNames form (fieldNames kind) ∧ (∀ p, (make p).kind = kind) ∧
      ∀ payload, ofEnvelope ⟨kind, payload⟩ = carried form make ⟨kind, payload⟩) ∨
    (fieldNames kind = [] ∧ ∃ event : Event, event.kind = kind ∧
      ∀ payload, ofEnvelope ⟨kind, payload⟩ = .ok event) := by
  unfold fieldNames ofEnvelope
  dsimp only
  split_ifs with hsync haudit hupdate hcontract hstarted hcomplete hfailed
  · exact .inl ⟨by simp [payloadKinds, hsync], _, _, .syncProgress, SyncProgress.readsByNames,
      fun _ => hsync.symm, fun _ => rfl⟩
  · exact .inl ⟨by simp [payloadKinds, haudit], _, _, .auditProgress, AuditProgress.readsByNames,
      fun _ => haudit.symm, fun _ => rfl⟩
  · exact .inl ⟨by simp [payloadKinds, hupdate], _, _, .auditUpdate, AuditUpdate.readsByNames,
      fun _ => hupdate.symm, fun _ => rfl⟩
  · exact .inl ⟨by simp [payloadKinds, hcontract], _, _, .contractProgress,
      ContractProgress.readsByNames, fun _ => hcontract.symm, fun _ => rfl⟩
  · exact .inr ⟨rfl, .build .started, hstarted.symm, fun _ => rfl⟩
  · exact .inr ⟨rfl, .build .complete, hcomplete.symm, fun _ => rfl⟩
  · exact .inr ⟨rfl, .build .error, hfailed.symm, fun _ => rfl⟩
  · exact .inr ⟨rfl, .other kind, rfl, fun _ => rfl⟩

/-- The same event is decoded from a payload in other words. -/
theorem toOption_ofEnvelope_congr {kind : String} {members others : List (String × Value)}
    (h : Fields.Rewords (fieldNames kind) Ident.Alike members others) :
    (ofEnvelope ⟨kind, .object members⟩).toOption =
      (ofEnvelope ⟨kind, .object others⟩).toOption := by
  rcases carried_or_constant kind with ⟨-, α, form, make, hreads, -, heq⟩ | ⟨-, event, -, heq⟩
  · rw [heq, heq, toOption_carried, toOption_carried, hreads.reworded h]
  · rw [heq, heq]

/-- No event is decoded from a payload with two names of one field. -/
theorem toOption_ofEnvelope_of_two {kind key other : String} {group : List String} {v w : Value}
    {members : List (String × Value)} (hgroup : group ∈ fieldNames kind) (hkey : key ∈ group)
    (hother : other ∈ group) (hne : key ≠ other) (hv : (key, v) ∈ members)
    (hw : (other, w) ∈ members) : (ofEnvelope ⟨kind, .object members⟩).toOption = none := by
  rcases carried_or_constant kind with ⟨-, α, form, make, hreads, -, heq⟩ | ⟨hnone, -⟩
  · rw [heq, toOption_carried, hreads.twice hgroup hkey hother hne hv hw]
    rfl
  · rw [hnone] at hgroup
    cases hgroup

/-- An event has the type it was sent under. -/
theorem kind_of_ofEnvelope {e : Envelope} {event : Event} (h : ofEnvelope e = .ok event) :
    event.kind = e.kind := by
  obtain ⟨kind, payload⟩ := e
  rcases carried_or_constant kind with ⟨-, α, form, make, -, hkind, heq⟩ | ⟨-, event, hkind, heq⟩
  · obtain ⟨p, rfl⟩ := carried_eq_ok ((heq payload).symm.trans h)
    exact hkind p
  · obtain rfl := Except.ok.inj ((heq payload).symm.trans h)
    exact hkind

/-- Only a type that carries a payload can be malformed. -/
theorem eq_malformed_of_ofEnvelope {e : Envelope} {fault : Failure}
    (h : ofEnvelope e = .error fault) :
    e.kind ∈ payloadKinds ∧ ∃ detail, fault = .malformedEvent e.kind detail := by
  obtain ⟨kind, payload⟩ := e
  rcases carried_or_constant kind with ⟨hkind, α, form, make, -, -, heq⟩ | ⟨-, event, -, heq⟩
  · exact ⟨hkind, carried_eq_error ((heq payload).symm.trans h)⟩
  · cases (heq payload).symm.trans h

/-- Decoding depends only on what the fields of a payload mean. In other words a payload is the same
event, or none; two names of one field are refused as malformed; an event has the type of its
envelope, and only the four types that carry a payload can fail, under their own name. -/
theorem decoded_by_meaning :
    (∀ kind members others, Fields.Rewords (fieldNames kind) Ident.Alike members others →
      ∀ event, ofEnvelope ⟨kind, .object members⟩ = .ok event ↔
        ofEnvelope ⟨kind, .object others⟩ = .ok event) ∧
    (∀ (kind : String) (members : List (String × Value)), ∀ group ∈ fieldNames kind,
      ∀ key ∈ group, ∀ other ∈ group, key ≠ other → key ∈ members.map Prod.fst →
        other ∈ members.map Prod.fst →
        ∃ detail, ofEnvelope ⟨kind, .object members⟩ = .error (.malformedEvent kind detail)) ∧
    (∀ e event, ofEnvelope e = .ok event → event.kind = e.kind) ∧
    ∀ e fault, ofEnvelope e = .error fault →
      e.kind ∈ payloadKinds ∧ ∃ detail, fault = .malformedEvent e.kind detail := by
  refine ⟨?_, ?_, fun e event => kind_of_ofEnvelope, fun e fault => eq_malformed_of_ofEnvelope⟩
  · intro kind members others h event
    rw [← Json.toOption_eq_some, ← Json.toOption_eq_some, toOption_ofEnvelope_congr h]
  · intro kind members group hgroup key hkey other hother hne hmem hmem'
    obtain ⟨⟨_, v⟩, hv, rfl⟩ := List.mem_map.1 hmem
    obtain ⟨⟨_, w⟩, hw, rfl⟩ := List.mem_map.1 hmem'
    have hnone := toOption_ofEnvelope_of_two hgroup hkey hother hne hv hw
    cases hdecoded : ofEnvelope ⟨kind, .object members⟩ with
    | ok event =>
      rw [hdecoded] at hnone
      cases hnone
    | error fault =>
      obtain ⟨-, detail, rfl⟩ := eq_malformed_of_ofEnvelope hdecoded
      exact ⟨detail, rfl⟩

/-- A payload with another name of the file, another order, a member more and the text of its
identifier is the same event; with both names of the file it is none. -/
theorem decoded_by_meaning_file :
    let members : List (String × Value) :=
      [("repo_id", .integer ⟨7, by decide⟩), ("file", .string "a.rs")]
    let others : List (String × Value) :=
      [("note", .array [.null]), ("current_file", .string "a.rs"), ("repo_id", .string "7")]
    Fields.Rewords (fieldNames "audit_progress") Ident.Alike members others ∧
      ofEnvelope ⟨"audit_progress", .object others⟩ =
        .ok (.auditProgress ⟨"7", some "a.rs", 0, 0⟩) ∧
      ∃ detail, ofEnvelope ⟨"audit_progress", .object (("file", .null) :: others)⟩ =
        .error (.malformedEvent "audit_progress" detail) := by
  intro members others
  have hidentifier : Ident.Alike "repo_id" (.integer ⟨7, by decide⟩) (.string "7") :=
    ⟨rfl, ⟨7, by decide⟩, rfl, rfl⟩
  have hfile : ["file", "current_file"] ∈ fieldNames "audit_progress" := by decide
  have hnote : ∀ group ∈ fieldNames "audit_progress", "note" ∉ group := by decide
  have hrewords : Fields.Rewords (fieldNames "audit_progress") Ident.Alike members others :=
    .trans (.value hidentifier _) <|
    .trans (.order (.swap _ _ _)) <|
    .trans (.name hfile (by decide) (by decide) _ _) (.symm (.unknown hnote _ _))
  obtain ⟨hsame, htwice, -, -⟩ := decoded_by_meaning
  have hdecoded : ofEnvelope ⟨"audit_progress", .object members⟩ =
      .ok (.auditProgress ⟨"7", some "a.rs", 0, 0⟩) := by decide +kernel
  refine ⟨hrewords, (hsame _ _ _ hrewords _).1 hdecoded, ?_⟩
  exact htwice "audit_progress" _ _ hfile "file" (by decide) "current_file" (by decide) (by decide)
    (by decide) (by decide)

end Event

end LiveAudit
