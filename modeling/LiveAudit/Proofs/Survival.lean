import LiveAudit.Progress
import LiveAudit.Project
import LiveAudit.Sync
import LiveAudit.Proofs.Provenance
import LiveAudit.Proofs.Written

/-!
# What the server sends survives

A run, a page of runs, a report, a project or a scan progress that is read from any text is written
so that it is read again (`survives`). For a run this needs to be known of its verdict: only a text
that is none of the three known ones is kept as another verdict. What an identifier and a verdict
were made of is told by the record as it was sent (`Run.Sent`, `Project.Sent`), which is read from
the same texts.
-/

namespace LiveAudit

open Json (Format Fields Field Value)

/-! ### As it was sent -/

/-- The identifier is the text that was sent, or the decimal text of the integer. -/
def Ident.Names (id : Ident) (sent : Value) : Prop :=
  sent = .string id ∨ ∃ n, sent = .integer n ∧ id = String.ofList (Text.signedDecimal n.value)

/-- The verdict is what is known under the text, and otherwise another one of that text. -/
structure Verdict.Tells (v : Verdict) (text : String) : Prop where
  pass : v = .pass ↔ text = "PASS"
  fail : v = .fail ↔ text = "FAIL"
  error : v = .error ↔ text = "ERROR"
  other : ∀ u, v = .other u ↔ u = text ∧ text ≠ "PASS" ∧ text ≠ "FAIL" ∧ text ≠ "ERROR"

/-- Where an identifier is read, the value that was sent for it is. -/
theorem Ident.follows_any : Ident.format.Follows Format.any fun sent id => id.Names sent := by
  intro depth s rest id h
  rcases Format.Follows.shape depth h with ⟨sent, hsent, htake⟩
  refine ⟨sent, hsent, ?_⟩
  cases sent with
  | string s => exact .inl (congrArg Value.string (Option.some.inj htake))
  | integer n => exact .inr ⟨n, rfl, (Option.some.inj htake).symm⟩
  | _ => cases htake

theorem Verdict.tells_ofText (text : String) : (Verdict.ofText text).Tells text := by
  unfold ofText
  split_ifs with hpass hfail herror
  · subst hpass
    constructor <;> simp
  · subst hfail
    constructor <;> simp
  · subst herror
    constructor <;> simp
  · constructor
    · simpa using hpass
    · simpa using hfail
    · simpa using herror
    · intro u
      simp [hpass, hfail, herror, eq_comm]

@[simp] theorem Verdict.text_ofText (text : String) : (Verdict.ofText text).text = text := by
  unfold ofText
  split_ifs with hpass hfail herror
  · exact hpass.symm
  · exact hfail.symm
  · exact herror.symm
  · rfl

namespace Run

/-- A run as it was sent. -/
structure Sent where
  id : Value
  status : RunStatus
  result : Option String
  commitSha : Option String
  commitMessage : Option String
  createdAt : Option String

namespace Sent

open Json in
def fields : Fields (Value × RunStatus × Option String × Option String × Option String ×
    Option String × Unit) :=
  .cons (.required "id" Format.any) <|
  .cons (.required "status" RunStatus.format) <|
  .cons (.optional "overall_result" Format.string.option none) <|
  .cons (.optional "commit_sha" Format.string.option none) <|
  .cons (.optional "commit_message" Format.string.option none) <|
  .cons (.optional "created_at" Format.string.option none) .done

def format : Json.Format Sent :=
  (fields.format "AuditRun").map fun (id, status, result, sha, message, created, ()) =>
    ⟨id, status, result, sha, message, created⟩

/-- What the program makes of a run that was sent. -/
structure Becomes (sent : Sent) (r : Run) : Prop where
  id : r.id.Names sent.id
  status : r.status = sent.status
  result : Option.Rel (fun text v => Verdict.Tells v text) sent.result r.result
  commitSha : r.commitSha = sent.commitSha
  commitMessage : r.commitMessage = sent.commitMessage
  createdAt : r.createdAt = sent.createdAt

end Sent

theorem follows_verdict :
    Verdict.format.Follows Format.string fun text v => Verdict.ofText text = v :=
  Format.Follows.of_map _ _

theorem becomes_result {sent : Option String} {result : Option Verdict}
    (h : Option.Rel (fun text v => Verdict.ofText text = v) sent result) :
    Option.Rel (fun text v => Verdict.Tells v text) sent result := by
  cases h with
  | none => exact .none
  | some h =>
    subst h
    exact .some (Verdict.tells_ofText _)

/-- Where a run is read, a run as it was sent is. -/
theorem follows_sent : Run.format.Follows Sent.format fun sent r =>
    sent.Becomes r ∧ Option.Rel (fun text v => Verdict.ofText text = v) sent.result r.result := by
  have hfields := Fields.Follows.done
    |>.optional "created_at" (.refl Format.string.option) (Eq.refl none)
    |>.optional "commit_message" (.refl Format.string.option) (Eq.refl none)
    |>.optional "commit_sha" (.refl Format.string.option) (Eq.refl none)
    |>.optional "overall_result" follows_verdict.option .none
    |>.required "status" (.refl RunStatus.format)
    |>.required "id" Ident.follows_any
  refine Format.Follows.map (hfields.format "AuditRun" "AuditRun") _ _ ?_
  rintro ⟨v, sent⟩ ⟨id, r⟩ ⟨hid, hstatus, hresult, hsha, hmessage, hcreated, _⟩
  exact ⟨⟨hid, hstatus.symm, becomes_result hresult, hsha.symm,
    hmessage.symm, hcreated.symm⟩, hresult⟩

end Run

namespace Page

/-- A page of runs as they were sent. -/
structure Sent where
  items : List Run.Sent
  total : UInt64

namespace Sent

open Json in
def fields : Fields (List Run.Sent × UInt64 × Unit) :=
  .cons (.required "items" Run.Sent.format.list) <|
  .cons (.required "total" Format.word64) .done

def format : Json.Format Sent :=
  (fields.format "AuditPage").map fun (items, total, ()) => ⟨items, total⟩

/-- What the program makes of a page that was sent. -/
structure Becomes (sent : Sent) (p : Page) : Prop where
  items : List.Forall₂ Run.Sent.Becomes sent.items p.items
  total : p.total = sent.total

end Sent

theorem follows_sent : Page.format.Follows Sent.format fun sent p => List.Forall₂ (fun sent r =>
    sent.Becomes r ∧ Option.Rel (fun text v => Verdict.ofText text = v) sent.result r.result)
      sent.items p.items ∧ p.total = sent.total := by
  have hfields := Fields.Follows.done
    |>.required "total" (.refl Format.word64)
    |>.required "items" Run.follows_sent.list
  refine Format.Follows.map (hfields.format "AuditPage" "AuditPage") _ _ ?_
  rintro ⟨items', total', _⟩ ⟨items, total, _⟩ ⟨hitems, htotal, _⟩
  exact ⟨hitems, htotal.symm⟩

end Page

namespace Project

/-- A project as it was sent. -/
structure Sent where
  id : Value
  name : String
  status : Option String
  repoUrl : Option String

namespace Sent

open Json in
def fields : Fields (Value × String × Option String × Option String × Unit) :=
  .cons (.required "id" Format.any) <|
  .cons (.optional "name" Format.string "") <|
  .cons (.optional "status" Format.string.option none) <|
  .cons (.optional "repo_url" Format.string.option none) .done

def format : Json.Format Sent :=
  (fields.format "ProjectSummary").map fun (id, name, status, url, ()) => ⟨id, name, status, url⟩

/-- What the program makes of a project that was sent. -/
structure Becomes (sent : Sent) (p : Project) : Prop where
  id : p.id.Names sent.id
  name : p.name = sent.name
  status : p.status = sent.status
  repoUrl : p.repoUrl = sent.repoUrl

end Sent

theorem follows_sent : Project.format.Follows Sent.format Sent.Becomes := by
  have hfields := Fields.Follows.done
    |>.optional "repo_url" (.refl Format.string.option) (Eq.refl none)
    |>.optional "status" (.refl Format.string.option) (Eq.refl none)
    |>.optional "name" (.refl Format.string) (Eq.refl "")
    |>.required "id" Ident.follows_any
  refine Format.Follows.map (hfields.format "ProjectSummary" "ProjectSummary") _ _ ?_
  rintro ⟨v, sent⟩ ⟨id, p⟩ ⟨hid, hname, hstatus, hurl, _⟩
  exact ⟨hid, hname.symm, hstatus.symm, hurl.symm⟩

end Project

/-! ### Written and read again -/

/-- Whatever the format reads from a text is written so that it is read again. -/
def Json.Format.Survives {α : Type} (form : Format α) (write : α → Value) : Prop :=
  ∀ (text : List UInt8) (a : α), form.readText text = .ok a →
    form.readText (Text.utf8 (write a).compact) = .ok a

namespace Json.Format

theorem survives_of_accepts {α : Type} {form : Format α} {write : α → Value} (h : form.Accepts)
    (hvalue : ∀ a, form.ofValue (write a) = .ok a) (hfloat : ∀ a, (write a).Floatless)
    (hdepth : ∀ a, (write a).nesting ≤ allowance) : form.Survives write := by
  intro text a _
  exact readText_compact h (hvalue a) (hfloat a) (hdepth a)

end Json.Format

section

open Json.Value (floatless_ofStringOption nesting_ofStringOption)

theorem SyncReport.survives : SyncReport.format.Survives SyncReport.toValue := by
  have haccept : SyncReport.fields.Accept :=
    ⟨Format.accepts_word32, Format.accepts_word32, trivial⟩
  apply Format.survives_of_accepts ((Fields.accepts_format haccept).map _)
  · intro r
    have hfields : SyncReport.fields.Writes (r.synced, r.skipped, ())
        [("synced", .ofWord32 r.synced), ("skipped", .ofWord32 r.skipped)] :=
      Fields.writes_optional (by simp) (Format.ofValue_word32 _) <|
      Fields.writes_optional (by simp) (Format.ofValue_word32 _) rfl
    exact Fields.ofValue_record hfields
  · intro r
    simp [toValue, Value.Floatless, Value.FloatlessMembers, Value.ofWord32, Value.ofWord]
  · intro r
    simp [toValue, Value.nesting, Value.nestingMembers, Value.ofWord32, Value.ofWord,
      Format.allowance]

theorem ScanProgress.survives : ScanProgress.format.Survives ScanProgress.toValue := by
  have haccept : ScanProgress.fields.Accept :=
    ⟨Format.accepts_string.option, Format.accepts_word32, Format.accepts_word32, trivial⟩
  apply Format.survives_of_accepts ((Fields.accepts_format haccept).map _)
  · intro p
    have hfields : ScanProgress.fields.Writes (p.currentFile, p.filesDone, p.filesTotal, ())
        [("current_file", .ofStringOption p.currentFile), ("files_done", .ofWord32 p.filesDone),
          ("files_total", .ofWord32 p.filesTotal)] :=
      Fields.writes_nullable (by simp) (Format.ofValue_stringOption _) <|
      Fields.writes_required (by simp) (Format.ofValue_word32 _) <|
      Fields.writes_required (by simp) (Format.ofValue_word32 _) rfl
    exact Fields.ofValue_record hfields
  · intro p
    simp [toValue, Value.Floatless, Value.FloatlessMembers, Value.ofWord32, Value.ofWord,
      floatless_ofStringOption]
  · intro p
    simp [toValue, Value.nesting, Value.nestingMembers, Value.ofWord32, Value.ofWord,
      nesting_ofStringOption, Format.allowance]

theorem Project.survives : Project.format.Survives Project.toValue := by
  have haccept : Project.fields.Accept :=
    ⟨Format.accepts_shape, Format.accepts_string, Format.accepts_string.option,
      Format.accepts_string.option, trivial⟩
  apply Format.survives_of_accepts ((Fields.accepts_format haccept).map _)
  · intro p
    have hfields : Project.fields.Writes (p.id, p.name, p.status, p.repoUrl, ())
        [("id", .string p.id), ("name", .string p.name), ("status", .ofStringOption p.status),
          ("repo_url", .ofStringOption p.repoUrl)] :=
      Fields.writes_required (by simp) rfl <| Fields.writes_optional (by simp) rfl <|
      Fields.writes_optional (by simp) (Format.ofValue_stringOption _) <|
      Fields.writes_optional (by simp) (Format.ofValue_stringOption _) rfl
    exact Fields.ofValue_record hfields
  · intro p
    simp [toValue, Value.Floatless, Value.FloatlessMembers, floatless_ofStringOption]
  · intro p
    simp [toValue, Value.nesting, Value.nestingMembers, nesting_ofStringOption, Format.allowance]

/-! ### Runs -/

namespace Run

/-- The verdict of the run is made of a text, as that of every run that is read. -/
def Told (r : Run) : Prop :=
  ∃ text : Option String, r.result = text.map Verdict.ofText

theorem told_of_rel {r : Run} {text : Option String}
    (h : Option.Rel (fun text v => Verdict.ofText text = v) text r.result) : r.Told := by
  refine ⟨text, ?_⟩
  generalize r.result = result at h ⊢
  cases h with
  | none => rfl
  | some h => exact congrArg some h.symm

theorem accepts_format : Run.format.Accepts := by
  have haccept : Run.fields.Accept :=
    ⟨Format.accepts_shape, Format.accepts_oneOf, (Format.accepts_string.map _).option,
      Format.accepts_string.option, Format.accepts_string.option, Format.accepts_string.option,
      trivial⟩
  exact (Fields.accepts_format haccept).map _

theorem ofValue_status (s : RunStatus) : RunStatus.format.ofValue (.string s.text) = .ok s := by
  cases s <;> rfl

theorem ofValue_verdict (text : Option String) :
    Verdict.format.option.ofValue (.ofStringOption ((text.map Verdict.ofText).map Verdict.text)) =
      .ok (text.map Verdict.ofText) := by
  cases text with
  | none => rfl
  | some text =>
    rw [Option.map_some, Option.map_some, Verdict.text_ofText]
    rfl

theorem ofValue_toValue {r : Run} (h : r.Told) : Run.format.ofValue r.toValue = .ok r := by
  obtain ⟨text, htext⟩ := h
  have hfields : Run.fields.Writes
      (r.id, r.status, r.result, r.commitSha, r.commitMessage, r.createdAt, ())
      [("id", .string r.id), ("status", .string r.status.text),
        ("overall_result", .ofStringOption (r.result.map Verdict.text)),
        ("commit_sha", .ofStringOption r.commitSha),
        ("commit_message", .ofStringOption r.commitMessage),
        ("created_at", .ofStringOption r.createdAt)] :=
    Fields.writes_required (by simp) rfl <| Fields.writes_required (by simp) (ofValue_status _) <|
    Fields.writes_optional (by simp) (htext ▸ ofValue_verdict text) <|
    Fields.writes_optional (by simp) (Format.ofValue_stringOption _) <|
    Fields.writes_optional (by simp) (Format.ofValue_stringOption _) <|
    Fields.writes_optional (by simp) (Format.ofValue_stringOption _) rfl
  exact Fields.ofValue_record hfields

theorem floatless_toValue (r : Run) : r.toValue.Floatless := by
  simp [toValue, Value.Floatless, Value.FloatlessMembers, floatless_ofStringOption]

theorem nesting_toValue (r : Run) : r.toValue.nesting = 1 := by
  simp [toValue, Value.nesting, Value.nestingMembers, nesting_ofStringOption]

theorem survives : Run.format.Survives Run.toValue := by
  intro text r hread
  obtain ⟨_, _, _, hresult⟩ := follows_sent.readText hread
  exact Format.readText_compact accepts_format (ofValue_toValue (told_of_rel hresult))
    r.floatless_toValue (by rw [nesting_toValue]; decide)

end Run

/-! ### Pages -/

namespace Page

theorem ofValue_toValue {p : Page} (h : ∀ r ∈ p.items, r.Told) :
    Page.format.ofValue p.toValue = .ok p := by
  have hitems : Run.format.list.ofValue (.array (p.items.map Run.toValue)) = .ok p.items := by
    change (p.items.map Run.toValue).mapM Run.format.ofValue = .ok p.items
    generalize p.items = items at h ⊢
    induction items with
    | nil => rfl
    | cons r items ih =>
      rw [List.map_cons, List.mapM_cons, Run.ofValue_toValue (h r (List.mem_cons_self ..)),
        ih fun r hr => h r (List.mem_cons_of_mem _ hr)]
      rfl
  have hfields : Page.fields.Writes (p.items, p.total, ())
      [("items", .array (p.items.map Run.toValue)), ("total", .ofWord p.total)] :=
    Fields.writes_required (by simp) hitems <|
    Fields.writes_required (by simp) (Format.ofValue_word64 _) rfl
  exact Fields.ofValue_record hfields

theorem floatless_items (items : List Run) : Value.FloatlessItems (items.map Run.toValue) := by
  induction items with
  | nil => simp [Value.FloatlessItems]
  | cons r items ih => simp [Value.FloatlessItems, r.floatless_toValue, ih]

theorem nesting_items_le (items : List Run) : Value.nestingItems (items.map Run.toValue) ≤ 1 := by
  induction items with
  | nil => simp [Value.nestingItems]
  | cons r items ih => simp [Value.nestingItems, r.nesting_toValue, ih]

theorem survives : Page.format.Survives Page.toValue := by
  intro text p hread
  obtain ⟨sent, _, hitems, _⟩ := follows_sent.readText hread
  have haccept : Page.fields.Accept := ⟨Run.accepts_format.list, Format.accepts_word64, trivial⟩
  have htold : ∀ r ∈ p.items, r.Told := by
    generalize sent.items = sent, p.items = items at hitems
    induction hitems with
    | nil => exact List.forall_mem_nil _
    | cons hr _ ih => exact List.forall_mem_cons.2 ⟨Run.told_of_rel hr.2, ih⟩
  refine Format.readText_compact ((Fields.accepts_format haccept).map _)
    (ofValue_toValue htold) ?_ ?_
  · simp [toValue, Value.Floatless, Value.FloatlessMembers, Value.ofWord, floatless_items]
  · have := nesting_items_le p.items
    simp [toValue, Value.nesting, Value.nestingMembers, Value.ofWord, Format.allowance]
    omega

end Page

end

/-- Every run, page, report, project and scan progress that is read from a text is written so that
it is read again. A text that is read as one of them is also read as what was sent: an identifier is
the string that was sent or the decimal text of the integer, a verdict is the one known under its
text and otherwise another one of that text, and all else is as it was sent. -/
theorem wire_survives :
    Run.format.Survives Run.toValue ∧ Page.format.Survives Page.toValue ∧
    SyncReport.format.Survives SyncReport.toValue ∧ Project.format.Survives Project.toValue ∧
    ScanProgress.format.Survives ScanProgress.toValue ∧
    (∀ text r, Run.format.readText text = .ok r →
      ∃ sent, Run.Sent.format.readText text = .ok sent ∧ sent.Becomes r) ∧
    (∀ text p, Page.format.readText text = .ok p →
      ∃ sent, Page.Sent.format.readText text = .ok sent ∧ sent.Becomes p) ∧
    ∀ text p, Project.format.readText text = .ok p →
      ∃ sent, Project.Sent.format.readText text = .ok sent ∧ sent.Becomes p := by
  refine ⟨Run.survives, Page.survives, SyncReport.survives, Project.survives,
    ScanProgress.survives, ?_, ?_, ?_⟩
  · intro text r hread
    obtain ⟨sent, hsent, hbecomes, _⟩ := Run.follows_sent.readText hread
    exact ⟨sent, hsent, hbecomes⟩
  · intro text p hread
    obtain ⟨sent, hsent, hitems, htotal⟩ := Page.follows_sent.readText hread
    exact ⟨sent, hsent, hitems.imp fun _ _ h => h.1, htotal⟩
  · intro text p hread
    exact Project.follows_sent.readText hread

/-- A page whose run has a negative number for its identifier and an unknown verdict. -/
theorem wire_survives_page :
    let text := Text.utf8 ("\x7b\"total\":18446744073709551615,\"more\":[\x7b\x7d],\"items\":[\x7b" ++
      "\"overall_result\":\"PASSED\",\"status\":\"completed\",\"id\":-7\x7d]\x7d")
    let p : Page :=
      ⟨[⟨"-7", .completed, some (.other "PASSED"), none, none, none⟩], 18446744073709551615⟩
    Page.format.readText text = .ok p ∧ Page.format.readText (Text.utf8 p.toValue.compact) = .ok p := by
  intro text p
  have hoption : (Page.format.readText text).toOption = some p := by decide +kernel
  have hread : Page.format.readText text = .ok p := by
    cases hresult : Page.format.readText text with
    | error f => rw [hresult] at hoption; cases hoption
    | ok q => rw [hresult] at hoption; exact congrArg Except.ok (Option.some.inj hoption)
  exact ⟨hread, wire_survives.2.1 text p hread⟩

end LiveAudit
