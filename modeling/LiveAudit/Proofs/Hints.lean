import LiveAudit.Proofs.Loop
import LiveAudit.Proofs.Noninterference
import LiveAudit.Proofs.Records

/-!
# Events are only hints

A line is untrusted text. It is read as an envelope, the payload of which is decoded by the type of
the event, and what comes of it is taken up by the reconciler (`Reconciler.hear`). Whatever stands
in the line, rows, reports, notices and the project list stay as they are (`Reconciler.Hears`): an
event can only make a fetch go out, move the indicators of the subject, or be passed over.

The repository that an event names is what its payload has for `repo_id`, as a text
(`Event.repoId?_of_ofEnvelope`). This field comes first in each record that has it, so that what is
needed of decoding is how the first field of a record is read (`Json.Fields.leading_ofValue`).
-/

namespace LiveAudit

open Reconciler (Input share)

/-! ### The first field of a record -/

namespace Json

/-- The value that stands for the first field of a record, if its label is given: that of the member
of an object, or the first item of a list. -/
def Value.leading? (label : String) : Value → Option Value
  | .object members => members.lookup label
  | .array items => items.head?
  | .null | .bool _ | .integer _ | .float _ | .string _ => none

namespace Fields

variable {α ρ : Type} {field : Field α} {more : Fields ρ}

/-- What a draft holds of the first field. -/
def leading (draft : (cons field more).Draft) : Option α :=
  let place : Option α × more.Draft := draft
  place.1

/-- What a draft holds of the other fields. -/
def following (draft : (cons field more).Draft) : more.Draft :=
  let place : Option α × more.Draft := draft
  place.2

/-- Where a key puts its value, in terms of what the draft holds. -/
theorem slot_cons (draft : (cons field more).Draft) (key : String) :
    (cons field more).slot draft key =
      if field.answers key then
        match leading draft with
        | some _ => .taken field.label
        | none => .vacant (field.form.map fun a => (some a, following draft))
      else (more.slot (following draft) key).map fun rest => (leading draft, rest) := rfl

/-- What is left to be finished, in terms of what the draft holds. -/
theorem finish_cons (draft : (cons field more).Draft) :
    (cons field more).finish draft =
      match leading draft <|> field.absent with
      | none => .error (.missingField field.label)
      | some a => (more.finish (following draft)).map fun r => (a, r) := rfl

/-- Only a key of the first field fills its place in a draft, and only if it is empty. -/
theorem leading_vacant {draft draft' : (cons field more).Draft} {key : String} {v : Value}
    {place : Format (cons field more).Draft}
    (hslot : (cons field more).slot draft key = .vacant place)
    (hv : place.ofValue v = .ok draft') :
    if field.answers key then
      leading draft = none ∧ ∃ a, field.form.ofValue v = .ok a ∧ leading draft' = some a
    else leading draft' = leading draft := by
  rw [slot_cons] at hslot
  split_ifs at hslot ⊢ with hkey
  · cases hempty : leading draft with
    | some a => simp [hempty] at hslot
    | none =>
      rw [hempty] at hslot
      obtain rfl := Slot.vacant.inj hslot
      cases ha : field.form.ofValue v with
      | error c => simp [Format.map, ha, Except.map] at hv
      | ok a =>
        simp only [Format.map, ha, Except.map] at hv
        obtain rfl := Except.ok.inj hv
        exact ⟨rfl, a, rfl, rfl⟩
  · cases hrest : more.slot (following draft) key with
    | unknown => simp [hrest, Slot.map] at hslot
    | taken l => simp [hrest, Slot.map] at hslot
    | vacant form =>
      rw [hrest] at hslot
      obtain rfl := Slot.vacant.inj hslot
      cases ha : form.ofValue v with
      | error c => simp [Format.map, ha, Except.map] at hv
      | ok rest =>
        simp only [Format.map, ha, Except.map] at hv
        obtain rfl := Except.ok.inj hv
        rfl

/-- A key of the first field is not passed over. -/
theorem answers_of_unknown {draft : (cons field more).Draft} {key : String}
    (hslot : (cons field more).slot draft key = .unknown) : field.answers key = false := by
  rw [slot_cons] at hslot
  split_ifs at hslot with hkey
  · split at hslot <;> cases hslot
  · exact Bool.eq_false_iff.2 hkey

variable {label : String} {form : Format α}

/-- Members put into a draft fill the place of the first field, unless it is taken, with what stands
under its label. -/
theorem leading_ofMembers {members : List (String × Value)}
    {draft draft' : (cons (.required label form) more).Draft}
    (h : (cons (.required label form) more).ofMembers draft members = .ok draft') :
    leading draft' =
      (leading draft).or ((members.lookup label).bind fun v => (form.ofValue v).toOption) := by
  induction members generalizing draft with
  | nil =>
    obtain rfl := Except.ok.inj h
    simp
  | cons m rest ih =>
    obtain ⟨key, v⟩ := m
    have hanswers : (Field.required label form).answers key = (label == key) := by
      simp [Field.answers, Field.required, Bool.beq_comm]
    unfold ofMembers at h
    split at h
    · cases h
    · rename_i hslot
      have hkey := answers_of_unknown hslot
      rw [hanswers] at hkey
      rw [ih h, List.lookup_cons, hkey]
    · rename_i place hslot
      split at h
      · cases h
      · rename_i draft₁ hv
        have hlead := leading_vacant hslot hv
        rw [hanswers] at hlead
        rw [ih h, List.lookup_cons]
        cases hkey : label == key with
        | true =>
          rw [hkey, if_pos rfl] at hlead
          obtain ⟨hempty, a, ha, hfilled⟩ := hlead
          have ha : form.ofValue v = .ok a := ha
          rw [hempty, hfilled, Option.some_or, Option.none_or]
          simp only [Option.bind_some, ha]
          rfl
        | false =>
          rw [hkey, if_neg Bool.false_ne_true] at hlead
          rw [hlead]

/-- The first field of a finished draft is what the draft holds of it, if it is required. -/
theorem leading_finish {draft : (cons (.required label form) more).Draft} {r : α × ρ}
    (h : (cons (.required label form) more).finish draft = .ok r) : leading draft = some r.1 := by
  rw [finish_cons] at h
  cases hlead : leading draft with
  | none =>
    rw [hlead] at h
    cases h
  | some a =>
    rw [hlead] at h
    replace h : (more.finish (following draft)).map (fun r => (a, r)) = .ok r := h
    cases hrest : more.finish (following draft) with
    | error c => simp [hrest, Except.map] at h
    | ok rest =>
      simp only [hrest, Except.map] at h
      obtain rfl := Except.ok.inj h
      rfl

/-- The first field of a list of items is read from the first item, if it is required. -/
theorem leading_ofItems {expected : String} {index : Nat} {items : List Value}
    {r : (α × ρ) × List Value}
    (h : (cons (.required label form) more).ofItems expected index items = .ok r) :
    items.head?.bind (fun v => (form.ofValue v).toOption) = some r.1.1 := by
  cases items with
  | nil => simp [ofItems, Field.required] at h
  | cons v rest =>
    simp only [ofItems, Field.required] at h
    cases ha : form.ofValue v with
    | error c => simp [ha] at h
    | ok a =>
      rw [ha] at h
      dsimp only at h
      cases hrest : more.ofItems expected (index + 1) rest with
      | error c => simp [hrest, Except.map] at h
      | ok found =>
        simp only [hrest, Except.map] at h
        obtain rfl := Except.ok.inj h
        simp [ha, Except.toOption]

/-- The first field of a record is read from what stands for it in the value. -/
theorem leading_ofValue {type : String} {v : Value} {r : α × ρ}
    (h : ((cons (.required label form) more).format type).ofValue v = .ok r) :
    (v.leading? label).bind (fun v => (form.ofValue v).toOption) = some r.1 := by
  cases v with
  | object members =>
    change Except.bind (ofMembers _ (blank _) members) _ = _ at h
    cases hdraft : (cons (.required label form) more).ofMembers (blank _) members with
    | error c => simp [hdraft, Except.bind] at h
    | ok draft =>
      rw [hdraft] at h
      have hlead := leading_ofMembers hdraft
      rw [leading_finish h] at hlead
      exact hlead.symm
  | array items =>
    simp only [Fields.format] at h
    split at h
    · cases h
    · rename_i found hfound
      obtain rfl := Except.ok.inj h
      exact leading_ofItems hfound
    · cases h
  | null => simp [Fields.format] at h
  | bool b => simp [Fields.format] at h
  | integer n => simp [Fields.format] at h
  | float x => simp [Fields.format] at h
  | string s => simp [Fields.format] at h
end Fields

/-- What a mapped format makes of a value. -/
theorem Format.map_ofValue_eq_ok {α β : Type} {f : α → β} {form : Format α} {v : Value} {b : β}
    (h : (form.map f).ofValue v = .ok b) : ∃ a, form.ofValue v = .ok a ∧ b = f a := by
  cases ha : form.ofValue v with
  | error c => simp [Format.map, ha, Except.map] at h
  | ok a =>
    simp only [Format.map, ha, Except.map] at h
    exact ⟨a, rfl, (Except.ok.inj h).symm⟩

end Json

/-! ### The repository that a line names -/

/-- The repository that a payload names, its identifier taken as a text. -/
def Envelope.repoId? (e : Envelope) : Option Ident :=
  (e.payload.leading? "repo_id").bind Ident.ofValue?

namespace Event

open Json (Fields Field)

/-- A record that begins with the identifier of a repository has it from the payload. -/
theorem repoId?_of_record {ρ β : Type} {more : Fields ρ} {type : String} {f : Ident × ρ → β}
    {e : Envelope} {p : β}
    (h : (((Fields.cons (.required "repo_id" Ident.format) more).format type).map f).ofValue
      e.payload = .ok p) : ∃ r : Ident × ρ, p = f r ∧ e.repoId? = some r.1 := by
  obtain ⟨r, hr, rfl⟩ := Json.Format.map_ofValue_eq_ok h
  refine ⟨r, rfl, ?_⟩
  rw [Envelope.repoId?, ← Fields.leading_ofValue hr]
  refine Option.bind_congr fun v _ => ?_
  unfold Ident.format Json.Format.shape
  dsimp only
  cases Ident.ofValue? v <;> rfl

/-- An event that carries a payload is made of one that fits. -/
theorem payload_eq_ok {α : Type} {form : Json.Format α} {make : α → Event} {e : Envelope}
    {event : Event}
    (h : (match form.ofValue e.payload with
      | .ok p => .ok (make p)
      | .error c => .error (Failure.malformedEvent e.kind c.message)) = Except.ok event) :
    ∃ p, form.ofValue e.payload = .ok p ∧ event = make p := by
  cases hp : form.ofValue e.payload with
  | ok p =>
    rw [hp] at h
    exact ⟨p, rfl, (Except.ok.inj h).symm⟩
  | error c =>
    rw [hp] at h
    cases h

/-- A decoded event names the repository that its payload does. -/
theorem repoId?_of_ofEnvelope {e : Envelope} {event : Event} {repo : Ident}
    (h : ofEnvelope e = .ok event) (hrepo : event.repoId? = some repo) : e.repoId? = some repo := by
  unfold ofEnvelope at h
  dsimp only at h
  -- the types that carry a payload come first, those that are told by their name alone after them
  split_ifs at h
  · obtain ⟨p, hp, rfl⟩ := payload_eq_ok h
    obtain ⟨r, rfl, hr⟩ := repoId?_of_record hp
    exact hr.trans hrepo
  · obtain ⟨p, hp, rfl⟩ := payload_eq_ok h
    obtain ⟨r, rfl, hr⟩ := repoId?_of_record hp
    exact hr.trans hrepo
  · obtain ⟨p, hp, rfl⟩ := payload_eq_ok h
    obtain ⟨r, rfl, hr⟩ := repoId?_of_record hp
    exact hr.trans hrepo
  · obtain ⟨p, -, rfl⟩ := payload_eq_ok h
    cases hrepo
  all_goals
    obtain rfl := Except.ok.inj h
    cases hrepo

/-- The event that a line is. -/
def ofLine (line : String) : Except Failure Event :=
  (Envelope.ofText line).bind ofEnvelope

/-- A line is an event if it is an envelope that can be decoded. -/
theorem ofLine_eq_ok {line : String} {event : Event} :
    ofLine line = .ok event ↔ ∃ e, Envelope.ofText line = .ok e ∧ ofEnvelope e = .ok event := by
  unfold ofLine
  cases Envelope.ofText line with
  | ok e => simp [Except.bind]
  | error f => simp [Except.bind]

end Event

/-! ### What an event does -/

/-- Rows, reports and requests that were accepted are as they were. -/
structure RepoState.Hinted (s s' : RepoState) : Prop where
  holding : s'.holding = s.holding
  lastReport : s'.sync.lastReport = s.sync.lastReport
  requestInFlight : s'.sync.requestInFlight = s.sync.requestInFlight
  loadMore : s'.loadMore = s.loadMore

/-- What an event does to a repository is no more than a hint. -/
theorem RepoState.hinted_deed (s : RepoState) {event : Event} {a : Deed}
    (h : event.deed? = some a) : s.Hinted (s.act a).1 := by
  cases event with
  | syncProgress p =>
    obtain rfl := Option.some.inj h
    cases p.isRunning <;> exact ⟨rfl, rfl, rfl, rfl⟩
  | auditProgress p =>
    obtain rfl := Option.some.inj h
    exact ⟨rfl, rfl, rfl, rfl⟩
  | auditUpdate p =>
    obtain rfl := Option.some.inj h
    exact ⟨rfl, rfl, rfl, rfl⟩
  | contractProgress p => cases h
  | build phase => cases h
  | other kind => cases h

namespace Reconciler

/-- Only news of a build, and that of the last contract of a run, ask for the project list. -/
theorem asksProjects_event {event : Event} :
    asksProjects (.event event) ↔ (∃ phase, event = .build phase) ∨
      ∃ p, event = .contractProgress p ∧ p.status = "done" ∧ p.index = p.total - 1 := by
  cases event with
  | contractProgress p => simp [asksProjects, ContractProgress.isFinal]
  | build phase => simp [asksProjects]
  | syncProgress p => simp [asksProjects]
  | auditProgress p => simp [asksProjects]
  | auditUpdate p => simp [asksProjects]
  | other kind => simp [asksProjects]

/-- Whether an event is acted upon: it names the subject, or asks for the project list. -/
def Heeds (d : Reconciler) (event : Event) : Prop :=
  event.repoId? = some d.subject ∨ asksProjects (.event event)

/-- Any other event is passed over. -/
theorem handle_of_not_heeds {d : Reconciler} {event : Event} (h : ¬d.Heeds event) :
    d.handle event = (d, []) := by
  obtain ⟨hname, hasks⟩ := not_or.1 h
  cases event with
  | syncProgress p => exact if_pos fun hp => hname (congrArg some hp)
  | auditProgress p => exact if_pos fun hp => hname (congrArg some hp)
  | auditUpdate p => exact if_pos fun hp => hname (congrArg some hp)
  | contractProgress p => exact if_neg hasks
  | build phase => exact absurd rfl hasks
  | other kind => rfl

/-- Takes up the event that a line is. A line that is none is passed over. -/
def hear (d : Reconciler) (line : String) : Reconciler × List Request :=
  match Event.ofLine line with
  | .ok event => d.handle event
  | .error _ => (d, [])

/-- What a line can do, whatever stands in it. -/
structure Hears (d : Reconciler) (line : String) (next : Reconciler × List Request) : Prop where
  hinted : ∀ r, (d.repo r).Hinted (next.1.repo r)
  records : next.1.projects = d.projects ∧ next.1.notices = d.notices
  subject : next.1.subject = d.subject
  /-- Only the state of the subject changes, and only if the line is an event that names it. -/
  named : ∀ r, next.1.repo r ≠ d.repo r → r = d.subject ∧
    ∃ e event, Envelope.ofText line = .ok e ∧ Event.ofEnvelope e = .ok event ∧ e.repoId? = some r
  /-- The gate of the project list changes only by news of a build or of the last contract. -/
  gate : next.1.projectsGate ≠ d.projectsGate → ∃ event, Event.ofLine line = .ok event ∧
    ((∃ phase, event = .build phase) ∨
      ∃ p, event = .contractProgress p ∧ p.status = "done" ∧ p.index = p.total - 1)
  /-- Any other line comes to nothing. -/
  passed : (∀ event, Event.ofLine line = .ok event → ¬d.Heeds event) → next = (d, [])

end Reconciler

/-- A session that handles the event of a line goes on as its reconciler does. -/
theorem Session.handle_line (s : Session) {line : String} {e : Envelope}
    (h : Envelope.ofText line = .ok e) :
    (s.handle (.event e)).reconciler = (s.reconciler.hear line).1 ∧
      (s.handle (.event e)).unsent = s.unsent ++ (s.reconciler.hear line).2 := by
  have hline : Event.ofLine line = Event.ofEnvelope e := by
    rw [Event.ofLine, h]
    rfl
  rw [Reconciler.hear, hline, handle]
  cases Event.ofEnvelope e with
  | ok event =>
    dsimp only
    rw [advance, publish_eq]
    exact ⟨rfl, rfl⟩
  | error f => exact ⟨rfl, (List.append_nil _).symm⟩

namespace Traffic

section

variable {t : Traffic Reconciler}

/-- An event changes the state of the repository that it names, if that is the subject. -/
theorem repo_event (hs : t.Sound) (event : Event) (repo : Ident) :
    (t.state.handle event).1.repo repo =
      if t.state.subject = repo ∧ event.repoId? = some repo then
        ((t.state.repo repo).follow event.deed?).1
      else t.state.repo repo := by
  refine (hs.repo_next (.event event) repo).trans ?_
  rw [share_target hs (admits_of_none rfl), Reconciler.bind_stepAt?]
  simp only [Reconciler.involves, decide_eq_true_eq]
  split_ifs <;> rfl

/-- A line does what a hint may do, and nothing else. -/
theorem hears (hs : t.Sound) (line : String) : t.state.Hears line (t.state.hear line) := by
  unfold Reconciler.hear
  cases hline : Event.ofLine line with
  | error f =>
    exact ⟨fun r => ⟨rfl, rfl, rfl, rfl⟩, ⟨rfl, rfl⟩, rfl, fun r hr => absurd rfl hr,
      fun hgate => absurd rfl hgate, fun _ => rfl⟩
  | ok event =>
    have hcontrol := t.state.control_step (.event event)
    have hrecords := t.state.records_step (.event event)
    refine ⟨fun r => ?_, ⟨hrecords.2, hrecords.1⟩, hcontrol.1, fun r hr => ?_, fun hgate => ?_,
      fun hpassed => Reconciler.handle_of_not_heeds (hpassed event hline)⟩
    · rw [repo_event hs]
      split_ifs with hnamed
      · cases ha : event.deed? with
        | none => exact ⟨rfl, rfl, rfl, rfl⟩
        | some a => exact RepoState.hinted_deed _ ha
      · exact ⟨rfl, rfl, rfl, rfl⟩
    · rw [repo_event hs] at hr
      split_ifs at hr with hnamed
      · obtain ⟨e, he, hevent⟩ := Event.ofLine_eq_ok.1 hline
        exact ⟨hnamed.1.symm, e, event, he, hevent, Event.repoId?_of_ofEnvelope hevent hnamed.2⟩
      · exact absurd rfl hr
    · refine ⟨event, hline, Reconciler.asksProjects_event.1 ?_⟩
      by_contra hasks
      refine hgate (hcontrol.2.trans ?_)
      rw [Reconciler.stepProjects, if_neg hasks]
      exact fun _ hi => by cases hi

end

/-- No line that is published, at whatever point of a run, does more than a hint may do; and rows
and totals of a repository change in a run only where it is opened or a page of its present
generation comes. -/
theorem hinted_run {subject : Ident} {pageLimit noticeCapacity : UInt64} (inputs : List Input) :
    let t := (start (Reconciler.new subject pageLimit noticeCapacity)).run inputs
    (∀ line, t.state.Hears line (t.state.hear line)) ∧
      ∀ repo rest, t.tally (Reconciler.refills repo) rest = 0 →
        ((t.run rest).state.repo repo).holding = (t.state.repo repo).holding := by
  intro t
  have hs : t.Sound := (sound_start subject pageLimit noticeCapacity).run inputs
  exact ⟨hears hs, fun repo rest => holding_run hs⟩

/-- A line that has the number of the subject for `repo_id` makes a refresh wait behind the first
page, and the rows are not touched until that page comes. -/
theorem hinted_run_waiting :
    let t := (start (Reconciler.new "7" 2 4)).run [Input.load]
    let line := "[\"audit_update\",[7]]"
    let rest : List Input := [.event (.auditUpdate ⟨"7"⟩), .completion (.projects (.ok []))]
    t.state.Hears line (t.state.hear line) ∧
      ((t.state.hear line).1.repo "7").refresh = ⟨true, true⟩ ∧
      ((t.run rest).state.repo "7").holding = (t.state.repo "7").holding := by
  intro t line rest
  have hquiet : t.tally (Reconciler.refills "7") rest = 0 := by decide
  have hline : Event.ofLine line = .ok (.auditUpdate ⟨"7"⟩) := by decide +kernel
  have hheard : t.state.hear line = t.state.handle (.auditUpdate ⟨"7"⟩) := by
    rw [Reconciler.hear, hline]
  have hwaits : ((t.state.handle (.auditUpdate ⟨"7"⟩)).1.repo "7").refresh = ⟨true, true⟩ := by
    decide
  rw [← hheard] at hwaits
  obtain ⟨hhears, hkeeps⟩ := hinted_run [Input.load]
  exact ⟨hhears line, hwaits, hkeeps "7" rest hquiet⟩

end Traffic

end LiveAudit
