import LiveAudit.Proofs.Ticking
import LiveAudit.Proofs.Tracking

/-!
# What a journal tells of the end of a synchronisation

A watch looks now and then at the view that is shown, and notes the end of a synchronisation when
the view is idle that ran when it was looked at before. The counts in the entry are those of the
last request that has succeeded in the whole course (`Loop.Keeps`). So they tell of the time since
the view was last seen idle exactly if a request has succeeded in it, or none ever has
(`Traffic.finish_run`).
-/

namespace LiveAudit

open Loop (Move)

/-! ### Requests that succeed -/

/-- Counts that a message brings of a request for a synchronisation that has succeeded. -/
def Message.report? (repo : Ident) : Message → Option SyncReport
  | .completed (.sync r (.ok report)) => if r = repo then some report else none
  | .completed (.sync _ (.error _)) | .completed (.page _ _) | .completed (.projects _) => none
  | .event _ | .startSync | .loadMore | .refresh | .barrier _ | .shutdown => none

/-- Counts of a request that has succeeded, by the move with which the loop is done with its
completion. -/
def Loop.succeeds (repo : Ident) (l : Loop) : Move → Option SyncReport
  | .finish => l.inHand.bind (Message.report? repo)
  | .event _ | .startSync | .loadMore | .refresh | .shutdown | .await | .answer _ | .take => none

/-- A message that tells the reconciler nothing brings no counts. -/
theorem Message.report?_of_no_input {m : Message} (h : m.input? = none) (repo : Ident) :
    m.report? repo = none := by
  cases m with
  | completed c => cases h
  | event e => rfl
  | startSync => rfl
  | loadMore => rfl
  | refresh => rfl
  | barrier number => rfl
  | shutdown => rfl

/-- What a message tells the reconciler of the subject brings the counts that are in the message. -/
theorem Message.reportMark_input? {m : Message} {i : Reconciler.Input} (h : m.input? = some i)
    {d : Reconciler} {repo : Ident} (hd : d.Knows repo) : d.reportMark repo i = m.report? repo := by
  unfold Reconciler.reportMark
  cases m with
  | completed c =>
    obtain rfl := Option.some.inj h
    rcases c with ⟨f, result⟩ | ⟨r, e | report⟩ | result
    · rfl
    · simp only [Reconciler.syncMark, report?]
      split_ifs <;> rfl
    · simp only [Reconciler.syncMark, report?, hd, and_true]
      split_ifs <;> rfl
    · rfl
  | event e =>
    have hnone (e : Event) : (d.syncMark repo (.event e)).bind SyncMark.report? = none := by
      cases e with
      | syncProgress p =>
        simp only [Reconciler.syncMark]
        split_ifs <;> rfl
      | auditProgress p => rfl
      | auditUpdate p => rfl
      | contractProgress p => rfl
      | build phase => rfl
      | other kind => rfl
    simp only [input?] at h
    split at h
    · obtain rfl := Option.some.inj h
      exact hnone _
    · cases h
  | startSync =>
    obtain rfl := Option.some.inj h
    simp only [Reconciler.syncMark]
    split_ifs <;> rfl
  | loadMore =>
    obtain rfl := Option.some.inj h
    rfl
  | refresh =>
    obtain rfl := Option.some.inj h
    rfl
  | barrier number => cases h
  | shutdown => cases h

/-- A message never changes the subject. -/
theorem Message.subject_step {m : Message} {i : Reconciler.Input} (h : m.input? = some i)
    (d : Reconciler) : (d.step i).1.subject = d.subject := by
  rcases Reconciler.share_of_subject_step (d := d) (i := i) rfl with hshare | hsame
  · have hopen := Reconciler.opens_iff.2 (Reconciler.share_eq_some_iff.1 hshare)
    rw [m.opens_input? h] at hopen
    cases hopen
  · exact hsame.symm

namespace Loop

/-- The report that is shown is the last of those of the requests that have succeeded, and the
reconciler has that of the message in hand besides. -/
structure Keeps (subject : Ident) (last : Option SyncReport) (l : Loop) : Prop where
  named : l.session.reconciler.Named
  watches : l.session.reconciler.subject = subject
  knows : l.session.reconciler.Knows subject
  shown : l.session.published.lastSync = last
  held : (l.session.reconciler.repo subject).sync.lastReport =
    (l.inHand.bind (Message.report? subject)).or last

section

variable {subject : Ident} {last : Option SyncReport} {l : Loop}

/-- A message is taken: its counts are not shown yet. -/
theorem Keeps.take (h : l.Keeps subject last) {m : Message} (ht : l.taken .take = some m) :
    (l.step .take).1.Keeps subject last := by
  obtain ⟨-, hfree, hnext⟩ := taken_eq_some ht
  have hheld : (l.session.reconciler.repo subject).sync.lastReport = last := by
    rw [h.held, hfree]
    rfl
  rw [step_of_taken ht, Session.begin_eq hnext]
  cases hi : m.input? with
  | none =>
    refine ⟨h.named, h.watches, h.knows, h.shown, ?_⟩
    rw [Option.bind_some, Message.report?_of_no_input hi]
    exact hheld
  | some i =>
    have hsound : Traffic.Sound ⟨l.session.reconciler, []⟩ := ⟨h.named, nofun⟩
    have hreport := Traffic.lastReport_next hsound subject i
    refine ⟨(hsound.next i).named, (Message.subject_step hi _).trans h.watches,
      (Reconciler.does_step h.named i).knows _ h.knows, h.shown, ?_⟩
    rw [Option.bind_some, ← Message.reportMark_input? hi h.knows, ← hheld]
    exact hreport

/-- The loop is done with a message: its counts are shown. -/
theorem Keeps.finish (h : l.Keeps subject last) :
    (l.step .finish).1.Keeps subject ((l.succeeds subject .finish).or last) := by
  cases hi : l.inHand.bind Message.input? with
  | some i =>
    have hstep : (l.step .finish).1 = ⟨l.session.publish, none⟩ := by
      simp only [Loop.step, hi]
    rw [hstep, Session.publish_eq]
    refine ⟨h.named, h.watches, h.knows, ?_, h.held⟩
    change (l.session.reconciler.repo l.session.reconciler.subject).sync.lastReport = _
    rw [h.watches]
    exact h.held
  | none =>
    have hstep : (l.step .finish).1 = ⟨l.session, none⟩ := by
      simp only [Loop.step, hi]
    have hnone : l.succeeds subject .finish = none := by
      rw [succeeds, Option.bind_eq_none_iff]
      intro m hm
      exact m.report?_of_no_input (Option.bind_eq_none_iff.1 hi m hm) subject
    have hheld := h.held
    rw [hstep, hnone]
    exact ⟨h.named, h.watches, h.knows, h.shown, hheld.trans (congrArg (·.or last) hnone)⟩

/-- Every move keeps what is shown in step with the requests that have succeeded. -/
theorem Keeps.step (h : l.Keeps subject last) (v : Move) :
    (l.step v).1.Keeps subject ((l.succeeds subject v).or last) := by
  cases ht : l.taken v with
  | some m =>
    obtain ⟨rfl, -, -⟩ := taken_eq_some ht
    exact h.take ht
  | none =>
    by_cases hv : v = .finish
    · subst hv
      exact h.finish
    · have hwaits := waits_step ht
      have hnone : l.succeeds subject v = none := by
        cases v <;> first | rfl | exact absurd rfl hv
      rw [hnone, Option.none_or]
      refine ⟨?_, ?_, ?_, ?_, ?_⟩
      · rw [hwaits.reconciler]
        exact h.named
      · rw [hwaits.reconciler]
        exact h.watches
      · rw [hwaits.reconciler]
        exact h.knows
      · rw [hwaits.published hv]
        exact h.shown
      · rw [hwaits.reconciler, hwaits.inHand hv]
        exact h.held

end

end Loop

namespace Traffic

/-! ### The report that is shown -/

theorem keeps_opened (subject : Ident) (settings : Settings) :
    (opened subject settings).state.Keeps subject none := by
  have hs := sound_start subject settings.pageLimit settings.noticeCapacity
  have hk := Reconciler.knows_new subject settings.pageLimit settings.noticeCapacity
  have hnone : ((loaded subject settings).state.repo subject).sync.lastReport = none := by
    have hload := lastReport_next hs subject .load
    rwa [repo_start] at hload
  have hknows := (Reconciler.does_step hs.named .load).knows _ hk
  exact ⟨(hs.next Reconciler.Input.load).named, rfl, hknows, hnone, hnone⟩

/-- View that is shown when some moves have been made. -/
def shown (t : Traffic Loop) (moves : List Move) : View :=
  (t.run moves).state.session.published

/-- The report that is shown is the last of those of the requests that have succeeded. -/
theorem lastSync_shown (subject : Ident) (settings : Settings) (moves : List Move) :
    ((opened subject settings).shown moves).lastSync =
      ((opened subject settings).collect (Loop.succeeds subject) moves).getLast? := by
  have hrun := latest_induction (R := fun last (t : Traffic Loop) => t.state.Keeps subject last)
    (fun _ _ (v : Move) h => h.step v) (keeps_opened subject settings) moves
  rw [Option.or_none] at hrun
  exact hrun.shown

end Traffic

namespace Cli

/-! ### Entries for an end -/

/-- The details are the counts of a report. -/
def Counts (report : SyncReport) (details : Json.Value) : Prop :=
  ∃ synced skipped : Json.Whole,
    synced.value = report.synced.toNat ∧ skipped.value = report.skipped.toNat ∧
      details = .object [("synced", .integer synced), ("skipped", .integer skipped)]

theorem counts_iff {report : SyncReport} {details : Json.Value} :
    Counts report details ↔ details = Ticker.reportDetails report := by
  constructor
  · rintro ⟨⟨synced, hsynced⟩, ⟨skipped, hskipped⟩, hvalue, hvalue', rfl⟩
    obtain rfl : synced = report.synced.toNat := hvalue
    obtain rfl : skipped = report.skipped.toNat := hvalue'
    rfl
  · rintro rfl
    exact ⟨.ofWord report.synced.toUInt64, .ofWord report.skipped.toUInt64, rfl, rfl, rfl⟩

/-- The entry says that a synchronisation has come to a good end, with the counts of this report. -/
structure Finishes (repo : Ident) (last : Option SyncReport) (e : Entry) : Prop where
  event : e.event = "sync.finish"
  status : e.status = .ok
  repo : e.repo = some repo
  details : Option.Rel Counts last e.details
  error : e.error = none

/-- There is one such entry. -/
theorem finishes_iff {repo : Ident} {last : Option SyncReport} {e : Entry} :
    Finishes repo last e ↔ e = Ticker.finishEntry repo last := by
  constructor
  · obtain ⟨event, status, named, details, error⟩ := e
    rintro ⟨rfl, rfl, rfl, hdetails, rfl⟩
    cases hdetails with
    | none => rfl
    | some hcounts =>
      obtain rfl := counts_iff.1 hcounts
      rfl
  · rintro rfl
    refine ⟨rfl, rfl, rfl, ?_, rfl⟩
    cases last with
    | none => exact .none
    | some report => exact .some (counts_iff.2 rfl)

/-- The entry for the end of a synchronisation is the one that says so. -/
theorem Report.finished_ticks (repo : Ident) (r : Report) :
    ((r.ticks repo).filterMap Tick.entry?).filter (·.event = "sync.finish") =
      r.ended.toList.map (Ticker.finishEntry repo) := by
  have hnone : (r.notices.map (Ticker.noticeEntry repo)).filter (·.event = "sync.finish") = [] := by
    refine List.filter_eq_nil_iff.2 fun e he => ?_
    obtain ⟨n, -, rfl⟩ := List.mem_map.1 he
    simp [Ticker.noticeEntry]
  rw [entries_ticks, List.filter_append, hnone, List.nil_append]
  cases r.ended <;> simp [Ticker.finishEntry, Entry.ofEvent]

namespace Ticker

section

variable (repo : Ident)

/-- The reports that it notes at the end of a synchronisation. -/
def ends (t : Ticker) (views : List View) : List (Option SyncReport) :=
  (t.reports repo views).filterMap Report.ended

theorem ends_cons (t : Ticker) (v : View) (rest : List View) : t.ends repo (v :: rest) =
    (t.report v).ended.toList ++ (t.observe repo v).1.ends repo rest := by
  rw [ends, reports, List.filterMap_cons]
  cases (t.report v).ended <;> rfl

/-- The entries that tell of an end are those of the ends that are noted, in their order. -/
theorem finished_ticks (t : Ticker) (views : List View) :
    ((t.ticks repo views).filterMap Tick.entry?).filter (·.event = "sync.finish") =
      (t.ends repo views).map (finishEntry repo) := by
  induction views generalizing t with
  | nil => rfl
  | cons v rest ih =>
    rw [ticks, observe_eq, List.filterMap_append, List.filter_append, Report.finished_ticks, ih,
      ends_cons, List.map_append]

end

/-- State of the last of some views, or the one that a ticker has seen before them. -/
def syncAfter (t : Ticker) (views : List View) : SyncState :=
  (views.getLast?.map View.sync).getD t.sync

variable {repo : Ident} {t : Ticker} {views : List View} {last : Option SyncReport}

theorem syncAfter_cons (repo : Ident) (t : Ticker) (v : View) (rest : List View) :
    t.syncAfter (v :: rest) = (t.observe repo v).1.syncAfter rest := by
  rw [syncAfter, List.getLast?_cons, syncAfter]
  cases rest.getLast? <;> rfl

theorem ended_eq_some_iff {v : View} :
    (t.report v).ended = some last ↔ t.sync = .running ∧ v.sync = .idle ∧ last = v.lastSync := by
  unfold report
  cases t.sync <;> cases v.sync <;> simp [SyncState.isRunning, eq_comm]

/-- An end is noted when a view is idle and the one before was running, with the report that the
view shows. -/
theorem mem_ends_iff :
    last ∈ t.ends repo views ↔ ∃ before now after, views = before ++ now :: after ∧
      t.syncAfter before = .running ∧ now.sync = .idle ∧ last = now.lastSync := by
  induction views generalizing t with
  | nil =>
    constructor
    · intro hlast
      cases hlast
    · rintro ⟨before, now, after, hviews, -⟩
      simp at hviews
  | cons v rest ih =>
    rw [ends_cons, List.mem_append, Option.mem_toList, ended_eq_some_iff, ih]
    constructor
    · rintro (⟨hran, hidle, hlast⟩ | ⟨before, now, after, rfl, hran, hidle, hlast⟩)
      · exact ⟨[], v, rest, rfl, hran, hidle, hlast⟩
      · exact ⟨v :: before, now, after, rfl, by rwa [syncAfter_cons repo], hidle, hlast⟩
    · rintro ⟨before, now, after, hviews, hran, hidle, hlast⟩
      cases before with
      | nil =>
        obtain ⟨rfl, rfl⟩ := List.cons.inj hviews
        exact .inl ⟨hran, hidle, hlast⟩
      | cons w before =>
        obtain ⟨rfl, rfl⟩ := List.cons.inj hviews
        rw [syncAfter_cons repo] at hran
        exact .inr ⟨before, now, after, rfl, hran, hidle, hlast⟩

end Ticker

end Cli

namespace Traffic

open Cli (Counts Finishes Tick Ticker)

/-! ### A watch on a session -/

/-- The views that are published in a course are those that are shown at some moments of it. -/
theorem exists_moments_views (t : Traffic Loop) (moves : List Move) :
    ∃ moments : List (List Move), moments.Pairwise (· <+: ·) ∧ (∀ m ∈ moments, m <+: moves) ∧
      t.views moves = moments.map t.shown := by
  induction moves using List.reverseRecOn with
  | nil => exact ⟨[[]], List.pairwise_singleton _ _, by simp, rfl⟩
  | append_singleton moves v ih =>
    obtain ⟨moments, hpairwise, hearly, hviews⟩ := ih
    have hearlier : ∀ m ∈ moments, m <+: moves ++ [v] :=
      fun m hm => (hearly m hm).trans (List.prefix_append _ _)
    rw [views_append, hviews, collect_cons]
    cases hpublished : (t.run moves).state.publishes v with
    | none => exact ⟨moments, hpairwise, hearlier, List.append_nil _⟩
    | some w =>
      have hshown : t.shown (moves ++ [v]) = w := by
        rw [shown, run_concat]
        exact (Loop.published_step _ v).trans (by rw [hpublished]; rfl)
      refine ⟨moments ++ [moves ++ [v]], ?_, ?_, ?_⟩
      · refine List.pairwise_append.2
          ⟨hpairwise, List.pairwise_singleton _ _, fun m hm m' hm' => ?_⟩
        rw [List.mem_singleton.1 hm']
        exact hearlier m hm
      · simpa [or_imp, forall_and] using hearlier
      · rw [List.map_append, List.map_singleton, hshown]
        rfl

/-- So is what is left of them when some are passed over. -/
theorem exists_moments_of_sublist {t : Traffic Loop} {moves : List Move} {observed : List View}
    (h : observed.Sublist (t.views moves)) :
    ∃ moments : List (List Move), moments.Pairwise (· <+: ·) ∧ observed = moments.map t.shown := by
  obtain ⟨moments, hpairwise, -, hviews⟩ := t.exists_moments_views moves
  rw [hviews] at h
  obtain ⟨seen, hseen, hobserved⟩ := List.sublist_map_iff.1 h
  exact ⟨seen, hpairwise.sublist hseen, hobserved⟩

/-- The last of some moments when the view that was shown was idle; the beginning, if there is
none. -/
def lastIdle (t : Traffic Loop) (moments : List (List Move)) : List Move :=
  ((moments.filter fun m => (t.shown m).sync = .idle).getLast?).getD []

/-- The end of a synchronisation is seen at a moment: the view is idle, and was running when it was
looked at before. -/
structure SeesEnd (t : Traffic Loop) (before : List (List Move)) (now : List Move) : Prop where
  ran : ∃ m ∈ before.getLast?, (t.shown m).sync = .running
  idle : (t.shown now).sync = .idle

/-- The moment when the view was last seen idle comes before any later one. -/
theorem lastIdle_isPrefix (t : Traffic Loop) {before after : List (List Move)} {now : List Move}
    (h : (before ++ now :: after).Pairwise (· <+: ·)) : t.lastIdle before <+: now := by
  unfold lastIdle
  cases hlast : (before.filter fun m => (t.shown m).sync = .idle).getLast? with
  | none => exact List.nil_prefix
  | some m =>
    have hmem : m ∈ before := List.mem_of_mem_filter (List.mem_of_getLast? hlast)
    exact (List.pairwise_append.1 h).2.2 m hmem now List.mem_cons_self

/-- An end that is seen is one that a ticker notes. -/
theorem seesEnd_iff {t : Traffic Loop} {before : List (List Move)} {now : List Move} :
    t.SeesEnd before now ↔
      Ticker.start.syncAfter (before.map t.shown) = .running ∧ (t.shown now).sync = .idle := by
  have hran : Ticker.start.syncAfter (before.map t.shown) = .running ↔
      ∃ m ∈ before.getLast?, (t.shown m).sync = .running := by
    rw [Ticker.syncAfter, List.getLast?_map]
    cases before.getLast? <;> simp [Ticker.start]
  rw [hran]
  exact ⟨fun h => ⟨h.ran, h.idle⟩, fun h => ⟨h.1, h.2⟩⟩

/-- The last of what has come tells of later times exactly if something has come since, or nothing
before. -/
theorem getLast?_since_iff {α β : Type} (f : α → β) (early since : List α) :
    (∀ b ∈ (early ++ since).getLast?.map f, ∃ a ∈ since, b = f a) ↔ since ≠ [] ∨ early = [] := by
  rcases List.eq_nil_or_concat since with rfl | ⟨front, a, rfl⟩
  · rcases List.eq_nil_or_concat early with rfl | ⟨front, a, rfl⟩ <;> simp
  · rw [List.concat_eq_append, ← List.append_assoc, List.getLast?_concat]
    simp

/-- The journal has an entry for an end of a synchronisation whenever one is seen, and then only,
with the report of the last request that has succeeded. -/
theorem noted_finish_iff (subject : Ident) (settings : Settings) (moments : List (List Move))
    (e : Entry) :
    let t := opened subject settings
    (e ∈ (Ticker.start.ticks subject (moments.map t.shown)).filterMap Tick.entry? ∧
        e.event = "sync.finish") ↔
      ∃ before now after, moments = before ++ now :: after ∧ t.SeesEnd before now ∧
        e = Ticker.finishEntry subject (t.latest (Loop.succeeds subject) now) := by
  intro t
  have hentries := Ticker.finished_ticks subject Ticker.start (moments.map t.shown)
  have hmem (entries : List Entry) : (e ∈ entries ∧ e.event = "sync.finish") ↔
      e ∈ entries.filter (·.event = "sync.finish") := by
    rw [List.mem_filter, decide_eq_true_iff]
  rw [hmem, hentries, List.mem_map]
  constructor
  · rintro ⟨last, hlast, rfl⟩
    obtain ⟨before, now, after, hmoments, hran, hidle, rfl⟩ := Ticker.mem_ends_iff.1 hlast
    obtain ⟨before, rest, rfl, rfl, hrest⟩ := List.map_eq_append_iff.1 hmoments
    obtain ⟨now, after, rfl, rfl, rfl⟩ := List.map_eq_cons_iff.1 hrest
    exact ⟨before, now, after, rfl, seesEnd_iff.2 ⟨hran, hidle⟩,
      congrArg (Ticker.finishEntry subject) (lastSync_shown subject settings now)⟩
  · rintro ⟨before, now, after, rfl, hend, rfl⟩
    obtain ⟨hran, hidle⟩ := seesEnd_iff.1 hend
    refine ⟨_, Ticker.mem_ends_iff.2 ⟨_, _, _, List.map_append, hran, hidle, ?_⟩, rfl⟩
    exact (lastSync_shown subject settings now).symm

/-- Whatever a watch sees of the views that are published, it sees at some moments of the session.
It notes an end of a synchronisation whenever it sees one, and then only. The entry says that all
went well, with the counts of the last request that has succeeded in the session. So what it tells
is of the time since the view was last seen idle exactly if a request has succeeded in that time, or
none had before. -/
theorem finish_run (subject : Ident) (settings : Settings) :
    let t := opened subject settings
    (∀ moves observed, observed.Sublist (t.views moves) → ∃ moments : List (List Move),
      moments.Pairwise (· <+: ·) ∧ observed = moments.map t.shown) ∧
    ∀ moments : List (List Move), moments.Pairwise (· <+: ·) →
      let entries := (Ticker.start.ticks subject (moments.map t.shown)).filterMap Tick.entry?
      (∀ e, (e ∈ entries ∧ e.event = "sync.finish") ↔
        ∃ before now after, moments = before ++ now :: after ∧ t.SeesEnd before now ∧
          Finishes subject (t.latest (Loop.succeeds subject) now) e) ∧
      ∀ before now after, moments = before ++ now :: after → t.SeesEnd before now →
        ∀ e, Finishes subject (t.latest (Loop.succeeds subject) now) e →
        ∃ between, now = t.lastIdle before ++ between ∧ e.status = .ok ∧
          let since := (t.run (t.lastIdle before)).collect (Loop.succeeds subject) between
          ((∀ details ∈ e.details, ∃ report ∈ since, Counts report details) ↔
            since ≠ [] ∨ t.collect (Loop.succeeds subject) (t.lastIdle before) = []) := by
  intro t
  refine ⟨fun _ _ => exists_moments_of_sublist, fun moments h => ?_⟩
  simp only [Cli.finishes_iff, Cli.counts_iff]
  refine ⟨noted_finish_iff subject settings moments, ?_⟩
  rintro before now after rfl hend e rfl
  obtain ⟨between, hbetween⟩ := t.lastIdle_isPrefix h
  refine ⟨between, hbetween.symm, rfl, ?_⟩
  let early := t.collect (Loop.succeeds subject) (t.lastIdle before)
  let since := (t.run (t.lastIdle before)).collect (Loop.succeeds subject) between
  have hall : t.latest (Loop.succeeds subject) now = (early ++ since).getLast? := by
    rw [latest, ← collect_append, hbetween]
  have hdetails : (Ticker.finishEntry subject (t.latest (Loop.succeeds subject) now)).details =
      (early ++ since).getLast?.map Ticker.reportDetails :=
    congrArg (Option.map Ticker.reportDetails) hall
  rw [hdetails]
  exact getLast?_since_iff Ticker.reportDetails early since

/-- The end of a request that has succeeded is noted with its counts. -/
theorem finish_run_succeeded :
    let t := opened "r" ⟨none, 20, 30, 20⟩
    let started : List Move := [.startSync, .take, .finish]
    let ended := started ++ [.answer (.sync "r" (.ok ⟨3, 1⟩)), .take, .finish]
    t.Lawful ended ∧
      ⟨"sync.finish", .ok, some "r", some (.object [("synced", .integer ⟨3, by decide⟩),
        ("skipped", .integer ⟨1, by decide⟩)]), none⟩ ∈
        (Ticker.start.ticks "r" ([[], started, ended].map t.shown)).filterMap Tick.entry? := by
  intro t started ended
  have hmoments : [[], started, ended].Pairwise (· <+: ·) := by
    simp [started, ended]
  have hend : t.SeesEnd [[], started] ended := ⟨⟨started, rfl, by decide⟩, by decide⟩
  have hlatest : t.latest (Loop.succeeds "r") ended = some ⟨3, 1⟩ := by decide
  obtain ⟨hnoted, -⟩ := (finish_run "r" ⟨none, 20, 30, 20⟩).2 _ hmoments
  refine ⟨by decide, ((hnoted _).2 ⟨_, _, _, rfl, hend, ?_⟩).1⟩
  rw [hlatest]
  exact ⟨rfl, rfl, rfl, .some ⟨_, _, rfl, rfl, rfl⟩, rfl⟩

/-- A request that fails is noted as one that has succeeded, with the counts of one before. -/
theorem finish_run_failed :
    let t := opened "r" ⟨none, 20, 30, 20⟩
    let synced : List Move :=
      [.startSync, .take, .finish, .answer (.sync "r" (.ok ⟨3, 1⟩)), .take, .finish]
    let started := synced ++ [.startSync, .take, .finish]
    let answered : List Move := [.answer (.sync "r" (.error (.transport "down"))), .take, .finish]
    t.Lawful (started ++ answered) ∧ t.SeesEnd [synced, started] (started ++ answered) ∧
      t.lastIdle [synced, started] = synced ∧
      (t.run synced).collect (Loop.succeeds "r") ([.startSync, .take, .finish] ++ answered) = [] ∧
      ⟨"sync.finish", .ok, some "r", some (.object [("synced", .integer ⟨3, by decide⟩),
        ("skipped", .integer ⟨1, by decide⟩)]), none⟩ ∈ (Ticker.start.ticks "r"
        ([synced, started, started ++ answered].map t.shown)).filterMap Tick.entry? := by
  intro t synced started answered
  have hend : t.SeesEnd [synced, started] (started ++ answered) :=
    ⟨⟨started, rfl, by decide⟩, by decide⟩
  have hlatest : t.latest (Loop.succeeds "r") (started ++ answered) = some ⟨3, 1⟩ := by decide
  refine ⟨by decide, hend, ?_, by decide, ?_⟩
  · have hidle : (t.shown synced).sync = .idle := by decide
    have hrunning : (t.shown started).sync ≠ .idle := by decide
    rw [lastIdle, List.filter_cons_of_pos (by simpa using hidle),
      List.filter_cons_of_neg (by simpa using hrunning)]
    rfl
  · refine ((noted_finish_iff "r" ⟨none, 20, 30, 20⟩ _ _).2 ⟨_, _, _, rfl, hend, ?_⟩).1
    rw [hlatest]
    rfl

end Traffic

end LiveAudit
