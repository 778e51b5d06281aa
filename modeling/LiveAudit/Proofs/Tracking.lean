import LiveAudit.Proofs.History
import LiveAudit.Proofs.InFlight

/-!
# Synchronisation and progress over a run

What a repository shows of its synchronisation and of its scan is told by its own past alone: the
synchronisation runs if the last thing that has happened to it was a start, here or at the server
(`Reconciler.syncMark`), and progress is that of the last report unless an end has come since
(`Reconciler.progressMark`). One input moves the state by the mark that it brings
(`Traffic.sync_next`, `Traffic.progress_next`), and a run by the last of them
(`Traffic.tracked_run`).

Reports from the server count only while the repository is the subject, and opening it again brings
no mark. So a synchronisation that the server has reported as running is still shown as running when
the repository is left and viewed again, even if its end came in between
(`Traffic.running_after_switch_iff`, `Traffic.switch_revives_running`).
-/

namespace LiveAudit

open Reconciler (Input share)

/-! ### Marks -/

/-- What happens to the synchronisation of a repository. -/
inductive SyncMark where
  /-- A request made here is accepted. -/
  | accepted
  /-- The server reports whether a synchronisation runs. -/
  | reported (running : Bool)
  /-- The answer to a request comes. -/
  | answered (result : Except Failure SyncReport)

namespace SyncMark

/-- The state that a mark leaves behind. -/
def state : SyncMark → SyncState
  | .accepted => .running
  | .reported running => if running then .running else .idle
  | .answered _ => .idle

/-- Whether a mark ends what was running. -/
def ends : SyncMark → Bool
  | .accepted => false
  | .reported running => !running
  | .answered _ => true

/-- The report that a mark brings. -/
def report? : SyncMark → Option SyncReport
  | .answered (.ok report) => some report
  | .accepted | .reported _ | .answered (.error _) => none

/-- A synchronisation runs after a start, made here or reported. -/
theorem state_eq_running_iff {m : SyncMark} :
    m.state = .running ↔ m = .accepted ∨ m = .reported true := by
  cases m with
  | accepted => simp [state]
  | reported running => cases running <;> simp [state]
  | answered result => simp [state]

/-- A mark ends what was running if it leaves the idle state behind. -/
theorem ends_iff {m : SyncMark} : m.ends ↔ m.state = .idle := by
  cases m with
  | accepted => simp [ends, state]
  | reported running => cases running <;> simp [ends, state]
  | answered result => simp [ends, state]

end SyncMark

/-- What a mark does to the synchronisation of a repository. -/
def SyncTracker.mark (t : SyncTracker) : SyncMark → SyncTracker
  | .accepted => { t with state := .running, requestInFlight := true }
  | .reported running => t.observe running
  | .answered result => t.finish result

/-- The state after a mark is the one that it leaves behind. -/
@[simp] theorem SyncTracker.state_mark (t : SyncTracker) (m : SyncMark) :
    (t.mark m).state = m.state := by
  cases m with
  | accepted => rfl
  | reported running => rfl
  | answered result => cases result <;> rfl

/-- The report that is kept is the one that a mark brings, if it brings one. -/
theorem SyncTracker.lastReport_mark (t : SyncTracker) (m : SyncMark) :
    (t.mark m).lastReport = m.report?.or t.lastReport := by
  cases m with
  | accepted => rfl
  | reported running => rfl
  | answered result => cases result <;> rfl

/-- A request is accepted where nothing runs and none is in flight. -/
theorem SyncTracker.start_eq (t : SyncTracker) :
    t.start = if t.state = .running ∨ t.requestInFlight then .error (.alreadyRunning t.repoId)
      else .ok (t.mark .accepted) := by
  cases hs : t.state <;> cases hr : t.requestInFlight <;>
    simp [start, mark, SyncState.isRunning, hs, hr]

namespace Reconciler

/-- What an input does to the synchronisation of a repository: a request for it is accepted, the
server reports on it while it is the subject, as running or with any other status, or the answer to
a request for it comes. -/
def syncMark (repo : Ident) (d : Reconciler) : Input → Option SyncMark
  | .startSync => if d.startSync.2 = [.sync repo] then some .accepted else none
  | .event (.syncProgress p) =>
    if p.repoId = repo ∧ d.subject = repo then some (.reported (p.status = "running")) else none
  | .completion (.sync r result) =>
    if r = repo ∧ d.Knows repo then some (.answered result) else none
  | _ => none

/-- What an input does to the progress of a repository: a report on it comes while it is the
subject, with a file and counts, or what was running ends. -/
def progressMark (repo : Ident) (d : Reconciler) : Input → Option (Option ScanProgress)
  | .event (.auditProgress p) =>
    if p.repoId = repo ∧ d.subject = repo then
      some (some
        { currentFile := p.file, filesDone := p.filesDone, filesTotal := p.filesTotal })
    else none
  | i => (d.syncMark repo i).bind fun m => if m.ends then some none else none

/-- The report on a synchronisation of a repository that an input brings. -/
def reportMark (repo : Ident) (d : Reconciler) (i : Input) : Option SyncReport :=
  (d.syncMark repo i).bind SyncMark.report?

end Reconciler

/-! ### Deeds -/

namespace RepoState

/-- What a deed does to the synchronisation of its repository. -/
def syncMark (s : RepoState) : Deed → Option SyncMark
  | .startSync => if s.sync.state = .running ∨ s.sync.requestInFlight then none else some .accepted
  | .observe running => some (.reported running)
  | .sync _ result => some (.answered result)
  | .reopen | .refresh | .loadMore | .report _ | .page _ _ => none

/-- What a deed does to the progress of its repository. -/
def progressMark (s : RepoState) : Deed → Option (Option ScanProgress)
  | .report p => if s.progress.accepts p.repoId then some (some p.progress) else none
  | a => (s.syncMark a).bind fun m => if m.ends then some none else none

/-- A deed moves the synchronisation by the mark that it brings, and leaves it alone otherwise. -/
theorem sync_act (s : RepoState) (a : Deed) :
    (s.act a).1.sync = (s.syncMark a).elim s.sync s.sync.mark := by
  cases a with
  | reopen => rfl
  | refresh => rfl
  | loadMore =>
    simp only [act, requestMore]
    split <;> rfl
  | startSync =>
    simp only [act, syncMark, SyncTracker.start_eq]
    split_ifs <;> rfl
  | observe running => cases running <;> rfl
  | report p => rfl
  | page f result =>
    simp only [act]
    split
    · rfl
    · rw [completePage_eq]
      cases f.reason <;> cases result <;> rfl
  | sync repo result => cases result <;> rfl

/-- It moves the progress by the mark that it brings for it. -/
theorem progress_act (s : RepoState) (a : Deed) :
    (s.act a).1.progress =
      (s.progressMark a).elim s.progress fun current => { s.progress with current := current } := by
  cases a with
  | reopen => rfl
  | refresh => rfl
  | loadMore =>
    simp only [act, requestMore]
    split <;> rfl
  | startSync =>
    simp only [act, progressMark, syncMark, SyncTracker.start_eq]
    split_ifs <;> rfl
  | observe running => cases running <;> rfl
  | report p =>
    simp only [act, progressMark, ProgressTracker.update]
    split <;> rfl
  | page f result =>
    simp only [act]
    split
    · rfl
    · rw [completePage_eq]
      cases f.reason <;> cases result <;> rfl
  | sync repo result => cases result <;> rfl

end RepoState

/-! ### Inputs -/

namespace Reconciler

/-- A request for a synchronisation is sent if nothing runs and none is in flight. -/
theorem startSync_eq (d : Reconciler) :
    d.startSync =
      if d.current.sync.state = .running ∨ d.current.sync.requestInFlight then
        (d.notify .error (Failure.alreadyRunning d.current.sync.repoId).message, [])
      else (d.setRepo d.subject { d.current with sync := d.current.sync.mark .accepted },
        [.sync d.subject]) := by
  simp only [startSync, SyncTracker.start_eq]
  split_ifs <;> rfl

/-- What the share of a repository in a target brings. -/
theorem share_bind {α : Type} (target : Option (Ident × Deed)) (repo : Ident)
    (f : Deed → Option α) :
    (share target repo).bind f = target.bind fun p => if p.1 = repo then f p.2 else none := by
  cases target with
  | none => rfl
  | some p =>
    simp only [share, Option.bind_some]
    split_ifs <;> rfl

/-- The mark of an input at a repository is that of the deed which it amounts to there. -/
theorem syncMark_eq (d : Reconciler) (repo : Ident) (i : Input) :
    d.syncMark repo i = (share (d.target i) repo).bind (d.repo repo).syncMark := by
  rw [share_bind]
  cases i with
  | load => simp [syncMark, target, RepoState.syncMark]
  | switchTo subject =>
    simp only [syncMark, target]
    split_ifs <;> simp [RepoState.syncMark]
  | refresh => simp [syncMark, target, RepoState.syncMark]
  | startSync =>
    by_cases h : d.subject = repo
    · subst h
      simp only [syncMark, startSync_eq, target, current, Option.bind_some, RepoState.syncMark]
      split_ifs <;> simp_all
    · simp only [syncMark, startSync_eq, target, Option.bind_some, if_neg h]
      split_ifs <;> simp_all
  | loadMore => simp [syncMark, target, RepoState.syncMark]
  | event e =>
    cases e with
    | syncProgress p =>
      simp only [syncMark, target]
      split_ifs <;> simp_all [RepoState.syncMark, SyncProgress.isRunning, beq_eq_decide]
    | auditProgress p =>
      simp only [syncMark, target]
      split_ifs <;> simp [RepoState.syncMark]
    | auditUpdate p =>
      simp only [syncMark, target]
      split_ifs <;> simp [RepoState.syncMark]
    | contractProgress p => rfl
    | build phase => rfl
    | other kind => rfl
  | completion c =>
    cases c with
    | page f result =>
      simp only [syncMark, target]
      split_ifs <;> simp [RepoState.syncMark]
    | sync r result =>
      simp only [syncMark, target]
      by_cases hr : r = repo
      · subst hr
        split_ifs <;> simp_all [RepoState.syncMark]
      · split_ifs <;> simp_all [RepoState.syncMark]
    | projects result => rfl

/-- Only a report on a scan is the deed of taking one. -/
theorem target_eq_report {d : Reconciler} {i : Input} {id : Ident} {p : AuditProgress} :
    d.target i = some (id, .report p) ↔
      i = .event (.auditProgress p) ∧ p.repoId = d.subject ∧ id = d.subject := by
  cases i with
  | load => simp [target]
  | switchTo subject => simp [target]
  | refresh => simp [target]
  | startSync => simp [target]
  | loadMore => simp [target]
  | event e =>
    cases e with
    | auditProgress q =>
      simp only [target, Option.ite_none_right_eq_some, Option.some.injEq, Prod.mk.injEq,
        Deed.report.injEq, Input.event.injEq, Event.auditProgress.injEq]
      constructor
      · rintro ⟨hq, rfl, rfl⟩
        exact ⟨rfl, hq, rfl⟩
      · rintro ⟨rfl, hq, rfl⟩
        exact ⟨hq, rfl, rfl⟩
    | syncProgress q => simp [target]
    | auditUpdate q => simp [target]
    | contractProgress q => simp [target]
    | build phase => simp [target]
    | other kind => simp [target]
  | completion c => cases c <;> simp [target]

/-- The mark of an input for the progress of a repository is that of the deed which it amounts to
there. -/
theorem progressMark_eq {d : Reconciler} {repo : Ident} (h : (d.repo repo).progress.repoId = repo)
    (i : Input) :
    d.progressMark repo i = (share (d.target i) repo).bind (d.repo repo).progressMark := by
  by_cases hi : ∃ p, i = .event (.auditProgress p)
  · obtain ⟨p, rfl⟩ := hi
    rw [share_bind]
    simp only [progressMark, target]
    split_ifs <;>
      simp_all [RepoState.progressMark, ProgressTracker.accepts, AuditProgress.progress]
  · have hmark : d.progressMark repo i =
        (d.syncMark repo i).bind fun m => if m.ends then some none else none := by
      unfold progressMark
      split
      · exact absurd ⟨_, rfl⟩ hi
      · rfl
    rw [hmark, syncMark_eq, Option.bind_assoc]
    refine Option.bind_congr fun a ha => ?_
    cases a with
    | report p => exact absurd ⟨p, (target_eq_report.1 (share_eq_some_iff.1 ha)).1⟩ hi
    | reopen => rfl
    | refresh => rfl
    | loadMore => rfl
    | startSync => rfl
    | observe running => rfl
    | page f result => rfl
    | sync r result => rfl

/-- What ends a synchronisation clears the progress. -/
theorem progressMark_of_ends {d : Reconciler} {repo : Ident} {i : Input} {m : SyncMark}
    (hm : d.syncMark repo i = some m) (hends : m.ends) : d.progressMark repo i = some none := by
  unfold progressMark
  split
  · simp [syncMark] at hm
  · simp [hm, hends]

end Reconciler

namespace Traffic

section

variable {t : Traffic Reconciler}

/-- An input moves the synchronisation of a repository by the mark that it brings for it, and leaves
it alone otherwise. -/
theorem sync_next (hs : t.Sound) (repo : Ident) (i : Input) :
    ((t.next i).state.repo repo).sync =
      (t.state.syncMark repo i).elim (t.state.repo repo).sync (t.state.repo repo).sync.mark := by
  rw [hs.repo_next, Reconciler.syncMark_eq]
  cases share (t.state.target i) repo with
  | none => rfl
  | some a => exact RepoState.sync_act _ a

/-- It moves the progress by the mark that it brings for that. -/
theorem progress_next (hs : t.Sound) {repo : Ident}
    (hrepo : (t.state.repo repo).progress.repoId = repo) (i : Input) :
    ((t.next i).state.repo repo).progress =
      (t.state.progressMark repo i).elim (t.state.repo repo).progress
        fun current => { (t.state.repo repo).progress with current := current } := by
  rw [hs.repo_next, Reconciler.progressMark_eq hrepo]
  cases share (t.state.target i) repo with
  | none => rfl
  | some a => exact RepoState.progress_act _ a

end

/-! ### Runs -/

/-- What is shown of a repository's synchronisation fits the last mark that has come, if any. -/
structure Marked (repo : Ident) (last : Option SyncMark) (t : Traffic Reconciler) : Prop where
  sound : t.Sound
  state : (t.state.repo repo).sync.state = last.elim .idle SyncMark.state
  /-- After a request was accepted it is in flight. -/
  inFlight : last = some .accepted → (t.state.repo repo).sync.requestInFlight

/-- Every input keeps what is shown in step with the last mark. -/
theorem Marked.next {repo : Ident} {last : Option SyncMark} {t : Traffic Reconciler}
    (h : Marked repo last t) (i : Input) :
    Marked repo ((t.state.syncMark repo i).or last) (t.next i) := by
  have hsync := sync_next h.sound repo i
  cases hm : t.state.syncMark repo i with
  | none =>
    rw [hm, Option.elim_none] at hsync
    refine ⟨h.sound.next i, ?_, ?_⟩
    · rw [hsync]
      exact h.state
    · rw [hsync]
      exact h.inFlight
  | some m =>
    rw [hm, Option.elim_some] at hsync
    refine ⟨h.sound.next i, ?_, ?_⟩
    · rw [hsync]
      exact SyncTracker.state_mark _ m
    · intro hlast
      obtain rfl : m = .accepted := Option.some.inj hlast
      rw [hsync]
      rfl

/-- The progress that is shown of a repository is the one in the last mark for it that has come. -/
structure Reported (repo : Ident) (last : Option (Option ScanProgress)) (t : Traffic Reconciler) :
    Prop where
  sound : t.Sound
  repoId : (t.state.repo repo).progress.repoId = repo
  current : (t.state.repo repo).progress.current = last.join

/-- Every input keeps the progress in step with the last mark for it. -/
theorem Reported.next {repo : Ident} {last : Option (Option ScanProgress)} {t : Traffic Reconciler}
    (h : Reported repo last t) (i : Input) :
    Reported repo ((t.state.progressMark repo i).or last) (t.next i) := by
  have hprogress := progress_next h.sound h.repoId i
  cases hm : t.state.progressMark repo i with
  | none =>
    rw [hm, Option.elim_none] at hprogress
    exact ⟨h.sound.next i, by rw [hprogress]; exact h.repoId, by rw [hprogress]; exact h.current⟩
  | some current =>
    rw [hm, Option.elim_some] at hprogress
    exact ⟨h.sound.next i, by rw [hprogress]; exact h.repoId, by rw [hprogress]; rfl⟩

/-- Every input keeps the report of the last synchronisation in step with those that come. -/
theorem lastReport_next {t : Traffic Reconciler} (hs : t.Sound) (repo : Ident) (i : Input) :
    ((t.next i).state.repo repo).sync.lastReport =
      (t.state.reportMark repo i).or (t.state.repo repo).sync.lastReport := by
  rw [sync_next hs, Reconciler.reportMark]
  cases t.state.syncMark repo i with
  | none => rfl
  | some m => exact SyncTracker.lastReport_mark _ m

/-- A new reconciler shows nothing of any repository. -/
theorem repo_start (subject repo : Ident) (pageLimit noticeCapacity : UInt64) :
    (start (Reconciler.new subject pageLimit noticeCapacity)).state.repo repo =
      RepoState.new repo (max pageLimit 1) :=
  congrArg Traffic.state (only_start subject repo pageLimit noticeCapacity)

/-- In every run what is shown of a synchronisation fits the last mark that has come. -/
theorem marked_run (subject repo : Ident) (pageLimit noticeCapacity : UInt64)
    (inputs : List Input) :
    let t := start (Reconciler.new subject pageLimit noticeCapacity)
    Marked repo (t.latest (Reconciler.syncMark repo) inputs) (t.run inputs) := by
  intro t
  have hstart : Marked repo none t := by
    refine ⟨sound_start subject pageLimit noticeCapacity, ?_, by simp⟩
    rw [repo_start]
    rfl
  have hrun := latest_induction (fun _ _ i h => h.next i) hstart inputs
  rwa [Option.or_none] at hrun

/-- In every run the progress that is shown is the one in the last mark for it that has come. -/
theorem reported_run (subject repo : Ident) (pageLimit noticeCapacity : UInt64)
    (inputs : List Input) :
    let t := start (Reconciler.new subject pageLimit noticeCapacity)
    Reported repo (t.latest (Reconciler.progressMark repo) inputs) (t.run inputs) := by
  intro t
  have hstart : Reported repo none t := by
    refine ⟨sound_start subject pageLimit noticeCapacity, ?_, ?_⟩ <;> rw [repo_start] <;> rfl
  have hrun := latest_induction (fun _ _ i h => h.next i) hstart inputs
  rwa [Option.or_none] at hrun

/-- In every run the report that is kept is the last that has come. -/
theorem lastReport_run (subject repo : Ident) (pageLimit noticeCapacity : UInt64)
    (inputs : List Input) :
    let t := start (Reconciler.new subject pageLimit noticeCapacity)
    ((t.run inputs).state.repo repo).sync.lastReport =
      t.latest (Reconciler.reportMark repo) inputs := by
  intro t
  have hstart : t.Sound ∧ (t.state.repo repo).sync.lastReport = none := by
    refine ⟨sound_start subject pageLimit noticeCapacity, ?_⟩
    rw [repo_start]
    rfl
  have hstep : ∀ last (t : Traffic Reconciler) (i : Input),
      t.Sound ∧ (t.state.repo repo).sync.lastReport = last →
      (t.next i).Sound ∧ ((t.next i).state.repo repo).sync.lastReport =
        (t.state.reportMark repo i).or last := by
    rintro last t i ⟨hs, rfl⟩
    exact ⟨hs.next i, lastReport_next hs repo i⟩
  have hrun := latest_induction hstep hstart inputs
  rw [Option.or_none] at hrun
  exact hrun.2

/-- What is shown of a repository after a run is told by what has happened to it. -/
structure Tracked (repo : Ident) (t : Traffic Reconciler) (inputs : List Input) : Prop where
  /-- The synchronisation runs if the last mark was a start, made here or reported. -/
  running : ((t.run inputs).state.repo repo).sync.state = .running ↔
    t.latest (Reconciler.syncMark repo) inputs = some .accepted ∨
      t.latest (Reconciler.syncMark repo) inputs = some (.reported true)
  /-- The progress is that of the last report on a scan, if no end has come since. -/
  progress : ∀ p, ((t.run inputs).state.repo repo).progress.current = some p ↔
    t.latest (Reconciler.progressMark repo) inputs = some (some p)
  lastReport : ((t.run inputs).state.repo repo).sync.lastReport =
    t.latest (Reconciler.reportMark repo) inputs
  /-- An input that ends a synchronisation leaves no progress behind. -/
  ended : ∀ i : Input, ((t.run inputs).state.repo repo).sync.state = .running →
    (((t.run inputs).next i).state.repo repo).sync.state = .idle →
    (((t.run inputs).next i).state.repo repo).progress.current = none
  /-- A request that is not accepted changes nothing but the notices. -/
  rejected : ((t.run inputs).state.step .startSync).2 = [] → ∃ notices,
    ((t.run inputs).state.step .startSync).1 = { (t.run inputs).state with notices := notices }
  /-- Answers to requests that were sent are for known repositories, so that each of them counts. -/
  known : ∀ past result rest, t.Lawful inputs →
    inputs = past ++ .completion (.sync repo result) :: rest → (t.run past).state.Knows repo

/-- A request that is not accepted changes nothing but the notices. -/
theorem step_startSync_of_rejected {d : Reconciler} (h : (d.step .startSync).2 = []) :
    ∃ notices, (d.step .startSync).1 = { d with notices := notices } := by
  change d.startSync.2 = [] at h
  change ∃ notices, d.startSync.1 = _
  rw [Reconciler.startSync_eq] at h ⊢
  split_ifs at h ⊢
  exact ⟨_, rfl⟩

/-- An input that takes a repository from running to idle leaves no progress behind. -/
theorem progress_next_of_ended {t : Traffic Reconciler} (hs : t.Sound) {repo : Ident}
    (hrepo : (t.state.repo repo).progress.repoId = repo) {i : Input}
    (hrunning : (t.state.repo repo).sync.state = .running)
    (hidle : ((t.next i).state.repo repo).sync.state = .idle) :
    ((t.next i).state.repo repo).progress.current = none := by
  rw [sync_next hs] at hidle
  cases hm : t.state.syncMark repo i with
  | none =>
    rw [hm, Option.elim_none, hrunning] at hidle
    cases hidle
  | some m =>
    rw [hm, Option.elim_some, SyncTracker.state_mark] at hidle
    have hmark := Reconciler.progressMark_of_ends hm (SyncMark.ends_iff.2 hidle)
    rw [progress_next hs hrepo, hmark]
    rfl

/-- In every run, what is shown of a repository's synchronisation and of its scan follows what has
happened to that repository. -/
theorem tracked_run (subject repo : Ident) (pageLimit noticeCapacity : UInt64)
    (inputs : List Input) :
    Tracked repo (start (Reconciler.new subject pageLimit noticeCapacity)) inputs := by
  have hmarked := marked_run subject repo pageLimit noticeCapacity inputs
  have hreported := reported_run subject repo pageLimit noticeCapacity inputs
  constructor
  · rw [hmarked.state]
    cases (start (Reconciler.new subject pageLimit noticeCapacity)).latest
      (Reconciler.syncMark repo) inputs with
    | none => simp
    | some m => simp [SyncMark.state_eq_running_iff]
  · intro p
    rw [hreported.current, Option.join_eq_some_iff]
  · exact lastReport_run subject repo pageLimit noticeCapacity inputs
  · exact fun i => progress_next_of_ended hmarked.sound hreported.repoId
  · exact step_startSync_of_rejected
  · rintro past result rest hl rfl
    have hanswer := (lawful_append.1 hl).2.1
    have hsound := (sound_start subject pageLimit noticeCapacity).run past
    exact hsound.known (.sync repo) (hanswer _ rfl) repo (by simp [Request.concerns])

/-- Two reports on a scan come while the server synchronises, and one on another repository between
them: the second replaces the first and is gone with the end of the synchronisation. A request that
is made meanwhile is not accepted; one that is made afterwards is, and brings its report. -/
theorem tracked_run_replaced :
    let t := start (Reconciler.new "r" 2 5)
    let first : List Input := [.load, .event (.syncProgress ⟨"r", "running"⟩),
      .event (.auditProgress ⟨"r", some "a.rs", 1, 9⟩)]
    let second := first ++ [.startSync, .event (.auditProgress ⟨"s", none, 5, 5⟩),
      .event (.auditProgress ⟨"r", some "b.rs", 2, 9⟩)]
    let ended : Input := .event (.syncProgress ⟨"r", "done"⟩)
    let synced := second ++ [ended, .startSync, .completion (.sync "r" (.ok ⟨3, 1⟩))]
    t.Lawful synced ∧
      ((t.run first).state.repo "r").progress.current = some ⟨some "a.rs", 1, 9⟩ ∧
      ((t.run second).state.repo "r").progress.current = some ⟨some "b.rs", 2, 9⟩ ∧
      (((t.run second).next ended).state.repo "r").progress.current = none ∧
      ((t.run second).state.repo "r").sync.state = .running ∧
      ((t.run synced).state.repo "r").sync.state ≠ .running ∧
      ((t.run synced).state.repo "r").sync.lastReport = some ⟨3, 1⟩ := by
  intro t first second ended synced
  have hfirst : Tracked "r" t first := tracked_run "r" "r" 2 5 first
  have hsecond : Tracked "r" t second := tracked_run "r" "r" 2 5 second
  have hsynced : Tracked "r" t synced := tracked_run "r" "r" 2 5 synced
  have hrunning : ((t.run second).state.repo "r").sync.state = .running := by decide
  have hidle : (((t.run second).next ended).state.repo "r").sync.state = .idle := by decide
  refine ⟨by decide, (hfirst.progress _).2 (by decide), (hsecond.progress _).2 (by decide),
    hsecond.ended ended hrunning hidle, hrunning, by decide, ?_⟩
  rw [hsynced.lastReport]
  decide

/-! ### Switching back -/

/-- A switch to another repository leaves the synchronisation there as it was. -/
theorem sync_next_switchTo {t : Traffic Reconciler} (hs : t.Sound) {repo : Ident} :
    ((t.next (Input.switchTo repo)).state.repo repo).sync = (t.state.repo repo).sync :=
  sync_next hs repo (.switchTo repo)

/-- It sends no request for a synchronisation. -/
theorem mem_out_next_switchTo {t : Traffic Reconciler} {repo r : Ident} :
    .sync r ∈ (t.next (Input.switchTo repo)).out ↔ .sync r ∈ t.out := by
  have hsent : .sync r ∉ (t.state.step (.switchTo repo)).2 := by
    intro hq
    simp only [Reconciler.step, Reconciler.switchTo] at hq
    split_ifs at hq
    · simp at hq
    · let d := { t.state with subject := repo }
      have hrefresh := RepoState.mem_requestRefresh (s := (d.repo repo).reset) hq
      simp [RepoState.refreshFetch] at hrefresh
  exact List.mem_append.trans (or_iff_left hsent)

/-- Where none of its requests is out, the synchronisation of a repository runs if the server has
reported so last. -/
theorem Marked.running_iff {repo : Ident} {last : Option SyncMark} {t : Traffic Reconciler}
    (h : Marked repo last t) (hout : (t.state.repo repo).sync.requestInFlight = false) :
    (t.state.repo repo).sync.state = .running ↔ last = some (.reported true) := by
  rw [h.state]
  cases last with
  | none => simp
  | some m =>
    rw [Option.elim_some, SyncMark.state_eq_running_iff, Option.some.injEq]
    refine or_iff_right fun hm => ?_
    have hflight := h.inFlight (congrArg some hm)
    rw [hout] at hflight
    exact Bool.false_ne_true hflight

/-- After a switch to another repository, its synchronisation runs only if a request for it is out
and a request made there then is accepted if none is, exactly unless the last that had happened to
it was that the server reported it as running, while it was viewed before. -/
theorem running_after_switch_iff (subject repo : Ident) (pageLimit noticeCapacity : UInt64)
    {inputs : List Input}
    (hl : (start (Reconciler.new subject pageLimit noticeCapacity)).Lawful inputs) :
    let t := start (Reconciler.new subject pageLimit noticeCapacity)
    let back := (t.run inputs).next (Input.switchTo repo)
    back.state.subject = repo ∧
    ((back.state.current.sync.state = .running → .sync repo ∈ back.out) ↔
      .sync repo ∈ (t.run inputs).out ∨
        t.latest (Reconciler.syncMark repo) inputs ≠ some (.reported true)) ∧
    (.sync repo ∉ (t.run inputs).out →
      ((back.state.step .startSync).2 = [.sync repo] ↔
        t.latest (Reconciler.syncMark repo) inputs ≠ some (.reported true))) := by
  intro t back
  have hmarked : Marked repo (t.latest (Reconciler.syncMark repo) inputs) (t.run inputs) :=
    marked_run subject repo pageLimit noticeCapacity inputs
  have hsubject : back.state.subject = repo := ((t.run inputs).state.control_step _).1
  have hkept : back.state.current.sync = ((t.run inputs).state.repo repo).sync := by
    rw [Reconciler.current, hsubject]
    exact sync_next_switchTo hmarked.sound
  have hstays : .sync repo ∈ back.out ↔ .sync repo ∈ (t.run inputs).out := mem_out_next_switchTo
  -- no request is out where the flag for one is down
  have hflag : .sync repo ∉ (t.run inputs).out →
      ((t.run inputs).state.repo repo).sync.requestInFlight = false := by
    intro hout
    have hcount := (accounted_run subject pageLimit noticeCapacity hl).syncs repo
    rw [List.count_eq_zero_of_not_mem hout] at hcount
    exact Bool.toNat_eq_zero.1 hcount.symm
  refine ⟨hsubject, ?_, fun hout => ?_⟩
  · rw [hkept, hstays]
    by_cases hout : .sync repo ∈ (t.run inputs).out
    · simp [hout]
    · rw [hmarked.running_iff (hflag hout)]
      simp [hout]
  · have hsent : (back.state.step .startSync).2 =
        if back.state.current.sync.state = .running then [] else [.sync repo] := by
      change back.state.startSync.2 = _
      rw [Reconciler.startSync_eq, hkept, hflag hout, hsubject]
      split_ifs <;> simp_all
    rw [hsent, hkept, ne_eq, ← hmarked.running_iff (hflag hout)]
    simp

/-- A repository is left while a request for its synchronisation is out, which is answered
meanwhile: viewed again, it is idle and the next request is accepted. -/
theorem running_after_switch_answered :
    let t := start (Reconciler.new "r" 2 5)
    let inputs : List Input := [.load, .event (.syncProgress ⟨"r", "running"⟩),
      .event (.syncProgress ⟨"r", "done"⟩), .startSync, .switchTo "s",
      .event (.syncProgress ⟨"r", "running"⟩), .completion (.sync "r" (.ok ⟨2, 1⟩))]
    let back := (t.run inputs).next (Input.switchTo "r")
    t.Lawful inputs ∧ (t.run inputs).state.subject = "s" ∧
      (back.state.current.sync.state = .running → .sync "r" ∈ back.out) ∧
      (back.state.step .startSync).2 = [.sync "r"] := by
  intro t inputs back
  have hl : t.Lawful inputs := by decide
  have hended : (t.latest (Reconciler.syncMark "r") inputs).any SyncMark.ends := by decide
  have hlast : t.latest (Reconciler.syncMark "r") inputs ≠ some (.reported true) := by
    intro hlast
    rw [hlast] at hended
    exact Bool.false_ne_true hended
  obtain ⟨-, hruns, hstarts⟩ := running_after_switch_iff "r" "r" 2 5 hl
  have hback := hruns.2 (.inr hlast)
  have hsent := (hstarts (by decide)).2 hlast
  refine ⟨hl, by decide, ?_, ?_⟩
  · with_reducible exact hback
  · with_reducible exact hsent

/-- The server reports a synchronisation as running, and its end comes while another repository is
viewed: viewed again, the repository is shown as running although no request is out, and none is
accepted. -/
theorem switch_revives_running :
    let t := start (Reconciler.new "r" 2 5)
    let inputs : List Input := [.load, .event (.syncProgress ⟨"r", "running"⟩), .switchTo "s",
      .event (.syncProgress ⟨"r", "done"⟩), .switchTo "r"]
    t.Lawful inputs ∧ (t.run inputs).state.subject = "r" ∧
      (t.run inputs).state.current.sync.state = .running ∧ .sync "r" ∉ (t.run inputs).out ∧
      ((t.run inputs).state.step .startSync).2 = [] := by
  decide

end Traffic

end LiveAudit
