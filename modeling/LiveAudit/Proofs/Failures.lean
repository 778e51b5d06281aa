import LiveAudit.Proofs.Records

/-!
# Failures

The answer to a request may be a failure (`Request.failed`). Rows, reports and the project list then
stay as they are; the flag that stands for the request is lowered, and one notice tells of the
failure. What each of the three kinds of failure does besides is told by a structure of its own
(`Reconciler.PageFails`, `Reconciler.SyncFails`, `Reconciler.ProjectsFail`).

Nothing is asked for again by itself, apart from a fetch that waited behind the one that failed. But
whatever failed can be asked for again at once: a synchronisation is accepted, and the next page is
asked for by the very request that failed, if no other page has been merged since it was sent
(`Traffic.step_loadMore_of_failed`).
-/

namespace LiveAudit

open Reconciler (Input share)

/-- The answer that a request has failed. -/
def Request.failed (e : Failure) : Request → Completion
  | .page f => .page f (.error e)
  | .sync repo => .sync repo (.error e)
  | .projects => .projects (.error e)

/-- A failure answers the request that has failed. -/
@[simp] theorem Request.request_failed (e : Failure) (q : Request) :
    (q.failed e).request = q := by
  cases q <;> rfl

/-! ### What each kind of failure does -/

/-- The place of a fetch was taken and is free, that of the other kind is as it was. The place of a
refresh goes on to the one that waits, if one does. -/
def RepoState.Frees (s : RepoState) (f : PageFetch) (next : RepoState × List Request) : Prop :=
  match f.reason with
  | .refresh => s.refresh.inFlight ∧ next.1.loadMore = s.loadMore ∧
      next.1.refresh = ⟨s.refresh.trailing, false⟩ ∧
      next.2 = if s.refresh.trailing then [s.refreshFetch] else []
  | .loadMore => s.loadMore = some f.offset ∧ next.1.refresh = s.refresh ∧
      next.1.loadMore = none ∧ next.2 = []

namespace Reconciler

/-- A page fetch of the present generation fails. -/
structure PageFails (d : Reconciler) (f : PageFetch) (e : Failure)
    (next : Reconciler × List Request) : Prop where
  others : ∀ r, r ≠ f.repoId → next.1.repo r = d.repo r
  tracked : ∀ r, (next.1.repo r).sync = (d.repo r).sync ∧
    (next.1.repo r).progress = (d.repo r).progress
  control : next.1.subject = d.subject ∧ next.1.projectsGate = d.projectsGate
  notice : d.notices.Gains .error ("Loading audits failed: " ++ e.message) next.1.notices
  frees : (d.repo f.repoId).Frees f (next.1.repo f.repoId, next.2)

/-- A synchronisation of a repository fails. -/
structure SyncFails (d : Reconciler) (repo : Ident) (e : Failure)
    (next : Reconciler × List Request) : Prop where
  others : ∀ r, r ≠ repo → next.1.repo r = d.repo r
  /-- The request was out; it is no more, nothing runs and no progress is shown. -/
  cleared : (d.repo repo).sync.requestInFlight ∧ next.1.repo repo =
    { d.repo repo with
      sync := { (d.repo repo).sync with state := .idle, requestInFlight := false }
      progress := { (d.repo repo).progress with current := none } }
  control : next.1.subject = d.subject ∧ next.1.projectsGate = d.projectsGate
  notice : d.notices.Gains .error ("Sync failed: " ++ e.message) next.1.notices
  requests : next.2 = []
  /-- The next request for a synchronisation there is accepted, at once if the repository is the
  subject and else when it is shown again. -/
  again : (next.1.subject = repo → (next.1.step .startSync).2 = [.sync repo]) ∧
    ((next.1.step (.switchTo repo)).1.step .startSync).2 = [.sync repo]

/-- The fetch of the project list fails. -/
structure ProjectsFail (d : Reconciler) (e : Failure) (next : Reconciler × List Request) :
    Prop where
  repos : ∀ r, next.1.repo r = d.repo r
  control : next.1.subject = d.subject
  notice : d.notices.Gains .error ("Loading projects failed: " ++ e.message) next.1.notices
  /-- A fetch that waits takes the place of the one that was in flight, and goes out. -/
  gate : d.projectsGate.inFlight ∧ next.1.projectsGate = ⟨d.projectsGate.trailing, false⟩ ∧
    next.2 = if d.projectsGate.trailing then [.projects] else []

/-- What the failure of a request does. That of a page fetch of an earlier generation does nothing
at all. -/
def Fails (d : Reconciler) (e : Failure) (next : Reconciler × List Request) : Request → Prop
  | .page f =>
    if f.epoch = (d.repo f.repoId).epoch then d.PageFails f e next else next = (d, [])
  | .sync repo => d.SyncFails repo e next
  | .projects => d.ProjectsFail e next

/-- A failure brings neither rows, nor a report, nor a project list. -/
theorem brings_nothing (d : Reconciler) (q : Request) (e : Failure) (r : Ident) :
    d.refills r (.completion (q.failed e)) = false ∧
      d.reportMark r (.completion (q.failed e)) = none ∧
      lists (.completion (q.failed e)) = none := by
  cases q with
  | page f => exact ⟨rfl, rfl, rfl⟩
  | sync repo =>
    refine ⟨rfl, ?_, rfl⟩
    simp only [reportMark, syncMark, Request.failed]
    split_ifs <;> rfl
  | projects => exact ⟨rfl, rfl, rfl⟩

/-- The failure of a page fetch of the present generation frees its place and is told of. -/
theorem step_page_error {d : Reconciler} {f : PageFetch} (hk : d.Knows f.repoId)
    (he : f.epoch = (d.repo f.repoId).epoch) (e : Failure) :
    d.step (.completion (.page f (.error e))) =
      ((d.setRepo f.repoId ((d.repo f.repoId).settleFetch f.reason).1).notify .error
        ("Loading audits failed: " ++ e.message), ((d.repo f.repoId).settleFetch f.reason).2) := by
  obtain ⟨s, hs⟩ := Option.isSome_iff_exists.1 hk
  obtain rfl := repo_of_find? hs
  simp only [step, complete, completePage, hs]
  rw [if_neg (not_not.2 he), RepoState.completePage_eq]
  rfl

/-- The failure of a synchronisation ends it and is told of. -/
theorem step_sync_error {d : Reconciler} {repo : Ident} (hk : d.Knows repo) (e : Failure) :
    d.step (.completion (.sync repo (.error e))) =
      ((d.setRepo repo ((d.repo repo).completeSync (.error e)).1).notify .error
        ("Sync failed: " ++ e.message), []) := by
  obtain ⟨s, hs⟩ := Option.isSome_iff_exists.1 hk
  obtain rfl := repo_of_find? hs
  simp only [step, complete, completeSync, hs]
  rfl

/-- A synchronisation of a repository where none runs and none is asked for is accepted, if it is
the subject or once it is made the subject. -/
theorem startSync_of_idle {d : Reconciler} {repo : Ident}
    (h : ¬((d.repo repo).sync.state = .running ∨ (d.repo repo).sync.requestInFlight)) :
    (d.subject = repo → (d.step .startSync).2 = [.sync repo]) ∧
      ((d.step (.switchTo repo)).1.step .startSync).2 = [.sync repo] := by
  have haccepts : ∀ {d' : Reconciler}, d'.subject = repo →
      d'.current.sync = (d.repo repo).sync → (d'.step .startSync).2 = [.sync repo] := by
    intro d' hsubject hsync
    change d'.startSync.2 = _
    rw [startSync_eq, hsync, if_neg h, hsubject]
  refine ⟨fun hsubject => haccepts hsubject (by rw [current, hsubject]), ?_⟩
  by_cases hr : repo = d.subject
  · have hstays : d.step (.switchTo repo) = (d, []) := if_pos hr
    rw [hstays]
    exact haccepts hr.symm (by rw [current, ← hr])
  · have hopened : d.step (.switchTo repo) =
        { d with subject := repo }.onSubject fun s => s.reset.requestRefresh := if_neg hr
    rw [hopened]
    have hrepo := repo_setRepo_self { d with subject := repo } repo
      (d.repo repo).reset.requestRefresh.1
    -- opening a repository leaves its synchronisation as it is
    exact haccepts rfl ((congrArg RepoState.sync hrepo).trans rfl)

end Reconciler

/-- When a fetch is settled, the one that waits takes its place and goes out. -/
theorem Gate.settle_eq (g : Gate) : g.settle = (⟨g.trailing, false⟩, g.trailing) := by
  unfold settle
  cases g.trailing <;> rfl

namespace RepoState

/-- What is settled without a page leaves everything but gates and marks as it is. -/
theorem tracked_settleFetch (s : RepoState) (reason : FetchReason) :
    (s.settleFetch reason).1.sync = s.sync ∧ (s.settleFetch reason).1.progress = s.progress := by
  cases reason <;> exact ⟨rfl, rfl⟩

/-- Settling a fetch that is out frees its place. -/
theorem frees_settleFetch {s : RepoState} {out : List Request} (hb : s.Balanced out) {f : PageFetch}
    (hf : .page f ∈ out) (he : f.epoch = s.epoch) : s.Frees f (s.settleFetch f.reason) := by
  unfold Frees
  cases hr : f.reason with
  | refresh =>
    refine ⟨(hb.refreshes_eq_singleton hf hr he).1, rfl, ?_, ?_⟩
    · exact congrArg Prod.fst s.refresh.settle_eq
    · change (if s.refresh.settle.2 then _ else _) = _
      rw [Gate.settle_eq]
      rfl
  | loadMore => exact ⟨(hb.mores_eq_singleton hf hr he).1, rfl, rfl, rfl⟩

end RepoState

namespace Traffic

section

variable {t : Traffic Reconciler}

/-- A flag that counts a request which is out is up. -/
theorem raised_of_mem {out : List Request} {q : Request} {flag : Bool} (hq : q ∈ out)
    (h : out.count q = flag.toNat) : flag = true := by
  have hpos : 0 < out.count q := List.count_pos_iff.2 hq
  cases flag with
  | true => rfl
  | false => exact absurd h (Nat.ne_of_gt hpos)

/-- What the failure of a page fetch of the present generation does. -/
theorem pageFails (hs : t.Sound) (hroom : 0 < t.state.notices.capacity) {f : PageFetch}
    (hb : (t.state.repo f.repoId).Balanced (t.only f.repoId).out) (hf : .page f ∈ t.out)
    (he : f.epoch = (t.state.repo f.repoId).epoch) (e : Failure) :
    t.state.PageFails f e (t.state.step (.completion (.page f (.error e)))) := by
  let settled := (t.state.repo f.repoId).settleFetch f.reason
  have hothers : ∀ r, r ≠ f.repoId →
      (t.state.setRepo f.repoId settled.1).repo r = t.state.repo r :=
    fun r hr => Reconciler.repo_setRepo_of_ne _ _ hr
  have hself : (t.state.setRepo f.repoId settled.1).repo f.repoId = settled.1 :=
    Reconciler.repo_setRepo_self _ _ _
  rw [Reconciler.step_page_error (hs.knows hf) he]
  refine ⟨hothers, fun r => ?_, ⟨rfl, rfl⟩, NoticeLog.gains_push hroom _ _, ?_⟩
  · by_cases hr : r = f.repoId
    · subst hr
      have htracked := (t.state.repo f.repoId).tracked_settleFetch f.reason
      change ((t.state.setRepo f.repoId settled.1).repo f.repoId).sync = _ ∧
        ((t.state.setRepo f.repoId settled.1).repo f.repoId).progress = _
      rwa [hself]
    · have hother := hothers r hr
      exact ⟨congrArg RepoState.sync hother, congrArg RepoState.progress hother⟩
  · change (t.state.repo f.repoId).Frees f
      ((t.state.setRepo f.repoId settled.1).repo f.repoId, settled.2)
    rw [hself]
    exact RepoState.frees_settleFetch hb (mem_only.2 ⟨hf, rfl⟩) he

/-- What the failure of a synchronisation does. -/
theorem syncFails (hs : t.Sound) (hroom : 0 < t.state.notices.capacity) {repo : Ident}
    (hb : (t.state.repo repo).Balanced (t.only repo).out) (hout : .sync repo ∈ t.out)
    (e : Failure) :
    t.state.SyncFails repo e (t.state.step (.completion (.sync repo (.error e)))) := by
  have hk : t.state.Knows repo := hs.known _ hout repo (decide_eq_true rfl)
  have hflag : (t.state.repo repo).sync.requestInFlight :=
    raised_of_mem hout (count_sync hs hb)
  let ended := ((t.state.repo repo).completeSync (.error e)).1
  have hself : (t.state.setRepo repo ended).repo repo = ended :=
    Reconciler.repo_setRepo_self _ _ _
  have hidle : ¬(ended.sync.state = .running ∨ ended.sync.requestInFlight) := by
    rintro (hrunning | hflight)
    · cases hrunning
    · cases hflight
  rw [Reconciler.step_sync_error hk]
  refine ⟨fun r hr => Reconciler.repo_setRepo_of_ne _ _ hr, ⟨hflag, hself⟩, ⟨rfl, rfl⟩,
    NoticeLog.gains_push hroom _ _, rfl, Reconciler.startSync_of_idle ?_⟩
  change ¬(((t.state.setRepo repo ended).repo repo).sync.state = .running ∨
    ((t.state.setRepo repo ended).repo repo).sync.requestInFlight)
  rwa [hself]

/-- What the failure of a fetch of the project list does. -/
theorem projectsFail (hp : t.ProjectsInStep) (hroom : 0 < t.state.notices.capacity)
    (hout : .projects ∈ t.out) (e : Failure) :
    t.state.ProjectsFail e (t.state.step (.completion (.projects (.error e)))) := by
  have hflag : t.state.projectsGate.inFlight := raised_of_mem hout hp
  refine ⟨fun _ => rfl, rfl, NoticeLog.gains_push hroom _ _, hflag, ?_, ?_⟩
  · exact congrArg Prod.fst t.state.projectsGate.settle_eq
  · change (if t.state.projectsGate.settle.2 then _ else _) = _
    rw [Gate.settle_eq]

/-- What is sent when the next page of the subject is asked for. -/
theorem step_loadMore_eq_singleton {d : Reconciler} {q : Request} :
    (d.step .loadMore).2 = [q] ↔ d.current.loadMore = none ∧ d.current.window.hasMore ∧
      q = d.current.moreFetch d.current.window.nextOffset := by
  change d.current.requestMore.2 = [q] ↔ _
  by_cases h : d.current.loadMore = none ∧ d.current.window.hasMore
  · rw [RepoState.requestMore_of h]
    simp [h, eq_comm]
  · rw [RepoState.requestMore_of_not h]
    simp only [List.nil_eq, reduceCtorEq, false_iff]
    exact fun hall => h ⟨hall.1, hall.2.1⟩

/-- Where nothing is being appended and the same rows are held as when the next page was asked for,
asking again sends the same request. -/
theorem step_loadMore_congr {d d' : Reconciler} (hd : d.Named) (hd' : d'.Named) {q : Request}
    (hsent : (d.step .loadMore).2 = [q]) (hsubject : d'.subject = d.subject)
    (hfree : d'.current.loadMore = none) (hholding : d'.current.holding = d.current.holding) :
    (d'.step .loadMore).2 = [q] := by
  obtain ⟨-, hmore, rfl⟩ := step_loadMore_eq_singleton.1 hsent
  obtain ⟨hnext, hmore'⟩ := RepoState.nextOffset_congr hholding
  obtain ⟨-, -, -, hlimit, hepoch⟩ := Holding.mk.inj hholding
  have hrepo : d'.current.window.repoId = d.current.window.repoId := by
    rw [Reconciler.current, Reconciler.current, hd', hd, hsubject]
  refine step_loadMore_eq_singleton.2 ⟨hfree, hmore'.trans hmore, ?_⟩
  unfold RepoState.moreFetch
  rw [hnext, hrepo, hlimit, hepoch]

end

/-- A page that is to be appended has failed while its repository is the subject: if no other page
was merged there since it was asked for, asking again sends the same request. -/
theorem step_loadMore_of_failed {t : Traffic Reconciler} (hs : t.Sound) {f : PageFetch}
    (hsent : (t.state.step .loadMore).2 = [.page f]) {between : List Input} {e : Failure}
    (hout : .page f ∈ ((t.next Input.loadMore).run between).out)
    (he : f.epoch = (((t.next Input.loadMore).run between).state.repo f.repoId).epoch)
    (hsubject : ((t.next Input.loadMore).run between).state.subject = f.repoId)
    (hmerged : (t.next Input.loadMore).tally (Reconciler.merges f.repoId) between = 0) :
    ((((t.next Input.loadMore).run between).next
      (Input.completion (.page f (.error e)))).state.step .loadMore).2 = [.page f] := by
  let asked := t.next Input.loadMore
  let late := asked.run between
  let failed := late.next (Input.completion (.page f (.error e)))
  have hlate : late.Sound := (hs.next _).run between
  have hfailed : failed.Sound := hlate.next _
  -- the request is one for the next page of the subject, in the generation of that moment
  obtain ⟨-, -, hf⟩ := step_loadMore_eq_singleton.1 hsent
  have hf' : f = _ := Request.page.inj hf
  have hrepo : t.state.subject = f.repoId := by
    rw [hf']
    exact (hs.named t.state.subject).symm
  have hreason : f.reason = .loadMore := by rw [hf']
  have hepoch : f.epoch = (t.state.repo f.repoId).epoch := by
    rw [← hrepo, hf']
    rfl
  -- the rows are those of that moment all along
  have hasked : (asked.state.repo f.repoId).holding = (t.state.repo f.repoId).holding :=
    Reconciler.holding_step hs.named rfl
  have hbetween : (late.state.repo f.repoId).holding = (asked.state.repo f.repoId).holding := by
    refine holding_run_of_epoch (hs.next _) hmerged (he.symm.trans (hepoch.trans ?_))
    exact (congrArg Holding.epoch hasked).symm
  have hlast : (failed.state.repo f.repoId).holding = (late.state.repo f.repoId).holding :=
    Reconciler.holding_step hlate.named
      (late.state.brings_nothing (.page f) e f.repoId).1
  have hfree : (failed.state.repo f.repoId).loadMore = none := by
    rw [repo_next_page hlate hout, RepoState.act_page_of_eq he, RepoState.completePage_eq, hreason]
    rfl
  have hstays : failed.state.subject = f.repoId :=
    (late.state.control_step _).1.trans hsubject
  refine step_loadMore_congr hs.named hfailed.named hsent (hstays.trans hrepo.symm) ?_ ?_
  · rw [Reconciler.current, hstays]
    exact hfree
  · rw [Reconciler.current, Reconciler.current, hstays, hrepo]
    exact hlast.trans (hbetween.trans hasked)

/-- Whatever has failed, rows, reports and the project list are as they were. The failure is told of
once, frees the place of its own request and of no other, and is ignored if it is that of a page
fetch of an earlier generation. The next page, if it failed while its repository was the subject and
no other page was merged there since it was asked for, is asked for again by the same request. -/
theorem failed_run {subject : Ident} {pageLimit noticeCapacity : UInt64} {inputs : List Input}
    (hl : (start (Reconciler.new subject pageLimit noticeCapacity)).Lawful inputs) :
    let t₀ := start (Reconciler.new subject pageLimit noticeCapacity)
    let t := t₀.run inputs
    (∀ q ∈ t.out, ∀ e : Failure,
      t.state.Intact (t.next (Input.completion (q.failed e))).state ∧
        t.state.Fails e (t.state.step (.completion (q.failed e))) q) ∧
      ∀ past between f e, inputs = past ++ .loadMore :: between →
        ((t₀.run past).state.step .loadMore).2 = [.page f] → .page f ∈ t.out →
        f.epoch = (t.state.repo f.repoId).epoch → t.state.subject = f.repoId →
        (t₀.run (past ++ [.loadMore])).tally (Reconciler.merges f.repoId) between = 0 →
        ((t.next (Input.completion (.page f (.error e)))).state.step .loadMore).2 =
          [.page f] := by
  intro t₀ t
  have hs₀ : t₀.Sound := sound_start subject pageLimit noticeCapacity
  have hs : t.Sound := hs₀.run inputs
  have hp : t.ProjectsInStep :=
    (projectsInStep_start subject pageLimit noticeCapacity).run hs₀ hl
  have hroom : 0 < t.state.notices.capacity := by
    rw [capacity_run]
    exact Nat.lt_of_lt_of_le Nat.zero_lt_one (Nat.le_max_right _ _)
  constructor
  · intro q hq e
    constructor
    · exact intact_next hs (fun r => (t.state.brings_nothing q e r).1)
        (fun r => (t.state.brings_nothing q e r).2.1) (t.state.brings_nothing q e subject).2.2
    · cases q with
      | page f =>
        change if f.epoch = (t.state.repo f.repoId).epoch then _ else _
        split_ifs with he
        · exact pageFails hs hroom (balanced_run hl f.repoId) hq he e
        · exact Reconciler.step_page_of_ne he _
      | sync repo => exact syncFails hs hroom (balanced_run hl repo) hq e
      | projects => exact projectsFail hp hroom hq e
  · rintro past between f e rfl hsent
    have hasked : t₀.run (past ++ [.loadMore]) = (t₀.run past).next Input.loadMore :=
      run_concat t₀ past Input.loadMore
    have hrun : t = ((t₀.run past).next Input.loadMore).run between :=
      run_append t₀ past (.loadMore :: between)
    rw [hasked, hrun]
    exact step_loadMore_of_failed (hs₀.run past) hsent

/-- The second page fails while a refresh is out: its place alone is freed, and the next page is
asked for by the same request. -/
theorem failed_run_more :
    let t₀ := start (Reconciler.new "r" 2 4)
    let row (id : String) : Run := ⟨id, .pending, none, none, none, none⟩
    let more : PageFetch := ⟨"r", 2, 2, .loadMore, 1⟩
    let past : List Input :=
      [.load, .completion (.page ⟨"r", 0, 2, .refresh, 1⟩ (.ok ⟨[row "a", row "b"], 3⟩))]
    let inputs := past ++ [.loadMore, .event (.auditUpdate ⟨"r"⟩)]
    let t := t₀.run inputs
    let e := Failure.transport "timeout"
    t₀.Lawful inputs ∧ t.out = [.projects, .page more, .page ⟨"r", 0, 2, .refresh, 1⟩] ∧
      t.state.Intact (t.next (Input.completion ((Request.page more).failed e))).state ∧
      t.state.Fails e (t.state.step (.completion ((Request.page more).failed e)))
        (.page more) ∧
      ((t.next (Input.completion (.page more (.error e)))).state.step .loadMore).2 =
        [.page more] := by
  intro t₀ row more past inputs t e
  have hl : t₀.Lawful inputs := by decide
  have hout : t.out = [.projects, .page more, .page ⟨"r", 0, 2, .refresh, 1⟩] := by decide
  have hmem : .page more ∈ t.out := by decide
  have hsent : ((t₀.run past).state.step .loadMore).2 = [.page more] := by decide
  have hepoch : more.epoch = (t.state.repo more.repoId).epoch := by decide
  have hsubject : t.state.subject = more.repoId := by decide
  have hmerged : (t₀.run (past ++ [.loadMore])).tally (Reconciler.merges more.repoId)
      [.event (.auditUpdate ⟨"r"⟩)] = 0 := by decide
  obtain ⟨hfails, hagain⟩ := failed_run hl
  obtain ⟨hintact, hfailed⟩ := hfails (.page more) hmem e
  have hretry := hagain past [.event (.auditUpdate ⟨"r"⟩)] more e rfl hsent hmem hepoch hsubject
    hmerged
  refine ⟨hl, hout, ?_, ?_, ?_⟩
  · with_reducible exact hintact
  · with_reducible exact hfailed
  · with_reducible exact hretry

end Traffic

end LiveAudit
