import LiveAudit.Proofs.History
import LiveAudit.Proofs.InFlight

/-!
# Nothing asked for is lost or sent twice

A fetch that is asked for while one is in flight goes out when that one comes back, and one such
fetch stands for all that were asked for meanwhile. `Gate.Serves` says what a step may do at a gate
so that this is true, and every step does (`RepoState.serves_act`, `Reconciler.serves_projects`). So
in every run what is asked for has been sent since, or it waits for an answer that will make it go
out, and no more is sent than was asked for (`Traffic.Gated.served`).
-/

namespace LiveAudit

open Reconciler (Input share)

/-! ### Gates -/

namespace Gate

/-- What a step does at a gate, by whether a fetch is asked for and how many go out. -/
structure Serves (asked : Bool) (sent : Nat) (before after : Gate) : Prop where
  /-- No more go out or wait than were asked for or waited. -/
  bounded : sent + after.trailing.toNat ≤ before.trailing.toNat + asked.toNat
  /-- What is asked for goes out or waits, and so does what has waited. -/
  kept : asked ∨ before.trailing → 0 < sent ∨ after.trailing
  /-- Fetches wait only while one is in flight. -/
  waits : (before.trailing → before.inFlight) → after.trailing → after.inFlight

theorem serves_nothing (g : Gate) : Serves false 0 g g where
  bounded := by simp
  kept := by simp
  waits h := h

theorem serves_request (g : Gate) : Serves true g.request.2.toNat g g.request.1 := by
  obtain ⟨inFlight, trailing⟩ := g
  cases inFlight <;> cases trailing <;> constructor <;> decide

theorem serves_settle (g : Gate) : Serves false g.settle.2.toNat g g.settle.1 := by
  obtain ⟨inFlight, trailing⟩ := g
  cases inFlight <;> cases trailing <;> constructor <;> decide

/-- A gate that is opened anew sends at once, and forgets what has waited. -/
theorem serves_renew (g : Gate) : Serves true 1 g idle.request.1 := by
  obtain ⟨inFlight, trailing⟩ := g
  cases inFlight <;> cases trailing <;> constructor <;> decide

end Gate

/-! ### Refreshes of one repository -/

/-- Whether a deed asks for a refresh. -/
def Deed.asks : Deed → Bool
  | .reopen | .refresh | .observe false | .sync _ (.ok _) => true
  | .loadMore | .startSync | .observe true | .report _ | .page _ _ | .sync _ (.error _) => false

namespace RepoState

theorem countP_requestRefresh (s : RepoState) :
    s.requestRefresh.2.countP Request.isRefresh = s.refresh.request.2.toNat := by
  rw [requestRefresh_eq, Gate.request]
  cases s.refresh.inFlight <;> rfl

/-- Asking for a refresh is asking at the gate for it. -/
theorem serves_requestRefresh (s : RepoState) :
    Gate.Serves true (s.requestRefresh.2.countP Request.isRefresh) s.refresh
      s.requestRefresh.1.refresh := by
  rw [countP_requestRefresh]
  exact s.refresh.serves_request

/-- The answer to a fetch settles the gate if it is one to a refresh. -/
theorem serves_settleFetch (s : RepoState) (reason : FetchReason) :
    Gate.Serves false ((s.settleFetch reason).2.countP Request.isRefresh) s.refresh
      (s.settleFetch reason).1.refresh := by
  cases reason with
  | loadMore => exact s.refresh.serves_nothing
  | refresh =>
    have hcount : (s.settleFetch .refresh).2.countP Request.isRefresh =
        s.refresh.settle.2.toNat := by
      rw [settleFetch_refresh, Gate.settle]
      cases s.refresh.trailing <;> rfl
    rw [hcount]
    exact s.refresh.serves_settle

/-- While a refresh waits, the answer to the one in flight sends exactly one more. -/
theorem sent_of_trailing {s : RepoState} (ht : s.refresh.trailing) {f : PageFetch}
    (hr : f.reason = .refresh) (he : f.epoch = s.epoch) (result : Except Failure Page) :
    ∃ q, (s.act (.page f result)).2 = [q] ∧
      Request.isFetch s.window.repoId .refresh s.epoch q := by
  have ht' : (s.merge f result).refresh.trailing = true := by cases result <;> exact ht
  have hepoch : (s.merge f result).epoch = s.epoch := by cases result <;> rfl
  refine ⟨(s.merge f result).openGate.refreshFetch, ?_, ?_⟩
  · rw [act_page_of_eq he, completePage_eq, hr, settleFetch_refresh, if_pos ht', requestRefresh_eq]
    rfl
  · refine Request.isFetch_page.2 ⟨?_, rfl, hepoch⟩
    exact s.repoId_merge f result

/-- Every deed serves the gate for refreshes. -/
theorem serves_act (s : RepoState) (a : Deed) :
    Gate.Serves a.asks ((s.act a).2.countP Request.isRefresh) s.refresh (s.act a).1.refresh := by
  cases a with
  | reopen => exact s.refresh.serves_renew
  | refresh => exact s.serves_requestRefresh
  | loadMore =>
    have hnone : s.requestMore.2.countP Request.isRefresh = 0 := by
      unfold requestMore
      split <;> rfl
    simp only [act, Deed.asks, hnone, refresh_requestMore]
    exact s.refresh.serves_nothing
  | startSync =>
    simp only [act]
    split <;> exact s.refresh.serves_nothing
  | observe running =>
    cases running with
    | true => exact s.refresh.serves_nothing
    | false => exact serves_requestRefresh _
  | report p => exact s.refresh.serves_nothing
  | page f result =>
    by_cases he : f.epoch = s.epoch
    · have hgate : (s.merge f result).refresh = s.refresh := by cases result <;> rfl
      rw [act_page_of_eq he, completePage_eq, ← hgate]
      exact serves_settleFetch _ _
    · rw [act_page_of_ne he]
      exact s.refresh.serves_nothing
  | sync repo result =>
    cases result with
    | ok report => exact serves_requestRefresh _
    | error e => exact s.refresh.serves_nothing

end RepoState

/-! ### Runs past a gate -/

namespace Traffic

section

variable {ι σ : Type} [Dialogue ι σ]

/-- A gate that every step serves, as long as an invariant holds. -/
structure Gated (I : Traffic σ → Prop) (gate : σ → Gate) (asks : σ → ι → Bool)
    (p : Request → Bool) : Prop where
  keep : ∀ t (i : ι), I t → I (t.next i)
  serves : ∀ t (i : ι), I t → t.Admits i → Gate.Serves (asks t.state i)
    ((Dialogue.step t.state i).2.countP p) (gate t.state) (gate (t.next i).state)

namespace Gated

variable {I : Traffic σ → Prop} {gate : σ → Gate} {asks : σ → ι → Bool} {p : Request → Bool}

/-- In a run, no more is sent or waits at the end than was asked for or waited. -/
theorem bounded (h : Gated I gate asks p) {t : Traffic σ} (ht : I t) {inputs : List ι}
    (hl : t.Lawful inputs) :
    (t.sent inputs).countP p + (gate (t.run inputs).state).trailing.toNat ≤
      (gate t.state).trailing.toNat + t.tally asks inputs := by
  induction inputs generalizing t with
  | nil => simp [tally]
  | cons i rest ih =>
    have hstep := (h.serves t i ht hl.1).bounded
    have hrest := ih (h.keep t i ht) hl.2
    rw [sent_cons, List.countP_append, tally, run_cons]
    omega

/-- In a run, fetches wait only while one is in flight. -/
theorem waits (h : Gated I gate asks p) {t : Traffic σ} (ht : I t) {inputs : List ι}
    (hl : t.Lawful inputs) (hw : (gate t.state).trailing → (gate t.state).inFlight) :
    (gate (t.run inputs).state).trailing → (gate (t.run inputs).state).inFlight := by
  induction inputs generalizing t with
  | nil => exact hw
  | cons i rest ih => exact ih (h.keep t i ht) hl.2 ((h.serves t i ht hl.1).waits hw)

/-- What is asked for or waits is sent, or waits at the end, if that is so from the next input
on. -/
theorem kept_cons (h : Gated I gate asks p) {t : Traffic σ} (ht : I t) {i : ι} {rest : List ι}
    (hi : t.Admits i) (hw : asks t.state i ∨ (gate t.state).trailing)
    (hrest : (gate (t.next i).state).trailing →
      (∃ q ∈ (t.next i).sent rest, p q) ∨ (gate ((t.next i).run rest).state).trailing) :
    (∃ q ∈ t.sent (i :: rest), p q) ∨ (gate (t.run (i :: rest)).state).trailing := by
  rw [sent_cons, run_cons]
  rcases (h.serves t i ht hi).kept hw with hsent | hwaits
  · obtain ⟨q, hq, hp⟩ := List.countP_pos_iff.1 hsent
    exact .inl ⟨q, List.mem_append_left _ hq, hp⟩
  · refine (hrest hwaits).imp_left ?_
    rintro ⟨q, hq, hp⟩
    exact ⟨q, List.mem_append_right _ hq, hp⟩

/-- What waits is sent in the run, or still waits at its end. -/
theorem kept_of_trailing (h : Gated I gate asks p) {t : Traffic σ} (ht : I t) {inputs : List ι}
    (hl : t.Lawful inputs) (hw : (gate t.state).trailing) :
    (∃ q ∈ t.sent inputs, p q) ∨ (gate (t.run inputs).state).trailing := by
  induction inputs generalizing t with
  | nil => exact .inr hw
  | cons i rest ih => exact h.kept_cons ht hl.1 (.inr hw) (ih (h.keep t i ht) hl.2)

/-- What an input asks for is sent from then on, or waits at the end of the run. -/
theorem kept (h : Gated I gate asks p) {t : Traffic σ} (ht : I t) {i : ι} {rest : List ι}
    (hl : t.Lawful (i :: rest)) (hasks : asks t.state i) :
    (∃ q ∈ t.sent (i :: rest), p q) ∨ (gate (t.run (i :: rest)).state).trailing :=
  h.kept_cons ht hl.1 (.inl hasks) (h.kept_of_trailing (h.keep t i ht) hl.2)

end Gated

end

end Traffic

/-! ### Refreshes and the project list -/

/-- Whether a request is for a refresh of a repository. -/
def Request.refreshes (repo : Ident) (q : Request) : Bool :=
  q.isRefresh && q.concerns repo

namespace Reconciler

/-- Whether an input asks for a refresh of a repository. -/
def asksRefresh (repo : Ident) (d : Reconciler) : Input → Bool
  | .refresh => d.subject = repo
  | .event (.auditUpdate p) => p.repoId = d.subject ∧ d.subject = repo
  | .event (.syncProgress p) => p.repoId = d.subject ∧ d.subject = repo ∧ p.status ≠ "running"
  | .completion (.sync r (.ok _)) => r = repo
  | i => d.opens repo i

/-- Every input serves the gate for the project list. -/
theorem serves_projects {d : Reconciler} (hd : d.Named) (i : Input) :
    Gate.Serves (asksProjects i) ((d.step i).2.count .projects) d.projectsGate
      (d.step i).1.projectsGate := by
  rw [Traffic.count_projects_step hd, (d.control_step i).2]
  by_cases hp : i.answered = some .projects
  · obtain ⟨c, rfl, hc⟩ := Input.exists_of_answered hp
    rw [stepProjects_of_answered hp]
    exact d.projectsGate.serves_settle
  · rw [stepProjects_of_answered_ne hp]
    cases asksProjects i with
    | true => exact d.projectsGate.serves_request
    | false => exact d.projectsGate.serves_nothing

end Reconciler

/-- What a deed does serves the gate for refreshes, and so does doing nothing. -/
theorem RepoState.serves_follow (s : RepoState) (o : Option Deed) :
    Gate.Serves (o.any Deed.asks) ((s.follow o).2.countP Request.isRefresh) s.refresh
      (s.follow o).1.refresh := by
  cases o with
  | none => exact s.refresh.serves_nothing
  | some a => exact s.serves_act a

namespace Traffic

open Reconciler in
/-- An input asks for a refresh if the deed does that it amounts to. -/
theorem asksRefresh_iff {t : Traffic Reconciler} (hs : t.Sound) {i : Input} (hi : t.Admits i)
    (repo : Ident) :
    t.state.asksRefresh repo i ↔ ∃ a, t.state.target i = some (repo, a) ∧ a.asks := by
  cases i with
  | load => simp [asksRefresh, opens, target, Deed.asks]
  | switchTo subject => simp [asksRefresh, opens, target, Deed.asks]
  | refresh => simp [asksRefresh, target, Deed.asks]
  | startSync => simp [asksRefresh, opens, target, Deed.asks]
  | loadMore => simp [asksRefresh, opens, target, Deed.asks]
  | event e =>
    cases e with
    | syncProgress p =>
      have hrunning : p.isRunning ↔ p.status = "running" := by simp [SyncProgress.isRunning]
      cases h : p.isRunning <;> simp [asksRefresh, target, Deed.asks, ← hrunning, h]
    | auditProgress p => simp [asksRefresh, opens, target, Deed.asks]
    | auditUpdate p => simp [asksRefresh, target, Deed.asks]
    | contractProgress p => simp [asksRefresh, opens, target]
    | build phase => simp [asksRefresh, opens, target]
    | other kind => simp [asksRefresh, opens, target]
  | completion c =>
    cases c with
    | page f result => simp [asksRefresh, opens, target, Deed.asks]
    | sync r result =>
      have hknown : t.state.Knows r := hs.known (.sync r) (hi _ rfl) r (by simp [Request.concerns])
      cases result <;> simp [asksRefresh, opens, target, Deed.asks, hknown]
    | projects result => simp [asksRefresh, opens, target]

/-- Every input serves the gate for refreshes of a repository. -/
theorem gated_refresh (repo : Ident) :
    Gated Sound (fun d => (d.repo repo).refresh) (Reconciler.asksRefresh repo)
      (Request.refreshes repo) where
  keep _ i hs := hs.next i
  serves t i hs hi := by
    have hcount : (t.state.step i).2.countP (Request.refreshes repo) =
        ((t.state.repo repo).follow (share (t.state.target i) repo)).2.countP
          Request.isRefresh := by
      rw [← filter_step hs.named, List.countP_filter]
      rfl
    have hasks : t.state.asksRefresh repo i = (share (t.state.target i) repo).any Deed.asks := by
      rw [Bool.eq_iff_iff, asksRefresh_iff hs hi, Option.any_eq_true]
      simp only [← Reconciler.share_eq_some_iff]
    rw [hs.repo_next, hasks]
    exact hcount ▸ (t.state.repo repo).serves_follow _

/-- Every input serves the gate for the project list. -/
theorem gated_projects :
    Gated Sound Reconciler.projectsGate (fun _ => Reconciler.asksProjects)
      (fun q => q == .projects) where
  keep _ i hs := hs.next i
  serves t i hs _ := t.state.serves_projects hs.named i

/-! ### What waits -/

/-- A request of a kind waits for the answer to one of that kind which is out: whatever the answer
is, exactly one more goes out. -/
def Waits (t : Traffic Reconciler) (p : Request → Bool) : Prop :=
  ∃ q ∈ t.out, p q ∧ ∀ c : Completion, c.request = q →
    ∃ q', (t.state.step (.completion c)).2 = [q'] ∧ p q'

/-- While a refresh waits, one of the present generation is out, and its answer lets it go. -/
theorem waits_refresh {t : Traffic Reconciler} (hs : t.Sound) {repo : Ident}
    (hb : (t.state.repo repo).Balanced (t.only repo).out)
    (ht : (t.state.repo repo).refresh.trailing) (hg : (t.state.repo repo).refresh.inFlight) :
    t.Waits (Request.isFetch repo .refresh (t.state.repo repo).epoch) := by
  obtain ⟨limit, hr⟩ := hb.refreshes
  rw [if_pos hg, hs.named repo] at hr
  have hmem : Request.page ⟨repo, 0, limit, .refresh, (t.state.repo repo).epoch⟩ ∈
      (t.only repo).out := List.mem_of_mem_filter (hr ▸ List.mem_singleton_self _)
  obtain ⟨hout, -⟩ := mem_only.1 hmem
  refine ⟨_, hout, by simp, ?_⟩
  rintro (⟨f, result⟩ | ⟨r, result⟩ | ⟨result⟩) hc
  · obtain rfl := Request.page.inj hc
    obtain ⟨q, hq, hfetch⟩ := RepoState.sent_of_trailing ht
      (f := ⟨repo, 0, limit, .refresh, (t.state.repo repo).epoch⟩) rfl rfl result
    rw [hs.named repo] at hfetch
    exact ⟨q, (step_page hs hout result).trans hq, hfetch⟩
  · simp [Completion.request] at hc
  · simp [Completion.request] at hc

/-- While the project list waits, a fetch of it is out, and its answer lets it go. -/
theorem waits_projects {t : Traffic Reconciler} (hp : t.ProjectsInStep)
    (ht : t.state.projectsGate.trailing) (hg : t.state.projectsGate.inFlight) :
    t.Waits fun q => q == .projects := by
  have hcount : t.out.count .projects = 1 := hp.trans (by rw [hg]; rfl)
  have hout : .projects ∈ t.out := List.count_pos_iff.1 (by rw [hcount]; exact Nat.one_pos)
  refine ⟨.projects, hout, rfl, ?_⟩
  rintro (⟨f, result⟩ | ⟨r, result⟩ | ⟨result⟩) hc
  · simp [Completion.request] at hc
  · simp [Completion.request] at hc
  · refine ⟨.projects, ?_, rfl⟩
    cases result <;>
      simp [Reconciler.step, Reconciler.complete, Reconciler.completeProjects, Reconciler.notify,
        Gate.settle, ht]

/-- Whatever a run asks for, it has sent since, or it waits at the end; and no more is sent. -/
structure Served (asks : Reconciler → Input → Bool) (p now : Request → Bool)
    (t : Traffic Reconciler) (inputs : List Input) : Prop where
  kept : ∀ past i rest, inputs = past ++ i :: rest → asks (t.run past).state i →
    (∃ q ∈ (t.run past).sent (i :: rest), p q) ∨ (t.run inputs).Waits now
  bounded : (t.sent inputs).countP p ≤ t.tally asks inputs

/-- A gate that every step serves serves a run, if what is left trailing waits. -/
theorem Gated.served {gate : Reconciler → Gate} {asks : Reconciler → Input → Bool}
    {p now : Request → Bool} (h : Gated Sound gate asks p) {t : Traffic Reconciler} (hs : t.Sound)
    {inputs : List Input} (hl : t.Lawful inputs) (hidle : (gate t.state).trailing = false)
    (hwaits : (gate (t.run inputs).state).trailing → (gate (t.run inputs).state).inFlight →
      (t.run inputs).Waits now) : t.Served asks p now inputs where
  kept := by
    rintro past i rest rfl hasks
    have hrest := (lawful_append.1 hl).2
    refine (h.kept (hs.run past) hrest hasks).imp_right fun ht => ?_
    rw [← run_append] at ht
    exact hwaits ht (h.waits hs hl (by simp [hidle]) ht)
  bounded := by
    have hbound := h.bounded hs hl
    rw [hidle, Bool.toNat_false, Nat.zero_add] at hbound
    exact Nat.le_trans (Nat.le_add_right _ _) hbound

/-- In every run, each refresh that is asked for has been sent since, or waits for the one of the
present generation that is out and goes out with its answer; and no more are sent than were asked
for. The same is true of the project list. -/
theorem served_run (subject : Ident) (pageLimit noticeCapacity : UInt64) {inputs : List Input}
    (hl : (start (Reconciler.new subject pageLimit noticeCapacity)).Lawful inputs) :
    let t := start (Reconciler.new subject pageLimit noticeCapacity)
    (∀ repo, t.Served (Reconciler.asksRefresh repo) (Request.refreshes repo)
      (Request.isFetch repo .refresh ((t.run inputs).state.repo repo).epoch) inputs) ∧
    t.Served (fun _ => Reconciler.asksProjects) (fun q => q == .projects)
      (fun q => q == .projects) inputs := by
  intro t
  have hs : t.Sound := sound_start subject pageLimit noticeCapacity
  constructor
  · intro repo
    have hidle : (t.state.repo repo).refresh.trailing = false := by
      have hnew := congrArg Traffic.state (only_start subject repo pageLimit noticeCapacity)
      exact congrArg (fun s : RepoState => s.refresh.trailing) hnew
    exact (gated_refresh repo).served hs hl hidle fun ht hg =>
      waits_refresh (hs.run inputs) (balanced_run hl repo) ht hg
  · have hstep : t.ProjectsInStep := projectsInStep_start subject pageLimit noticeCapacity
    exact gated_projects.served hs hl rfl fun ht hg => waits_projects (hstep.run hs hl) ht hg

/-- A repository that is left and opened again while a refresh of it is out, and asked for once
more: five times a refresh is asked for and two are sent, and the last one asked for waits although
the earlier generation's has failed. -/
theorem served_run_reopened :
    let t := start (Reconciler.new "r" 2 4)
    let inputs : List Input := [.load, .event (.auditUpdate ⟨"r"⟩), .event (.build .started),
      .refresh, .switchTo "s", .switchTo "r", .event (.syncProgress ⟨"r", "done"⟩),
      .completion (.page ⟨"r", 0, 2, .refresh, 1⟩ (.error (.transport "timeout")))]
    t.Lawful inputs ∧ t.tally (Reconciler.asksRefresh "r") inputs = 5 ∧
      (t.sent inputs).countP (Request.refreshes "r") = 2 ∧
      (t.run inputs).Waits (Request.isFetch "r" .refresh 2) ∧
      (t.run inputs).Waits fun q => q == .projects := by
  intro t inputs
  have hl : t.Lawful inputs := by decide
  obtain ⟨hrefresh, hprojects⟩ := served_run "r" 2 4 hl
  refine ⟨hl, by decide, by decide, ?_, ?_⟩
  · have hkept := (hrefresh "r").kept (inputs.take 6) (.event (.syncProgress ⟨"r", "done"⟩))
      (inputs.drop 7) rfl (by decide)
    exact hkept.resolve_left (by decide)
  · have hkept := hprojects.kept (inputs.take 2) (.event (.build .started)) (inputs.drop 3) rfl rfl
    exact hkept.resolve_left (by decide)

end Traffic

end LiveAudit
