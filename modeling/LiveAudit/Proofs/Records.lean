import LiveAudit.Proofs.Generations
import LiveAudit.Proofs.Tracking

/-!
# What inputs record

Flags and gates aside, a reconciler keeps what the server has told it: the rows of each repository
with the place they have in its list (`RepoState.holding`), the reports of synchronisations, the
list of projects, and notices of what went wrong. Here is which inputs touch each of these.

Rows and totals change where a repository is opened or a page of its present generation is merged,
and nowhere else (`Traffic.holding_run`). Every input raises one notice at most, and which one it is
can be told beforehand (`Reconciler.raises`, `Reconciler.notices_step`).
-/

namespace LiveAudit

open Reconciler (Input share)

/-! ### Rows -/

/-- The rows that are held of a repository, with their place in its list. -/
structure Holding where
  items : List Run
  total : UInt64
  offset : UInt64
  limit : UInt64
  /-- Generation of the rows. -/
  epoch : Nat
deriving DecidableEq

namespace RepoState

/-- What is held of the repository. -/
def holding (s : RepoState) : Holding :=
  ⟨s.window.items, s.window.total, s.window.offset, s.window.limit, s.epoch⟩

/-- Whether a deed brings other rows: the window is emptied, or a page of its generation comes. -/
def refills (s : RepoState) : Deed → Bool
  | .reopen => true
  | .page f (.ok _) => f.epoch = s.epoch
  | .page _ (.error _) | .refresh | .loadMore | .startSync | .observe _ | .report _ | .sync _ _ =>
    false

@[simp] theorem holding_requestMore (s : RepoState) :
    s.requestMore.1.holding = s.holding := by
  unfold requestMore
  split <;> rfl

@[simp] theorem holding_settleFetch (s : RepoState) (reason : FetchReason) :
    (s.settleFetch reason).1.holding = s.holding := by
  cases reason <;> rfl

/-- Any other deed leaves the rows and their place as they are. -/
theorem holding_act {s : RepoState} {a : Deed} (h : s.refills a = false) :
    (s.act a).1.holding = s.holding := by
  cases a with
  | reopen => simp [refills] at h
  | refresh => rfl
  | loadMore => exact s.holding_requestMore
  | startSync =>
    simp only [act]
    split <;> rfl
  | observe running => cases running <;> rfl
  | report p => rfl
  | page f result =>
    by_cases he : f.epoch = s.epoch
    · cases result with
      | ok page => simp [refills, he] at h
      | error e => rw [act_page_of_eq he, completePage_eq, holding_settleFetch]; rfl
    · rw [act_page_of_ne he]
  | sync repo result => cases result <;> rfl

/-- Whether there are more rows, and where they begin, is told by what is held. -/
theorem nextOffset_congr {s s' : RepoState} (h : s'.holding = s.holding) :
    s'.window.nextOffset = s.window.nextOffset ∧ s'.window.hasMore = s.window.hasMore := by
  obtain ⟨-, htotal, hoffset, hlimit, -⟩ := Holding.mk.inj h
  have hnext : s'.window.nextOffset = s.window.nextOffset := by
    unfold Window.nextOffset
    rw [hoffset, hlimit]
  refine ⟨hnext, ?_⟩
  unfold Window.hasMore
  rw [hnext, htotal]

end RepoState

namespace Reconciler

/-- Whether an input brings a page that is merged into the window of a repository. -/
def merges (repo : Ident) (d : Reconciler) : Input → Bool
  | .completion (.page f (.ok _)) => f.repoId = repo ∧ f.epoch = (d.repo repo).epoch
  | _ => false

/-- Whether an input brings other rows to a repository: it opens it, or brings a page. -/
def refills (repo : Ident) (d : Reconciler) (i : Input) : Bool :=
  d.opens repo i || d.merges repo i

/-- An input that brings other rows to a repository amounts to a deed that does. -/
theorem refills_of_share {d : Reconciler} {repo : Ident} {i : Input} {a : Deed}
    (h : share (d.target i) repo = some a) (ha : (d.repo repo).refills a) : d.refills repo i := by
  have htarget := share_eq_some_iff.1 h
  cases a with
  | reopen => exact Bool.or_eq_true_iff.2 (.inl (opens_iff.2 htarget))
  | page f result =>
    obtain ⟨rfl, rfl, -⟩ := Traffic.target_eq_page.1 htarget
    cases result with
    | ok page =>
      have he : f.epoch = (d.repo f.repoId).epoch := of_decide_eq_true ha
      simp [refills, merges, he]
    | error e => simp [RepoState.refills] at ha
  | refresh => simp [RepoState.refills] at ha
  | loadMore => simp [RepoState.refills] at ha
  | startSync => simp [RepoState.refills] at ha
  | observe running => simp [RepoState.refills] at ha
  | report p => simp [RepoState.refills] at ha
  | sync r result => simp [RepoState.refills] at ha

/-- Other inputs leave the rows of a repository and their place as they are. -/
theorem holding_step {d : Reconciler} (hd : d.Named) {repo : Ident} {i : Input}
    (h : d.refills repo i = false) :
    ((d.step i).1.repo repo).holding = (d.repo repo).holding := by
  rw [(does_step hd i).repo repo]
  cases ha : share (d.target i) repo with
  | none => rfl
  | some a =>
    refine RepoState.holding_act (Bool.eq_false_iff.2 fun hr => ?_)
    rw [refills_of_share ha hr] at h
    cases h

end Reconciler

namespace Traffic

/-- The rows of a repository change in a run only where it is opened or a page of its present
generation comes. -/
theorem holding_run {t : Traffic Reconciler} (hs : t.Sound) {repo : Ident} {inputs : List Input}
    (h : t.tally (Reconciler.refills repo) inputs = 0) :
    ((t.run inputs).state.repo repo).holding = (t.state.repo repo).holding := by
  induction inputs generalizing t with
  | nil => rfl
  | cons i rest ih =>
    obtain ⟨hi, hrest⟩ := Nat.add_eq_zero_iff.1 h
    rw [run_cons, ih (hs.next i) hrest]
    exact Reconciler.holding_step hs.named (Bool.toNat_eq_zero.1 hi)

/-- Where the generation at the end is that of the beginning, the repository was not opened, so that
only pages count. -/
theorem holding_run_of_epoch {t : Traffic Reconciler} (hs : t.Sound) {repo : Ident}
    {inputs : List Input} (h : t.tally (Reconciler.merges repo) inputs = 0)
    (he : ((t.run inputs).state.repo repo).epoch = (t.state.repo repo).epoch) :
    ((t.run inputs).state.repo repo).holding = (t.state.repo repo).holding := by
  induction inputs generalizing t with
  | nil => rfl
  | cons i rest ih =>
    obtain ⟨hi, hrest⟩ := Nat.add_eq_zero_iff.1 h
    have hfirst := hs.epoch_le_next repo i
    have hlater := epoch_le_run (hs.next i) repo rest
    rw [run_cons] at he ⊢
    have hsame : ((t.next i).state.repo repo).epoch = (t.state.repo repo).epoch := by omega
    have hopens : t.state.opens repo i = false := by
      refine Bool.eq_false_iff.2 fun hopens => ?_
      rw [epoch_next_of_opens hs hopens] at hsame
      omega
    rw [ih (hs.next i) hrest (he.trans hsame.symm)]
    refine Reconciler.holding_step hs.named ?_
    rw [Reconciler.refills, hopens, Bool.toNat_eq_zero.1 hi]
    rfl

end Traffic

/-! ### Notices and projects -/

namespace NoticeLog

/-- One more notice than before: it is the last one kept, under the next number, and all others that
are kept were kept before. -/
structure Gains (level : NoticeLevel) (message : String) (log log' : NoticeLog) : Prop where
  raised : log'.raised = log.raised + 1
  last : log'.kept.getLast? = some ⟨log.raised + 1, level, message⟩
  older : log'.kept.dropLast <:+ log.kept

@[simp] theorem capacity_push (log : NoticeLog) (level : NoticeLevel) (message : String) :
    (log.push level message).capacity = log.capacity := rfl

/-- A notice that is pushed is gained, where there is room for one. -/
theorem gains_push {log : NoticeLog} (h : 0 < log.capacity) (level : NoticeLevel)
    (message : String) : log.Gains level message (log.push level message) where
  raised := rfl
  last := by
    have hfits : log.kept.length + 1 - log.capacity ≤ log.kept.length := by omega
    simp [push, List.drop_append_of_le_length hfits]
  older := by
    have hfits : log.kept.length + 1 - log.capacity ≤ log.kept.length := by omega
    simp [push, List.drop_append_of_le_length hfits, List.drop_suffix]

end NoticeLog

namespace Reconciler

/-- The notice that an input raises. -/
def raises (d : Reconciler) : Input → Option (NoticeLevel × String)
  | .startSync =>
    match d.current.sync.start with
    | .ok _ => none
    | .error e => some (.error, e.message)
  | .completion (.page f (.error e)) =>
    if d.Knows f.repoId ∧ f.epoch = (d.repo f.repoId).epoch then
      some (.error, "Loading audits failed: " ++ e.message)
    else none
  | .completion (.sync repo (.ok report)) =>
    if d.Knows repo then
      some (.info, "Sync finished: " ++ toString report.synced ++ " synced, " ++
        toString report.skipped ++ " skipped")
    else none
  | .completion (.sync repo (.error e)) =>
    if d.Knows repo then some (.error, "Sync failed: " ++ e.message) else none
  | .completion (.projects (.error e)) => some (.error, "Loading projects failed: " ++ e.message)
  | .load | .switchTo _ | .refresh | .loadMore | .event _ | .completion (.page _ (.ok _))
  | .completion (.projects (.ok _)) => none

/-- The project list that an input brings. -/
def lists : Input → Option (List Project)
  | .completion (.projects (.ok projects)) => some projects
  | _ => none

/-- The notices after one was raised, if one was. -/
def noticesAfter (d : Reconciler) (raised : Option (NoticeLevel × String)) : NoticeLog :=
  raised.elim d.notices fun n => d.notices.push n.1 n.2

/-- An input raises the notice that `raises` tells, and brings the project list that `lists`
does. -/
theorem records_step (d : Reconciler) (i : Input) :
    (d.step i).1.notices = d.noticesAfter (d.raises i) ∧
      (d.step i).1.projects = (lists i).getD d.projects := by
  cases i with
  | load => exact ⟨rfl, rfl⟩
  | switchTo subject =>
    simp only [step, switchTo]
    split <;> exact ⟨rfl, rfl⟩
  | refresh => exact ⟨rfl, rfl⟩
  | startSync =>
    simp only [step, startSync, raises]
    cases d.current.sync.start <;> exact ⟨rfl, rfl⟩
  | loadMore => exact ⟨rfl, rfl⟩
  | event e =>
    cases e with
    | syncProgress p =>
      simp only [step, handle]
      split <;> exact ⟨rfl, rfl⟩
    | auditProgress p =>
      simp only [step, handle]
      split <;> exact ⟨rfl, rfl⟩
    | auditUpdate p =>
      simp only [step, handle]
      split <;> exact ⟨rfl, rfl⟩
    | contractProgress p =>
      simp only [step, handle]
      split <;> exact ⟨rfl, rfl⟩
    | build phase => exact ⟨rfl, rfl⟩
    | other kind => exact ⟨rfl, rfl⟩
  | completion c =>
    cases c with
    | page f result =>
      simp only [step, complete, completePage]
      cases hf : d.repos.find? f.repoId with
      | none => cases result <;> simp [raises, noticesAfter, lists, Knows, hf]
      | some s =>
        obtain rfl := repo_of_find? hf
        by_cases he : f.epoch = (d.repo f.repoId).epoch <;> cases result <;>
          simp [raises, noticesAfter, lists, Knows, hf, he, setRepo, notify]
    | sync repo result =>
      simp only [step, complete, completeSync]
      cases hf : d.repos.find? repo with
      | none => cases result <;> simp [raises, noticesAfter, lists, Knows, hf]
      | some s => cases result <;> simp [raises, noticesAfter, lists, Knows, hf, setRepo, notify]
    | projects result => cases result <;> exact ⟨rfl, rfl⟩

/-- No input changes how many notices there is room for. -/
theorem capacity_step (d : Reconciler) (i : Input) :
    (d.step i).1.notices.capacity = d.notices.capacity := by
  rw [(d.records_step i).1]
  cases d.raises i <;> rfl

/-- The rows of all repositories, the reports of synchronisations and the project list are as they
were. -/
structure Intact (d d' : Reconciler) : Prop where
  holding : ∀ r, (d'.repo r).holding = (d.repo r).holding
  lastReport : ∀ r, (d'.repo r).sync.lastReport = (d.repo r).sync.lastReport
  projects : d'.projects = d.projects

end Reconciler

namespace Traffic

/-- An input that opens nothing and brings neither a page, nor a report, nor a list leaves rows,
reports and the list as they are. -/
theorem intact_next {t : Traffic Reconciler} (hs : t.Sound) {i : Input}
    (hrows : ∀ r, t.state.refills r i = false) (hreports : ∀ r, t.state.reportMark r i = none)
    (hlist : Reconciler.lists i = none) : t.state.Intact (t.next i).state where
  holding r := Reconciler.holding_step hs.named (hrows r)
  lastReport r := by rw [lastReport_next hs, hreports r, Option.none_or]
  projects := (t.state.records_step i).2.trans (by rw [hlist, Option.getD_none])

/-- No run changes how many notices there is room for. -/
theorem capacity_run (t : Traffic Reconciler) (inputs : List Input) :
    (t.run inputs).state.notices.capacity = t.state.notices.capacity := by
  induction inputs generalizing t with
  | nil => rfl
  | cons i rest ih => exact (ih (t.next i)).trans (t.state.capacity_step i)

end Traffic

end LiveAudit
