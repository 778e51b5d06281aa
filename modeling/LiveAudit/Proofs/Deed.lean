import LiveAudit.Event
import LiveAudit.RepoState
import LiveAudit.Proofs.Traffic

/-!
# Deeds

Everything that can happen to the state of one repository, as one type of inputs. `RepoState.act`
tells what a deed does, in terms of the operations on repository states; the lemmas here say what
each operation sends and what it leaves alone, and later modules use them in place of the operations
themselves.
-/

namespace LiveAudit

/-- What can happen to the state of one repository. -/
inductive Deed where
  /-- The repository is opened again or becomes the subject. -/
  | reopen
  | refresh
  | loadMore
  | startSync
  /-- The server reports whether a synchronisation runs. -/
  | observe (running : Bool)
  | report (p : AuditProgress)
  | page (fetch : PageFetch) (result : Except Failure Page)
  | sync (repo : Ident) (result : Except Failure SyncReport)

/-- The request that a deed answers. -/
def Deed.answered : Deed → Option Request
  | .page fetch _ => some (.page fetch)
  | .sync repo _ => some (.sync repo)
  | .reopen | .refresh | .loadMore | .startSync | .observe _ | .report _ => none

namespace RepoState

/-- What a deed does. -/
def act (s : RepoState) : Deed → RepoState × List Request
  | .reopen => s.reset.requestRefresh
  | .refresh => s.requestRefresh
  | .loadMore => s.requestMore
  | .startSync =>
    match s.sync.start with
    | .ok sync => ({ s with sync := sync }, [.sync s.window.repoId])
    | .error _ => (s, [])
  | .observe true => ({ s with sync := s.sync.observe true }, [])
  | .observe false =>
    { s with sync := s.sync.observe false, progress := s.progress.clear }.requestRefresh
  | .report p => ({ s with progress := s.progress.update p.repoId p.progress }, [])
  | .page fetch result => if fetch.epoch ≠ s.epoch then (s, []) else s.completePage fetch result
  | .sync _ result => s.completeSync result

end RepoState

/-- A page of the current generation is taken. -/
theorem RepoState.act_page_of_eq {s : RepoState} {f : PageFetch} (h : f.epoch = s.epoch)
    (result : Except Failure Page) : s.act (.page f result) = s.completePage f result :=
  if_neg (not_not.2 h)

/-- A page of another generation is dropped. -/
theorem RepoState.act_page_of_ne {s : RepoState} {f : PageFetch} (h : f.epoch ≠ s.epoch)
    (result : Except Failure Page) : s.act (.page f result) = (s, []) :=
  if_pos h

instance : Dialogue Deed RepoState where
  step := RepoState.act
  answered := Deed.answered

namespace RepoState

/-! ### What each operation does -/

/-- A refresh goes out at once unless one is in flight; it reads what is held when it goes out. -/
theorem requestRefresh_eq (s : RepoState) :
    s.requestRefresh =
      ({ s with refresh := s.refresh.request.1 }.markLoading,
        if s.refresh.inFlight then [] else [s.refreshFetch]) := by
  unfold requestRefresh Gate.request
  cases s.refresh.inFlight <;> rfl

/-- After it was asked for, a refresh is in flight: the one that goes out, or an earlier one. -/
@[simp] theorem inFlight_requestRefresh (s : RepoState) :
    s.requestRefresh.1.refresh.inFlight = true := by
  rw [requestRefresh_eq]
  change s.refresh.request.1.inFlight = true
  cases hg : s.refresh.inFlight <;> simp [Gate.request, hg]

/-- What goes out when a refresh is asked for. -/
theorem mem_requestRefresh {s : RepoState} {q : Request} (hq : q ∈ s.requestRefresh.2) :
    q = s.refreshFetch := by
  rw [requestRefresh_eq] at hq
  split_ifs at hq
  · simp at hq
  · exact List.mem_singleton.1 hq

/-- A reset begins a generation that there was not before. -/
theorem epoch_ne_reset {s : RepoState} {epoch : Nat} (h : epoch ≤ s.epoch) :
    epoch ≠ s.reset.epoch :=
  Nat.ne_of_lt (Nat.lt_succ_of_le h)

/-- The request for the page that begins at an offset. -/
def moreFetch (s : RepoState) (offset : UInt64) : Request :=
  .page ⟨s.window.repoId, offset, s.window.limit, .loadMore, s.epoch⟩

/-- The next page goes out if none is being appended and there are more rows. -/
theorem requestMore_of {s : RepoState} (h : s.loadMore = none ∧ s.window.hasMore) :
    s.requestMore = ({ s with loadMore := some s.window.nextOffset }.markLoading,
      [s.moreFetch s.window.nextOffset]) := by
  simp [requestMore, h.1, h.2, moreFetch, markLoading]

/-- Otherwise nothing happens when it is asked for. -/
theorem requestMore_of_not {s : RepoState} (h : ¬(s.loadMore = none ∧ s.window.hasMore)) :
    s.requestMore = (s, []) := by
  rw [not_and_or, Bool.not_eq_true] at h
  rcases h with h | h
  · simp [requestMore, Option.isSome_iff_ne_none.2 h]
  · simp [requestMore, h]

/-- The window after the answer to a fetch: a page is merged, a failure changes nothing. -/
def merge (s : RepoState) (f : PageFetch) : Except Failure Page → RepoState
  | .ok page => { s with window := s.window.applySpan f.offset f.limit page }
  | .error _ => s

/-- An answer is merged, and then the place of its fetch is freed. -/
theorem completePage_eq (s : RepoState) (f : PageFetch) (result : Except Failure Page) :
    s.completePage f result = (s.merge f result).settleFetch f.reason := by
  cases result <;> rfl

/-- The state with no refresh in flight and none waiting. -/
def openGate (s : RepoState) : RepoState :=
  { s with refresh := .idle }.markLoading

/-- When a refresh is settled the gate is open, and the trailing one is asked for if there is
one. -/
theorem settleFetch_refresh (s : RepoState) :
    s.settleFetch .refresh =
      if s.refresh.trailing then s.openGate.requestRefresh else (s.openGate, []) := by
  obtain ⟨window, sync, progress, ⟨inFlight, trailing⟩, loadMore, epoch⟩ := s
  cases trailing <;> rfl

/-- The state with no page being appended. -/
def closeMore (s : RepoState) : RepoState :=
  { s with loadMore := none }.markLoading

/-- When an appended page is settled, nothing goes out. -/
theorem settleFetch_loadMore (s : RepoState) : s.settleFetch .loadMore = (s.closeMore, []) := rfl

/-- After a synchronisation that succeeded a refresh is asked for. -/
theorem completeSync_ok (s : RepoState) (r : SyncReport) :
    s.completeSync (.ok r) =
      { s with sync := s.sync.finish (.ok r), progress := s.progress.clear }.requestRefresh := rfl

/-- After a synchronisation that failed nothing goes out. -/
theorem completeSync_error (s : RepoState) (e : Failure) :
    s.completeSync (.error e) =
      ({ s with sync := s.sync.finish (.error e), progress := s.progress.clear }, []) := rfl

/-- Settling a fetch changes nothing about the rows. -/
@[simp] theorem items_settleFetch (s : RepoState) (reason : FetchReason) :
    (s.settleFetch reason).1.window.items = s.window.items := by
  cases reason <;> rfl

@[simp] theorem refresh_requestMore (s : RepoState) : s.requestMore.1.refresh = s.refresh := by
  unfold requestMore
  split <;> rfl

@[simp] theorem epoch_requestMore (s : RepoState) : s.requestMore.1.epoch = s.epoch := by
  unfold requestMore
  split <;> rfl

@[simp] theorem epoch_settleFetch (s : RepoState) (reason : FetchReason) :
    (s.settleFetch reason).1.epoch = s.epoch := by
  cases reason <;> rfl

/-! ### Names -/

@[simp] theorem repoId_merge (s : RepoState) (f : PageFetch) (result : Except Failure Page) :
    (s.merge f result).window.repoId = s.window.repoId := by
  cases result <;> rfl

@[simp] theorem repoId_settleFetch (s : RepoState) (reason : FetchReason) :
    (s.settleFetch reason).1.window.repoId = s.window.repoId := by
  cases reason <;> rfl

@[simp] theorem repoId_requestMore (s : RepoState) :
    s.requestMore.1.window.repoId = s.window.repoId := by
  unfold requestMore
  split <;> rfl

/-- No deed changes which repository a state is of. -/
@[simp] theorem repoId_act (s : RepoState) (a : Deed) :
    (s.act a).1.window.repoId = s.window.repoId := by
  cases a with
  | reopen => rfl
  | refresh => rfl
  | loadMore => exact s.repoId_requestMore
  | startSync =>
    simp only [act]
    split <;> rfl
  | observe running => cases running <;> rfl
  | report p => rfl
  | page f result =>
    simp only [act]
    split
    · rfl
    · rw [completePage_eq, repoId_settleFetch, repoId_merge]
  | sync repo result => cases result <;> rfl

/-- Only opening a repository again starts a new generation. -/
theorem epoch_act {s : RepoState} {a : Deed} (h : a ≠ .reopen) : (s.act a).1.epoch = s.epoch := by
  cases a with
  | reopen => exact absurd rfl h
  | refresh => rfl
  | loadMore => exact s.epoch_requestMore
  | startSync =>
    simp only [act]
    split <;> rfl
  | observe running => cases running <;> rfl
  | report p => rfl
  | page f result =>
    simp only [act]
    split
    · rfl
    · rw [completePage_eq, epoch_settleFetch]
      cases result <;> rfl
  | sync repo result => cases result <;> rfl

/-- A refresh is made for the repository whose rows it reads. -/
theorem concerns_refreshFetch (s : RepoState) : s.refreshFetch.concerns s.window.repoId := by
  simp [refreshFetch, Request.concerns]

/-- So is the next page that is to be appended. -/
theorem concerns_moreFetch (s : RepoState) (offset : UInt64) :
    (s.moreFetch offset).concerns s.window.repoId := by
  simp [moreFetch, Request.concerns]

/-! ### What a deed sends -/

/-- A refresh that goes out when it is asked for reads what is held after that too. -/
theorem eq_refreshFetch_of_mem {s : RepoState} {q : Request} (hq : q ∈ s.requestRefresh.2) :
    q = s.requestRefresh.1.refreshFetch :=
  (mem_requestRefresh hq).trans rfl

/-- So does one that goes out when a fetch is settled. -/
theorem mem_settleFetch {s : RepoState} {reason : FetchReason} {q : Request}
    (hq : q ∈ (s.settleFetch reason).2) : q = (s.settleFetch reason).1.refreshFetch := by
  cases reason with
  | loadMore => simp [settleFetch_loadMore] at hq
  | refresh =>
    rw [settleFetch_refresh] at hq ⊢
    split_ifs at hq ⊢
    · exact eq_refreshFetch_of_mem hq
    · simp at hq

/-- A deed sends a refresh of the rows that it leaves, asks for a page behind them or for a
synchronisation. -/
theorem mem_act {s : RepoState} {a : Deed} {q : Request} (hq : q ∈ (s.act a).2) :
    q = (s.act a).1.refreshFetch ∨ (∃ offset, q = (s.act a).1.moreFetch offset) ∨
      q = .sync (s.act a).1.window.repoId := by
  cases a with
  | reopen => exact .inl (eq_refreshFetch_of_mem hq)
  | refresh => exact .inl (eq_refreshFetch_of_mem hq)
  | loadMore =>
    by_cases hmore : s.loadMore = none ∧ s.window.hasMore
    · simp only [act, requestMore_of hmore, List.mem_singleton] at hq ⊢
      exact .inr (.inl ⟨_, hq⟩)
    · simp [act, requestMore_of_not hmore] at hq
  | startSync =>
    simp only [act] at hq ⊢
    split at hq
    · exact .inr (.inr (List.mem_singleton.1 hq))
    · simp at hq
  | observe running =>
    cases running with
    | false => exact .inl (eq_refreshFetch_of_mem hq)
    | true => simp [act] at hq
  | report p => simp [act] at hq
  | page f result =>
    by_cases he : f.epoch = s.epoch
    · rw [act_page_of_eq he, completePage_eq] at hq ⊢
      exact .inl (mem_settleFetch hq)
    · simp [act_page_of_ne he] at hq
  | sync repo result =>
    cases result with
    | ok report =>
      rw [act, completeSync_ok] at hq
      exact .inl (eq_refreshFetch_of_mem hq)
    | error e => simp [act, completeSync_error] at hq

/-- The requests of a deed are made for the repository. -/
theorem concerns_act (s : RepoState) (a : Deed) :
    ∀ q ∈ (s.act a).2, q.concerns s.window.repoId := by
  intro q hq
  rw [← s.repoId_act a]
  rcases mem_act hq with rfl | ⟨offset, rfl⟩ | rfl
  · exact concerns_refreshFetch _
  · exact concerns_moreFetch _ offset
  · simp [Request.concerns]

/-- The fetches that a deed sends are of the generation that it leaves. -/
theorem epoch_of_mem_act {s : RepoState} {a : Deed} {f : PageFetch} (hf : .page f ∈ (s.act a).2) :
    f.epoch = (s.act a).1.epoch := by
  rcases mem_act hf with h | ⟨offset, h⟩ | h
  · rw [Request.page.inj h]
  · rw [Request.page.inj h]
  · cases h

/-- A fetch from the top that a deed sends is the refresh of the rows that it leaves. -/
theorem refresh_of_mem_act {s : RepoState} {a : Deed} {f : PageFetch}
    (hf : .page f ∈ (s.act a).2) (hr : f.reason = .refresh) :
    .page f = (s.act a).1.refreshFetch := by
  rcases mem_act hf with h | ⟨offset, h⟩ | h
  · exact h
  · rw [Request.page.inj h] at hr
    cases hr
  · cases h

end RepoState

end LiveAudit
