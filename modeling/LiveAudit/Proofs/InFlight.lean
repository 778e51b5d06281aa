import LiveAudit.Proofs.RepoTraffic

/-!
# Requests in flight

The flags of a repository tell exactly which requests are out for it: its gate is in flight when one
refresh of the current generation is out, `loadMore` holds the offset of the one page that is being
appended, and the request flag of its synchronisation stands for one request. `RepoState.Balanced`
says so, every deed preserves it (`RepoState.InStep.next`), and so it holds in every run.

A reset starts a new generation. Requests of earlier ones stay out, and no flag counts them.
-/

namespace LiveAudit

namespace RepoState

/-- Whether a request is a fetch of the current generation. -/
def current (s : RepoState) (reason : FetchReason) : Request → Bool :=
  Request.isFetch s.window.repoId reason s.epoch

/-- The requests that are out are those that the flags tell of. -/
structure Balanced (s : RepoState) (out : List Request) : Prop where
  concerns : ∀ q ∈ out, q.concerns s.window.repoId
  epoch_le : ∀ f, .page f ∈ out → f.epoch ≤ s.epoch
  refreshes : ∃ limit, out.filter (s.current .refresh) =
    if s.refresh.inFlight then [.page ⟨s.window.repoId, 0, limit, .refresh, s.epoch⟩] else []
  mores : out.filter (s.current .loadMore) = s.loadMore.toList.map s.moreFetch
  syncs : out.count (.sync s.window.repoId) = s.sync.requestInFlight.toNat
  loading : s.window.loading = (s.refresh.inFlight || s.loadMore.isSome)
  single : ∀ reason epoch,
    (out.filter (Request.isFetch s.window.repoId reason epoch)).length ≤ 1

theorem mem_filter_current {s : RepoState} {out : List Request} {reason : FetchReason}
    {f : PageFetch} : .page f ∈ out.filter (s.current reason) ↔
      .page f ∈ out ∧ f.repoId = s.window.repoId ∧ f.reason = reason ∧ f.epoch = s.epoch := by
  simp [current]

/-- A refresh that is asked for is one of the current generation. -/
@[simp] theorem current_refreshFetch (s : RepoState) (reason : FetchReason) :
    s.current reason s.refreshFetch = decide (reason = .refresh) := by
  cases reason <;> simp [current, refreshFetch, Request.isFetch]

/-- A page that is asked for to be appended is one of the current generation. -/
@[simp] theorem current_moreFetch (s : RepoState) (reason : FetchReason) (offset : UInt64) :
    s.current reason (s.moreFetch offset) = decide (reason = .loadMore) := by
  cases reason <;> simp [current, moreFetch, Request.isFetch]

/-! ### A fresh state -/

/-- Nothing is in flight for a repository that was never viewed. -/
theorem balanced_new (repo : Ident) (limit : UInt64) : (RepoState.new repo limit).Balanced [] where
  concerns := by simp
  epoch_le := by simp
  refreshes := ⟨0, rfl⟩
  mores := rfl
  syncs := rfl
  loading := rfl
  single := by simp

namespace Balanced

variable {s : RepoState} {out : List Request}

/-! ### Fetches of the current generation -/

/-- The fetches that are out are made for the repository. -/
theorem repoId_eq (h : s.Balanced out) {f : PageFetch} (hf : .page f ∈ out) :
    f.repoId = s.window.repoId := by
  simpa [Request.concerns] using h.concerns _ hf

/-- While no refresh is in flight, none of the current generation is out. -/
theorem refreshes_eq_nil (h : s.Balanced out) (hg : s.refresh.inFlight = false) :
    out.filter (s.current .refresh) = [] := by
  obtain ⟨limit, hr⟩ := h.refreshes
  simpa [hg] using hr

/-- A refresh of the current generation that is out begins at the top and is the only one. -/
theorem refreshes_eq_singleton (h : s.Balanced out) {f : PageFetch} (hf : .page f ∈ out)
    (hr : f.reason = .refresh) (he : f.epoch = s.epoch) :
    s.refresh.inFlight = true ∧ f.offset = 0 ∧ out.filter (s.current .refresh) = [.page f] := by
  have hrepo := h.repoId_eq hf
  have hmem : .page f ∈ out.filter (s.current .refresh) :=
    mem_filter_current.2 ⟨hf, hrepo, hr, he⟩
  obtain ⟨limit, heq⟩ := h.refreshes
  rw [heq] at hmem
  cases hg : s.refresh.inFlight with
  | false => simp [hg] at hmem
  | true =>
    simp only [hg, if_true] at hmem heq
    have hf' : f = _ := Request.page.inj (List.mem_singleton.1 hmem)
    exact ⟨rfl, by rw [hf'], by rw [heq, hf']⟩

/-- A page of the current generation that is to be appended begins at the offset that is kept for
it, and is the only one. -/
theorem mores_eq_singleton (h : s.Balanced out) {f : PageFetch} (hf : .page f ∈ out)
    (hr : f.reason = .loadMore) (he : f.epoch = s.epoch) :
    s.loadMore = some f.offset ∧ .page f = s.moreFetch f.offset ∧
      out.filter (s.current .loadMore) = [.page f] := by
  have hrepo := h.repoId_eq hf
  have hmem : .page f ∈ out.filter (s.current .loadMore) :=
    mem_filter_current.2 ⟨hf, hrepo, hr, he⟩
  have heq := h.mores
  rw [heq] at hmem
  cases hk : s.loadMore with
  | none => simp [hk] at hmem
  | some k =>
    simp only [hk, Option.toList_some, List.map_cons, List.map_nil, List.mem_singleton] at hmem heq
    have hoff : f.offset = k := by
      rw [moreFetch, Request.page.injEq] at hmem
      rw [hmem]
    subst hoff
    exact ⟨rfl, hmem, by rw [heq, hmem]⟩

/-- While no refresh is in flight, those that are out are of earlier generations. -/
theorem epoch_ne_of_idle (h : s.Balanced out) (hg : s.refresh.inFlight = false) {f : PageFetch}
    (hf : .page f ∈ out) (hr : f.reason = .refresh) : f.epoch ≠ s.epoch := by
  intro he
  have hflight := (h.refreshes_eq_singleton hf hr he).1
  rw [hg] at hflight
  exact Bool.false_ne_true hflight

/-- So are pages to be appended, while there is none. -/
theorem epoch_ne_of_no_more (h : s.Balanced out) (hk : s.loadMore = none) {f : PageFetch}
    (hf : .page f ∈ out) (hr : f.reason = .loadMore) : f.epoch ≠ s.epoch := by
  intro he
  have hmore := (h.mores_eq_singleton hf hr he).1
  simp [hk] at hmore

/-- A window is loading while a fetch of the current generation is out. -/
theorem loading_iff (h : s.Balanced out) : s.window.loading ↔
    ∃ f, .page f ∈ out ∧ f.repoId = s.window.repoId ∧ f.epoch = s.epoch := by
  rw [h.loading, Bool.or_eq_true]
  constructor
  · rintro (hg | hm)
    · obtain ⟨limit, hr⟩ := h.refreshes
      rw [if_pos hg] at hr
      have hmem : .page ⟨s.window.repoId, 0, limit, .refresh, s.epoch⟩ ∈
          out.filter (s.current .refresh) := by simp [hr]
      obtain ⟨hout, hrepo, -, he⟩ := mem_filter_current.1 hmem
      exact ⟨_, hout, hrepo, he⟩
    · obtain ⟨k, hk⟩ := Option.isSome_iff_exists.1 hm
      have hmem : s.moreFetch k ∈ out.filter (s.current .loadMore) := by simp [h.mores, hk]
      obtain ⟨hout, hrepo, -, he⟩ := mem_filter_current.1 hmem
      exact ⟨_, hout, hrepo, he⟩
  · rintro ⟨f, hout, -, he⟩
    cases hr : f.reason with
    | refresh => exact .inl (h.refreshes_eq_singleton hout hr he).1
    | loadMore => exact .inr (by rw [(h.mores_eq_singleton hout hr he).1]; rfl)

/-! ### What the operations preserve -/

/-- Only names, flags, limit and generation count. -/
theorem congr {s' : RepoState} (h : s.Balanced out) (hrepo : s'.window.repoId = s.window.repoId)
    (hlimit : s'.window.limit = s.window.limit) (hepoch : s'.epoch = s.epoch)
    (hgate : s'.refresh.inFlight = s.refresh.inFlight) (hmore : s'.loadMore = s.loadMore)
    (hsync : s'.sync.requestInFlight = s.sync.requestInFlight)
    (hloading : s'.window.loading = (s'.refresh.inFlight || s'.loadMore.isSome)) :
    s'.Balanced out where
  concerns := by simpa only [hrepo] using h.concerns
  epoch_le := by simpa only [hepoch] using h.epoch_le
  refreshes := by simpa only [current, hrepo, hepoch, hgate] using h.refreshes
  mores := by
    have hfetch : s'.moreFetch = s.moreFetch := by
      funext offset
      simp only [moreFetch, hrepo, hlimit, hepoch]
    simpa only [current, hrepo, hepoch, hmore, hfetch] using h.mores
  syncs := by simpa only [hrepo, hsync] using h.syncs
  loading := hloading
  single := by simpa only [hrepo] using h.single

/-- A reset leaves what is out to earlier generations. -/
theorem reset (h : s.Balanced out) : s.reset.Balanced out where
  concerns := h.concerns
  epoch_le f hf := Nat.le_succ_of_le (h.epoch_le f hf)
  refreshes := by
    refine ⟨0, List.filter_eq_nil_iff.2 fun q hq hcur => ?_⟩
    obtain ⟨f, rfl, -, -, he⟩ := Request.exists_page_of_isFetch hcur
    exact epoch_ne_reset (h.epoch_le f hq) he
  mores := by
    refine List.filter_eq_nil_iff.2 fun q hq hcur => ?_
    obtain ⟨f, rfl, -, -, he⟩ := Request.exists_page_of_isFetch hcur
    exact epoch_ne_reset (h.epoch_le f hq) he
  syncs := h.syncs
  loading := rfl
  single := h.single

/-- There is still at most one fetch of each kind when one goes out of which there was none. -/
theorem single_append (h : s.Balanced out) {q : Request}
    (hq : ∀ reason epoch, Request.isFetch s.window.repoId reason epoch q →
      out.filter (Request.isFetch s.window.repoId reason epoch) = [])
    (reason : FetchReason) (epoch : Nat) :
    ((out ++ [q]).filter (Request.isFetch s.window.repoId reason epoch)).length ≤ 1 := by
  rw [List.filter_append, List.length_append]
  by_cases hf : Request.isFetch s.window.repoId reason epoch q
  · simp [hq reason epoch hf, hf]
  · simpa [hf] using h.single reason epoch

/-- Asking for a refresh sends one if none is in flight. -/
theorem requestRefresh (h : s.Balanced out) :
    s.requestRefresh.1.Balanced (out ++ s.requestRefresh.2) := by
  rw [requestRefresh_eq]
  cases hg : s.refresh.inFlight with
  | true =>
    rw [if_pos rfl, List.append_nil]
    exact h.congr rfl rfl rfl (by simp [markLoading, Gate.request, hg]) rfl rfl rfl
  | false =>
    rw [if_neg Bool.false_ne_true]
    have hnil := h.refreshes_eq_nil hg
    have hgate : s.refresh.request.1.inFlight = true := by simp [Gate.request, hg]
    constructor
    · intro q hq
      rcases List.mem_append.1 hq with hq | hq
      · exact h.concerns q hq
      · rw [List.mem_singleton.1 hq]
        exact s.concerns_refreshFetch
    · intro f hf
      rcases List.mem_append.1 hf with hf | hf
      · exact h.epoch_le f hf
      · rw [Request.page.inj (List.mem_singleton.1 hf)]
        exact Nat.le_refl _
    · refine ⟨s.window.refreshLimit, ?_⟩
      change (out ++ [s.refreshFetch]).filter (s.current .refresh) =
        if s.refresh.request.1.inFlight then [s.refreshFetch] else []
      simp [hnil, hgate]
    · change (out ++ [s.refreshFetch]).filter (s.current .loadMore) = _
      rw [List.filter_append, h.mores]
      simp [markLoading, moreFetch]
    · change (out ++ [s.refreshFetch]).count (.sync s.window.repoId) = s.sync.requestInFlight.toNat
      rw [List.count_append, h.syncs]
      simp [refreshFetch]
    · rfl
    · refine h.single_append fun reason epoch hq => ?_
      obtain ⟨-, rfl, rfl⟩ := Request.isFetch_page.1 hq
      exact hnil

/-- Asking for the next page sends a request for it, or does nothing. -/
theorem requestMore (h : s.Balanced out) :
    s.requestMore.1.Balanced (out ++ s.requestMore.2) := by
  by_cases hmore : s.loadMore = none ∧ s.window.hasMore
  · rw [requestMore_of hmore]
    have hnil : out.filter (s.current .loadMore) = [] := by simpa [hmore.1] using h.mores
    constructor
    · intro q hq
      rcases List.mem_append.1 hq with hq | hq
      · exact h.concerns q hq
      · rw [List.mem_singleton.1 hq]
        exact s.concerns_moreFetch _
    · intro f hf
      rcases List.mem_append.1 hf with hf | hf
      · exact h.epoch_le f hf
      · rw [Request.page.inj (List.mem_singleton.1 hf)]
        exact Nat.le_refl _
    · obtain ⟨limit, hr⟩ := h.refreshes
      refine ⟨limit, ?_⟩
      change (out ++ [s.moreFetch s.window.nextOffset]).filter (s.current .refresh) = _
      rw [List.filter_append, hr]
      simp [markLoading]
    · change (out ++ [s.moreFetch s.window.nextOffset]).filter (s.current .loadMore) =
        [s.moreFetch s.window.nextOffset]
      simp [hnil]
    · change (out ++ [s.moreFetch s.window.nextOffset]).count (.sync s.window.repoId) = _
      rw [List.count_append, h.syncs]
      simp [moreFetch, markLoading]
    · rfl
    · refine h.single_append fun reason epoch hq => ?_
      obtain ⟨-, rfl, rfl⟩ := Request.isFetch_page.1 hq
      exact hnil
  · rw [requestMore_of_not hmore, List.append_nil]
    exact h

/-- Merging a page changes no flag. -/
theorem merge (h : s.Balanced out) (f : PageFetch) (result : Except Failure Page) :
    (s.merge f result).Balanced out := by
  cases result with
  | ok page => exact h.congr rfl rfl rfl rfl rfl rfl h.loading
  | error e => exact h

/-- Without one request, there is still at most one fetch of each kind. -/
theorem single_erase (h : s.Balanced out) (q : Request) (reason : FetchReason) (epoch : Nat) :
    ((out.erase q).filter (Request.isFetch s.window.repoId reason epoch)).length ≤ 1 :=
  Nat.le_trans (List.erase_sublist.filter _).length_le (h.single reason epoch)

/-- An answered request that no flag counts may be taken off. -/
theorem erase (h : s.Balanced out) {f : PageFetch} (hf : f.epoch ≠ s.epoch) :
    s.Balanced (out.erase (.page f)) := by
  have hkeep : ∀ reason, (out.erase (.page f)).filter (s.current reason) =
      out.filter (s.current reason) := by
    intro reason
    rw [← List.erase_filter]
    refine List.erase_of_not_mem fun hmem => hf ?_
    exact (mem_filter_current.1 hmem).2.2.2
  constructor
  · exact fun q hq => h.concerns q (List.mem_of_mem_erase hq)
  · exact fun g hg => h.epoch_le g (List.mem_of_mem_erase hg)
  · simpa only [hkeep] using h.refreshes
  · simpa only [hkeep] using h.mores
  · simpa using h.syncs
  · exact h.loading
  · exact h.single_erase _

/-- An answered fetch of one kind leaves those of the other. -/
theorem filter_erase_of_ne {f : PageFetch} {reason : FetchReason} (hr : f.reason ≠ reason) :
    (out.erase (.page f)).filter (s.current reason) = out.filter (s.current reason) := by
  rw [← List.erase_filter]
  refine List.erase_of_not_mem fun hmem => hr ?_
  exact (mem_filter_current.1 hmem).2.2.1

/-- The answer to the one refresh takes it off. -/
theorem openGate (h : s.Balanced out) {f : PageFetch} (hf : .page f ∈ out)
    (hr : f.reason = .refresh) (he : f.epoch = s.epoch) :
    s.openGate.Balanced (out.erase (.page f)) := by
  obtain ⟨-, -, hrefreshes⟩ := h.refreshes_eq_singleton hf hr he
  have hgone : (out.erase (.page f)).filter (s.current .refresh) = [] := by
    rw [← List.erase_filter, hrefreshes, List.erase_cons_head]
  constructor
  · exact fun q hq => h.concerns q (List.mem_of_mem_erase hq)
  · exact fun g hg => h.epoch_le g (List.mem_of_mem_erase hg)
  · exact ⟨0, hgone⟩
  · exact (filter_erase_of_ne (by rw [hr]; decide)).trans h.mores
  · exact (List.count_erase_of_ne (by simp)).trans h.syncs
  · rfl
  · exact h.single_erase _

/-- The answer to the one page that is being appended takes it off. -/
theorem closeMore (h : s.Balanced out) {f : PageFetch} (hf : .page f ∈ out)
    (hr : f.reason = .loadMore) (he : f.epoch = s.epoch) :
    s.closeMore.Balanced (out.erase (.page f)) := by
  obtain ⟨-, -, hmores⟩ := h.mores_eq_singleton hf hr he
  have hgone : (out.erase (.page f)).filter (s.current .loadMore) = [] := by
    rw [← List.erase_filter, hmores, List.erase_cons_head]
  constructor
  · exact fun q hq => h.concerns q (List.mem_of_mem_erase hq)
  · exact fun g hg => h.epoch_le g (List.mem_of_mem_erase hg)
  · obtain ⟨limit, hlimit⟩ := h.refreshes
    exact ⟨limit, (filter_erase_of_ne (by rw [hr]; decide)).trans hlimit⟩
  · exact hgone
  · exact (List.count_erase_of_ne (by simp)).trans h.syncs
  · rfl
  · exact h.single_erase _

/-- A settled fetch frees its place, and the trailing refresh takes it if there is one. -/
theorem settleFetch (h : s.Balanced out) {f : PageFetch} (hf : .page f ∈ out)
    (he : f.epoch = s.epoch) :
    (s.settleFetch f.reason).1.Balanced
      (out.erase (.page f) ++ (s.settleFetch f.reason).2) := by
  cases hr : f.reason with
  | loadMore =>
    rw [settleFetch_loadMore, List.append_nil]
    exact h.closeMore hf hr he
  | refresh =>
    rw [settleFetch_refresh]
    split_ifs with ht
    · exact (h.openGate hf hr he).requestRefresh
    · rw [List.append_nil]
      exact h.openGate hf hr he

/-- A synchronisation changes nothing about the fetches. -/
theorem withSync (h : s.Balanced out) {out' : List Request} {sync : SyncTracker}
    {progress : ProgressTracker} (hconcerns : ∀ q ∈ out', q.concerns s.window.repoId)
    (hfetches : ∀ reason epoch, out'.filter (Request.isFetch s.window.repoId reason epoch) =
      out.filter (Request.isFetch s.window.repoId reason epoch))
    (hsync : out'.count (.sync s.window.repoId) = sync.requestInFlight.toNat) :
    { s with sync := sync, progress := progress }.Balanced out' where
  concerns := hconcerns
  epoch_le f hf := by
    have hrepo : f.repoId = s.window.repoId := by simpa [Request.concerns] using hconcerns _ hf
    have hmem : .page f ∈ out'.filter (Request.isFetch s.window.repoId f.reason f.epoch) :=
      List.mem_filter.2 ⟨hf, by simp [hrepo]⟩
    rw [hfetches] at hmem
    exact h.epoch_le f (List.mem_filter.1 hmem).1
  refreshes := by
    obtain ⟨limit, hr⟩ := h.refreshes
    exact ⟨limit, (hfetches .refresh s.epoch).trans hr⟩
  mores := (hfetches .loadMore s.epoch).trans h.mores
  syncs := hsync
  loading := h.loading
  single reason epoch := by
    change (out'.filter (Request.isFetch s.window.repoId reason epoch)).length ≤ 1
    rw [hfetches]
    exact h.single reason epoch

/-- A synchronisation is started only while no request for one is out. -/
theorem startSync (h : s.Balanced out) {sync : SyncTracker} (hs : s.sync.start = .ok sync) :
    { s with sync := sync }.Balanced (out ++ [Request.sync s.window.repoId]) := by
  simp only [SyncTracker.start] at hs
  split_ifs at hs with hbusy
  obtain rfl := Except.ok.inj hs
  have hidle : s.sync.requestInFlight = false := by
    simp only [Bool.or_eq_true, not_or, Bool.not_eq_true] at hbusy
    exact hbusy.2
  refine h.withSync (fun q hq => ?_) (fun reason epoch => ?_) ?_
  · rcases List.mem_append.1 hq with hq | hq
    · exact h.concerns q hq
    · rw [List.mem_singleton.1 hq]
      simp [Request.concerns]
  · simp [Request.isFetch]
  · rw [List.count_append, h.syncs, hidle]
    simp

/-- The answer to the one synchronisation request takes it off. -/
theorem finishSync (h : s.Balanced out) (hout : .sync s.window.repoId ∈ out)
    (result : Except Failure SyncReport) (progress : ProgressTracker) :
    { s with sync := s.sync.finish result, progress := progress }.Balanced
      (out.erase (.sync s.window.repoId)) := by
  refine h.withSync (fun q hq => h.concerns q (List.mem_of_mem_erase hq))
    (fun reason epoch => ?_) ?_
  · rw [← List.erase_filter]
    exact List.erase_of_not_mem fun hmem => by simp [Request.isFetch] at hmem
  · have hone : out.count (.sync s.window.repoId) ≤ 1 := by
      rw [h.syncs]
      exact Bool.toNat_le _
    have hpos : 0 < out.count (.sync s.window.repoId) := List.count_pos_iff.2 hout
    have hidle : (s.sync.finish result).requestInFlight = false := by cases result <;> rfl
    rw [List.count_erase_self, hidle]
    exact Nat.sub_eq_zero_of_le hone

end Balanced

/-! ### Runs -/

/-- The flags and the requests that are out agree. -/
def InStep (t : Traffic RepoState) : Prop :=
  t.state.Balanced t.out

/-- Every deed keeps the flags in step with the requests that are out. -/
theorem InStep.next {t : Traffic RepoState} (h : InStep t) {a : Deed} (ha : t.Admits a) :
    InStep (t.next a) := by
  obtain ⟨s, out⟩ := t
  have hb : s.Balanced out := h
  cases a with
  | reopen => exact hb.reset.requestRefresh
  | refresh => exact hb.requestRefresh
  | loadMore => exact hb.requestMore
  | startSync =>
    simp only [InStep, Traffic.next, Dialogue.step, Dialogue.answered, act, Deed.answered,
      Option.elim_none]
    cases hs : s.sync.start with
    | ok sync => exact hb.startSync hs
    | error e => simpa using hb
  | observe running =>
    cases running with
    | true =>
      change RepoState.Balanced _ (out ++ [])
      rw [List.append_nil]
      exact hb.congr rfl rfl rfl rfl rfl rfl hb.loading
    | false =>
      have hobserved : { s with
          sync := s.sync.observe false, progress := s.progress.clear }.Balanced out :=
        hb.congr rfl rfl rfl rfl rfl rfl hb.loading
      exact hobserved.requestRefresh
  | report p =>
    change RepoState.Balanced _ (out ++ [])
    rw [List.append_nil]
    exact hb.congr rfl rfl rfl rfl rfl rfl hb.loading
  | page f result =>
    have hf : .page f ∈ out := ha _ rfl
    simp only [InStep, Traffic.next, Dialogue.step, Dialogue.answered, act, Deed.answered,
      Option.elim_some]
    by_cases he : f.epoch = s.epoch
    · rw [if_neg (not_not.2 he), completePage_eq]
      exact (hb.merge f result).settleFetch hf (by cases result <;> exact he)
    · rw [if_pos he, List.append_nil]
      exact hb.erase he
  | sync repo result =>
    have hq : .sync repo ∈ out := ha _ rfl
    obtain rfl : repo = s.window.repoId := by simpa [Request.concerns] using hb.concerns _ hq
    have hdone := hb.finishSync hq result s.progress.clear
    cases result with
    | ok report => exact hdone.requestRefresh
    | error e =>
      change RepoState.Balanced _ (_ ++ [])
      rwa [List.append_nil]

end RepoState

namespace Traffic

open Reconciler (Input)

/-! ### The project list -/

/-- Nothing that is sent for a repository asks for the project list. -/
theorem count_projects_sent {d : Reconciler} (hd : d.Named) (target : Option (Ident × Deed)) :
    (d.sent target).count .projects = 0 := by
  refine List.count_eq_zero.2 fun hmem => ?_
  cases target with
  | none => simp [Reconciler.sent] at hmem
  | some p => simpa [Request.concerns] using concerns_sent hd p.1 p.2 _ hmem

/-- A step asks for the project list if its gate lets a fetch out. -/
theorem count_projects_step {d : Reconciler} (hd : d.Named) (i : Input) :
    (d.step i).2.count .projects = (d.stepProjects i).2.toNat := by
  rw [(Reconciler.does_step hd i).requests, List.count_append, count_projects_sent hd,
    Reconciler.projectRequests]
  cases (d.stepProjects i).2 <;> rfl

/-- A fetch of the project list is out exactly while its gate is in flight. -/
def ProjectsInStep (t : Traffic Reconciler) : Prop :=
  t.out.count .projects = t.state.projectsGate.inFlight.toNat

/-- No fetch of the project list is out at the start. -/
theorem projectsInStep_start (subject : Ident) (pageLimit noticeCapacity : UInt64) :
    (start (Reconciler.new subject pageLimit noticeCapacity)).ProjectsInStep := rfl

/-- An input keeps the gate of the project list in step with what is out. -/
theorem ProjectsInStep.next {t : Traffic Reconciler} (h : t.ProjectsInStep) (hs : t.Sound)
    {i : Input} (hi : t.Admits i) : (t.next i).ProjectsInStep := by
  have hsent := count_projects_step hs.named i
  have hgate := (t.state.control_step i).2
  change (_ ++ (t.state.step i).2).count .projects = (t.state.step i).1.projectsGate.inFlight.toNat
  rw [List.count_append, hsent, hgate]
  by_cases hp : i.answered = some .projects
  · have hpos : 0 < t.out.count .projects := List.count_pos_iff.2 (hi _ hp)
    have hone : t.out.count .projects ≤ 1 := h ▸ Bool.toNat_le _
    rw [show Dialogue.answered i = some .projects from hp, Option.elim_some, List.count_erase_self,
      Nat.sub_eq_zero_of_le hone, Reconciler.stepProjects_of_answered hp, Gate.settle]
    split <;> rfl
  · have hkeep : ((Dialogue.answered i).elim t.out t.out.erase).count Request.projects =
        t.out.count .projects := by
      cases ha : Dialogue.answered i with
      | none => rfl
      | some q =>
        refine List.count_erase_of_ne ?_
        rintro rfl
        exact hp ha
    rw [hkeep, h, Reconciler.stepProjects_of_answered_ne hp, Gate.request]
    cases hg : t.state.projectsGate.inFlight <;> cases Reconciler.asksProjects i <;> simp [hg]

/-- The gate of the project list is in step with what is out in every lawful run. -/
theorem ProjectsInStep.run {t : Traffic Reconciler} (h : t.ProjectsInStep) (hs : t.Sound)
    {inputs : List Input} (hl : t.Lawful inputs) : (t.run inputs).ProjectsInStep := by
  induction inputs generalizing t with
  | nil => exact h
  | cons i rest ih => exact ih (h.next hs hl.1) (hs.next i) hl.2

/-! ### Accounts -/

/-- The flags of a reconciler account for every request that is out. -/
structure Accounted (t : Traffic Reconciler) : Prop where
  /-- One refresh of the current generation is out while the gate is in flight, else none. -/
  refreshes : ∀ repo, (t.fetches repo .refresh (t.state.repo repo).epoch).length =
    (t.state.repo repo).refresh.inFlight.toNat
  /-- The page that is being appended is out, with the offset that is kept for it. -/
  mores : ∀ repo, t.fetches repo .loadMore (t.state.repo repo).epoch =
    (t.state.repo repo).loadMore.toList.map fun offset => .page
      ⟨repo, offset, (t.state.repo repo).window.limit, .loadMore, (t.state.repo repo).epoch⟩
  /-- One synchronisation request is out while the flag for it is up, else none. -/
  syncs : ∀ repo, t.out.count (.sync repo) = (t.state.repo repo).sync.requestInFlight.toNat
  projects : t.out.count .projects = t.state.projectsGate.inFlight.toNat
  /-- A window is loading while a fetch of its current generation is out. -/
  loading : ∀ repo, (t.state.repo repo).window.loading ↔
    ∃ f, .page f ∈ t.out ∧ f.repoId = repo ∧ f.epoch = (t.state.repo repo).epoch
  /-- Busy is shown while something is out that concerns the subject. -/
  busy : t.state.view.busy ↔
    (∃ f, .page f ∈ t.out ∧ f.repoId = t.state.subject ∧ f.epoch = t.state.current.epoch) ∨
      .sync t.state.subject ∈ t.out ∨ .projects ∈ t.out
  /-- No two page fetches of one kind and generation are out at once. -/
  single : ∀ repo reason epoch, (t.fetches repo reason epoch).length ≤ 1
  single_sync : ∀ repo, t.out.count (.sync repo) ≤ 1
  single_projects : t.out.count .projects ≤ 1

section

variable {t : Traffic Reconciler}

/-- The fetches of a repository that its flags speak of are those of its current generation. -/
theorem filter_current (hs : t.Sound) (repo : Ident) (reason : FetchReason) :
    (t.only repo).out.filter ((t.state.repo repo).current reason) =
      t.fetches repo reason (t.state.repo repo).epoch := by
  rw [RepoState.current, hs.named repo, ← fetches_only]
  rfl

/-- The synchronisation requests that are out for a repository are counted by its flag. -/
theorem count_sync (hs : t.Sound) {repo : Ident}
    (hb : (t.state.repo repo).Balanced (t.only repo).out) :
    t.out.count (.sync repo) = (t.state.repo repo).sync.requestInFlight.toNat := by
  have hcount := hb.syncs
  rw [hs.named repo] at hcount
  rw [← hcount]
  exact (List.count_filter (by simp [Request.concerns])).symm

/-- A window is loading while a fetch of its current generation is out. -/
theorem loading_iff_exists (hs : t.Sound) {repo : Ident}
    (hb : (t.state.repo repo).Balanced (t.only repo).out) :
    (t.state.repo repo).window.loading ↔
      ∃ f, .page f ∈ t.out ∧ f.repoId = repo ∧ f.epoch = (t.state.repo repo).epoch := by
  rw [hb.loading_iff, hs.named repo]
  refine exists_congr fun f => and_congr_left fun hf => ?_
  rw [mem_only]
  exact and_iff_left hf.1

/-- Busy is shown while something is out that concerns the subject. -/
theorem busy_iff (hs : t.Sound) (hb : t.state.current.Balanced (t.only t.state.subject).out)
    (hp : t.ProjectsInStep) :
    t.state.view.busy ↔
      (∃ f, .page f ∈ t.out ∧ f.repoId = t.state.subject ∧ f.epoch = t.state.current.epoch) ∨
        .sync t.state.subject ∈ t.out ∨ .projects ∈ t.out := by
  have hpos : ∀ b : Bool, 0 < b.toNat ↔ b = true := by decide
  have hsync : .sync t.state.subject ∈ t.out ↔ t.state.current.sync.requestInFlight := by
    rw [← List.count_pos_iff, count_sync hs hb, hpos, Reconciler.current]
  have hprojects : .projects ∈ t.out ↔ t.state.projectsGate.inFlight := by
    rw [← List.count_pos_iff, hp, hpos]
  have hpages := loading_iff_exists hs hb
  rw [← Reconciler.current] at hpages
  rw [hsync, hprojects, ← hpages]
  simp [Reconciler.view, or_assoc]

/-- Where flags and requests agree, the flags account for the requests. -/
theorem accounted_of_balanced (hs : t.Sound)
    (hb : ∀ repo, (t.state.repo repo).Balanced (t.only repo).out) (hp : t.ProjectsInStep) :
    t.Accounted := by
  constructor
  · intro repo
    obtain ⟨limit, hr⟩ := (hb repo).refreshes
    rw [← filter_current hs, hr]
    split_ifs with hg <;> simp [hg]
  · intro repo
    rw [← filter_current hs, (hb repo).mores]
    unfold RepoState.moreFetch
    rw [hs.named repo]
  · exact fun repo => count_sync hs (hb repo)
  · exact hp
  · exact fun repo => loading_iff_exists hs (hb repo)
  · exact busy_iff hs (hb t.state.subject) hp
  · intro repo reason epoch
    have hone := (hb repo).single reason epoch
    rw [hs.named repo] at hone
    rwa [← fetches_only]
  · intro repo
    rw [count_sync hs (hb repo)]
    exact Bool.toNat_le _
  · exact hp ▸ Bool.toNat_le _

end

/-- Where flags and requests of a repository agree in the traffic of a reconciler, they agree from
there on. -/
theorem balanced_from {t : Traffic Reconciler} (hs : t.Sound) {repo : Ident}
    (hb : (t.state.repo repo).Balanced (t.only repo).out) {inputs : List Input}
    (hl : t.Lawful inputs) :
    ((t.run inputs).state.repo repo).Balanced ((t.run inputs).only repo).out := by
  obtain ⟨hrun, hlawful⟩ := only_run hs hl repo
  have hstart : RepoState.InStep (t.only repo) := hb
  have hend := run_induction (A := fun _ => True) (fun _ _ ht ha _ => ht.next ha) hstart hlawful
    fun _ _ => trivial
  rwa [← hrun] at hend

/-- They also agree after one input that may come. -/
theorem balanced_next {t : Traffic Reconciler} (hs : t.Sound) {repo : Ident}
    (hb : (t.state.repo repo).Balanced (t.only repo).out) {i : Input} (hi : t.Admits i) :
    ((t.next i).state.repo repo).Balanced ((t.next i).only repo).out := by
  have hl : t.Lawful [i] := ⟨hi, trivial⟩
  exact balanced_from hs hb hl

/-- What is out for a repository is what its flags tell, in every lawful run. -/
theorem balanced_run {subject : Ident} {pageLimit noticeCapacity : UInt64} {inputs : List Input}
    (hl : (start (Reconciler.new subject pageLimit noticeCapacity)).Lawful inputs) (repo : Ident) :
    RepoState.Balanced
      (((start (Reconciler.new subject pageLimit noticeCapacity)).run inputs).state.repo repo)
      (((start (Reconciler.new subject pageLimit noticeCapacity)).run inputs).only repo).out := by
  have hb : ((start (Reconciler.new subject pageLimit noticeCapacity)).only repo).state.Balanced
      ((start (Reconciler.new subject pageLimit noticeCapacity)).only repo).out := by
    rw [only_start]
    exact RepoState.balanced_new repo _
  exact balanced_from (sound_start subject pageLimit noticeCapacity) hb hl

/-- In every lawful run the flags account for the requests that are out. -/
theorem accounted_run (subject : Ident) (pageLimit noticeCapacity : UInt64) {inputs : List Input}
    (h : (start (Reconciler.new subject pageLimit noticeCapacity)).Lawful inputs) :
    ((start (Reconciler.new subject pageLimit noticeCapacity)).run inputs).Accounted := by
  have hstart := sound_start subject pageLimit noticeCapacity
  have hgate : ((start (Reconciler.new subject pageLimit noticeCapacity)).run
      inputs).ProjectsInStep := (projectsInStep_start ..).run hstart h
  exact accounted_of_balanced (hstart.run inputs) (balanced_run h) hgate

/-- A window that is opened again while everything is out: the fetches of the earlier generation, a
synchronisation and the project list stay out beside the new refresh. -/
theorem accounted_run_reopened :
    let t := start (Reconciler.new "r" 2 4)
    let inputs : List Input := [.load, .startSync, .refresh,
      .completion (.page ⟨"r", 0, 2, .refresh, 1⟩ (.ok ⟨[], 5⟩)), .loadMore, .load]
    t.Lawful inputs ∧ (t.run inputs).out.length = 5 ∧ (t.run inputs).Accounted := by
  intro t inputs
  have h : t.Lawful inputs := by decide
  exact ⟨h, by decide, accounted_run "r" 2 4 h⟩

end Traffic

end LiveAudit
