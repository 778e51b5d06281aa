import LiveAudit.Proofs.Paging
import LiveAudit.Proofs.Preserved

/-!
# Fetches fit the window

A fetch keeps the place it was sent for, while the window goes on changing. Still it fits when it
comes back: a refresh covers one page at least and no more than the pages that are held, and the
page that is to be appended begins at a boundary behind them (`RepoState.Fits`). This holds whatever
servers answer, as long as no page is longer than it was asked for.
-/

namespace LiveAudit

namespace RepoState

/-- The window consists of pages of a limit, and the fetches of the current generation fit it. -/
structure Fits (limit : UInt64) (s : RepoState) (out : List Request) : Prop where
  limit_eq : s.window.limit = limit
  paged : s.window.Paged
  /-- A refresh covers one page, and no more than the pages held. -/
  refresh : ∀ f, .page f ∈ out → f.reason = .refresh → f.epoch = s.epoch →
    limit.toNat ≤ f.limit.toNat ∧ f.limit.toNat ≤ s.window.offset.toNat + limit.toNat
  /-- The page being appended begins at a page boundary behind the pages held. -/
  more : ∀ offset ∈ s.loadMore, limit.toNat ∣ offset.toNat ∧
    s.window.offset.toNat + limit.toNat ≤ offset.toNat ∧ offset.toNat < maxWord

/-- Whether a page is not longer than it was asked for. -/
def Short (f : PageFetch) (page : Page) : Prop :=
  page.items.length ≤ f.limit.toNat

/-- A fresh window fits, as nothing is out for it. -/
theorem fits_new (repo : Ident) (limit : UInt64) :
    Fits (max limit 1) (RepoState.new repo (max limit 1)) [] where
  limit_eq := by
    change max (max limit 1) 1 = max limit 1
    rw [← UInt64.toNat_inj, toNat_max, toNat_max]
    exact Nat.max_eq_left (Nat.le_max_right _ _)
  paged := Window.paged_new repo _
  refresh _ hf := by simp at hf
  more _ hk := by simp [RepoState.new] at hk

namespace Fits

variable {limit : UInt64} {s : RepoState} {out : List Request}

/-- The next page is appended behind all rows. -/
theorem length_le_of_more (h : Fits limit s out) {offset : UInt64} (hk : offset ∈ s.loadMore) :
    s.window.items.length ≤ offset.toNat := by
  have hlength := h.paged.length_le
  rw [h.limit_eq] at hlength
  exact Nat.le_trans hlength (h.more offset hk).2.1

/-- A page that is to be appended is asked for with the limit of the window. -/
theorem more_fetch (h : Fits limit s out) (hb : s.Balanced out) {f : PageFetch}
    (hf : .page f ∈ out) (hr : f.reason = .loadMore) (he : f.epoch = s.epoch) :
    s.loadMore = some f.offset ∧ f.limit = limit := by
  obtain ⟨hk, hfetch, -⟩ := hb.mores_eq_singleton hf hr he
  rw [moreFetch, Request.page.injEq] at hfetch
  exact ⟨hk, by rw [hfetch, ← h.limit_eq]⟩

/-- Rows after the answer to a refresh. -/
theorem items_takeRefresh (hb : s.Balanced out) {f : PageFetch} (hf : .page f ∈ out)
    (hr : f.reason = .refresh) (he : f.epoch = s.epoch) (page : Page) :
    (s.merge f (.ok page)).window.items = page.items ++ s.window.items.drop f.limit.toNat := by
  obtain ⟨-, hoffset, -⟩ := hb.refreshes_eq_singleton hf hr he
  change (s.window.applySpan f.offset f.limit page).items = _
  rw [hoffset, Window.items_applySpan_top]

/-- Rows after the answer to a page that was to be appended. -/
theorem items_takeMore (h : Fits limit s out) (hb : s.Balanced out) {f : PageFetch}
    (hf : .page f ∈ out) (hr : f.reason = .loadMore) (he : f.epoch = s.epoch) (page : Page) :
    (s.merge f (.ok page)).window.items = s.window.items ++ page.items := by
  obtain ⟨hk, -⟩ := h.more_fetch hb hf hr he
  exact Window.items_applySpan_append (h.length_le_of_more hk) f.limit page

/-- Asking for a refresh keeps the window, and the refresh that goes out fits it. -/
theorem requestRefresh (h : Fits limit s out) :
    Fits limit s.requestRefresh.1 (out ++ s.requestRefresh.2) := by
  refine ⟨h.limit_eq, ⟨h.paged.limit_pos, h.paged.offset_eq, h.paged.offset_lt⟩, ?_, h.more⟩
  intro f hf hr he
  rcases List.mem_append.1 hf with hf | hf
  · exact h.refresh f hf hr he
  · obtain rfl := Request.page.inj (mem_requestRefresh hf)
    have hlength := h.paged.length_le
    change limit.toNat ≤ s.window.refreshLimit.toNat ∧
      s.window.refreshLimit.toNat ≤ s.window.offset.toNat + limit.toNat
    rw [Window.toNat_refreshLimit]
    rw [h.limit_eq] at hlength ⊢
    omega

/-- The page that is asked for to be appended begins behind the last one. -/
theorem requestMore (h : Fits limit s out) :
    Fits limit s.requestMore.1 (out ++ s.requestMore.2) := by
  by_cases hmore : s.loadMore = none ∧ s.window.hasMore
  · rw [requestMore_of hmore]
    obtain ⟨hnext, hlt⟩ := Window.Paged.toNat_nextOffset_of_hasMore hmore.2
    have hdvd := h.paged.dvd_offset
    rw [h.limit_eq] at hnext hdvd
    refine ⟨h.limit_eq, ⟨h.paged.limit_pos, h.paged.offset_eq, h.paged.offset_lt⟩, ?_, ?_⟩
    · intro f hf hr he
      rcases List.mem_append.1 hf with hf | hf
      · exact h.refresh f hf hr he
      · obtain rfl := Request.page.inj (List.mem_singleton.1 hf)
        simp at hr
    · intro offset hk
      obtain rfl := Option.some.inj (Option.mem_def.1 hk)
      rw [hnext]
      exact ⟨Nat.dvd_add hdvd (Nat.dvd_refl _), Nat.le_refl _, hnext ▸ hlt⟩
  · rw [requestMore_of_not hmore, List.append_nil]
    exact h

/-- The answer to a refresh keeps the window in pages, and it reaches no further than before. -/
theorem takeRefresh (h : Fits limit s out) (hb : s.Balanced out) {f : PageFetch}
    (result : Except Failure Page) (hf : .page f ∈ out) (hr : f.reason = .refresh)
    (he : f.epoch = s.epoch) (hshort : ∀ page, result = .ok page → Short f page) :
    Fits limit (s.merge f result).openGate (out.erase (.page f)) := by
  have he' : f.epoch = (s.merge f result).epoch := by cases result <;> exact he
  have hnone := (hb.merge f result).openGate hf hr he'
  obtain ⟨-, hoffset, -⟩ := hb.refreshes_eq_singleton hf hr he
  obtain ⟨-, hle⟩ := h.refresh f hf hr he
  -- the page being appended stays behind the pages held, as these reach no further than before
  have hpaged : (s.merge f result).window.Paged ∧
      (s.merge f result).window.offset.toNat ≤ s.window.offset.toNat := by
    cases result with
    | error e => exact ⟨h.paged, Nat.le_refl _⟩
    | ok page =>
      have hpaged' : (s.merge f (.ok page)).window.Paged := by
        rw [← h.limit_eq] at hle
        change (s.window.applySpan f.offset f.limit page).Paged
        rw [hoffset]
        exact h.paged.applySpan_top hle (hshort page rfl)
      refine ⟨hpaged', ?_⟩
      have hitems := items_takeRefresh hb hf hr he page
      have hlength := h.paged.length_le
      have hpage : page.items.length ≤ f.limit.toNat := hshort page rfl
      rw [hpaged'.offset_eq]
      refine lastPage_le h.paged.dvd_offset ?_
      rw [hitems, List.length_append, List.length_drop]
      change _ ≤ s.window.offset.toNat + s.window.limit.toNat
      rw [← h.limit_eq] at hle
      omega
  refine ⟨?_, ⟨hpaged.1.limit_pos, hpaged.1.offset_eq, hpaged.1.offset_lt⟩, ?_, ?_⟩
  · cases result <;> exact h.limit_eq
  · intro g hg hgr hge
    exact absurd hge (hnone.epoch_ne_of_idle rfl hg hgr)
  · intro offset hk
    have hk' : offset ∈ s.loadMore := by cases result <;> exact hk
    obtain ⟨hdvd, hle', hlt⟩ := h.more offset hk'
    exact ⟨hdvd, Nat.le_trans (Nat.add_le_add_right hpaged.2 _) hle', hlt⟩

/-- A page that is appended keeps the window in pages, and it reaches at least as far as before. -/
theorem takeMore (h : Fits limit s out) (hb : s.Balanced out) {f : PageFetch}
    (result : Except Failure Page) (hf : .page f ∈ out) (hr : f.reason = .loadMore)
    (he : f.epoch = s.epoch) (hshort : ∀ page, result = .ok page → Short f page) :
    Fits limit (s.merge f result).closeMore (out.erase (.page f)) := by
  obtain ⟨hk, hlimit⟩ := h.more_fetch hb hf hr he
  obtain ⟨hdvd, hle, hlt⟩ := h.more f.offset (Option.mem_def.2 hk)
  have hpaged : (s.merge f result).window.Paged ∧
      s.window.offset.toNat ≤ (s.merge f result).window.offset.toNat := by
    cases result with
    | error e => exact ⟨h.paged, Nat.le_refl _⟩
    | ok page =>
      have hpaged' : (s.merge f (.ok page)).window.Paged := by
        have hpage : page.items.length ≤ f.limit.toNat := hshort page rfl
        rw [← h.limit_eq] at hdvd hle hlimit
        rw [hlimit] at hpage
        exact h.paged.applySpan_append hdvd hlt hle hpage
      refine ⟨hpaged', ?_⟩
      rw [h.paged.offset_eq, hpaged'.offset_eq]
      refine lastPage_mono ?_
      rw [h.items_takeMore hb hf hr he page, List.length_append]
      exact Nat.le_add_right _ _
  refine ⟨?_, ⟨hpaged.1.limit_pos, hpaged.1.offset_eq, hpaged.1.offset_lt⟩, ?_, ?_⟩
  · cases result <;> exact h.limit_eq
  · intro g hg hgr hge
    have hge' : g.epoch = s.epoch := by cases result <;> exact hge
    obtain ⟨hfull, hgle⟩ := h.refresh g (List.mem_of_mem_erase hg) hgr hge'
    exact ⟨hfull, Nat.le_trans hgle (Nat.add_le_add_right hpaged.2 _)⟩
  · intro offset hk
    exact absurd hk (by cases result <;> simp [closeMore, markLoading])

end Fits

/-- In every run with pages that are not longer than they were asked for, windows consist of pages
and fetches fit them. -/
theorem preserved_fits (limit : UInt64) : Preserved Short (Fits limit) where
  thin _ _ h hsub := ⟨h.limit_eq, h.paged, fun f hf => h.refresh f (hsub f hf), h.more⟩
  reset hb h := by
    refine ⟨h.limit_eq, h.paged.reset, fun f hf _ he => ?_, fun offset hk => by simp [reset] at hk⟩
    exact absurd he (epoch_ne_reset (hb.epoch_le f hf))
  requestRefresh _ h := h.requestRefresh
  requestMore _ h := h.requestMore
  takeRefresh hb h hf hr he hshort := h.takeRefresh hb _ hf hr he hshort
  takeMore hb h hf hr he hshort := h.takeMore hb _ hf hr he hshort

end RepoState

/-- Windows consist of pages and fetches fit them, in every lawful run in which no page is longer
than it was asked for. -/
theorem Traffic.fits_run_of_short {subject : Ident} {pageLimit noticeCapacity : UInt64}
    {inputs : List Reconciler.Input}
    (hl : (start (Reconciler.new subject pageLimit noticeCapacity)).Lawful inputs) (repo : Ident)
    (hshort : ∀ f page, .completion (.page f (.ok page)) ∈ inputs → f.repoId = repo →
      RepoState.Short f page) :
    RepoState.Fits (max pageLimit 1)
      (((start (Reconciler.new subject pageLimit noticeCapacity)).run inputs).state.repo repo)
      (((start (Reconciler.new subject pageLimit noticeCapacity)).run inputs).only repo).out :=
  preserved_run (RepoState.preserved_fits _) (RepoState.fits_new repo pageLimit) hl hshort

end LiveAudit
