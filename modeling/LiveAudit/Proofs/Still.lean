import Mathlib.Logic.Function.Iterate
import LiveAudit.Proofs.LoadMore

/-!
# A server that stands still

While the list of a repository does not change, its window shows the beginning of it at all times:
as many rows as the pages held reach, or none before the first page of a generation has come
(`RepoState.Still`). It does not matter in which order refreshes and appended pages come back, nor
which of them fail. Asked for pages one after another, the window ends up with the whole list
(`Traffic.Ready.items_iterate`).
-/

namespace LiveAudit

open Reconciler (Input)

namespace RepoState

/-- Nothing has been loaded, and no page is being appended. -/
structure Blank (s : RepoState) : Prop where
  total : s.window.total = 0
  items : s.window.items = []
  more : s.loadMore = none

/-- The window shows a list as far as its pages reach, and the page being appended is the next. -/
structure Shows (limit : UInt64) (runs : List Run) (s : RepoState) : Prop where
  total : s.window.total.toNat = runs.length
  items : s.window.items = runs.take (s.window.offset.toNat + limit.toNat)
  more : ∀ offset ∈ s.loadMore,
    offset.toNat = s.window.offset.toNat + limit.toNat ∧ offset.toNat < runs.length

/-- The window shows the beginning of a list that does not change, or nothing. -/
def Still (limit : UInt64) (runs : List Run) (s : RepoState) (out : List Request) : Prop :=
  Fits limit s out ∧ (s.Blank ∨ s.Shows limit runs)

/-- Whether a page is what a fetch reads of a list. -/
def ReadOf (runs : List Run) (f : PageFetch) (page : Page) : Prop :=
  page = Service.slice runs f.offset f.limit

theorem short_of_readOf {runs : List Run} {f : PageFetch} {page : Page} (h : ReadOf runs f page) :
    Short f page := by
  rw [h]
  exact length_slice_le runs f.offset f.limit

section

variable {limit : UInt64} {runs : List Run} {s : RepoState} {out : List Request}

/-- Rows that are read again from the top change nothing. -/
theorem take_append_drop_take {l m : Nat} (h : l ≤ m) :
    runs.take l ++ (runs.take m).drop l = runs.take m := by
  have hsplit := List.take_append_drop l (runs.take m)
  rwa [List.take_take, Nat.min_eq_left h] at hsplit

/-- The number of rows that a window shows. -/
theorem Shows.length_items (h : s.Shows limit runs) :
    s.window.items.length = min runs.length (s.window.offset.toNat + limit.toNat) := by
  rw [h.items, List.length_take, Nat.min_comm]

/-- There are more rows exactly if not all of the list is shown. -/
theorem Shows.hasMore_iff (h : s.Shows limit runs) (hf : Fits limit s out) :
    s.window.hasMore ↔ s.window.items.length < runs.length := by
  rw [Window.hasMore_iff, h.total, h.length_items, hf.limit_eq]
  omega

/-- The page that is asked for is the next one. -/
theorem Shows.requestMore (h : s.Shows limit runs) (hf : Fits limit s out) :
    s.requestMore.1.Shows limit runs := by
  by_cases hmore : s.loadMore = none ∧ s.window.hasMore
  · rw [requestMore_of hmore]
    refine ⟨h.total, h.items, fun offset hk => ?_⟩
    obtain rfl := Option.some.inj (Option.mem_def.1 hk)
    have hlt := (Window.hasMore_iff _).1 hmore.2
    have hnext := (Window.Paged.toNat_nextOffset_of_hasMore hmore.2).1
    rw [hf.limit_eq] at hlt hnext
    rw [h.total] at hlt
    rw [hnext]
    exact ⟨rfl, hlt⟩
  · rwa [requestMore_of_not hmore]

/-- After a refresh the window shows the list. -/
theorem shows_takeRefresh (hruns : runs.length < UInt64.size) (h : Still limit runs s out)
    (hb : s.Balanced out) {f : PageFetch} (hf : .page f ∈ out) (hr : f.reason = .refresh)
    (he : f.epoch = s.epoch) {page : Page} (hpage : ReadOf runs f page) :
    (s.merge f (.ok page)).openGate.Shows limit runs := by
  obtain ⟨hfits, hshown⟩ := h
  obtain ⟨hge, hle⟩ := hfits.refresh f hf hr he
  have hfits' := hfits.takeRefresh hb (.ok page) hf hr he fun page' hpage' =>
    Except.ok.inj hpage' ▸ short_of_readOf hpage
  have hoffset' : (s.merge f (.ok page)).window.offset.toNat =
      lastPage limit.toNat (s.merge f (.ok page)).window.items.length := by
    have hlast := hfits'.paged.offset_eq
    rwa [hfits'.limit_eq] at hlast
  have hread : page.items = runs.take f.limit.toNat := by
    obtain ⟨-, hzero, -⟩ := hb.refreshes_eq_singleton hf hr he
    rw [hpage, Service.slice, hzero]
    rfl
  have hitems := Fits.items_takeRefresh hb hf hr he page
  have htotal : (s.merge f (.ok page)).window.total.toNat = runs.length := by
    change page.total.toNat = _
    rw [hpage]
    exact toNat_total_slice hruns _ _
  have hoffset : s.window.offset.toNat = lastPage limit.toNat s.window.items.length := by
    rw [hfits.paged.offset_eq, hfits.limit_eq]
  rcases hshown with hblank | hshows
  · -- the first page of a generation
    rw [hblank.items, List.length_nil, lastPage_zero] at hoffset
    have hlimit : f.limit.toNat = limit.toNat := by omega
    rw [hblank.items, List.drop_nil, List.append_nil, hread, hlimit] at hitems
    have hzero : (s.merge f (.ok page)).window.offset.toNat = 0 := by
      rw [hoffset', hitems]
      refine Nat.le_zero.1 (lastPage_le (Nat.dvd_zero _) ?_)
      rw [Nat.zero_add]
      exact List.length_take_le _ _
    refine ⟨htotal, ?_, fun offset hk => ?_⟩
    · change (s.merge f (.ok page)).window.items =
        runs.take ((s.merge f (.ok page)).window.offset.toNat + limit.toNat)
      rw [hitems, hzero, Nat.zero_add]
    · have hnone : s.loadMore = some offset := hk
      rw [hblank.more] at hnone
      simp at hnone
  · have hsame : (s.merge f (.ok page)).window.items = s.window.items := by
      rw [hitems, hread, hshows.items, take_append_drop_take hle]
    have hkeep : (s.merge f (.ok page)).window.offset.toNat = s.window.offset.toNat := by
      rw [hoffset', hsame, hoffset]
    refine ⟨htotal, ?_, ?_⟩
    · change (s.merge f (.ok page)).window.items =
        runs.take ((s.merge f (.ok page)).window.offset.toNat + limit.toNat)
      rw [hsame, hkeep]
      exact hshows.items
    · intro offset hk
      change _ = (s.merge f (.ok page)).window.offset.toNat + limit.toNat ∧ _
      rw [hkeep]
      exact hshows.more offset hk

/-- After an appended page the window shows one page more of the list. -/
theorem shows_takeMore (hruns : runs.length < UInt64.size) (h : Still limit runs s out)
    (hb : s.Balanced out) {f : PageFetch} (hf : .page f ∈ out) (hr : f.reason = .loadMore)
    (he : f.epoch = s.epoch) {page : Page} (hpage : ReadOf runs f page) :
    (s.merge f (.ok page)).closeMore.Shows limit runs ∧
      (s.merge f (.ok page)).window.items.length =
        s.window.items.length + min limit.toNat (runs.length - s.window.items.length) := by
  obtain ⟨hfits, hshown⟩ := h
  obtain ⟨hk, hlimit⟩ := hfits.more_fetch hb hf hr he
  have hshows : s.Shows limit runs := by
    rcases hshown with hblank | hshows
    · rw [hblank.more] at hk
      simp at hk
    · exact hshows
  obtain ⟨hoffset, hlt⟩ := hshows.more f.offset (Option.mem_def.2 hk)
  obtain ⟨hdvd, -, -⟩ := hfits.more f.offset (Option.mem_def.2 hk)
  have hfits' := hfits.takeMore hb (.ok page) hf hr he fun page' hpage' =>
    Except.ok.inj hpage' ▸ short_of_readOf hpage
  have hitems : (s.merge f (.ok page)).window.items = runs.take (f.offset.toNat + limit.toNat) := by
    rw [hfits.items_takeMore hb hf hr he page, hshows.items, ← hoffset, hpage, Service.slice,
      hlimit, List.take_add]
  have hlength : (s.merge f (.ok page)).window.items.length =
      min (f.offset.toNat + limit.toNat) runs.length := by
    rw [hitems, List.length_take]
  have hpos : 0 < limit.toNat := hfits.limit_eq ▸ hfits.paged.limit_pos
  have hoffset' : (s.merge f (.ok page)).window.offset.toNat = f.offset.toNat := by
    have hlast := hfits'.paged.offset_eq
    rw [hfits'.limit_eq] at hlast
    refine hlast.trans (lastPage_eq hdvd ?_ ?_)
    · change _ < (s.merge f (.ok page)).window.items.length
      omega
    · change (s.merge f (.ok page)).window.items.length ≤ _
      omega
  refine ⟨⟨?_, ?_, fun offset hk => ?_⟩, ?_⟩
  · change page.total.toNat = _
    rw [hpage]
    exact toNat_total_slice hruns _ _
  · change (s.merge f (.ok page)).window.items =
      runs.take ((s.merge f (.ok page)).window.offset.toNat + limit.toNat)
    rw [hitems, hoffset']
  · simp [closeMore, markLoading] at hk
  · have hrows := hshows.length_items
    omega

/-- Only rows, total, offset and the page being appended count for what is shown. -/
theorem Shows.congr {s' : RepoState} (h : s.Shows limit runs)
    (htotal : s'.window.total = s.window.total) (hitems : s'.window.items = s.window.items)
    (hoffset : s'.window.offset = s.window.offset)
    (hmore : ∀ offset ∈ s'.loadMore, offset ∈ s.loadMore) : s'.Shows limit runs where
  total := by rw [htotal, h.total]
  items := by rw [hitems, hoffset, h.items]
  more offset hk := by
    rw [hoffset]
    exact h.more offset (hmore offset hk)

theorem shown_congr {s' : RepoState} (h : s.Blank ∨ s.Shows limit runs)
    (htotal : s'.window.total = s.window.total) (hitems : s'.window.items = s.window.items)
    (hoffset : s'.window.offset = s.window.offset)
    (hmore : ∀ offset ∈ s'.loadMore, offset ∈ s.loadMore) : s'.Blank ∨ s'.Shows limit runs := by
  rcases h with hblank | hshows
  · refine .inl ⟨htotal.trans hblank.total, hitems.trans hblank.items, ?_⟩
    refine Option.eq_none_iff_forall_not_mem.2 fun offset hk => ?_
    have hk' := hmore offset hk
    simp [hblank.more] at hk'
  · exact .inr (hshows.congr htotal hitems hoffset hmore)

/-- No page is asked for before the first one has come. -/
theorem Blank.requestMore_eq (h : s.Blank) : s.requestMore = (s, []) := by
  refine requestMore_of_not ?_
  rintro ⟨-, hmore⟩
  have hlt := (Window.hasMore_iff _).1 hmore
  rw [h.total] at hlt
  exact Nat.not_lt_zero _ hlt

/-- While the list does not change, the window shows its beginning or nothing. -/
theorem preserved_still (hruns : runs.length < UInt64.size) :
    Preserved (ReadOf runs) (Still limit runs) where
  thin sync progress h hsub :=
    ⟨(preserved_fits limit).thin sync progress h.1 hsub, shown_congr h.2 rfl rfl rfl fun _ hk => hk⟩
  reset hb h := ⟨(preserved_fits limit).reset hb h.1, .inl ⟨rfl, rfl, rfl⟩⟩
  requestRefresh _ h := ⟨h.1.requestRefresh, shown_congr h.2 rfl rfl rfl fun _ hk => hk⟩
  requestMore _ h := by
    refine ⟨h.1.requestMore, ?_⟩
    rcases h.2 with hblank | hshows
    · rw [hblank.requestMore_eq]
      exact .inl hblank
    · exact .inr (hshows.requestMore h.1)
  takeRefresh {_ _ _ result} hb h hf hr he hread := by
    refine ⟨h.1.takeRefresh hb _ hf hr he fun page hpage => short_of_readOf (hread page hpage), ?_⟩
    cases result with
    | ok page => exact .inr (shows_takeRefresh hruns h hb hf hr he (hread page rfl))
    | error e => exact shown_congr h.2 rfl rfl rfl fun _ hk => hk
  takeMore {_ _ _ result} hb h hf hr he hread := by
    refine ⟨h.1.takeMore hb _ hf hr he fun page hpage => short_of_readOf (hread page hpage), ?_⟩
    cases result with
    | ok page => exact .inr (shows_takeMore hruns h hb hf hr he (hread page rfl)).1
    | error e =>
      exact shown_congr h.2 rfl rfl rfl fun offset hk => by simp [closeMore, markLoading] at hk

/-- From a generation on: while it lasts, the window shows the list. -/
def ShowsIn (epoch : Nat) (limit : UInt64) (runs : List Run) (s : RepoState)
    (out : List Request) : Prop :=
  Still limit runs s out ∧ epoch ≤ s.epoch ∧ (s.epoch = epoch → s.Shows limit runs)

/-- Once a page of a generation has come, the window shows the list as long as the generation
lasts. -/
theorem preserved_showsIn (epoch : Nat) (hruns : runs.length < UInt64.size) :
    Preserved (ReadOf runs) (ShowsIn epoch limit runs) where
  thin sync progress h hsub := ⟨(preserved_still hruns).thin sync progress h.1 hsub, h.2.1,
    fun he => (h.2.2 he).congr rfl rfl rfl fun _ hk => hk⟩
  reset hb h := ⟨(preserved_still hruns).reset hb h.1, Nat.le_succ_of_le h.2.1,
    fun he => absurd he.symm (epoch_ne_reset h.2.1)⟩
  requestRefresh hb h := ⟨(preserved_still hruns).requestRefresh hb h.1, h.2.1,
    fun he => (h.2.2 he).congr rfl rfl rfl fun _ hk => hk⟩
  requestMore {s _} hb h := by
    have hepoch : s.requestMore.1.epoch = s.epoch := s.epoch_requestMore
    refine ⟨(preserved_still hruns).requestMore hb h.1, ?_, fun he => ?_⟩
    · rw [hepoch]
      exact h.2.1
    · exact (h.2.2 (hepoch ▸ he)).requestMore h.1.1
  takeRefresh {_ _ _ result} hb h hf hr he hread := by
    refine ⟨(preserved_still hruns).takeRefresh hb h.1 hf hr he hread, ?_, fun he' => ?_⟩
    · cases result <;> exact h.2.1
    · cases result with
      | ok page => exact shows_takeRefresh hruns h.1 hb hf hr he (hread page rfl)
      | error e => exact (h.2.2 he').congr rfl rfl rfl fun _ hk => hk
  takeMore {_ _ _ result} hb h hf hr he hread := by
    refine ⟨(preserved_still hruns).takeMore hb h.1 hf hr he hread, ?_, fun he' => ?_⟩
    · cases result <;> exact h.2.1
    · cases result with
      | ok page => exact (shows_takeMore hruns h.1 hb hf hr he (hread page rfl)).1
      | error e =>
        exact (h.2.2 he').congr rfl rfl rfl fun offset hk => by simp [closeMore, markLoading] at hk

end

end RepoState

/-! ### Runs -/

namespace Traffic

variable {lists : Ident → List Run}

/-- Whether every page that comes is read of the list that its repository has. -/
def ReadsOf (lists : Ident → List Run) (inputs : List Input) : Prop :=
  ∀ f page, .completion (.page f (.ok page)) ∈ inputs → RepoState.ReadOf (lists f.repoId) f page

theorem still_run {subject : Ident} {pageLimit noticeCapacity : UInt64} {inputs : List Input}
    (hlists : ∀ repo, (lists repo).length < UInt64.size)
    (hl : (start (Reconciler.new subject pageLimit noticeCapacity)).Lawful inputs)
    (hreads : ReadsOf lists inputs) (repo : Ident) :
    RepoState.Still (max pageLimit 1) (lists repo)
      (((start (Reconciler.new subject pageLimit noticeCapacity)).run inputs).state.repo repo)
      (((start (Reconciler.new subject pageLimit noticeCapacity)).run inputs).only repo).out := by
  refine preserved_run (RepoState.preserved_still (hlists repo))
    ⟨RepoState.fits_new repo pageLimit, .inl ⟨rfl, rfl, rfl⟩⟩ hl fun f page hmem hrepo => ?_
  rw [← hrepo]
  exact hreads f page hmem

/-- A page that comes starts or continues what the window shows in its generation. -/
theorem showsIn_next {t : Traffic Reconciler} (hs : t.Sound) {f : PageFetch} (hf : .page f ∈ t.out)
    (hb : (t.state.repo f.repoId).Balanced (t.only f.repoId).out) {limit : UInt64} {runs : List Run}
    (hruns : runs.length < UInt64.size)
    (h : RepoState.Still limit runs (t.state.repo f.repoId) (t.only f.repoId).out) {page : Page}
    (hread : RepoState.ReadOf runs f page) :
    RepoState.ShowsIn f.epoch limit runs
      ((t.next (Input.completion (.page f (.ok page)))).state.repo f.repoId)
      ((t.next (Input.completion (.page f (.ok page)))).only f.repoId).out := by
  have hmem : .page f ∈ (t.only f.repoId).out :=
    mem_only.2 ⟨hf, rfl⟩
  have hadmitted : t.Lawful [Input.completion (.page f (.ok page))] :=
    ⟨admits_of_mem rfl hf, trivial⟩
  have hstill := preserved_from (RepoState.preserved_still hruns) hs hb h hadmitted
    fun g p hg _ => by
      rw [List.mem_singleton, Input.completion.injEq, Completion.page.injEq,
        Except.ok.injEq] at hg
      obtain ⟨rfl, rfl⟩ := hg
      exact hread
  refine ⟨hstill, ?_⟩
  rw [repo_next_page hs hf]
  rcases Nat.lt_or_ge f.epoch (t.state.repo f.repoId).epoch with hlt | hge
  · -- a page of an earlier generation is dropped
    rw [RepoState.act_page_of_ne (Nat.ne_of_lt hlt)]
    exact ⟨Nat.le_of_lt hlt, fun he => absurd he (Nat.ne_of_gt hlt)⟩
  · have he : f.epoch = (t.state.repo f.repoId).epoch := Nat.le_antisymm (hb.epoch_le f hmem) hge
    rw [RepoState.act_page_of_eq he, RepoState.completePage_eq, RepoState.epoch_settleFetch]
    refine ⟨Nat.le_of_eq he, fun _ => ?_⟩
    cases hr : f.reason with
    | refresh =>
      have hshows := RepoState.shows_takeRefresh hruns h hb hmem hr he hread
      rw [RepoState.settleFetch_refresh]
      split_ifs
      · exact hshows.congr rfl rfl rfl fun _ hk => hk
      · exact hshows
    | loadMore => exact (RepoState.shows_takeMore hruns h hb hmem hr he hread).1

/-- Once a page of the generation has come, the window shows the list. -/
theorem shows_run {subject : Ident} {pageLimit noticeCapacity : UInt64} {inputs : List Input}
    (hlists : ∀ repo, (lists repo).length < UInt64.size)
    (hl : (start (Reconciler.new subject pageLimit noticeCapacity)).Lawful inputs)
    (hreads : ReadsOf lists inputs) {f : PageFetch} {page : Page}
    (hmem : .completion (.page f (.ok page)) ∈ inputs)
    (he : f.epoch = (((start (Reconciler.new subject pageLimit noticeCapacity)).run
      inputs).state.repo f.repoId).epoch) :
    (((start (Reconciler.new subject pageLimit noticeCapacity)).run inputs).state.repo
      f.repoId).Shows (max pageLimit 1) (lists f.repoId) := by
  obtain ⟨past, rest, rfl⟩ := List.append_of_mem hmem
  obtain ⟨hpast, hi, hrest⟩ := lawful_append.1 hl
  rw [run_append, run_cons] at he ⊢
  have hsound := (sound_start subject pageLimit noticeCapacity).run past
  have hb := balanced_run hpast f.repoId
  have hstill := still_run hlists hpast (fun g p hg => hreads g p (by simp [hg])) f.repoId
  generalize (start (Reconciler.new subject pageLimit noticeCapacity)).run past = t at *
  have hin := showsIn_next hsound (hi _ rfl) hb (hlists f.repoId) hstill (hreads f page hmem)
  have hfirst : t.Lawful [Input.completion (.page f (.ok page))] := ⟨hi, trivial⟩
  have hb' := balanced_from hsound hb hfirst
  have hend := preserved_from (RepoState.preserved_showsIn f.epoch (hlists f.repoId))
    (hsound.next _) hb' hin hrest fun g p hg hrepo => by
      rw [← hrepo]
      exact hreads g p (by simp [hg])
  exact hend.2.2 he.symm

/-- An appended page that comes makes the window longer by a page, or by all that is left. -/
theorem length_next_more {t : Traffic Reconciler} (hs : t.Sound) {f : PageFetch}
    (hf : .page f ∈ t.out) (hb : (t.state.repo f.repoId).Balanced (t.only f.repoId).out)
    {limit : UInt64} {runs : List Run} (hruns : runs.length < UInt64.size)
    (h : RepoState.Still limit runs (t.state.repo f.repoId) (t.only f.repoId).out)
    (hr : f.reason = .loadMore) (he : f.epoch = (t.state.repo f.repoId).epoch) :
    ((t.next (Input.completion (.page f (.ok (Service.slice runs f.offset f.limit))))).state.repo
        f.repoId).window.items.length =
      (t.state.repo f.repoId).window.items.length +
        min limit.toNat (runs.length - (t.state.repo f.repoId).window.items.length) := by
  have hmem : .page f ∈ (t.only f.repoId).out :=
    mem_only.2 ⟨hf, rfl⟩
  rw [repo_next_page hs hf, RepoState.act_page_of_eq he, RepoState.completePage_eq,
    RepoState.items_settleFetch]
  exact (RepoState.shows_takeMore hruns h hb hmem hr he rfl).2

/-- After the answer to a page of the current generation that was to be appended, there is none. -/
theorem closed_next_more {t : Traffic Reconciler} (hs : t.Sound) {f : PageFetch}
    (hf : .page f ∈ t.out) (hr : f.reason = .loadMore)
    (he : f.epoch = (t.state.repo f.repoId).epoch) (result : Except Failure Page) :
    ((t.next (Input.completion (.page f result))).state.repo f.repoId).loadMore = none ∧
      ((t.next (Input.completion (.page f result))).state.repo f.repoId).epoch = f.epoch := by
  rw [repo_next_page hs hf, RepoState.act_page_of_eq he, RepoState.completePage_eq, hr,
    RepoState.settleFetch_loadMore]
  refine ⟨rfl, ?_⟩
  cases result <;> exact he.symm

/-- Asks for the subject's next page, and answers what is asked for. -/
def appendPage (lists : Ident → List Run) (t : Traffic Reconciler) : Traffic Reconciler :=
  match (t.state.step .loadMore).2 with
  | [.page f] => (t.next Input.loadMore).next
      (Input.completion (.page f (.ok (Service.slice (lists f.repoId) f.offset f.limit))))
  | _ => t.next Input.loadMore

/-- The subject shows its list, and no page is being appended. -/
structure Ready (lists : Ident → List Run) (limit : UInt64) (t : Traffic Reconciler) : Prop where
  sound : t.Sound
  balanced : t.state.current.Balanced (t.only t.state.subject).out
  fits : t.state.current.Fits limit (t.only t.state.subject).out
  shows : t.state.current.Shows limit (lists t.state.subject)
  more : t.state.current.loadMore = none

/-- The subject is ready again, with a page more of its list or all that was left. -/
structure Longer (lists : Ident → List Run) (limit : UInt64) (t t' : Traffic Reconciler) :
    Prop where
  ready : t'.Ready lists limit
  subject : t'.state.subject = t.state.subject
  length : t'.state.current.window.items.length = t.state.current.window.items.length +
    min limit.toNat ((lists t.state.subject).length - t.state.current.window.items.length)

/-- What asking for the next page does to the subject. -/
theorem repo_next_loadMore (t : Traffic Reconciler) :
    (t.next Input.loadMore).state.repo t.state.subject = t.state.current.requestMore.1 :=
  Reconciler.repo_setRepo_self _ _ _

/-- The fetch of the subject's next page. -/
def nextFetch (t : Traffic Reconciler) : PageFetch :=
  ⟨t.state.subject, t.state.current.window.nextOffset, t.state.current.window.limit, .loadMore,
    t.state.current.epoch⟩

section

variable {limit : UInt64} {t : Traffic Reconciler}

/-- What is ready shows its list in the present generation. -/
theorem Ready.showsIn (h : t.Ready lists limit) :
    t.state.current.ShowsIn t.state.current.epoch limit (lists t.state.subject)
      (t.only t.state.subject).out :=
  ⟨⟨h.fits, .inr h.shows⟩, Nat.le_refl _, fun _ => h.shows⟩

/-- While there are more rows, asking for the next page sends a fetch of it. -/
theorem Ready.step_of_hasMore (h : t.Ready lists limit) (hmore : t.state.current.window.hasMore) :
    (t.state.step .loadMore).2 = [.page t.nextFetch] := by
  have hname : t.state.current.window.repoId = t.state.subject := h.sound.named _
  have hsent : (t.state.step .loadMore).2 =
      [t.state.current.moreFetch t.state.current.window.nextOffset] :=
    congrArg Prod.snd (RepoState.requestMore_of ⟨h.more, hmore⟩)
  rw [hsent, RepoState.moreFetch, hname]
  rfl

/-- So its answer is what appends a page. -/
theorem Ready.appendPage_of_hasMore (h : t.Ready lists limit)
    (hmore : t.state.current.window.hasMore) :
    t.appendPage lists = (t.next Input.loadMore).next (Input.completion (.page t.nextFetch
      (.ok (Service.slice (lists t.state.subject) t.nextFetch.offset t.nextFetch.limit)))) := by
  unfold appendPage
  rw [h.step_of_hasMore hmore]
  rfl

/-- After it was asked for, the fetch of the next page is out, and the rows held are as before. -/
theorem Ready.asked (h : t.Ready lists limit) (hmore : t.state.current.window.hasMore) :
    .page t.nextFetch ∈ (t.next Input.loadMore).out ∧
      t.nextFetch.epoch = ((t.next Input.loadMore).state.repo t.state.subject).epoch ∧
      ((t.next Input.loadMore).state.repo t.state.subject).window.items =
        t.state.current.window.items := by
  have hstate := repo_next_loadMore t
  rw [RepoState.requestMore_of ⟨h.more, hmore⟩] at hstate
  refine ⟨List.mem_append_right _ ?_, ?_, ?_⟩
  · change .page t.nextFetch ∈ (t.state.step .loadMore).2
    rw [h.step_of_hasMore hmore]
    exact List.mem_singleton_self _
  · rw [hstate]
    rfl
  · rw [hstate]
    rfl

/-- While there are more rows, the next one is appended and the subject is ready again. -/
theorem Ready.next_page_of_hasMore (hlists : ∀ repo, (lists repo).length < UInt64.size)
    (h : t.Ready lists limit) (hmore : t.state.current.window.hasMore) :
    t.Longer lists limit (t.appendPage lists) := by
  have hruns := hlists t.state.subject
  have happend := h.appendPage_of_hasMore hmore
  obtain ⟨hout, he, hitems⟩ := h.asked hmore
  set page := Service.slice (lists t.state.subject) t.nextFetch.offset t.nextFetch.limit
  have hask : t.Lawful [Input.loadMore] := ⟨admits_of_none rfl, trivial⟩
  have hread : t.Lawful [Input.loadMore, .completion (.page t.nextFetch (.ok page))] :=
    ⟨admits_of_none rfl, admits_of_mem rfl hout, trivial⟩
  have hsound := h.sound.next Input.loadMore
  have hbalanced := balanced_from h.sound h.balanced hread
  have hasked := preserved_from (RepoState.preserved_showsIn t.state.current.epoch hruns) h.sound
    h.balanced h.showsIn hask fun g page hg _ => by simp at hg
  have hanswered := preserved_from (RepoState.preserved_showsIn t.state.current.epoch hruns)
    h.sound h.balanced h.showsIn hread fun g page' hg _ => by
      simp only [List.mem_cons, List.not_mem_nil, or_false, reduceCtorEq, false_or,
        Input.completion.injEq, Completion.page.injEq, Except.ok.injEq] at hg
      obtain ⟨rfl, rfl⟩ := hg
      rfl
  have hclosed := closed_next_more hsound hout rfl he (.ok page)
  have hlength := length_next_more hsound hout (balanced_from h.sound h.balanced hask) hruns
    hasked.1 rfl he
  have hsubject : (t.appendPage lists).state.subject = t.state.subject := by
    rw [happend]
    exact (Reconciler.control_step _ _).1
  have hcurrent : (t.appendPage lists).state.current =
      (t.appendPage lists).state.repo t.state.subject := by
    rw [Reconciler.current, hsubject]
  refine ⟨⟨?_, ?_, ?_, ?_, ?_⟩, hsubject, ?_⟩
  · rw [happend]
    exact hsound.next _
  · rw [hcurrent, hsubject, happend]
    exact hbalanced
  · rw [hcurrent, hsubject, happend]
    exact hanswered.1.1
  · rw [hcurrent, hsubject, happend]
    exact hanswered.2.2 hclosed.2
  · rw [hcurrent, happend]
    exact hclosed.1
  · rw [hcurrent, happend, ← hitems]
    exact hlength

/-- When there are none, all rows are shown, and asking for the next page changes nothing. -/
theorem Ready.next_page_of_not (hlists : ∀ repo, (lists repo).length < UInt64.size)
    (h : t.Ready lists limit) (hno : ¬t.state.current.window.hasMore) :
    t.Longer lists limit (t.appendPage lists) := by
  have hnone : ¬(t.state.current.loadMore = none ∧ t.state.current.window.hasMore) :=
    fun hyes => hno hyes.2
  have hsent : (t.state.step .loadMore).2 = [] :=
    congrArg Prod.snd (RepoState.requestMore_of_not hnone)
  have hcurrent : (t.next Input.loadMore).state.current = t.state.current := by
    have hstate := repo_next_loadMore t
    rw [RepoState.requestMore_of_not hnone] at hstate
    exact hstate
  have happend : t.appendPage lists = t.next Input.loadMore := by
    unfold appendPage
    rw [hsent]
  have hask : t.Lawful [Input.loadMore] := ⟨admits_of_none rfl, trivial⟩
  have hin := preserved_from (RepoState.preserved_showsIn t.state.current.epoch
    (hlists t.state.subject)) h.sound h.balanced h.showsIn hask fun g page hg _ => by simp at hg
  rw [happend]
  refine ⟨⟨h.sound.next _, balanced_from h.sound h.balanced hask, hin.1.1, ?_, ?_⟩, rfl, ?_⟩
  · rw [hcurrent]
    exact h.shows
  · rw [hcurrent]
    exact h.more
  · rw [hcurrent]
    have hall := mt (h.shows.hasMore_iff h.fits).2 hno
    omega

end

/-- One page after another is appended. -/
theorem Ready.next_page {limit : UInt64} (hlists : ∀ repo, (lists repo).length < UInt64.size)
    {t : Traffic Reconciler} (h : t.Ready lists limit) :
    t.Longer lists limit (t.appendPage lists) := by
  by_cases hmore : t.state.current.window.hasMore
  · exact h.next_page_of_hasMore hlists hmore
  · exact h.next_page_of_not hlists hmore

/-- Asked for pages often enough, a window ends up with the whole list. -/
theorem Ready.items_iterate {limit : UInt64} (hlists : ∀ repo, (lists repo).length < UInt64.size)
    {t : Traffic Reconciler} (h : t.Ready lists limit) {n : Nat}
    (hn : (lists t.state.subject).length ≤ t.state.current.window.items.length + n * limit.toNat) :
    ((appendPage lists)^[n] t).state.current.window.items = lists t.state.subject := by
  induction n generalizing t with
  | zero =>
    have hlength := h.shows.length_items
    rw [Nat.zero_mul] at hn
    rw [Function.iterate_zero_apply, h.shows.items]
    exact List.take_of_length_le (by omega)
  | succ n ih =>
    have hnext := h.next_page hlists
    have hitems := ih hnext.ready (by
      rw [hnext.subject, hnext.length]
      rw [Nat.add_mul, Nat.one_mul] at hn
      omega)
    rw [Function.iterate_succ_apply, hitems, hnext.subject]

/-- Against lists that do not change, every window shows the beginning of its list: nothing, or as
far as its pages reach. An appended page makes it longer by a page or by all that is left. Once a
page of its generation has come, the subject's next page is asked for exactly while rows are left,
and page after page it ends up with the whole list. -/
theorem shown_of_still (lists : Ident → List Run)
    (hlists : ∀ repo, (lists repo).length < UInt64.size) (subject : Ident)
    (pageLimit noticeCapacity : UInt64) {inputs : List Input}
    (hl : (start (Reconciler.new subject pageLimit noticeCapacity)).Lawful inputs)
    (hreads : ReadsOf lists inputs) :
    let t := (start (Reconciler.new subject pageLimit noticeCapacity)).run inputs
    let limit := (max pageLimit 1).toNat
    (∀ repo,
      let window := (t.state.repo repo).window
      window.items = (lists repo).take window.items.length ∧
      (window.items = [] ∨
        window.items.length = min (lists repo).length (window.offset.toNat + limit)) ∧
      (window.total = 0 ∨ window.total.toNat = (lists repo).length)) ∧
    (∀ f, .page f ∈ t.out → f.reason = .loadMore → f.epoch = (t.state.repo f.repoId).epoch →
      let rows := (t.state.repo f.repoId).window.items
      let answered := t.next (Input.completion
        (.page f (.ok (Service.slice (lists f.repoId) f.offset f.limit))))
      (answered.state.repo f.repoId).window.items.length =
        rows.length + min limit ((lists f.repoId).length - rows.length)) ∧
    (∀ f page, .completion (.page f (.ok page)) ∈ inputs → f.repoId = t.state.subject →
      f.epoch = t.state.current.epoch → t.state.current.loadMore = none →
      let rows := t.state.current.window.items
      let runs := lists t.state.subject
      ((t.state.step .loadMore).2 ≠ [] ↔ rows.length < runs.length) ∧
      ∀ n, runs.length ≤ rows.length + n * limit →
        ((appendPage lists)^[n] t).state.current.window.items = runs) := by
  intro t limit
  have hsound : t.Sound := (sound_start subject pageLimit noticeCapacity).run inputs
  have hstill := still_run hlists hl hreads
  have hb := balanced_run hl
  refine ⟨fun repo => ?_, fun f hf hr he => ?_, fun f page hmem hsubject he hmore => ?_⟩
  · rcases (hstill repo).2 with hblank | hshows
    · have hitems : (t.state.repo repo).window.items = [] := hblank.items
      exact ⟨by simp [hitems], .inl hitems, .inl hblank.total⟩
    · have hitems : (t.state.repo repo).window.items = _ := hshows.items
      refine ⟨?_, .inr hshows.length_items, .inr hshows.total⟩
      rw [hitems, List.length_take, List.take_eq_take_min]
  · exact length_next_more hsound hf (hb f.repoId) (hlists f.repoId) (hstill f.repoId) hr he
  · have hshows : t.state.current.Shows (max pageLimit 1) (lists t.state.subject) := by
      have hshown := shows_run hlists hl hreads hmem (by rw [hsubject]; exact he)
      rwa [hsubject] at hshown
    have hfits := (hstill t.state.subject).1
    have hready : t.Ready lists (max pageLimit 1) := ⟨hsound, hb _, hfits, hshows, hmore⟩
    refine ⟨?_, fun n hn => hready.items_iterate hlists hn⟩
    have hiff := hshows.hasMore_iff hfits
    rw [← hiff]
    change t.state.current.requestMore.2 ≠ [] ↔ _
    by_cases hyes : t.state.current.window.hasMore
    · simp [RepoState.requestMore_of ⟨hmore, hyes⟩, hyes]
    · simp [RepoState.requestMore_of_not fun h => hyes h.2, hyes]

/-- A list of three rows, read by pages of two: the second page completes the window. -/
theorem shown_of_still_three_rows :
    let lists : Ident → List Run := fun repo =>
      if repo = "r" then pendingRuns ["a", "b", "c"] else []
    let t := start (Reconciler.new "r" 2 4)
    let inputs : List Input := [.load, .refresh,
      .completion (.page ⟨"r", 0, 2, .refresh, 1⟩ (.ok (Service.slice (lists "r") 0 2)))]
    t.Lawful inputs ∧ (t.run inputs).state.current.window.items = pendingRuns ["a", "b"] ∧
      ((appendPage lists)^[1] (t.run inputs)).state.current.window.items = lists "r" := by
  intro lists t inputs
  have hlists : ∀ repo, (lists repo).length < UInt64.size := by
    intro repo
    simp only [lists]
    split <;> decide
  have hl : t.Lawful inputs := by decide
  have hreads : ReadsOf lists inputs := by
    intro f page hmem
    simp only [inputs, List.mem_cons, List.not_mem_nil, or_false, reduceCtorEq, false_or,
      Input.completion.injEq, Completion.page.injEq, Except.ok.injEq] at hmem
    obtain ⟨rfl, rfl⟩ := hmem
    rfl
  have hshown := (shown_of_still lists hlists "r" 2 4 hl hreads).2.2 ⟨"r", 0, 2, .refresh, 1⟩
    (Service.slice (lists "r") 0 2) (by simp [inputs]) (by decide) (by decide) (by decide)
  have hwhole := hshown.2 1 (by decide)
  have hsubject : (t.run inputs).state.subject = "r" := by decide
  refine ⟨hl, by decide, ?_⟩
  rw [← hsubject]
  convert hwhole using 2

end Traffic

end LiveAudit
