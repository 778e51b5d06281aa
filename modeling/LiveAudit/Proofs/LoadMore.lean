import LiveAudit.Service
import LiveAudit.Proofs.Fits

/-!
# Where the next page begins

Servers answer a fetch with a slice of the list they have at that moment (`Sliced`); from one fetch
to the next the list may change at will. The page that is asked for to be appended begins where the
pages held end, not where the rows end: the last page counts as full
(`Traffic.offset_of_mem_step`). The two places are the same exactly if the rows held fill their
pages and there are any. Where they do not, because a list grew behind a last page that was short,
the rows between are never asked for.
-/

namespace LiveAudit

open Reconciler (Input)

/-! ### Slices of a list -/

/-- Whether a page is what a fetch reads of some list. -/
def Sliced (f : PageFetch) (page : Page) : Prop :=
  ∃ runs : List Run, runs.length < UInt64.size ∧ page = Service.slice runs f.offset f.limit

/-- A slice is not longer than it was asked for. -/
theorem length_slice_le (runs : List Run) (offset limit : UInt64) :
    (Service.slice runs offset limit).items.length ≤ limit.toNat :=
  List.length_take_le _ _

/-- The total of a slice is the length of the list. -/
theorem toNat_total_slice {runs : List Run} (h : runs.length < UInt64.size)
    (offset limit : UInt64) : (Service.slice runs offset limit).total.toNat = runs.length :=
  toNat_capWord_of_lt h

theorem short_of_sliced {f : PageFetch} {page : Page} (h : Sliced f page) :
    RepoState.Short f page := by
  obtain ⟨runs, -, rfl⟩ := h
  exact length_slice_le runs f.offset f.limit

/-- Behind rows that end where a slice begins, each of its rows is at its index in the list. -/
theorem getElem?_append_slice (rows runs : List Run) {i n : Nat} (hi : rows.length ≤ i)
    (hlt : i < rows.length + n) :
    (rows ++ (runs.drop rows.length).take n)[i]? = runs[i]? := by
  rw [List.getElem?_append_right hi, List.getElem?_take_of_lt (Nat.sub_lt_left_of_lt_add hi hlt),
    List.getElem?_drop, Nat.add_sub_cancel' hi]

/-- Runs of which only the identifiers matter. -/
def pendingRuns (ids : List Ident) : List Run :=
  ids.map fun id => ⟨id, .pending, none, none, none, none⟩

/-! ### Rows that stay -/

namespace RepoState

/-- In a generation of the window, these are the rows held. -/
def Holds (epoch : Nat) (rows : List Run) (s : RepoState) : Prop :=
  epoch ≤ s.epoch ∧ (s.epoch = epoch → s.window.items = rows)

/-- While no page comes, the rows of a generation stay as they are. -/
theorem preserved_holds (epoch : Nat) (rows : List Run) :
    Preserved (fun _ _ => False) fun s _ => s.Holds epoch rows where
  thin _ _ h _ := h
  reset _ h := ⟨Nat.le_succ_of_le h.1, fun he => absurd he.symm (epoch_ne_reset h.1)⟩
  requestRefresh _ h := h
  requestMore {s _} _ h := by
    by_cases hmore : s.loadMore = none ∧ s.window.hasMore
    · rw [requestMore_of hmore]
      exact h
    · rw [requestMore_of_not hmore]
      exact h
  takeRefresh {_ _ _ result} _ h _ _ _ hno := by
    cases result with
    | ok page => exact (hno page rfl).elim
    | error e => exact h
  takeMore {_ _ _ result} _ h _ _ _ hno := by
    cases result with
    | ok page => exact (hno page rfl).elim
    | error e => exact h

/-- What is sent when the next page is asked for: it begins where the pages held end. -/
theorem place_of_mem_requestMore {s : RepoState} {limit : UInt64} {out : List Request}
    (h : Fits limit s out) {f : PageFetch} (hf : .page f ∈ s.requestMore.2) :
    f.repoId = s.window.repoId ∧ f.reason = .loadMore ∧ f.epoch = s.epoch ∧ f.limit = limit ∧
      f.offset.toNat = s.window.offset.toNat + limit.toNat := by
  by_cases hmore : s.loadMore = none ∧ s.window.hasMore
  · rw [requestMore_of hmore, List.mem_singleton] at hf
    obtain rfl := Request.page.inj hf
    rw [← h.limit_eq]
    exact ⟨rfl, rfl, rfl, rfl, (Window.Paged.toNat_nextOffset_of_hasMore hmore.2).1⟩
  · simp [requestMore_of_not hmore] at hf

end RepoState

/-! ### Runs -/

namespace Traffic

/-- Windows consist of pages and fetches fit them, in every lawful run in which pages are slices. -/
theorem fits_run {subject : Ident} {pageLimit noticeCapacity : UInt64} {inputs : List Input}
    (hl : (start (Reconciler.new subject pageLimit noticeCapacity)).Lawful inputs) (repo : Ident)
    (hslices : ∀ f page, .completion (.page f (.ok page)) ∈ inputs → f.repoId = repo →
      Sliced f page) :
    RepoState.Fits (max pageLimit 1)
      (((start (Reconciler.new subject pageLimit noticeCapacity)).run inputs).state.repo repo)
      (((start (Reconciler.new subject pageLimit noticeCapacity)).run inputs).only repo).out :=
  fits_run_of_short hl repo fun f page hmem hrepo => short_of_sliced (hslices f page hmem hrepo)

/-- The page that is asked for begins where the rows end exactly if they fill their pages. -/
theorem offset_of_mem_step {t : Traffic Reconciler} {limit : UInt64}
    (hfits : RepoState.Fits limit t.state.current (t.only t.state.subject).out) {f : PageFetch}
    (hf : .page f ∈ (t.state.step .loadMore).2) :
    let rows := t.state.current.window.items
    f.offset.toNat = (rows.length - 1) / limit.toNat * limit.toNat + limit.toNat ∧
      (f.offset.toNat = rows.length ↔ rows.length ≠ 0 ∧ limit.toNat ∣ rows.length) := by
  intro rows
  obtain ⟨-, -, -, -, hoffset⟩ := RepoState.place_of_mem_requestMore hfits (f := f) hf
  have hplace := hfits.paged.offset_eq
  have hiff := hfits.paged.length_eq_iff
  rw [hfits.limit_eq] at hplace hiff
  rw [hoffset]
  refine ⟨?_, hiff⟩
  rw [hplace]
  rfl

/-- What is held when the next page is asked for is held while no other page comes. -/
theorem items_of_no_page {t : Traffic Reconciler} (hs : t.Sound) {repo : Ident}
    (hb : (t.state.repo repo).Balanced (t.only repo).out) {between : List Input}
    (hl : t.Lawful between)
    (hbetween : ∀ g page, .completion (.page g (.ok page)) ∈ between → g.repoId ≠ repo)
    (he : ((t.run between).state.repo repo).epoch = (t.state.repo repo).epoch) :
    ((t.run between).state.repo repo).window.items = (t.state.repo repo).window.items := by
  have hholds := preserved_from
    (RepoState.preserved_holds (t.state.repo repo).epoch (t.state.repo repo).window.items) hs hb
    ⟨Nat.le_refl _, fun _ => rfl⟩ hl hbetween
  exact hholds.2 he

/-- A page of the current generation that was to be appended is put behind the rows held. -/
theorem items_next_more {t : Traffic Reconciler} (hs : t.Sound) {f : PageFetch}
    (hf : .page f ∈ t.out) (hb : (t.state.repo f.repoId).Balanced (t.only f.repoId).out)
    {limit : UInt64} (hfits : RepoState.Fits limit (t.state.repo f.repoId) (t.only f.repoId).out)
    (hr : f.reason = .loadMore) (he : f.epoch = (t.state.repo f.repoId).epoch) (page : Page) :
    ((t.next (Input.completion (.page f (.ok page)))).state.repo f.repoId).window.items =
      (t.state.repo f.repoId).window.items ++ page.items := by
  rw [repo_next_page hs hf, RepoState.act_page_of_eq he, RepoState.completePage_eq,
    RepoState.items_settleFetch]
  exact hfits.items_takeMore hb (mem_only.2 ⟨hf, rfl⟩) hr he page

/-- The page that is asked for to be appended begins where the pages held end, and so where the rows
end exactly if they fill their pages. When it comes before any other page, it is put behind the rows
held, each row at its index in the list if the page begins where the rows end. -/
theorem loadMore_place (subject : Ident) (pageLimit noticeCapacity : UInt64)
    {inputs between : List Input}
    (hl : (start (Reconciler.new subject pageLimit noticeCapacity)).Lawful
      (inputs ++ .loadMore :: between))
    (hslices : ∀ f page, .completion (.page f (.ok page)) ∈ inputs → Sliced f page) :
    let t := (start (Reconciler.new subject pageLimit noticeCapacity)).run inputs
    let rows := t.state.current.window.items
    let limit := (max pageLimit 1).toNat
    ∀ f, .page f ∈ (t.state.step .loadMore).2 →
      f.offset.toNat = (rows.length - 1) / limit * limit + limit ∧
      (f.offset.toNat = rows.length ↔ rows.length ≠ 0 ∧ limit ∣ rows.length) ∧
      let t' := t.run (.loadMore :: between)
      ((∀ g page, .completion (.page g (.ok page)) ∈ between → g.repoId ≠ f.repoId) →
        .page f ∈ t'.out → f.epoch = (t'.state.repo f.repoId).epoch →
        ∀ runs : List Run,
          let answered := t'.next (Input.completion
            (.page f (.ok (Service.slice runs f.offset f.limit))))
          let merged := (answered.state.repo f.repoId).window.items
          merged = rows ++ (runs.drop f.offset.toNat).take limit ∧
          (f.offset.toNat = rows.length →
            ∀ i, rows.length ≤ i → i < rows.length + limit → merged[i]? = runs[i]?)) := by
  intro t rows limit f hf
  have hstart := sound_start subject pageLimit noticeCapacity
  obtain ⟨hpast, hrest⟩ := lawful_append.1 hl
  have hfits := fits_run hpast t.state.subject fun g page hg _ => hslices g page hg
  obtain ⟨hrepo, hreason, hepoch, hlimit, -⟩ := RepoState.place_of_mem_requestMore hfits (f := f) hf
  have hsubject : f.repoId = t.state.subject :=
    hrepo.trans ((hstart.run inputs).named t.state.subject)
  obtain ⟨hoffset, hiff⟩ := offset_of_mem_step hfits hf
  refine ⟨hoffset, hiff, fun hbetween hout hcurrent runs => ?_⟩
  have hno : ∀ g page, .completion (.page g (.ok page)) ∈ Input.loadMore :: between →
      g.repoId ≠ f.repoId := fun g page hg => hbetween g page (by simpa using hg)
  have hend : t.run (.loadMore :: between) =
      (start (Reconciler.new subject pageLimit noticeCapacity)).run
        (inputs ++ .loadMore :: between) := (run_append _ inputs _).symm
  have hrows : ((t.run (.loadMore :: between)).state.repo f.repoId).window.items = rows := by
    rw [hsubject] at hcurrent hno ⊢
    exact items_of_no_page (hstart.run inputs) (balanced_run hpast _) hrest hno
      (hcurrent.symm.trans hepoch)
  have hfits' := fits_run hl f.repoId fun g page hg hgr =>
    (List.mem_append.1 hg).elim (hslices g page) fun hg => absurd hgr (hno g page hg)
  have hb' := balanced_run hl f.repoId
  rw [← hend] at hfits' hb'
  have hpage : (Service.slice runs f.offset f.limit).items =
      (runs.drop f.offset.toNat).take limit := by rw [Service.slice, hlimit]
  have hmerged := items_next_more (hend ▸ hstart.run _) hout hb' hfits' hreason hcurrent
    (Service.slice runs f.offset f.limit)
  rw [hrows, hpage] at hmerged
  refine ⟨hmerged, fun hplace i hi hlt => ?_⟩
  refine (congrArg (·[i]?) hmerged).trans ?_
  rw [hplace]
  exact getElem?_append_slice rows runs hi hlt

/-- A second page that begins where the rows end, and comes after a refresh was asked for. -/
theorem loadMore_place_second_page :
    let t := start (Reconciler.new "r" 2 4)
    let runs := pendingRuns ["a", "b", "c"]
    let inputs : List Input := [.load,
      .completion (.page ⟨"r", 0, 2, .refresh, 1⟩ (.ok (Service.slice runs 0 2)))]
    let asked := (t.run inputs).run [Input.loadMore, .refresh]
    let answered := asked.next
      (Input.completion (.page ⟨"r", 2, 2, .loadMore, 1⟩ (.ok (Service.slice runs 2 2))))
    t.Lawful (inputs ++ [.loadMore, .refresh]) ∧ (answered.state.repo "r").window.items = runs := by
  intro t runs inputs asked answered
  have hl : t.Lawful (inputs ++ [.loadMore, .refresh]) := by decide
  have hslices : ∀ f page, .completion (.page f (.ok page)) ∈ inputs → Sliced f page := by
    intro f page hmem
    simp only [inputs, List.mem_cons, List.not_mem_nil, or_false, reduceCtorEq, false_or,
      Input.completion.injEq, Completion.page.injEq, Except.ok.injEq] at hmem
    obtain ⟨rfl, rfl⟩ := hmem
    exact ⟨runs, by decide, rfl⟩
  have hplace := (loadMore_place "r" 2 4 hl hslices ⟨"r", 2, 2, .loadMore, 1⟩ (by decide)).2.2
  have hmerged := (hplace (by simp) (by decide) (by decide) runs).1
  have hpage : (t.run inputs).state.current.window.items ++
      (runs.drop (2 : UInt64).toNat).take (max (2 : UInt64) 1).toNat = runs := by decide
  refine ⟨hl, ?_⟩
  rw [← hpage]
  convert hmerged using 2

/-- A list that grows by two behind a last page of one row: the fourth row is never asked for. -/
theorem loadMore_skips_row :
    let t := start (Reconciler.new "r" 2 4)
    let first := pendingRuns ["a", "b", "c"]
    let grown := pendingRuns ["a", "b", "c", "d", "e"]
    let inputs : List Input := [.load,
      .completion (.page ⟨"r", 0, 2, .refresh, 1⟩ (.ok (Service.slice first 0 2))),
      .loadMore,
      .completion (.page ⟨"r", 2, 2, .loadMore, 1⟩ (.ok (Service.slice first 2 2))),
      .refresh,
      .completion (.page ⟨"r", 0, 3, .refresh, 1⟩ (.ok (Service.slice grown 0 3)))]
    t.Lawful inputs ∧ (∀ f page, .completion (.page f (.ok page)) ∈ inputs → Sliced f page) ∧
      (t.run inputs).state.current.window.items.length = 3 ∧
      ((t.run inputs).state.step .loadMore).2 = [.page ⟨"r", 4, 2, .loadMore, 1⟩] := by
  intro t first grown inputs
  refine ⟨by decide, fun f page hmem => ?_, by decide, by decide⟩
  simp only [inputs, List.mem_cons, List.not_mem_nil, or_false, reduceCtorEq, false_or,
    Input.completion.injEq, Completion.page.injEq, Except.ok.injEq] at hmem
  rcases hmem with ⟨rfl, rfl⟩ | ⟨rfl, rfl⟩ | ⟨rfl, rfl⟩
  · exact ⟨first, by decide, rfl⟩
  · exact ⟨first, by decide, rfl⟩
  · exact ⟨grown, by decide, rfl⟩

end Traffic

end LiveAudit
