import LiveAudit.Proofs.LoadMore

/-!
# How far a window reaches

In every run with pages that are not longer than they were asked for, each window consists of pages:
its offset is where the last one begins, and a page that was to be appended is put behind the rows
held, whatever refreshes have come back since it was asked for.

Whether the next page is asked for is decided by where the pages held end
(`RepoState.Fits.hasMore_iff`), and not by how many rows there are. While the last page is short,
rows that are left within it cannot be asked for.
-/

namespace LiveAudit

open Reconciler (Input)

/-! ### When the next page is asked for -/

namespace RepoState

variable {s : RepoState} {out : List Request} {limit : UInt64}

/-- A page is being appended exactly while one of the current generation is out. -/
theorem Balanced.loadMore_ne_none_iff (h : s.Balanced out) :
    s.loadMore ≠ none ↔ ∃ f, .page f ∈ out ∧ f.reason = .loadMore ∧ f.epoch = s.epoch := by
  constructor
  · intro hmore
    obtain ⟨offset, hk⟩ := Option.ne_none_iff_exists'.1 hmore
    have hmem : s.moreFetch offset ∈ out.filter (s.current .loadMore) := by simp [h.mores, hk]
    obtain ⟨hout, -, hr, he⟩ := mem_filter_current.1 hmem
    exact ⟨_, hout, hr, he⟩
  · rintro ⟨f, hf, hr, he⟩ hnone
    exact h.epoch_ne_of_no_more hnone hf hr he

/-- There are more rows exactly if the total is behind the last of the pages held. -/
theorem Fits.hasMore_iff (h : Fits limit s out) :
    s.window.hasMore ↔
      lastPage limit.toNat s.window.items.length + limit.toNat < s.window.total.toNat := by
  rw [Window.hasMore_iff, h.paged.offset_eq, h.limit_eq]

end RepoState

/-- Asking for the next page does nothing exactly if one is being appended or there is none. -/
theorem Reconciler.step_loadMore_eq_iff {d : Reconciler} (hd : d.Knows d.subject) :
    d.step .loadMore = (d, []) ↔ ¬(d.current.loadMore = none ∧ d.current.window.hasMore) := by
  have hstep : d.step .loadMore =
      (d.setRepo d.subject d.current.requestMore.1, d.current.requestMore.2) := rfl
  constructor
  · intro hnothing hmore
    rw [hstep, RepoState.requestMore_of hmore] at hnothing
    exact List.cons_ne_nil _ _ (Prod.mk.inj hnothing).2
  · intro hnone
    rw [hstep, RepoState.requestMore_of_not hnone]
    exact Prod.ext (Reconciler.setRepo_repo hd) rfl

/-! ### Runs -/

namespace Traffic

/-- In every run with pages that are not longer than they were asked for, windows consist of pages
of the limit, and pages to be appended are put behind all rows that are held when they come. -/
theorem pages_run (subject : Ident) (pageLimit noticeCapacity : UInt64) {inputs : List Input}
    (hl : (start (Reconciler.new subject pageLimit noticeCapacity)).Lawful inputs)
    (hshort : ∀ f page, .completion (.page f (.ok page)) ∈ inputs → RepoState.Short f page) :
    let t := (start (Reconciler.new subject pageLimit noticeCapacity)).run inputs
    (∀ repo,
      let window := (t.state.repo repo).window
      window.limit = max pageLimit 1 ∧ window.limit.toNat ∣ window.offset.toNat ∧
      (window.offset = 0 ∨ window.offset.toNat < window.items.length) ∧
      window.items.length ≤ window.offset.toNat + window.limit.toNat) ∧
    (∀ f page, .page f ∈ t.out → f.reason = .loadMore → f.epoch = (t.state.repo f.repoId).epoch →
      let answered := t.next (Input.completion (.page f (.ok page)))
      (answered.state.repo f.repoId).window.items =
        (t.state.repo f.repoId).window.items ++ page.items) := by
  intro t
  have hfits : ∀ repo, RepoState.Fits (max pageLimit 1) (t.state.repo repo) (t.only repo).out :=
    fun repo => fits_run_of_short hl repo fun f page hmem _ => hshort f page hmem
  constructor
  · intro repo window
    have hpaged : window.Paged := (hfits repo).paged
    exact ⟨(hfits repo).limit_eq, hpaged.dvd_offset, hpaged.offset_lt_length, hpaged.length_le⟩
  · intro f page hf hr he
    have hs : t.Sound := (sound_start subject pageLimit noticeCapacity).run inputs
    exact items_next_more hs hf (balanced_run hl f.repoId) (hfits f.repoId) hr he page

/-- A list that shrinks to one row while the page behind its first three is on its way: the refresh
takes two rows away, and the page is put behind the one that is left. -/
theorem pages_run_shrunk :
    let t := start (Reconciler.new "r" 3 4)
    let inputs : List Input := [.load,
      .completion (.page ⟨"r", 0, 3, .refresh, 1⟩ (.ok ⟨pendingRuns ["a", "b", "c"], 5⟩)),
      .refresh, .loadMore,
      .completion (.page ⟨"r", 0, 3, .refresh, 1⟩ (.ok ⟨pendingRuns ["a"], 1⟩))]
    let answered := (t.run inputs).next
      (Input.completion (.page ⟨"r", 3, 3, .loadMore, 1⟩ (.ok ⟨pendingRuns ["d", "e"], 5⟩)))
    t.Lawful inputs ∧
      (∀ f page, .completion (.page f (.ok page)) ∈ inputs → RepoState.Short f page) ∧
      ((t.run inputs).state.repo "r").window.items = pendingRuns ["a"] ∧
      (answered.state.repo "r").window.items = pendingRuns ["a", "d", "e"] := by
  intro t inputs answered
  have hl : t.Lawful inputs := by decide
  have hshort : ∀ f page, .completion (.page f (.ok page)) ∈ inputs → RepoState.Short f page := by
    intro f page hmem
    simp only [inputs, List.mem_cons, List.not_mem_nil, or_false, reduceCtorEq, false_or,
      Input.completion.injEq, Completion.page.injEq, Except.ok.injEq] at hmem
    rcases hmem with ⟨rfl, rfl⟩ | ⟨rfl, rfl⟩ <;> simp [RepoState.Short, pendingRuns]
  have hheld : ((t.run inputs).state.repo "r").window.items = pendingRuns ["a"] := by decide
  have hmerged := (pages_run "r" 3 4 hl hshort).2 ⟨"r", 3, 3, .loadMore, 1⟩
    ⟨pendingRuns ["d", "e"], 5⟩ (by decide) rfl (by decide)
  have hrows : ((t.run inputs).state.repo "r").window.items ++ pendingRuns ["d", "e"] =
      pendingRuns ["a", "d", "e"] := congrArg (· ++ pendingRuns ["d", "e"]) hheld
  refine ⟨hl, hshort, hheld, ?_⟩
  rw [← hrows]
  convert hmerged using 2

/-- Asking for the next page does nothing exactly if one is being appended or the total is not
behind the last of the pages held; else one fetch goes out, for the page behind these. Where the
pages held end is where the rows end exactly if the rows fill their pages. -/
theorem loadMore_silent_iff (subject : Ident) (pageLimit noticeCapacity : UInt64)
    {inputs : List Input}
    (hl : (start (Reconciler.new subject pageLimit noticeCapacity)).Lawful inputs)
    (hshort : ∀ f page, .completion (.page f (.ok page)) ∈ inputs → RepoState.Short f page) :
    let t := (start (Reconciler.new subject pageLimit noticeCapacity)).run inputs
    let rows := t.state.current.window.items.length
    let total := t.state.current.window.total.toNat
    let limit := (max pageLimit 1).toNat
    let reach := (rows - 1) / limit * limit + limit
    let flying := ∃ f, .page f ∈ t.out ∧ f.repoId = t.state.subject ∧ f.reason = .loadMore ∧
      f.epoch = t.state.current.epoch
    (t.state.step .loadMore = (t.state, []) ↔ flying ∨ total ≤ reach) ∧
    (¬flying → reach < total → ∃ f, (t.state.step .loadMore).2 = [.page f] ∧
      f.repoId = t.state.subject ∧ f.reason = .loadMore ∧ f.epoch = t.state.current.epoch ∧
      f.limit = max pageLimit 1 ∧ f.offset.toNat = reach) ∧
    rows ≤ reach ∧ (reach = rows ↔ rows ≠ 0 ∧ limit ∣ rows) := by
  intro t rows total limit reach flying
  have hstart : (start (Reconciler.new subject pageLimit noticeCapacity)).Sound :=
    sound_start subject pageLimit noticeCapacity
  have hknown : t.state.Knows t.state.subject :=
    hstart.knows_subject_run (Reconciler.knows_new subject pageLimit noticeCapacity) inputs
  have hb : t.state.current.Balanced (t.only t.state.subject).out := balanced_run hl _
  have hfits : RepoState.Fits (max pageLimit 1) t.state.current (t.only t.state.subject).out :=
    fits_run_of_short hl _ fun f page hmem _ => hshort f page hmem
  have hflying : t.state.current.loadMore ≠ none ↔ flying := by
    simp only [hb.loadMore_ne_none_iff, mem_only, flying, and_assoc]
  have hmore : t.state.current.window.hasMore ↔ reach < total := hfits.hasMore_iff
  have hlength := hfits.paged.length_le
  have hfull := hfits.paged.length_eq_iff
  rw [hfits.paged.offset_eq, hfits.limit_eq] at hlength hfull
  refine ⟨?_, fun hfree hbehind => ?_, hlength, hfull⟩
  · rw [Reconciler.step_loadMore_eq_iff hknown, hmore, not_and_or, ← ne_eq, hflying, Nat.not_lt]
  · have hnone : t.state.current.loadMore = none := not_ne_iff.1 (mt hflying.1 hfree)
    have hsent : (t.state.step .loadMore).2 =
        [t.state.current.moreFetch t.state.current.window.nextOffset] :=
      congrArg Prod.snd (RepoState.requestMore_of ⟨hnone, hmore.2 hbehind⟩)
    have hmem := hsent ▸ List.mem_singleton_self _
    obtain ⟨hrepo, hreason, hepoch, hlimit, -⟩ := RepoState.place_of_mem_requestMore hfits hmem
    exact ⟨_, hsent, hrepo.trans ((hstart.run inputs).named _), hreason, hepoch, hlimit,
      (offset_of_mem_step hfits hmem).1⟩

/-- A second page: it is asked for once, and then not again while it is on its way. -/
theorem loadMore_silent_iff_second_page :
    let t := start (Reconciler.new "r" 2 4)
    let inputs : List Input := [.load,
      .completion (.page ⟨"r", 0, 2, .refresh, 1⟩ (.ok ⟨pendingRuns ["a", "b"], 3⟩))]
    t.Lawful (inputs ++ [.loadMore]) ∧
      (∃ f, ((t.run inputs).state.step .loadMore).2 = [.page f] ∧ f.offset.toNat = 2) ∧
      (t.run (inputs ++ [.loadMore])).state.step .loadMore =
        ((t.run (inputs ++ [.loadMore])).state, []) := by
  intro t inputs
  have hl : t.Lawful (inputs ++ [.loadMore]) := by decide
  have hshort : ∀ f page, .completion (.page f (.ok page)) ∈ inputs ++ [.loadMore] →
      RepoState.Short f page := by
    intro f page hmem
    simp only [inputs, List.mem_append, List.mem_cons, List.not_mem_nil, or_false, reduceCtorEq,
      false_or, Input.completion.injEq, Completion.page.injEq, Except.ok.injEq] at hmem
    obtain ⟨rfl, rfl⟩ := hmem
    simp [RepoState.Short, pendingRuns]
  obtain ⟨-, hsends, -⟩ := loadMore_silent_iff "r" 2 4 (lawful_append.1 hl).1
    fun f page hmem => hshort f page (List.mem_append_left _ hmem)
  obtain ⟨hsilent, -⟩ := loadMore_silent_iff "r" 2 4 hl hshort
  refine ⟨hl, ?_, ?_⟩
  · have hout : (t.run inputs).out = [.projects] := by decide
    have hfree : ∀ f, .page f ∉ (t.run inputs).out := by simp [hout]
    obtain ⟨f, hf, -, -, -, -, hoffset⟩ := hsends (fun ⟨f, hf, _⟩ => hfree f hf) (by decide)
    exact ⟨f, hf, hoffset.trans (by decide)⟩
  · exact hsilent.2 (.inl ⟨⟨"r", 2, 2, .loadMore, 1⟩, by decide, rfl, rfl, by decide⟩)

/-- A list that grows by one behind a last page of one row: three of four rows are held, no page is
on its way, and still none is asked for. -/
theorem loadMore_misses_row :
    let t := start (Reconciler.new "r" 2 4)
    let first := pendingRuns ["a", "b", "c"]
    let grown := pendingRuns ["a", "b", "c", "d"]
    let inputs : List Input := [.load,
      .completion (.page ⟨"r", 0, 2, .refresh, 1⟩ (.ok (Service.slice first 0 2))),
      .loadMore,
      .completion (.page ⟨"r", 2, 2, .loadMore, 1⟩ (.ok (Service.slice first 2 2))),
      .refresh,
      .completion (.page ⟨"r", 0, 3, .refresh, 1⟩ (.ok (Service.slice grown 0 3)))]
    t.Lawful inputs ∧ (∀ f page, .completion (.page f (.ok page)) ∈ inputs → Sliced f page) ∧
      (t.run inputs).state.current.window.items.length = 3 ∧
      (t.run inputs).state.current.window.total = 4 ∧
      (∀ q ∈ (t.run inputs).out, q.page? = none) ∧
      (t.run inputs).state.step .loadMore = ((t.run inputs).state, []) := by
  intro t first grown inputs
  refine ⟨by decide, fun f page hmem => ?_, by decide, by decide, by decide, by decide⟩
  simp only [inputs, List.mem_cons, List.not_mem_nil, or_false, reduceCtorEq, false_or,
    Input.completion.injEq, Completion.page.injEq, Except.ok.injEq] at hmem
  rcases hmem with ⟨rfl, rfl⟩ | ⟨rfl, rfl⟩ | ⟨rfl, rfl⟩
  · exact ⟨first, by decide, rfl⟩
  · exact ⟨first, by decide, rfl⟩
  · exact ⟨grown, by decide, rfl⟩

end Traffic

end LiveAudit
