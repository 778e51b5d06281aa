import LiveAudit.Proofs.LoadMore
import LiveAudit.Proofs.Records

/-!
# What a refresh replaces

A refresh asks for as many rows as are held when it goes out, one page at least. By the time its
answer comes the window may have grown: no other refresh of the generation is out, so that rows were
appended, and nothing else has happened to them (`Traffic.items_run_of_waiting`). The answer takes
the place of all rows that were held when the refresh went out, and what stays behind it was
appended since (`Traffic.refreshed_run`).
-/

namespace LiveAudit

open Reconciler (Input)

namespace Reconciler

/-- The rows that an input appends to the window of a repository: those of a page of its present
generation that was to be appended. -/
def appends (repo : Ident) (d : Reconciler) : Input → Option (List Run)
  | .completion (.page f (.ok page)) =>
    if f.repoId = repo ∧ f.reason = .loadMore ∧ f.epoch = (d.repo repo).epoch then some page.items
    else none
  | _ => none

/-- Rows are merged by the answers to page fetches of the present generation. -/
theorem exists_of_merges {d : Reconciler} {repo : Ident} {i : Input} (h : d.merges repo i) :
    ∃ f page, i = .completion (.page f (.ok page)) ∧ f.repoId = repo ∧
      f.epoch = (d.repo repo).epoch := by
  unfold merges at h
  split at h
  · exact ⟨_, _, rfl, of_decide_eq_true h⟩
  · cases h

/-- What is appended is merged. -/
theorem appends_eq_none {d : Reconciler} {repo : Ident} {i : Input}
    (h : d.merges repo i = false) : d.appends repo i = none := by
  unfold appends
  split
  · refine if_neg fun hmore => ?_
    simp [merges, hmore.1, hmore.2.2] at h
  · rfl

end Reconciler

namespace Traffic

/-- The rows that inputs append to the window of a repository, in order. -/
def appended (repo : Ident) (t : Traffic Reconciler) (inputs : List Input) : List Run :=
  (t.collect (Reconciler.appends repo) inputs).flatten

theorem appended_cons (repo : Ident) (t : Traffic Reconciler) (i : Input) (rest : List Input) :
    t.appended repo (i :: rest) =
      (t.state.appends repo i).getD [] ++ (t.next i).appended repo rest := by
  rw [appended, collect_cons, List.flatten_append]
  cases t.state.appends repo i <;> simp [appended]

/-! ### A refresh goes out -/

/-- A refresh that goes out is for the rows that are held then. -/
theorem refresh_of_mem_step {t : Traffic Reconciler} (hs : t.Sound) {i : Input} {f : PageFetch}
    (hf : .page f ∈ (t.state.step i).2) (hr : f.reason = .refresh) :
    .page f = ((t.next i).state.repo f.repoId).refreshFetch := by
  obtain ⟨id, a, htarget, hact⟩ := (Reconciler.mem_step hs.named hf).resolve_left (by simp)
  have hconcerns := concerns_sent hs.named id a _ hact
  obtain rfl : f.repoId = id := by simpa [Request.concerns] using hconcerns
  rw [hs.repo_next, Reconciler.share_eq_some_iff.2 htarget]
  exact RepoState.refresh_of_mem_act hact hr

/-! ### While it is out -/

/-- The one refresh of the present generation that is out is answered, or a page that comes is
appended. -/
theorem items_next_of_waiting {t : Traffic Reconciler} (hs : t.Sound) {f : PageFetch}
    (hf : .page f ∈ t.out) (hr : f.reason = .refresh)
    (he : f.epoch = (t.state.repo f.repoId).epoch)
    (hb : (t.state.repo f.repoId).Balanced (t.only f.repoId).out) {limit : UInt64}
    (hfits : RepoState.Fits limit (t.state.repo f.repoId) (t.only f.repoId).out) {i : Input}
    (hi : t.Admits i) (hwaits : i.answered ≠ some (.page f))
    (hsame : ((t.next i).state.repo f.repoId).epoch = (t.state.repo f.repoId).epoch) :
    ((t.next i).state.repo f.repoId).window.items =
      (t.state.repo f.repoId).window.items ++ (t.state.appends f.repoId i).getD [] := by
  by_cases hmerges : t.state.merges f.repoId i
  · obtain ⟨g, page, rfl, hrepo, hge⟩ := Reconciler.exists_of_merges hmerges
    have hg : .page g ∈ t.out := hi _ rfl
    cases hgr : g.reason with
    | refresh =>
      obtain ⟨-, -, hone⟩ := hb.refreshes_eq_singleton (mem_only.2 ⟨hf, rfl⟩) hr he
      obtain ⟨-, -, hother⟩ := hb.refreshes_eq_singleton (mem_only.2 ⟨hg, hrepo⟩) hgr hge
      exact absurd (congrArg some (List.singleton_inj.1 (hother.symm.trans hone))) hwaits
    | loadMore =>
      have hrows := items_next_more hs hg (hrepo ▸ hb) (hrepo ▸ hfits) hgr (hrepo ▸ hge) page
      rw [hrepo] at hrows
      simpa [Reconciler.appends, hrepo, hgr, hge] using hrows
  · have hnone : t.state.merges f.repoId i = false := Bool.not_eq_true _ ▸ hmerges
    have htally : t.tally (Reconciler.merges f.repoId) [i] = 0 := by simp [tally, hnone]
    have hholding : ((t.next i).state.repo f.repoId).holding = (t.state.repo f.repoId).holding :=
      holding_run_of_epoch hs htally hsame
    rw [Reconciler.appends_eq_none hnone, Option.getD_none, List.append_nil]
    exact congrArg Holding.items hholding

/-- While a refresh of the present generation is out, it stays out, and all that happens to the rows
is that some are appended. -/
theorem items_run_of_waiting {t : Traffic Reconciler} (hs : t.Sound) {f : PageFetch}
    (hf : .page f ∈ t.out) (hr : f.reason = .refresh)
    (he : f.epoch = (t.state.repo f.repoId).epoch)
    (hb : (t.state.repo f.repoId).Balanced (t.only f.repoId).out) {limit : UInt64}
    (hfits : RepoState.Fits limit (t.state.repo f.repoId) (t.only f.repoId).out)
    {inputs : List Input} (hl : t.Lawful inputs)
    (hshort : ∀ g page, .completion (.page g (.ok page)) ∈ inputs → RepoState.Short g page)
    (hwaits : ∀ i ∈ inputs, i.answered ≠ some (.page f))
    (hend : f.epoch = ((t.run inputs).state.repo f.repoId).epoch) :
    .page f ∈ (t.run inputs).out ∧ ((t.run inputs).state.repo f.repoId).window.items =
      (t.state.repo f.repoId).window.items ++ t.appended f.repoId inputs := by
  induction inputs generalizing t with
  | nil => exact ⟨hf, (List.append_nil _).symm⟩
  | cons i rest ih =>
    obtain ⟨hi, hrest⟩ := hl
    rw [List.forall_mem_cons] at hwaits
    have hs' : (t.next i).Sound := hs.next i
    -- generations only grow, so the one of the refresh lasts until the end
    have hsame : ((t.next i).state.repo f.repoId).epoch = (t.state.repo f.repoId).epoch := by
      have hfirst := hs.epoch_le_next f.repoId i
      have hlater := epoch_le_run hs' f.repoId rest
      rw [run_cons] at hend
      omega
    have hone : t.Lawful [i] := ⟨hi, trivial⟩
    have hfits' := preserved_from (RepoState.preserved_fits limit) hs hb hfits hone
      fun g page hg _ => hshort g page (List.mem_singleton.1 hg ▸ List.mem_cons_self)
    obtain ⟨hout, hrows⟩ := ih hs' (mem_next_of_ne hf hwaits.1) (he.trans hsame.symm)
      (balanced_next hs hb hi) hfits' hrest
      (fun g page hg => hshort g page (List.mem_cons_of_mem i hg)) hwaits.2 hend
    refine ⟨hout, ?_⟩
    have hfirst := items_next_of_waiting hs hf hr he hb hfits hi hwaits.1 hsame
    rw [run_cons, hrows, hfirst, appended_cons, List.append_assoc]

/-! ### Its answer -/

/-- The answer to a refresh of the present generation takes the place of as many rows as it was
asked for. -/
theorem window_next_refresh {t : Traffic Reconciler} (hs : t.Sound) {f : PageFetch}
    (hf : .page f ∈ t.out) (hr : f.reason = .refresh)
    (he : f.epoch = (t.state.repo f.repoId).epoch)
    (hb : (t.state.repo f.repoId).Balanced (t.only f.repoId).out) (page : Page) :
    let window := ((t.next (Input.completion (.page f (.ok page)))).state.repo f.repoId).window
    window.items =
      page.items ++ (t.state.repo f.repoId).window.items.drop f.limit.toNat ∧
      window.total = page.total := by
  intro window
  have hwindow : window =
      (((t.state.repo f.repoId).merge f (.ok page)).settleFetch f.reason).1.window := by
    simp only [window, repo_next_page hs hf, RepoState.act_page_of_eq he,
      RepoState.completePage_eq]
  have hitems := RepoState.Fits.items_takeRefresh hb (mem_only.2 ⟨hf, rfl⟩) hr he page
  rw [hwindow, hr]
  exact ⟨hitems, rfl⟩

/-- Every refresh that goes out, at a command, an event or an answer, begins at the top and asks for
as many rows as are held then, and one page at least. While it is out and its generation lasts,
nothing happens to the rows but that some are appended. Its answer takes the place of all rows that
were held when it went out: behind its rows are only some of those that were appended since. -/
theorem refreshed_run (subject : Ident) (pageLimit noticeCapacity : UInt64)
    {past between : List Input} {i : Input}
    (hl : (start (Reconciler.new subject pageLimit noticeCapacity)).Lawful (past ++ i :: between))
    (hshort : ∀ g page, .completion (.page g (.ok page)) ∈ past ++ i :: between →
      RepoState.Short g page) :
    let before := (start (Reconciler.new subject pageLimit noticeCapacity)).run past
    let t := before.next i
    ∀ f, .page f ∈ (before.state.step i).2 → f.reason = .refresh →
      let held := (t.state.repo f.repoId).window.items
      f.offset = 0 ∧
      f.limit.toNat = max (max pageLimit 1).toNat (min held.length maxWord) ∧
      ((∀ j ∈ between, j.answered ≠ some (.page f)) →
        f.epoch = ((t.run between).state.repo f.repoId).epoch →
        let since := t.appended f.repoId between
        .page f ∈ (t.run between).out ∧
        ((t.run between).state.repo f.repoId).window.items = held ++ since ∧
        ∀ page,
          let answered := (t.run between).next (Input.completion (.page f (.ok page)))
          let window := (answered.state.repo f.repoId).window
          window.items = page.items ++ (held ++ since).drop f.limit.toNat ∧
          window.total = page.total ∧
          (held.length ≤ maxWord →
            (held ++ since).drop f.limit.toNat = since.drop (f.limit.toNat - held.length))) := by
  intro before t f hf hr held
  obtain ⟨hpast, hi, hbetween⟩ := lawful_append.1 hl
  have hs : before.Sound := (sound_start subject pageLimit noticeCapacity).run past
  have hone : (start (Reconciler.new subject pageLimit noticeCapacity)).Lawful (past ++ [i]) :=
    lawful_append.2 ⟨hpast, hi, trivial⟩
  have hlater : ∀ g page, .completion (.page g (.ok page)) ∈ between → RepoState.Short g page :=
    fun g page hg => hshort g page (List.mem_append_right _ (List.mem_cons_of_mem i hg))
  have hb := balanced_run hone f.repoId
  have hfits := fits_run_of_short hone f.repoId fun g page hg _ => hshort g page (by grind)
  rw [run_concat] at hb hfits
  have hfetch := Request.page.inj (refresh_of_mem_step hs hf hr)
  obtain ⟨-, hoffset, hlimit, -, hepoch⟩ := PageFetch.mk.inj hfetch
  have hlength : f.limit.toNat = max (max pageLimit 1).toNat (min held.length maxWord) := by
    rw [hlimit, Window.toNat_refreshLimit, hfits.limit_eq, Nat.max_comm]
  refine ⟨hoffset, hlength, fun hwaits hend => ?_⟩
  obtain ⟨hout, hrows⟩ := items_run_of_waiting (hs.next i) (List.mem_append_right _ hf) hr hepoch hb
    hfits hbetween hlater hwaits hend
  refine ⟨hout, hrows, fun page => ?_⟩
  have hb' := balanced_from (hs.next i) hb hbetween
  obtain ⟨hitems, htotal⟩ := window_next_refresh ((hs.next i).run between) hout hr hend hb' page
  rw [hrows] at hitems
  refine ⟨hitems, htotal, fun hroom => ?_⟩
  rw [List.drop_append, List.drop_eq_nil_of_le (by omega), List.nil_append]

/-- A refresh that has waited for another goes out with its answer, and is on its way while a second
page is appended: its own answer takes the place of the first page only. -/
theorem refreshed_run_trailing :
    let t := start (Reconciler.new "r" 2 4)
    let first : Page := ⟨pendingRuns ["a", "b"], 5⟩
    let f : PageFetch := ⟨"r", 0, 2, .refresh, 1⟩
    let past : List Input :=
      [.load, .completion (.page f (.ok first)), .refresh, .refresh, .loadMore]
    let i : Input := .completion (.page f (.ok first))
    let between : List Input :=
      [.completion (.page ⟨"r", 2, 2, .loadMore, 1⟩ (.ok ⟨pendingRuns ["c", "d"], 5⟩))]
    let answered := (((t.run past).next i).run between).next
      (Input.completion (.page f (.ok ⟨pendingRuns ["n", "a"], 6⟩)))
    t.Lawful (past ++ i :: between) ∧ .page f ∈ ((t.run past).state.step i).2 ∧
      (answered.state.repo "r").window.items = pendingRuns ["n", "a", "c", "d"] := by
  intro t first f past i between answered
  have hl : t.Lawful (past ++ i :: between) := by decide
  have hshort : ∀ g page, .completion (.page g (.ok page)) ∈ past ++ i :: between →
      RepoState.Short g page := by
    intro g page hmem
    simp only [past, i, between, List.mem_append, List.mem_cons, List.not_mem_nil, or_false,
      reduceCtorEq, false_or, Input.completion.injEq, Completion.page.injEq,
      Except.ok.injEq] at hmem
    rcases hmem with ⟨rfl, rfl⟩ | ⟨rfl, rfl⟩ | ⟨rfl, rfl⟩ <;>
      simp [RepoState.Short, f, first, pendingRuns]
  have hsent : .page f ∈ ((t.run past).state.step i).2 := by decide
  obtain ⟨-, -, hanswer⟩ := refreshed_run "r" 2 4 hl hshort f hsent rfl
  obtain ⟨-, -, hmerged⟩ := hanswer (by simp [between, Input.answered, Completion.request, f])
    (by decide)
  have hrows : pendingRuns ["n", "a"] ++
      ((((t.run past).next i).state.repo "r").window.items ++
        ((t.run past).next i).appended "r" between).drop f.limit.toNat =
      pendingRuns ["n", "a", "c", "d"] := by decide
  refine ⟨hl, hsent, ?_⟩
  rw [← hrows]
  with_reducible exact (hmerged ⟨pendingRuns ["n", "a"], 6⟩).1

end Traffic

end LiveAudit
