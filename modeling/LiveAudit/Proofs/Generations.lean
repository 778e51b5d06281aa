import LiveAudit.Proofs.History
import LiveAudit.Proofs.Preserved

/-!
# Generations

Each time a repository is opened its window begins a new generation, and fetches carry the one that
they are sent in. Generations only grow (`Traffic.epoch_le_run`), so fetches that were sent before
the repository was opened are of earlier ones, and their answers are ignored
(`Reconciler.step_page_of_ne`).

So from where a repository was opened the past counts no more for what it shows: rows and totals
are from pages that were asked for since, and answers to earlier fetches of the repository may be
left out of the run without any trace (`Traffic.from_of_opens`, `Traffic.omits_run`).
-/

namespace LiveAudit

open Reconciler (Input share)

/-! ### Where rows come from -/

/-- A row after a page was held before, or is one of the page. -/
theorem Window.mem_applySpan {w : Window} {offset limit : UInt64} {page : Page} {run : Run}
    (h : run ∈ (w.applySpan offset limit page).items) : run ∈ w.items ∨ run ∈ page.items := by
  rcases List.mem_append.1 h with hfront | hback
  · rcases List.mem_append.1 hfront with hkept | hnew
    · exact .inl (List.mem_of_mem_take hkept)
    · exact .inr hnew
  · exact .inl (List.mem_of_mem_drop hback)

/-- What a window shows comes from pages of a kind: each row, and the total unless none has come. -/
structure Window.From (source : PageFetch → Page → Prop) (w : Window) : Prop where
  rows : ∀ run ∈ w.items, ∃ f page, source f page ∧ run ∈ page.items
  total : (w.items = [] ∧ w.total = 0) ∨ ∃ f page, source f page ∧ w.total = page.total

namespace Window.From

variable {source : PageFetch → Page → Prop} {w : Window}

/-- An empty window shows nothing from anywhere. -/
theorem reset (source : PageFetch → Page → Prop) (w : Window) : w.reset.From source where
  rows := by simp [Window.reset]
  total := .inl ⟨rfl, rfl⟩

/-- After a page of the kind everything is still from such pages. -/
theorem applySpan (h : w.From source) {f : PageFetch} {page : Page} (hf : source f page) :
    (w.applySpan f.offset f.limit page).From source where
  rows run hrun := by
    rcases mem_applySpan hrun with hold | hnew
    · exact h.rows run hold
    · exact ⟨f, page, hf, hnew⟩
  total := .inr ⟨f, page, hf, rfl⟩

/-- What is from pages of a kind is from those of a wider kind. -/
theorem mono (h : w.From source) {wider : PageFetch → Page → Prop}
    (hwider : ∀ f page, source f page → wider f page) : w.From wider where
  rows run hrun := by
    obtain ⟨f, page, hf, hmem⟩ := h.rows run hrun
    exact ⟨f, page, hwider f page hf, hmem⟩
  total := h.total.imp_right fun ⟨f, page, hf, htotal⟩ => ⟨f, page, hwider f page hf, htotal⟩

end Window.From

namespace RepoState

/-- Whatever is merged into a window is from a page of its generation. -/
theorem merge_from {allowed : PageFetch → Page → Prop} {s : RepoState} {f : PageFetch}
    {result : Except Failure Page}
    (h : s.window.From fun f page => f.epoch = s.epoch ∧ allowed f page) (he : f.epoch = s.epoch)
    (hallowed : ∀ page, result = .ok page → allowed f page) :
    (s.merge f result).window.From fun f page => f.epoch = s.epoch ∧ allowed f page := by
  cases result with
  | ok page => exact h.applySpan ⟨he, hallowed page rfl⟩
  | error e => exact h

/-- A window shows nothing but pages of its generation that were allowed to come. -/
theorem preserved_pages (allowed : PageFetch → Page → Prop) :
    Preserved allowed fun s _ =>
      s.window.From fun f page => f.epoch = s.epoch ∧ allowed f page where
  thin _ _ h _ := h
  reset {s _} _ _ := .reset _ s.window
  requestRefresh _ h := ⟨h.rows, h.total⟩
  requestMore {s _} _ h := by
    by_cases hmore : s.loadMore = none ∧ s.window.hasMore
    · rw [requestMore_of hmore]
      exact ⟨h.rows, h.total⟩
    · rw [requestMore_of_not hmore]
      exact h
  takeRefresh {s _ f result} _ h _ _ he hallowed := by
    have htaken := merge_from h he hallowed
    cases result <;> exact ⟨htaken.rows, htaken.total⟩
  takeMore {s _ f result} _ h _ _ he hallowed := by
    have htaken := merge_from h he hallowed
    cases result <;> exact ⟨htaken.rows, htaken.total⟩

/-- No deed goes back to an earlier generation. -/
theorem epoch_le_act (s : RepoState) (a : Deed) : s.epoch ≤ (s.act a).1.epoch := by
  by_cases ha : a = .reopen
  · subst ha
    exact Nat.le_succ s.epoch
  · exact Nat.le_of_eq (epoch_act ha).symm

end RepoState

/-! ### Answers that come too late -/

/-- The answer to a fetch of another generation than the present one is ignored. -/
theorem Reconciler.step_page_of_ne {d : Reconciler} {f : PageFetch}
    (h : f.epoch ≠ (d.repo f.repoId).epoch) (result : Except Failure Page) :
    d.step (.completion (.page f result)) = (d, []) := by
  change d.completePage f result = (d, [])
  unfold completePage
  cases hf : d.repos.find? f.repoId with
  | none => rfl
  | some s =>
    rw [repo_of_find? hf] at h
    exact if_pos h

/-- Whether an input is the answer to a page fetch of a repository that is among some requests. -/
def Reconciler.Input.AnswersFetch (repo : Ident) (sent : List Request) (i : Input) : Prop :=
  ∃ f result, i = .completion (.page f result) ∧ f.repoId = repo ∧ .page f ∈ sent

namespace Traffic

/-! ### Generations in runs -/

/-- No input takes a repository back to an earlier generation. -/
theorem Sound.epoch_le_next {t : Traffic Reconciler} (hs : t.Sound) (repo : Ident) (i : Input) :
    (t.state.repo repo).epoch ≤ ((t.next i).state.repo repo).epoch := by
  rw [hs.repo_next]
  cases share (t.state.target i) repo with
  | none => exact Nat.le_refl _
  | some a => exact (t.state.repo repo).epoch_le_act a

/-- Generations grow in a run. -/
theorem epoch_le_run {t : Traffic Reconciler} (hs : t.Sound) (repo : Ident) (inputs : List Input) :
    (t.state.repo repo).epoch ≤ ((t.run inputs).state.repo repo).epoch := by
  induction inputs generalizing t with
  | nil => exact Nat.le_refl _
  | cons i rest ih => exact Nat.le_trans (hs.epoch_le_next repo i) (ih (hs.next i))

/-- An input that opens a repository resets it and asks for its first page. -/
theorem repo_next_of_opens {t : Traffic Reconciler} (hs : t.Sound) {repo : Ident} {i : Input}
    (hopens : t.state.opens repo i) :
    (t.next i).state.repo repo = (t.state.repo repo).reset.requestRefresh.1 := by
  rw [hs.repo_next, Reconciler.share_eq_some_iff.2 (Reconciler.opens_iff.1 hopens)]
  rfl

/-- It begins the next generation of the repository. -/
theorem epoch_next_of_opens {t : Traffic Reconciler} (hs : t.Sound) {repo : Ident} {i : Input}
    (hopens : t.state.opens repo i) :
    ((t.next i).state.repo repo).epoch = (t.state.repo repo).epoch + 1 := by
  rw [repo_next_of_opens hs hopens]
  rfl

/-- A fetch that a run sends is of no later generation than the one that the run ends in. -/
theorem epoch_le_of_mem_sent {t : Traffic Reconciler} (hs : t.Sound) {f : PageFetch}
    (hb : (t.state.repo f.repoId).Balanced (t.only f.repoId).out) {inputs : List Input}
    (hl : t.Lawful inputs) (hf : .page f ∈ t.sent inputs) :
    f.epoch ≤ ((t.run inputs).state.repo f.repoId).epoch := by
  induction inputs generalizing t with
  | nil => simp at hf
  | cons i rest ih =>
    have hb' : ((t.next i).state.repo f.repoId).Balanced ((t.next i).only f.repoId).out :=
      balanced_next hs hb hl.1
    rw [sent_cons, List.mem_append] at hf
    rcases hf with hnow | hlater
    · have hout : .page f ∈ ((t.next i).only f.repoId).out :=
        mem_only.2 ⟨List.mem_append_right _ hnow, rfl⟩
      exact Nat.le_trans (hb'.epoch_le f hout) (epoch_le_run (hs.next i) f.repoId rest)
    · exact ih (hs.next i) hb' hl.2 hlater

/-! ### What a repository that was opened shows, and what it ignores -/

/-- From where a repository was opened its window shows only pages that were asked for since. -/
theorem from_of_opens {t : Traffic Reconciler} (hs : t.Sound) {repo : Ident}
    (hb : (t.state.repo repo).Balanced (t.only repo).out) {i : Input} {rest : List Input}
    (hopens : t.state.opens repo i) (hl : t.Lawful (i :: rest)) :
    ((t.run (i :: rest)).state.repo repo).window.From fun f page =>
      .page f ∈ t.sent (i :: rest) ∧ f.repoId = repo ∧
        .completion (.page f (.ok page)) ∈ rest := by
  have hs' : (t.next i).Sound := hs.next i
  have hb' : ((t.next i).state.repo repo).Balanced ((t.next i).only repo).out :=
    balanced_next hs hb hl.1
  have hopened := epoch_next_of_opens hs hopens
  have hgrown := epoch_le_run hs' repo rest
  have hempty : ∀ source, ((t.next i).state.repo repo).window.From source := by
    intro source
    have hreset := Window.From.reset source (t.state.repo repo).window
    rw [repo_next_of_opens hs hopens]
    exact ⟨hreset.rows, hreset.total⟩
  have hpages := preserved_from
    (RepoState.preserved_pages fun f page =>
      f.repoId = repo ∧ .completion (.page f (.ok page)) ∈ rest)
    hs' hb' (hempty _) hl.2 fun f page hmem hr => ⟨hr, hmem⟩
  refine hpages.mono fun f page ⟨he, hr, hmem⟩ => ⟨?_, hr, hmem⟩
  rw [sent_cons, List.mem_append]
  rcases mem_of_answered hl.2 hmem rfl with hout | hsent
  · refine .inl ((mem_out_next hout).resolve_left fun hold => ?_)
    -- a fetch that was out when the repository was opened is of an earlier generation
    have hle : f.epoch ≤ (t.state.repo repo).epoch := hb.epoch_le f (mem_only.2 ⟨hold, hr⟩)
    omega
  · exact .inr hsent

/-- Answers to fetches of earlier generations of a repository may be left out of a run. -/
theorem omits_run {t : Traffic Reconciler} (hs : t.Sound) {repo : Ident} {epoch : Nat}
    (he : epoch ≤ (t.state.repo repo).epoch) {P : Input → Prop}
    (hP : ∀ i, P i → ∃ f result, i = .completion (.page f result) ∧ f.repoId = repo ∧
      f.epoch < epoch)
    {inputs fewer : List Input} (h : Omits P inputs fewer) (hl : t.Lawful inputs) :
    t.Lawful fewer ∧ (t.run fewer).state = (t.run inputs).state ∧
      t.sent fewer = t.sent inputs := by
  refine h.run (J := fun t => t.Sound ∧ epoch ≤ (t.state.repo repo).epoch) ?_ ?_ rfl
    (List.Subperm.refl _) ⟨hs, he⟩ hl
  · intro t i ⟨hs, he⟩
    exact ⟨hs.next i, Nat.le_trans he (hs.epoch_le_next repo i)⟩
  · intro t i ⟨_, he⟩ hi
    obtain ⟨f, result, rfl, rfl, hlt⟩ := hP i hi
    exact Reconciler.step_page_of_ne (Nat.ne_of_lt (Nat.lt_of_lt_of_le hlt he)) result

/-- From where a repository was opened, its window shows only pages that were asked for since; and
answers to page fetches of it that were sent before may be left out of the run, which stays lawful,
ends in the same state and sends the same. -/
theorem isolated_run (subject repo : Ident) (pageLimit noticeCapacity : UInt64)
    {past rest : List Input} {i : Input}
    (hl : (start (Reconciler.new subject pageLimit noticeCapacity)).Lawful (past ++ i :: rest))
    (hopens : ((start (Reconciler.new subject pageLimit noticeCapacity)).run past).state.opens
      repo i) :
    let t := start (Reconciler.new subject pageLimit noticeCapacity)
    ((t.run (past ++ i :: rest)).state.repo repo).window.From (fun f page =>
      .page f ∈ (t.run past).sent (i :: rest) ∧ f.repoId = repo ∧
        .completion (.page f (.ok page)) ∈ rest) ∧
    ∀ fewer, Omits (Input.AnswersFetch repo (t.sent past)) rest fewer →
      t.Lawful (past ++ i :: fewer) ∧
      (t.run (past ++ i :: fewer)).state = (t.run (past ++ i :: rest)).state ∧
      t.sent (past ++ i :: fewer) = t.sent (past ++ i :: rest) := by
  intro t
  have hstart : t.Sound := sound_start subject pageLimit noticeCapacity
  have hs : (t.run past).Sound := hstart.run past
  obtain ⟨hpast, hi, hrest⟩ := lawful_append.1 hl
  constructor
  · rw [run_append]
    exact from_of_opens hs (balanced_run hpast repo) hopens ⟨hi, hrest⟩
  · intro fewer hfewer
    have hnothing : t.Lawful ([] : List Input) := trivial
    have hearlier : ∀ j, Input.AnswersFetch repo (t.sent past) j → ∃ f result,
        j = .completion (.page f result) ∧ f.repoId = repo ∧
          f.epoch < (((t.run past).next i).state.repo repo).epoch := by
      rintro j ⟨f, result, rfl, rfl, hsent⟩
      have hle : f.epoch ≤ ((t.run past).state.repo f.repoId).epoch :=
        epoch_le_of_mem_sent hstart (balanced_run hnothing f.repoId) hpast hsent
      rw [epoch_next_of_opens hs hopens]
      exact ⟨f, result, rfl, rfl, Nat.lt_succ_of_le hle⟩
    obtain ⟨hlawful, hend, hsame⟩ := omits_run (hs.next i) (Nat.le_refl _) hearlier hfewer hrest
    simp only [run_append, sent_append, run_cons, sent_cons]
    exact ⟨lawful_append.2 ⟨hpast, hi, hlawful⟩, hend, by rw [hsame]⟩

/-- A repository that is left and opened again while its first page is out: that page fails late,
which leaves no notice and lets no refresh go out, and the row that is shown is from the fetch that
was sent when the repository was opened again. -/
theorem isolated_run_reopened :
    let t := start (Reconciler.new "r" 2 4)
    let past : List Input := [.load, .refresh, .switchTo "s"]
    let row : Run := ⟨"a", .pending, none, none, none, none⟩
    let late := Input.completion (.page ⟨"r", 0, 2, .refresh, 1⟩ (.error (.transport "timeout")))
    let answer := Input.completion (.page ⟨"r", 0, 2, .refresh, 2⟩ (.ok ⟨[row], 1⟩))
    let inputs := past ++ .switchTo "r" :: [late, answer]
    t.Lawful inputs ∧ ((t.run inputs).state.repo "r").window.items = [row] ∧
      (∃ f, .page f ∈ (t.run past).sent (.switchTo "r" :: [late, answer]) ∧ f.repoId = "r") ∧
      (t.run (past ++ .switchTo "r" :: [answer])).state = (t.run inputs).state ∧
      t.sent (past ++ .switchTo "r" :: [answer]) = t.sent inputs := by
  intro t past row late answer inputs
  have hl : t.Lawful inputs := by decide
  have hitems : ((t.run inputs).state.repo "r").window.items = [row] := by decide
  obtain ⟨hfrom, homits⟩ := isolated_run "r" "r" 2 4 hl (by decide)
  obtain ⟨f, -, ⟨hsent, hr, -⟩, -⟩ := hfrom.rows row (hitems ▸ List.mem_singleton_self row)
  have hlate : Input.AnswersFetch "r" (t.sent past) late := ⟨_, _, rfl, rfl, by decide⟩
  obtain ⟨-, hend, hsame⟩ := homits [answer] (.drop hlate (.keep answer .nil))
  exact ⟨hl, hitems, ⟨f, hsent, hr⟩, hend, hsame⟩

end Traffic

end LiveAudit
