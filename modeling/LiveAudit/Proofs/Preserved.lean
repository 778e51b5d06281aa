import LiveAudit.Proofs.InFlight

/-!
# Invariants, one operation after another

Every deed is made up of a few operations: the window is reset, a refresh or the next page is asked
for, the answer to one of the two is merged and its place freed. An invariant of a repository and
the page fetches that are out for it is shown for each of them (`RepoState.Preserved`); it then
holds in every run of a reconciler (`Traffic.preserved_run`).
-/

namespace LiveAudit

namespace RepoState

/-- What must be shown for an invariant, where only pages come that are allowed for their fetches.
It may be taken for granted that flags and requests agree. -/
structure Preserved (allowed : PageFetch → Page → Prop)
    (Q : RepoState → List Request → Prop) : Prop where
  /-- Fetches may go, and whatever has to do with synchronisation does not count. -/
  thin : ∀ {s out out'} (sync : SyncTracker) (progress : ProgressTracker), Q s out →
    (∀ f, .page f ∈ out' → .page f ∈ out) → Q { s with sync := sync, progress := progress } out'
  reset : ∀ {s out}, s.Balanced out → Q s out → Q s.reset out
  requestRefresh : ∀ {s out}, s.Balanced out → Q s out →
    Q s.requestRefresh.1 (out ++ s.requestRefresh.2)
  requestMore : ∀ {s out}, s.Balanced out → Q s out → Q s.requestMore.1 (out ++ s.requestMore.2)
  takeRefresh : ∀ {s out f result}, s.Balanced out → Q s out → .page f ∈ out →
    f.reason = .refresh → f.epoch = s.epoch → (∀ page, result = .ok page → allowed f page) →
    Q (s.merge f result).openGate (out.erase (.page f))
  takeMore : ∀ {s out f result}, s.Balanced out → Q s out → .page f ∈ out →
    f.reason = .loadMore → f.epoch = s.epoch → (∀ page, result = .ok page → allowed f page) →
    Q (s.merge f result).closeMore (out.erase (.page f))

/-- Whether the page that a deed brings, if any, is allowed for its fetch. -/
def Allows (allowed : PageFetch → Page → Prop) (a : Deed) : Prop :=
  ∀ f page, a = .page f (.ok page) → allowed f page

namespace Preserved

variable {allowed : PageFetch → Page → Prop} {Q : RepoState → List Request → Prop}

/-- The answer to a fetch of the current generation preserves an invariant. -/
theorem settle (hQ : Preserved allowed Q) {s : RepoState} {out : List Request}
    (hb : s.Balanced out) (h : Q s out) {f : PageFetch} (hf : .page f ∈ out)
    (he : f.epoch = s.epoch) {result : Except Failure Page}
    (hallowed : ∀ page, result = .ok page → allowed f page) :
    Q (s.completePage f result).1 (out.erase (.page f) ++ (s.completePage f result).2) := by
  have he' : f.epoch = (s.merge f result).epoch := by cases result <;> exact he
  rw [completePage_eq]
  cases hr : f.reason with
  | loadMore =>
    rw [settleFetch_loadMore, List.append_nil]
    exact hQ.takeMore hb h hf hr he hallowed
  | refresh =>
    have htaken := hQ.takeRefresh hb h hf hr he hallowed
    rw [settleFetch_refresh]
    split_ifs with ht
    · exact hQ.requestRefresh ((hb.merge f result).openGate hf hr he') htaken
    · rw [List.append_nil]
      exact htaken

/-- Every deed that may come preserves an invariant. -/
theorem next (hQ : Preserved allowed Q) {t : Traffic RepoState} (ht : InStep t)
    (h : Q t.state t.out) {a : Deed} (ha : t.Admits a) (hallowed : Allows allowed a) :
    Q (t.next a).state (t.next a).out := by
  obtain ⟨s, out⟩ := t
  have hb : s.Balanced out := ht
  replace h : Q s out := h
  cases a with
  | reopen => exact hQ.requestRefresh hb.reset (hQ.reset hb h)
  | refresh => exact hQ.requestRefresh hb h
  | loadMore => exact hQ.requestMore hb h
  | startSync =>
    simp only [Traffic.next, Dialogue.step, Dialogue.answered, act, Deed.answered, Option.elim_none]
    cases hs : s.sync.start with
    | ok sync => exact hQ.thin sync s.progress h fun f hf => by simpa using hf
    | error e => simpa using h
  | observe running =>
    cases running with
    | true =>
      exact hQ.thin (s.sync.observe true) s.progress h fun f hf => List.append_nil out ▸ hf
    | false =>
      refine hQ.requestRefresh (hb.congr rfl rfl rfl rfl rfl rfl hb.loading) ?_
      exact hQ.thin (s.sync.observe false) s.progress.clear h fun f hf => hf
  | report p =>
    exact hQ.thin s.sync (s.progress.update p.repoId p.progress) h
      fun f hf => List.append_nil out ▸ hf
  | page f result =>
    have hf : .page f ∈ out := ha _ rfl
    simp only [Traffic.next, Dialogue.step, Dialogue.answered, act, Deed.answered, Option.elim_some]
    by_cases he : f.epoch = s.epoch
    · rw [if_neg (not_not.2 he)]
      exact hQ.settle hb h hf he fun page hpage => hallowed f page (by rw [hpage])
    · rw [if_pos he, List.append_nil]
      exact hQ.thin s.sync s.progress h fun g hg => List.mem_of_mem_erase hg
  | sync repo result =>
    have hq : .sync repo ∈ out := ha _ rfl
    obtain rfl : repo = s.window.repoId := by simpa [Request.concerns] using hb.concerns _ hq
    have hdone := hQ.thin (s.sync.finish result) s.progress.clear h
      fun f (hf : _ ∈ out.erase (.sync s.window.repoId)) => List.mem_of_mem_erase hf
    cases result with
    | ok report => exact hQ.requestRefresh (hb.finishSync hq _ _) hdone
    | error e =>
      change Q _ (_ ++ [])
      rwa [List.append_nil]

/-- An invariant holds at the end of every lawful run that begins where it does. -/
theorem run (hQ : Preserved allowed Q) {t : Traffic RepoState} (ht : InStep t)
    (h : Q t.state t.out) {deeds : List Deed} (hl : t.Lawful deeds)
    (hallowed : ∀ a ∈ deeds, Allows allowed a) : Q (t.run deeds).state (t.run deeds).out := by
  have hboth : InStep (t.run deeds) ∧ Q (t.run deeds).state (t.run deeds).out :=
    Traffic.run_induction (P := fun t => InStep t ∧ Q t.state t.out)
      (fun _ _ hP ha hA => ⟨hP.1.next ha, hQ.next hP.1 hP.2 ha hA⟩) ⟨ht, h⟩ hl hallowed
  exact hboth.2

end Preserved

end RepoState

namespace Traffic

variable {allowed : PageFetch → Page → Prop} {Q : RepoState → List Request → Prop}

/-- An invariant of a repository that holds somewhere in the traffic of a reconciler holds from
there on. -/
theorem preserved_from (hQ : RepoState.Preserved allowed Q) {t : Traffic Reconciler} (hs : t.Sound)
    {repo : Ident} (hb : (t.state.repo repo).Balanced (t.only repo).out)
    (h0 : Q (t.state.repo repo) (t.only repo).out) {inputs : List Reconciler.Input}
    (hl : t.Lawful inputs)
    (hallowed : ∀ f page, .completion (.page f (.ok page)) ∈ inputs → f.repoId = repo →
      allowed f page) :
    Q ((t.run inputs).state.repo repo) ((t.run inputs).only repo).out := by
  obtain ⟨hrun, hlawful⟩ := only_run hs hl repo
  have hdeeds : ∀ a ∈ deeds repo t inputs, RepoState.Allows allowed a := by
    rintro a ha f page rfl
    obtain ⟨hmem, hrepo⟩ := (mem_deeds_page hs hl).1 ha
    exact hallowed f page hmem hrepo
  have hstart : RepoState.InStep (t.only repo) := hb
  have hend := hQ.run hstart h0 hlawful hdeeds
  rwa [← hrun] at hend

/-- In every lawful run of a reconciler an invariant holds of each repository. -/
theorem preserved_run (hQ : RepoState.Preserved allowed Q) {subject repo : Ident}
    {pageLimit noticeCapacity : UInt64} {inputs : List Reconciler.Input}
    (h0 : Q (.new repo (max pageLimit 1)) [])
    (hl : (start (Reconciler.new subject pageLimit noticeCapacity)).Lawful inputs)
    (hallowed : ∀ f page, .completion (.page f (.ok page)) ∈ inputs → f.repoId = repo →
      allowed f page) :
    Q (((start (Reconciler.new subject pageLimit noticeCapacity)).run inputs).state.repo repo)
      (((start (Reconciler.new subject pageLimit noticeCapacity)).run inputs).only repo).out := by
  have hnew := only_start subject repo pageLimit noticeCapacity
  have hb : ((start (Reconciler.new subject pageLimit noticeCapacity)).only repo).state.Balanced
      ((start (Reconciler.new subject pageLimit noticeCapacity)).only repo).out := by
    rw [hnew]
    exact RepoState.balanced_new repo _
  have h0' : Q ((start (Reconciler.new subject pageLimit noticeCapacity)).only repo).state
      ((start (Reconciler.new subject pageLimit noticeCapacity)).only repo).out := by
    rw [hnew]
    exact h0
  exact preserved_from hQ (sound_start subject pageLimit noticeCapacity) hb h0' hl hallowed

end Traffic

end LiveAudit
