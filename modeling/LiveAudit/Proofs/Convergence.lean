import LiveAudit.Proofs.Synced

/-!
# Convergence

When no update waits and no page of the subject is out, the rows that the last refresh was sent for
are those of the list as it is now, and behind them stand the rows that were appended since
(`Mirror.Kept.clean_of_quiet`). The window shows the list exactly if these continue it and the total
is that of the list. They do if no page was being appended when the refresh was sent. A page that
was out then may have read the list before it changed, and nothing replaces it.
-/

namespace LiveAudit

open Reconciler (Input share)

namespace Mirror

variable {repo : Ident}

/-! ### What is kept in every run -/

/-- What holds of a reconciler and the server at all times; in sync while the repository is the
subject and was opened. -/
structure Kept (repo : Ident) (limit : UInt64) (m : Mirror) : Prop where
  sound : m.traffic.Sound
  balanced : (m.traffic.state.repo repo).Balanced (m.traffic.only repo).out
  tidy : (m.traffic.state.repo repo).Tidy limit (m.traffic.only repo).out
  runs_lt : m.runs.length < UInt64.size
  read_lt : ∀ f, ∀ list ∈ m.read? f, list.length < UInt64.size
  read_out : ∀ f, (m.read? f).isSome → .page f ∈ (m.traffic.only repo).out
  synced : m.traffic.state.subject = repo → 0 < (m.traffic.state.repo repo).epoch →
    (m.traffic.state.repo repo).Synced limit m.runs m.read? m.hints m.last
      (m.traffic.only repo).out

/-- Fetches that have read, after one more. -/
theorem read?_cons {m : Mirror} {f g : PageFetch} {runs : List Run} :
    ({ m with reads := (f, runs) :: m.reads } : Mirror).read? g =
      if f = g then some runs else m.read? g := by
  by_cases h : f = g <;> simp [read?, h]

/-- Fetches that have read, without one that is answered. -/
theorem read?_filter {m : Mirror} {f g : PageFetch} {list : List Run}
    (h : list ∈ ({ m with reads := m.reads.filter fun p => p.1 ≠ f } : Mirror).read? g) :
    list ∈ m.read? g ∧ g ≠ f := by
  obtain ⟨p, hfind, hlist⟩ := Option.map_eq_some_iff.1 (Option.mem_def.1 h)
  have hg : p.1 = g := by simpa using List.find?_some hfind
  have hne : g ≠ f := by
    have hmem := (List.mem_filter.1 (List.mem_of_find?_eq_some hfind)).2
    rw [hg] at hmem
    simpa using hmem
  refine ⟨Option.map_eq_some_iff.2 ⟨p, ?_, hlist⟩, hne⟩
  rw [← hfind, List.find?_filter]
  refine congrArg (List.find? · m.reads) (funext fun q => ?_)
  by_cases hq : q.1 = g <;> simp [hq, hne]

/-- An input keeps the reconciler sound, flags and requests in agreement, and the window tidy. -/
theorem Kept.take {limit : UInt64} {m : Mirror} (h : m.Kept repo limit) {i : Input}
    (hi : m.traffic.Admits i)
    (hsliced : ∀ f page, i = .completion (.page f (.ok page)) → f.repoId = repo → Sliced f page) :
    (m.traffic.next i).Sound ∧
      ((m.traffic.next i).state.repo repo).Balanced ((m.traffic.next i).only repo).out ∧
      ((m.traffic.next i).state.repo repo).Tidy limit ((m.traffic.next i).only repo).out := by
  have hl : m.traffic.Lawful [i] := ⟨hi, trivial⟩
  refine ⟨h.sound.next i, Traffic.balanced_from h.sound h.balanced hl, ?_⟩
  exact Traffic.preserved_from (RepoState.preserved_tidy limit) h.sound h.balanced h.tidy hl
    fun f page hmem hrepo => hsliced f page (List.mem_singleton.1 hmem).symm hrepo

/-- What is kept of the last refresh follows the deed that an input amounts to. -/
theorem take_last {m : Mirror} {i : Input} {a : Deed}
    (ha : share (m.traffic.state.target i) repo = some a) :
    (m.take repo i).last = m.last.after (m.traffic.state.repo repo) a := by
  rw [Mirror.take, ha]
  rfl

/-- Only what answers a page fetch of the repository takes it off. -/
theorem answersPage_of_answered {i : Input} {f : PageFetch} (h : i.answered = some (.page f))
    (hrepo : f.repoId = repo) : AnswersPage repo i := by
  obtain ⟨c, rfl, hc⟩ := Input.exists_of_answered h
  cases c with
  | page g result =>
    obtain rfl : g = f := Request.page.inj hc
    exact hrepo
  | sync r result => simp [Completion.request] at hc
  | projects result => simp [Completion.request] at hc

/-- Fetches that have read stay out while no page of the repository is answered. -/
theorem Kept.read_out_take {limit : UInt64} {m : Mirror} (h : m.Kept repo limit) {i : Input}
    (hpage : ¬AnswersPage repo i) {f : PageFetch} (hf : (m.read? f).isSome) :
    .page f ∈ ((m.traffic.next i).only repo).out := by
  obtain ⟨hout, hrepo⟩ := Traffic.mem_only.1 (h.read_out f hf)
  refine Traffic.mem_only.2 ⟨Traffic.mem_next_of_ne hout fun hanswered => hpage ?_, hrepo⟩
  exact answersPage_of_answered hanswered hrepo

/-- An input that answers no page of the repository keeps the window in sync. -/
theorem Kept.synced_take {limit : UInt64} {m : Mirror} (h : m.Kept repo limit) {i : Input}
    (hi : m.traffic.Admits i) (hpage : ¬AnswersPage repo i)
    (hplace : InPlace repo m.traffic.state i)
    (hsubject : (m.traffic.next i).state.subject = repo)
    (hepoch : 0 < ((m.traffic.next i).state.repo repo).epoch) :
    ((m.traffic.next i).state.repo repo).Synced limit m.runs m.read? m.hints (m.take repo i).last
      ((m.traffic.next i).only repo).out := by
  have hnext := Traffic.only_next h.sound hi repo
  have hstate : (m.traffic.next i).state.repo repo = _ := congrArg Traffic.state hnext
  have hopened := Reconciler.share_of_subject_step hsubject
  rw [hstate] at hepoch
  rw [hstate, hnext]
  unfold Mirror.take
  cases ha : share (m.traffic.state.target i) repo with
  | none =>
    rw [ha] at hopened hepoch
    exact h.synced (hopened.resolve_left (by simp)) hepoch
  | some a =>
    rw [ha] at hopened hepoch
    have hadmits := Traffic.admits_share h.sound hi (Option.mem_def.2 ha)
    have hnopage : ∀ f result, a ≠ .page f result := by
      rintro f result rfl
      obtain ⟨⟨id, b⟩, ht, hb⟩ := Option.bind_eq_some_iff.1 ha
      obtain ⟨hid, hb⟩ := Option.ite_none_right_eq_some.1 hb
      obtain rfl : b = .page f result := Option.some.inj hb
      obtain ⟨rfl, hrepo, -⟩ := Traffic.target_eq_page.1 ht
      exact hpage (hrepo.symm.trans hid)
    have hsent : ∀ f, .page f ∈ ((m.traffic.state.repo repo).act a).2 →
        .page f ∈ (m.traffic.state.step i).2 ∧ f.repoId = repo := by
      intro f hf
      have hfilter := Traffic.filter_step h.sound.named i repo
      rw [ha, RepoState.follow_some] at hfilter
      rw [← hfilter] at hf
      simpa [Request.concerns] using hf
    change RepoState.Synced _ _ _ _ (m.last.after (m.traffic.state.repo repo) a) _ _
    -- a repository that becomes the subject need not have been in sync before
    by_cases hreopen : a = .reopen
    · subst hreopen
      exact RepoState.synced_requestRefresh h.balanced.reset
        ((RepoState.preserved_tidy limit).reset h.balanced h.tidy) h.read_out rfl
    · have hbefore : 0 < (m.traffic.state.repo repo).epoch := by
        have hsame := RepoState.epoch_act (s := m.traffic.state.repo repo) hreopen
        exact hsame ▸ hepoch
      have hsub := hopened.resolve_left fun hr => hreopen (Option.some.inj hr)
      refine (h.synced hsub hbefore).act h.balanced h.tidy h.read_out hadmits hnopage ?_
      intro f hf hr
      obtain ⟨hf, hrepo⟩ := hsent f hf
      exact hplace _ hf f rfl hrepo hr

/-- An update that is handled leads to a refresh. -/
theorem Kept.synced_hint {limit : UInt64} {m : Mirror} (h : m.Kept repo limit)
    (hi : m.traffic.Admits (Input.event (.auditUpdate ⟨repo⟩)))
    (hsubject : (m.next repo .hint).traffic.state.subject = repo) :
    ((m.next repo .hint).traffic.state.repo repo).Synced limit m.runs m.read? (m.hints - 1)
      (m.next repo .hint).last ((m.next repo .hint).traffic.only repo).out := by
  have hsub : m.traffic.state.subject = repo :=
    (Reconciler.control_step _ _).1.symm.trans hsubject
  have hdeed : share (m.traffic.state.target (.event (.auditUpdate ⟨repo⟩))) repo =
      some .refresh := by simp [Reconciler.target, share, hsub]
  have hnext := Traffic.only_next h.sound hi repo
  rw [hdeed] at hnext
  have hstate : (m.next repo .hint).traffic.state.repo repo = _ := congrArg Traffic.state hnext
  have hout : ((m.next repo .hint).traffic.only repo).out = _ := congrArg Traffic.out hnext
  have hlast : (m.next repo .hint).last = _ := take_last hdeed
  rw [hstate, hout, hlast]
  exact RepoState.synced_requestRefresh h.balanced h.tidy h.read_out rfl

/-- The page that answers a fetch is the slice of what it has read. -/
theorem page_eq {m : Mirror} {f : PageFetch} {list : List Run} (h : list ∈ m.read? f) :
    m.page f = Service.slice list f.offset f.limit := by
  rw [page, Option.mem_def.1 h, Option.getD_some]

/-- The answer to a fetch that has read keeps the window in sync. -/
theorem Kept.synced_answer {limit : UInt64} {m : Mirror} (h : m.Kept repo limit) {f : PageFetch}
    (hf : .page f ∈ m.traffic.out) (hrepo : f.repoId = repo) {list : List Run}
    (hlist : list ∈ m.read? f)
    (hsubject : (m.next repo (.answer f)).traffic.state.subject = repo)
    (hepoch : 0 < ((m.next repo (.answer f)).traffic.state.repo repo).epoch) :
    ((m.next repo (.answer f)).traffic.state.repo repo).Synced limit m.runs
      (m.next repo (.answer f)).read? m.hints (m.next repo (.answer f)).last
      ((m.next repo (.answer f)).traffic.only repo).out := by
  have hi : m.traffic.Admits (Input.completion (.page f (.ok (m.page f)))) :=
    Traffic.admits_of_mem rfl hf
  have hdeed : share (m.traffic.state.target (.completion (.page f (.ok (m.page f))))) repo =
      some (.page f (.ok (m.page f))) := hrepo ▸ h.sound.share_page hf _
  have hsub : m.traffic.state.subject = repo :=
    (Reconciler.control_step _ _).1.symm.trans hsubject
  have hnext := Traffic.only_next h.sound hi repo
  rw [hdeed] at hnext
  have hstate : (m.next repo (.answer f)).traffic.state.repo repo = _ :=
    congrArg Traffic.state hnext
  have hout : ((m.next repo (.answer f)).traffic.only repo).out = _ := congrArg Traffic.out hnext
  have hlast : (m.next repo (.answer f)).last = _ := take_last hdeed
  have hbefore : 0 < (m.traffic.state.repo repo).epoch := by
    have hafter := congrArg RepoState.epoch hstate
    have hsame : ((m.traffic.state.repo repo).act (.page f (.ok (m.page f)))).1.epoch =
        (m.traffic.state.repo repo).epoch := RepoState.epoch_act (by simp)
    exact (hafter.trans hsame) ▸ hepoch
  rw [hstate, hout, hlast]
  exact (h.synced hsub hbefore).answer h.balanced h.tidy h.runs_lt
    (Traffic.mem_only.2 ⟨hf, hrepo⟩) hlist (h.read_lt f list hlist) h.read_out
    (fun g list' hg => read?_filter hg) (by rw [page_eq hlist])

/-- A fetch that reads the list keeps the mirror as it should be. -/
theorem Kept.read {limit : UInt64} {m : Mirror} (h : m.Kept repo limit) {f : PageFetch}
    (hf : .page f ∈ m.traffic.out) (hrepo : f.repoId = repo) :
    (m.next repo (.read f)).Kept repo limit := by
  have hread : ∀ g, ∀ list ∈ (m.next repo (.read f)).read? g,
      (f = g ∧ list = m.runs) ∨ list ∈ m.read? g := by
    intro g list hlist
    rw [Mirror.next, read?_cons] at hlist
    by_cases hg : f = g
    · rw [if_pos hg] at hlist
      exact .inl ⟨hg, (Option.some.inj hlist).symm⟩
    · rw [if_neg hg] at hlist
      exact .inr hlist
  refine ⟨h.sound, h.balanced, h.tidy, h.runs_lt, fun g list hlist => ?_, fun g hg => ?_,
    fun hsubject hepoch => ?_⟩
  · rcases hread g list hlist with ⟨-, rfl⟩ | hold
    · exact h.runs_lt
    · exact h.read_lt g list hold
  · obtain ⟨list, hlist⟩ := Option.isSome_iff_exists.1 hg
    rcases hread g list hlist with ⟨rfl, -⟩ | hold
    · exact Traffic.mem_only.2 ⟨hf, hrepo⟩
    · exact h.read_out g (Option.isSome_of_mem hold)
  · exact (h.synced hsubject hepoch).congr rfl rfl rfl rfl rfl (fun _ hg => hg)
      fun g list hlist => (hread g list hlist).imp_left And.right

/-- What happens keeps the mirror as it should be. -/
theorem Kept.next {limit : UInt64} {m : Mirror} (h : m.Kept repo limit) {move : Move}
    (ha : m.Admits repo move) : (m.next repo move).Kept repo limit := by
  cases move with
  | change runs =>
    exact ⟨h.sound, h.balanced, h.tidy, ha, h.read_lt, h.read_out, fun _ _ => .inl (Nat.succ_pos _)⟩
  | read f => exact h.read ha.1 ha.2.1
  | hint =>
    have hi : m.traffic.Admits (Input.event (.auditUpdate ⟨repo⟩)) := Traffic.admits_of_none rfl
    obtain ⟨hsound, hbalanced, htidy⟩ := h.take hi (by simp)
    exact ⟨hsound, hbalanced, htidy, h.runs_lt, h.read_lt, fun g hg => h.read_out_take id hg,
      fun hsubject _ => h.synced_hint hi hsubject⟩
  | answer f =>
    obtain ⟨hf, hrepo, hsome⟩ := ha
    obtain ⟨list, hlist⟩ := Option.isSome_iff_exists.1 hsome
    have hi : m.traffic.Admits (Input.completion (.page f (.ok (m.page f)))) :=
      Traffic.admits_of_mem rfl hf
    obtain ⟨hsound, hbalanced, htidy⟩ := h.take hi fun g page hg _ => by
      rw [Input.completion.injEq, Completion.page.injEq, Except.ok.injEq] at hg
      obtain ⟨rfl, rfl⟩ := hg
      exact ⟨list, h.read_lt f list hlist, page_eq hlist⟩
    refine ⟨hsound, hbalanced, htidy, h.runs_lt, fun g list' hg => ?_, fun g hg => ?_,
      h.synced_answer hf hrepo hlist⟩
    · exact h.read_lt g list' (read?_filter hg).1
    · obtain ⟨list', hlist'⟩ := Option.isSome_iff_exists.1 hg
      obtain ⟨hold, hne⟩ := read?_filter (Option.mem_def.2 hlist')
      obtain ⟨hout, hgrepo⟩ := Traffic.mem_only.1 (h.read_out g (Option.isSome_of_mem hold))
      refine Traffic.mem_only.2 ⟨Traffic.mem_next_of_ne hout fun hanswered => hne ?_, hgrepo⟩
      exact (Request.page.inj (Option.some.inj hanswered)).symm
  | input i =>
    obtain ⟨hi, hpage, hplace⟩ := ha
    obtain ⟨hsound, hbalanced, htidy⟩ := h.take hi fun f page hfp hrepo => by
      rw [hfp] at hpage
      exact absurd hrepo hpage
    exact ⟨hsound, hbalanced, htidy, h.runs_lt, h.read_lt, fun g hg => h.read_out_take hpage hg,
      h.synced_take hi hpage hplace⟩

/-! ### Runs -/

/-- A mirror begins as it should be. -/
theorem kept_start (subject repo : Ident) (pageLimit noticeCapacity : UInt64) {runs : List Run}
    (hruns : runs.length < UInt64.size) :
    (start subject pageLimit noticeCapacity runs).Kept repo (max pageLimit 1) := by
  have hnew := Traffic.only_start subject repo pageLimit noticeCapacity
  have hstate : (start subject pageLimit noticeCapacity runs).traffic.state.repo repo =
      RepoState.new repo (max pageLimit 1) := congrArg Traffic.state hnew
  have hout : ((start subject pageLimit noticeCapacity runs).traffic.only repo).out = [] :=
    congrArg Traffic.out hnew
  refine ⟨Traffic.sound_start _ _ _, ?_, ?_, hruns, fun f list hlist => ?_, fun f hf => ?_,
    fun _ hepoch => ?_⟩
  · rw [hstate, hout]
    exact RepoState.balanced_new repo _
  · rw [hstate, hout]
    exact ⟨RepoState.fits_new repo pageLimit, Nat.zero_le _, id⟩
  · simp [start, read?] at hlist
  · simp [start, read?] at hf
  · rw [hstate] at hepoch
    exact absurd hepoch (Nat.lt_irrefl _)

/-- A mirror stays as it should be. -/
theorem Kept.run {limit : UInt64} {m : Mirror} (h : m.Kept repo limit) {moves : List Move}
    (hl : m.Lawful repo moves) : (m.run repo moves).Kept repo limit := by
  induction moves generalizing m with
  | nil => exact h
  | cons move rest ih => exact ih (h.next hl.1) hl.2

/-- The repository was opened, if it is the subject. -/
def Opened (repo : Ident) (m : Mirror) : Prop :=
  m.traffic.state.subject = repo → 0 < (m.traffic.state.repo repo).epoch

/-- A repository that was opened stays so, and loading the subject opens it. -/
theorem Kept.opened_take {limit : UInt64} {m : Mirror} (h : m.Kept repo limit) {i : Input}
    (hi : m.traffic.Admits i) (ho : m.Opened repo ∨ i = .load) :
    (m.traffic.next i).state.subject = repo → 0 < ((m.traffic.next i).state.repo repo).epoch := by
  intro hsubject
  have hnext := Traffic.only_next h.sound hi repo
  have hstate : (m.traffic.next i).state.repo repo = _ := congrArg Traffic.state hnext
  have hreopen : share (m.traffic.state.target i) repo = some .reopen ∨
      m.traffic.state.subject = repo ∧ m.Opened repo := by
    rcases Reconciler.share_of_subject_step hsubject with hshare | hsub
    · exact .inl hshare
    · rcases ho with hopened | rfl
      · exact .inr ⟨hsub, hopened⟩
      · left
        simp [Reconciler.target, share, hsub]
  rw [hstate]
  rcases hreopen with hshare | ⟨hsub, hopened⟩
  · rw [hshare]
    exact Nat.succ_pos _
  · have hbefore := hopened hsub
    cases ha : share (m.traffic.state.target i) repo with
    | none => exact hbefore
    | some a =>
      by_cases hr : a = .reopen
      · subst hr
        exact Nat.succ_pos _
      · have hsame : ((m.traffic.state.repo repo).act a).1.epoch = _ := RepoState.epoch_act hr
        exact hsame ▸ hbefore

theorem Kept.opened_next {limit : UInt64} {m : Mirror} (h : m.Kept repo limit) {move : Move}
    (ha : m.Admits repo move) (ho : m.Opened repo ∨ move = .input .load) :
    (m.next repo move).Opened repo := by
  cases move with
  | change runs => exact ho.resolve_right (by simp)
  | read f => exact ho.resolve_right (by simp)
  | hint => exact h.opened_take (Traffic.admits_of_none rfl) (ho.imp_right (by simp))
  | answer f => exact h.opened_take (Traffic.admits_of_mem rfl ha.1) (ho.imp_right (by simp))
  | input i => exact h.opened_take ha.1 (ho.imp_right (by simp))

theorem Kept.opened_run {limit : UInt64} {m : Mirror} (h : m.Kept repo limit) {moves : List Move}
    (hl : m.Lawful repo moves) (ho : m.Opened repo ∨ .input .load ∈ moves) :
    (m.run repo moves).Opened repo := by
  induction moves generalizing m with
  | nil => exact ho.resolve_right (by simp)
  | cons move rest ih =>
    refine ih (h.next hl.1) hl.2 ?_
    rcases ho with hopened | hload
    · exact .inl (h.opened_next hl.1 (.inl hopened))
    · rcases List.mem_cons.1 hload with rfl | hrest
      · exact .inl (h.opened_next hl.1 (.inr rfl))
      · exact .inr hrest

/-! ### Quiet moments -/

/-- When all is quiet the list has not changed since the last refresh, which has come back. -/
theorem Kept.clean_of_quiet {limit : UInt64} {m : Mirror} (h : m.Kept repo limit)
    (hsubject : m.traffic.state.subject = repo) (hopened : m.Opened repo) (hquiet : m.Quiet repo) :
    (m.traffic.state.repo repo).refresh.inFlight = false ∧
      (m.traffic.state.repo repo).Clean limit m.runs m.read? m.last
        (m.traffic.only repo).out := by
  have hflight : (m.traffic.state.repo repo).refresh.inFlight = false := by
    by_contra hg
    have hloading : (m.traffic.state.repo repo).window.loading = true := by
      rw [h.balanced.loading, eq_true_of_ne_false hg, Bool.true_or]
    obtain ⟨f, hf, -, he⟩ := h.balanced.loading_iff.1 hloading
    obtain ⟨hout, hrepo⟩ := Traffic.mem_only.1 hf
    exact hquiet.2 _ hout f rfl hrepo he
  refine ⟨hflight, ?_⟩
  rcases h.synced hsubject (hopened hsubject) with hhints | htrailing | hclean
  · exact absurd hquiet.1 (Nat.ne_of_gt hhints)
  · have hg := h.tidy.trailing htrailing
    rw [hflight] at hg
    exact absurd hg Bool.false_ne_true
  · exact hclean

/-- When all is quiet, the window shows the list as far as the last refresh was sent for, and behind
that what was appended since. So it shows the list exactly if these rows continue it and the total
is right; and it does if no page was being appended when that refresh was sent. -/
theorem converged_iff (subject repo : Ident) (pageLimit noticeCapacity : UInt64) {runs : List Run}
    (hruns : runs.length < UInt64.size) {moves : List Move}
    (hl : (start subject pageLimit noticeCapacity runs).Lawful repo moves)
    (hload : .input .load ∈ moves) :
    let m := (start subject pageLimit noticeCapacity runs).run repo moves
    let window := (m.traffic.state.repo repo).window
    m.traffic.state.subject = repo → m.Quiet repo →
      window.items = m.runs.take m.last.limit ++ m.last.appended ∧
      (m.Converged repo ↔
        m.last.appended <+: m.runs.drop m.last.limit ∧ window.total.toNat = m.runs.length) ∧
      (m.last.crossed = false → m.Converged repo) := by
  intro m window hsubject hquiet
  have hstart := kept_start subject repo pageLimit noticeCapacity hruns
  have hkept : m.Kept repo (max pageLimit 1) := hstart.run hl
  obtain ⟨hflight, hclean⟩ :=
    hkept.clean_of_quiet hsubject (hstart.opened_run hl (.inr hload)) hquiet
  have hrows : window.items = m.runs.take m.last.limit ++ m.last.appended :=
    hclean.rows_after hflight
  have hiff : m.Converged repo ↔
      m.last.appended <+: m.runs.drop m.last.limit ∧ window.total.toNat = m.runs.length := by
    refine and_congr_left fun _ => ?_
    have hbehind : m.runs.take m.last.limit ++ m.last.appended <+:
        m.runs.take m.last.limit ++ m.runs.drop m.last.limit ↔
          m.last.appended <+: m.runs.drop m.last.limit := List.prefix_append_right_inj _
    rw [List.take_append_drop, ← hrows] at hbehind
    rw [← hbehind]
    exact List.prefix_iff_eq_take.symm
  refine ⟨hrows, hiff, fun hcrossed => hiff.2 ?_⟩
  have hs := hclean.straight hcrossed
  exact ⟨hs.appended, hs.total hflight⟩

/-- A list that changes once after its first page was shown: the update brings the new row in. -/
theorem converged_after_change :
    let old := pendingRuns ["a", "b", "c"]
    let new := pendingRuns ["n", "a", "b", "c"]
    let moves : List Move := [.input .load, .read ⟨"r", 0, 2, .refresh, 1⟩,
      .answer ⟨"r", 0, 2, .refresh, 1⟩, .change new, .hint, .read ⟨"r", 0, 2, .refresh, 1⟩,
      .answer ⟨"r", 0, 2, .refresh, 1⟩]
    let m := start "r" 2 4 old
    m.Lawful "r" moves ∧ (m.run "r" moves).Quiet "r" ∧ (m.run "r" moves).Converged "r" := by
  intro old new moves m
  have hl : m.Lawful "r" moves := by decide
  have hquiet : (m.run "r" moves).Quiet "r" := by decide
  have hruns : old.length < UInt64.size := by decide
  have hconverged := converged_iff "r" "r" 2 4 hruns hl (by simp [moves]) (by decide) hquiet
  exact ⟨hl, hquiet, hconverged.2.2 (by decide)⟩

/-- A second page that is out while the list changes: it reads the old list, the refresh that the
update leads to covers the first page only, and a row of the new list is missing for good. -/
theorem stale_row :
    let old := pendingRuns ["a", "b", "c", "d"]
    let new := pendingRuns ["n", "a", "b", "c", "d"]
    let moves : List Move := [.input .load, .read ⟨"r", 0, 2, .refresh, 1⟩,
      .answer ⟨"r", 0, 2, .refresh, 1⟩, .input .loadMore, .read ⟨"r", 2, 2, .loadMore, 1⟩,
      .change new, .hint, .answer ⟨"r", 2, 2, .loadMore, 1⟩, .read ⟨"r", 0, 2, .refresh, 1⟩,
      .answer ⟨"r", 0, 2, .refresh, 1⟩]
    let m := (start "r" 2 4 old).run "r" moves
    (start "r" 2 4 old).Lawful "r" moves ∧ m.traffic.state.subject = "r" ∧ m.Quiet "r" ∧
      m.runs = new ∧
      (m.traffic.state.repo "r").window.items = pendingRuns ["n", "a", "c", "d"] ∧
      ¬m.Converged "r" := by
  decide

end Mirror

end LiveAudit
