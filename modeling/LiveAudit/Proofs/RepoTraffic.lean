import LiveAudit.Proofs.Share

/-!
# The traffic of one repository

The traffic of a reconciler, looked at for one repository, is the traffic of that repository under
its deeds (`Traffic.only_run`). What is proved of one repository therefore holds in every run of a
reconciler, for each repository it ever viewed and for those it never did.
-/

namespace LiveAudit

open Reconciler (Input share)

namespace Traffic

/-! ### Looking at one repository -/

/-- The traffic of one repository: its state, and the requests made for it. -/
def only (t : Traffic Reconciler) (repo : Ident) : Traffic RepoState where
  state := t.state.repo repo
  out := t.out.filter (Request.concerns repo)

/-- Takes a deed, if there is one. -/
def follow (t : Traffic RepoState) : Option Deed → Traffic RepoState
  | none => t
  | some a => t.next a

/-- States are kept under their names, and requests are out for known repositories only. -/
structure Sound (t : Traffic Reconciler) : Prop where
  named : t.state.Named
  known : ∀ q ∈ t.out, ∀ r, q.concerns r → t.state.Knows r

/-- The fetches of a repository are among the requests made for it. -/
theorem fetches_only (t : Traffic Reconciler) (repo : Ident) (reason : FetchReason) (epoch : Nat) :
    (t.only repo).fetches repo reason epoch = t.fetches repo reason epoch := by
  simp only [fetches, only, List.filter_filter]
  refine List.filter_congr fun q _ => ?_
  cases hq : q.isFetch repo reason epoch with
  | false => simp
  | true => simp [Request.concerns_of_isFetch hq]

/-- Among the page fetches that are out, those of the repository are looked at. -/
theorem mem_only {t : Traffic Reconciler} {repo : Ident} {f : PageFetch} :
    .page f ∈ (t.only repo).out ↔ .page f ∈ t.out ∧ f.repoId = repo := by
  simp [only, Request.concerns]

/-- The repository of a page fetch that is out is known. -/
theorem Sound.knows {t : Traffic Reconciler} (h : t.Sound) {f : PageFetch}
    (hf : .page f ∈ t.out) : t.state.Knows f.repoId :=
  h.known (.page f) hf f.repoId (by simp [Request.concerns])

/-- A new reconciler is sound. -/
theorem sound_start (subject : Ident) (pageLimit noticeCapacity : UInt64) :
    (start (Reconciler.new subject pageLimit noticeCapacity)).Sound where
  named r := by
    by_cases h : r = subject
    · subst h
      simp [Reconciler.repo, Reconciler.new, start, RepoState.new, Window.new]
    · simp [Reconciler.repo, Reconciler.new, start, Table.find?_put_of_ne _ _ h, RepoState.new,
        Window.new]
  known q hq := by simp [start] at hq

/-- A request is made for one repository at most. -/
theorem eq_of_concerns {q : Request} {r r' : Ident} (h : q.concerns r) (h' : q.concerns r') :
    r = r' := by
  cases q with
  | page f => simp_all [Request.concerns]
  | sync s => simp_all [Request.concerns]
  | projects => simp [Request.concerns] at h

/-- What is sent for the repository that an input concerns is made for it. -/
theorem concerns_sent {d : Reconciler} (hd : d.Named) (id : Ident) (a : Deed) :
    ∀ q ∈ d.sent (some (id, a)), q.concerns id := by
  intro q hq
  have h := RepoState.concerns_act (d.repo id) a q hq
  rwa [hd id] at h

/-- An input keeps traffic sound. -/
theorem Sound.next {t : Traffic Reconciler} (h : t.Sound) (i : Input) : (t.next i).Sound := by
  have hdo := Reconciler.does_step h.named i
  constructor
  · intro r
    have hrepo := hdo.repo r
    refine (congrArg (·.window.repoId) hrepo).trans ?_
    cases share (t.state.target i) r with
    | none => exact h.named r
    | some a => exact (RepoState.repoId_act _ a).trans (h.named r)
  · intro q hq r hr
    rcases List.mem_append.1 hq with hold | hnew
    · have hq' : q ∈ t.out := by
        cases ha : Dialogue.answered i with
        | none => simpa [ha] using hold
        | some q' =>
          rw [ha] at hold
          exact List.mem_of_mem_erase hold
      exact hdo.knows r (h.known q hq' r hr)
    · rcases Reconciler.mem_step h.named hnew with rfl | ⟨id, a, ht, hsent⟩
      · simp [Request.concerns] at hr
      · obtain rfl := eq_of_concerns (concerns_sent h.named id a q hsent) hr
        refine hdo.knows_sent (id, a) ht ?_
        rw [ht]
        exact List.ne_nil_of_mem hsent

/-- An input that answers nothing is no deed that answers something. -/
theorem answered_target_of_none {d : Reconciler} {i : Input} (h : i.answered = none) :
    ∀ p ∈ d.target i, p.2.answered = none := by
  intro p hp
  have of_if : ∀ {c : Prop} [Decidable c] {a : Deed}, a.answered = none →
      p ∈ (if c then some (d.subject, a) else none) → p.2.answered = none := by
    intro c _ a ha hp
    split_ifs at hp
    · rw [← Option.mem_some.1 hp]
      exact ha
    · simp at hp
  cases i with
  | load => rw [← Option.mem_some.1 hp]; rfl
  | switchTo subject =>
    simp only [Reconciler.target] at hp
    split_ifs at hp
    · simp at hp
    · rw [← Option.mem_some.1 hp]; rfl
  | refresh => rw [← Option.mem_some.1 hp]; rfl
  | startSync => rw [← Option.mem_some.1 hp]; rfl
  | loadMore => rw [← Option.mem_some.1 hp]; rfl
  | event e =>
    cases e with
    | syncProgress p => exact of_if rfl hp
    | auditProgress p => exact of_if rfl hp
    | auditUpdate p => exact of_if rfl hp
    | contractProgress p => simp [Reconciler.target] at hp
    | build phase => simp [Reconciler.target] at hp
    | other kind => simp [Reconciler.target] at hp
  | completion c => simp [Input.answered] at h

/-- A deed answers the request that its input does, if that is made for the repository. -/
theorem answered_share {t : Traffic Reconciler} (h : t.Sound) {i : Input} (hi : t.Admits i)
    (repo : Ident) :
    (share (t.state.target i) repo).bind Deed.answered =
      i.answered.filter (Request.concerns repo) := by
  cases ha : i.answered with
  | none =>
    cases ht : t.state.target i with
    | none => rfl
    | some p =>
      have hp : p.2.answered = none := answered_target_of_none ha p ht
      by_cases hr : p.1 = repo <;> simp [share, hr, hp]
  | some q =>
    obtain ⟨c, rfl, rfl⟩ := Input.exists_of_answered ha
    cases c with
    | page f result =>
      have hknown : t.state.Knows f.repoId := h.knows (hi _ rfl)
      have htarget : t.state.target (.completion (.page f result)) =
          some (f.repoId, .page f result) := if_pos hknown
      rw [htarget]
      by_cases hr : f.repoId = repo <;>
        simp [share, Request.concerns, Option.filter, hr, Deed.answered, Completion.request]
    | sync r result =>
      have hknown : t.state.Knows r := h.known (.sync r) (hi _ rfl) r (by simp [Request.concerns])
      have htarget : t.state.target (.completion (.sync r result)) =
          some (r, .sync r result) := if_pos hknown
      rw [htarget]
      by_cases hr : r = repo <;>
        simp [share, Request.concerns, Option.filter, hr, Deed.answered, Completion.request]
    | projects result => rfl

/-- Taking an answered request off, and looking at one repository, may be done in either order. -/
theorem filter_elim_erase (repo : Ident) (out : List Request) (o : Option Request) :
    (o.elim out out.erase).filter (Request.concerns repo) =
      (o.filter (Request.concerns repo)).elim (out.filter (Request.concerns repo))
        (out.filter (Request.concerns repo)).erase := by
  cases o with
  | none => rfl
  | some q =>
    simp only [Option.elim_some, ← List.erase_filter]
    by_cases hq : q.concerns repo
    · simp [Option.filter, hq]
    · rw [List.erase_of_not_mem fun hmem => hq (List.mem_filter.1 hmem).2]
      simp [Option.filter, hq]

/-- Requests that are sent, looked at for one repository, are those of its deed. -/
theorem filter_step {d : Reconciler} (hd : d.Named) (i : Input) (repo : Ident) :
    (d.step i).2.filter (Request.concerns repo) =
      ((d.repo repo).follow (share (d.target i) repo)).2 := by
  have hprojects : (d.projectRequests i).filter (Request.concerns repo) = [] := by
    unfold Reconciler.projectRequests
    split_ifs <;> simp [Request.concerns]
  rw [(Reconciler.does_step hd i).requests, List.filter_append, hprojects, List.append_nil]
  cases ht : d.target i with
  | none => rfl
  | some p =>
    obtain ⟨id, a⟩ := p
    have hsent := concerns_sent hd id a
    by_cases hr : id = repo
    · subst hr
      simp only [share, Option.bind_some, if_true, RepoState.follow_some]
      exact List.filter_eq_self.2 hsent
    · simp only [share, Option.bind_some, if_neg hr, RepoState.follow_none]
      refine List.filter_eq_nil_iff.2 fun q hq hq' => hr ?_
      exact eq_of_concerns (hsent q hq) hq'

/-- Looked at for one repository, an input is the deed that it amounts to there. -/
theorem only_next {t : Traffic Reconciler} (h : t.Sound) {i : Input} (hi : t.Admits i)
    (repo : Ident) :
    (t.next i).only repo = (t.only repo).follow (share (t.state.target i) repo) := by
  have hstate : (t.next i).state.repo repo = _ := (Reconciler.does_step h.named i).repo repo
  have hout : (t.next i).out.filter (Request.concerns repo) =
      ((share (t.state.target i) repo).bind Deed.answered).elim (t.only repo).out
        (t.only repo).out.erase ++
          ((t.state.repo repo).follow (share (t.state.target i) repo)).2 := by
    rw [answered_share h hi, ← filter_step h.named]
    have hold := filter_elim_erase repo t.out i.answered
    exact (List.filter_append ..).trans (congrArg (· ++ _) hold)
  cases ht : share (t.state.target i) repo with
  | none =>
    rw [ht] at hstate hout
    simp only [only, follow, hstate, hout, RepoState.follow_none, Option.bind_none,
      Option.elim_none, List.append_nil]
  | some a =>
    rw [ht] at hstate hout
    simp only [only, follow, hstate, hout, RepoState.follow_some, Option.bind_some]
    rfl

/-- The answer to a page fetch that is out is the deed of taking it, at the repository of the
fetch. -/
theorem Sound.share_page {t : Traffic Reconciler} (h : t.Sound) {f : PageFetch}
    (hf : .page f ∈ t.out) (result : Except Failure Page) :
    share (t.state.target (.completion (.page f result))) f.repoId = some (.page f result) := by
  have hknown : t.state.Knows f.repoId := h.knows hf
  simp [Reconciler.target, hknown, share]

/-- An input does to a repository the deed that it amounts to there. -/
theorem Sound.repo_next {t : Traffic Reconciler} (h : t.Sound) (i : Input) (repo : Ident) :
    (t.next i).state.repo repo =
      ((t.state.repo repo).follow (share (t.state.target i) repo)).1 :=
  (Reconciler.does_step h.named i).repo repo

/-- What the answer to a page fetch does to its repository. -/
theorem repo_next_page {t : Traffic Reconciler} (h : t.Sound) {f : PageFetch}
    (hf : .page f ∈ t.out) (result : Except Failure Page) :
    (t.next (Input.completion (.page f result))).state.repo f.repoId =
      ((t.state.repo f.repoId).act (.page f result)).1 := by
  rw [h.repo_next, h.share_page hf result]
  rfl

/-- What goes out on the answer to a page fetch is what its repository sends. -/
theorem step_page {t : Traffic Reconciler} (h : t.Sound) {f : PageFetch} (hf : .page f ∈ t.out)
    (result : Except Failure Page) :
    (t.state.step (.completion (.page f result))).2 =
      ((t.state.repo f.repoId).act (.page f result)).2 := by
  have hknown : t.state.Knows f.repoId := h.knows hf
  have htarget : t.state.target (.completion (.page f result)) =
      some (f.repoId, .page f result) := if_pos hknown
  rw [(Reconciler.does_step h.named _).requests, htarget]
  exact List.append_nil _

/-- The deed that an admitted input amounts to is admitted by the repository. -/
theorem admits_share {t : Traffic Reconciler} (h : t.Sound) {i : Input} (hi : t.Admits i)
    {repo : Ident} {a : Deed} (ha : a ∈ share (t.state.target i) repo) :
    (t.only repo).Admits a := by
  intro q hq
  have hfilter : i.answered.filter (Request.concerns repo) = some q := by
    rw [← answered_share h hi, Option.mem_def.1 ha]
    exact hq
  obtain ⟨hi', hr⟩ := Option.filter_eq_some_iff.1 hfilter
  exact List.mem_filter.2 ⟨hi q hi', hr⟩

/-! ### Runs -/

/-- What the inputs of a run amount to for one repository, in order. -/
def deeds (repo : Ident) : Traffic Reconciler → List Input → List Deed
  | _, [] => []
  | t, i :: rest => (share (t.state.target i) repo).toList ++ deeds repo (t.next i) rest

/-- Taking a deed, if there is one, is taking the list of it. -/
theorem run_toList (t : Traffic RepoState) (o : Option Deed) : t.run o.toList = t.follow o := by
  cases o <;> rfl

/-- Looked at for one repository, a lawful run is a lawful run of that repository. -/
theorem only_run {t : Traffic Reconciler} (h : t.Sound) {inputs : List Input}
    (hl : t.Lawful inputs) (repo : Ident) :
    (t.run inputs).only repo = (t.only repo).run (t.deeds repo inputs) ∧
      (t.only repo).Lawful (t.deeds repo inputs) := by
  induction inputs generalizing t with
  | nil => exact ⟨rfl, trivial⟩
  | cons i rest ih =>
    obtain ⟨hi, hrest⟩ := hl
    obtain ⟨hrun, hlawful⟩ := ih (h.next i) hrest
    have hnext := only_next h hi repo
    rw [hnext] at hrun hlawful
    constructor
    · rw [run_cons, hrun, deeds, run_append, run_toList]
    · refine lawful_append.2 ⟨?_, by rwa [run_toList]⟩
      cases ha : share (t.state.target i) repo with
      | none => trivial
      | some a => exact ⟨admits_share h hi ha, trivial⟩

/-- Traffic stays sound in every run. -/
theorem Sound.run {t : Traffic Reconciler} (h : t.Sound) (inputs : List Input) :
    (t.run inputs).Sound := by
  induction inputs generalizing t with
  | nil => exact h
  | cons i rest ih => exact ih (h.next i)

/-- An input keeps the subject known: it stays, or is opened. -/
theorem Sound.knows_subject_next {t : Traffic Reconciler} (h : t.Sound)
    (hk : t.state.Knows t.state.subject) (i : Input) :
    (t.next i).state.Knows (t.next i).state.subject := by
  have hdo := Reconciler.does_step h.named i
  rcases Reconciler.share_of_subject_step (d := t.state) (i := i) rfl with hshare | hsame
  · have htarget := Reconciler.share_eq_some_iff.1 hshare
    refine hdo.knows_sent _ htarget ?_
    rw [htarget]
    exact List.cons_ne_nil _ _
  · have hknown := hdo.knows _ hk
    rwa [hsame] at hknown

/-- A subject that is known stays so in every run. -/
theorem Sound.knows_subject_run {t : Traffic Reconciler} (h : t.Sound)
    (hk : t.state.Knows t.state.subject) (inputs : List Input) :
    (t.run inputs).state.Knows (t.run inputs).state.subject := by
  induction inputs generalizing t with
  | nil => exact hk
  | cons i rest ih => exact ih (h.next i) (h.knows_subject_next hk i)

/-- Nothing has happened to any repository of a new reconciler. -/
theorem only_start (subject repo : Ident) (pageLimit noticeCapacity : UInt64) :
    (start (Reconciler.new subject pageLimit noticeCapacity)).only repo =
      start (RepoState.new repo (max pageLimit 1)) := by
  by_cases h : repo = subject
  · subst h
    simp [only, start, Reconciler.repo, Reconciler.new]
  · simp [only, start, Reconciler.repo, Reconciler.new, Table.find?_put_of_ne _ _ h]

/-- Only the answer to a page fetch is the deed of taking one, at the repository of the fetch. -/
theorem target_eq_page {d : Reconciler} {i : Input} {id : Ident} {f : PageFetch}
    {result : Except Failure Page} :
    d.target i = some (id, .page f result) ↔
      i = .completion (.page f result) ∧ id = f.repoId ∧ d.Knows f.repoId := by
  cases i with
  | load => simp [Reconciler.target]
  | switchTo subject => simp [Reconciler.target]
  | refresh => simp [Reconciler.target]
  | startSync => simp [Reconciler.target]
  | loadMore => simp [Reconciler.target]
  | event e => cases e <;> simp [Reconciler.target]
  | completion c =>
    cases c with
    | page g r =>
      simp only [Reconciler.target, Option.ite_none_right_eq_some, Option.some.injEq, Prod.mk.injEq,
        Deed.page.injEq, Input.completion.injEq, Completion.page.injEq]
      constructor
      · rintro ⟨hknown, rfl, rfl, rfl⟩
        exact ⟨⟨rfl, rfl⟩, rfl, hknown⟩
      · rintro ⟨⟨rfl, rfl⟩, rfl, hknown⟩
        exact ⟨hknown, rfl, rfl, rfl⟩
    | sync r result => simp [Reconciler.target]
    | projects result => simp [Reconciler.target]

/-- The page answers among the deeds of a repository are those of the run that are for it. -/
theorem mem_deeds_page {t : Traffic Reconciler} (h : t.Sound) {inputs : List Input}
    (hl : t.Lawful inputs) {repo : Ident} {f : PageFetch} {result : Except Failure Page} :
    .page f result ∈ t.deeds repo inputs ↔
      .completion (.page f result) ∈ inputs ∧ f.repoId = repo := by
  induction inputs generalizing t with
  | nil => simp [deeds]
  | cons i rest ih =>
    have hhead : .page f result ∈ (share (t.state.target i) repo).toList ↔
        i = .completion (.page f result) ∧ f.repoId = repo := by
      rw [Option.mem_toList, share, Option.bind_eq_some_iff]
      constructor
      · rintro ⟨⟨id, a⟩, ht, ha⟩
        obtain ⟨hid, ha⟩ := Option.ite_none_right_eq_some.1 ha
        obtain rfl := Option.some.inj ha
        obtain ⟨hi, hf, -⟩ := target_eq_page.1 ht
        exact ⟨hi, hf.symm.trans hid⟩
      · rintro ⟨rfl, rfl⟩
        have hknown : t.state.Knows f.repoId := h.knows (hl.1 _ rfl)
        exact ⟨_, target_eq_page.2 ⟨rfl, rfl, hknown⟩, if_pos rfl⟩
    rw [deeds, List.mem_append, hhead, ih (h.next i) hl.2, List.mem_cons]
    tauto

end Traffic

end LiveAudit
