import LiveAudit.Reconciler
import LiveAudit.Proofs.Deed

/-!
# What an input is for one repository

Every input of a reconciler concerns at most one repository, where it amounts to a deed
(`Reconciler.target`). `Reconciler.does_step` says all that a step does: the states of the other
repositories stay, and every request that is sent comes from the deed or asks for the project list.
-/

namespace LiveAudit

open Reconciler (Input)

/-- What a deed does, if there is one. -/
def RepoState.follow (s : RepoState) : Option Deed → RepoState × List Request
  | none => (s, [])
  | some a => s.act a

@[simp] theorem RepoState.follow_none (s : RepoState) : s.follow none = (s, []) := rfl

@[simp] theorem RepoState.follow_some (s : RepoState) (a : Deed) :
    s.follow (some a) = s.act a := rfl

/-- The request that an input answers. -/
def Reconciler.Input.answered : Input → Option Request
  | .completion c => some c.request
  | .load | .switchTo _ | .refresh | .startSync | .loadMore | .event _ => none

instance : Dialogue Input Reconciler where
  step := Reconciler.step
  answered := Reconciler.Input.answered

/-- Only completions answer requests. -/
theorem Reconciler.Input.exists_of_answered {i : Input} {q : Request} (h : i.answered = some q) :
    ∃ c, i = .completion c ∧ c.request = q := by
  cases i with
  | completion c => exact ⟨c, rfl, Option.some.inj h⟩
  | load => simp [answered] at h
  | switchTo subject => simp [answered] at h
  | refresh => simp [answered] at h
  | startSync => simp [answered] at h
  | loadMore => simp [answered] at h
  | event e => simp [answered] at h

namespace Reconciler

/-- A repository that was viewed before. -/
def Knows (d : Reconciler) (repo : Ident) : Prop :=
  (d.repos.find? repo).isSome

instance (d : Reconciler) (repo : Ident) : Decidable (d.Knows repo) :=
  inferInstanceAs (Decidable (_ = true))

/-- The repository that an input concerns, and what it amounts to there. -/
def target (d : Reconciler) : Input → Option (Ident × Deed)
  | .load => some (d.subject, .reopen)
  | .switchTo subject => if subject = d.subject then none else some (subject, .reopen)
  | .refresh => some (d.subject, .refresh)
  | .startSync => some (d.subject, .startSync)
  | .loadMore => some (d.subject, .loadMore)
  | .event (.syncProgress p) =>
    if p.repoId = d.subject then some (d.subject, .observe p.isRunning) else none
  | .event (.auditProgress p) => if p.repoId = d.subject then some (d.subject, .report p) else none
  | .event (.auditUpdate p) => if p.repoId = d.subject then some (d.subject, .refresh) else none
  | .event (.contractProgress _) | .event (.build _) | .event (.other _) => none
  | .completion (.page fetch result) =>
    if d.Knows fetch.repoId then some (fetch.repoId, .page fetch result) else none
  | .completion (.sync repo result) =>
    if d.Knows repo then some (repo, .sync repo result) else none
  | .completion (.projects _) => none

/-- Whether an input asks for the project list. -/
def asksProjects : Input → Bool
  | .load | .event (.build _) => true
  | .event (.contractProgress p) => p.isFinal
  | _ => false

/-- What an input does to the gate of the project list, and whether a fetch of it goes out. -/
def stepProjects (d : Reconciler) : Input → Gate × Bool
  | .completion (.projects _) => d.projectsGate.settle
  | i => if asksProjects i then d.projectsGate.request else (d.projectsGate, false)

/-! ### States of repositories -/

theorem repo_of_find? {d : Reconciler} {repo : Ident} {s : RepoState}
    (h : d.repos.find? repo = some s) : d.repo repo = s := by
  simp [Reconciler.repo, h]

@[simp] theorem repo_setRepo_self (d : Reconciler) (id : Ident) (s : RepoState) :
    (d.setRepo id s).repo id = s := by
  simp [Reconciler.repo, setRepo]

theorem repo_setRepo_of_ne (d : Reconciler) {id repo : Ident} (s : RepoState) (h : repo ≠ id) :
    (d.setRepo id s).repo repo = d.repo repo := by
  simp [Reconciler.repo, setRepo, Table.find?_put_of_ne d.repos s h]

/-- Setting a state changes that of one repository only. -/
theorem repo_setRepo (d : Reconciler) (id repo : Ident) (s : RepoState) :
    (d.setRepo id s).repo repo = if id = repo then s else d.repo repo := by
  by_cases h : id = repo
  · subst h
    simp
  · rw [if_neg h, repo_setRepo_of_ne d s (Ne.symm h)]

theorem knows_setRepo {d : Reconciler} {id repo : Ident} {s : RepoState} :
    (d.setRepo id s).Knows repo ↔ id = repo ∨ d.Knows repo := by
  by_cases h : id = repo
  · subst h
    simp [Knows, setRepo]
  · simp [Knows, setRepo, Table.find?_put_of_ne d.repos s (Ne.symm h), h]

/-- The subject of a new reconciler is known. -/
theorem knows_new (subject : Ident) (pageLimit noticeCapacity : UInt64) :
    (Reconciler.new subject pageLimit noticeCapacity).Knows subject := by
  simp [Knows, Reconciler.new]

/-- Setting the state that a known repository has changes nothing. -/
theorem setRepo_repo {d : Reconciler} {id : Ident} (h : d.Knows id) :
    d.setRepo id (d.repo id) = d := by
  obtain ⟨s, hs⟩ := Option.isSome_iff_exists.1 h
  rw [setRepo, repo_of_find? hs, Table.put_of_find? hs]

/-! ### What a step does -/

/-- What is sent for the repository that an input concerns. -/
def sent (d : Reconciler) (target : Option (Ident × Deed)) : List Request :=
  target.elim [] fun p => ((d.repo p.1).act p.2).2

/-- The part of a target that falls to a repository. -/
def share (target : Option (Ident × Deed)) (repo : Ident) : Option Deed :=
  target.bind fun p => if p.1 = repo then some p.2 else none

/-- A step that does a deed at one repository, or none at any, and asks for something besides. -/
structure Does (d : Reconciler) (target : Option (Ident × Deed)) (asked : List Request)
    (next : Reconciler × List Request) : Prop where
  repo : ∀ r, next.1.repo r = ((d.repo r).follow (share target r)).1
  requests : next.2 = d.sent target ++ asked
  knows : ∀ r, d.Knows r → next.1.Knows r
  knows_sent : ∀ p ∈ target, d.sent target ≠ [] → next.1.Knows p.1
  pageLimit : next.1.pageLimit = d.pageLimit

/-- A target at one repository leaves the others alone. -/
theorem follow_share (d : Reconciler) (id r : Ident) (a : Deed) :
    ((d.repo r).follow (share (some (id, a)) r)).1 =
      if id = r then ((d.repo id).act a).1 else d.repo r := by
  by_cases h : id = r
  · subst h
    simp [share]
  · simp [share, h]

/-- Only the states, the page size and the requests count for what a step does. -/
theorem Does.congr {d : Reconciler} {target : Option (Ident × Deed)} {asked more : List Request}
    {next next' : Reconciler × List Request} (h : Does d target asked next)
    (hrepos : next'.1.repos = next.1.repos) (hlimit : next'.1.pageLimit = next.1.pageLimit)
    (hrequests : next'.2 = next.2 ++ more) : Does d target (asked ++ more) next' where
  repo r := by rw [← h.repo r, Reconciler.repo, Reconciler.repo, hrepos, hlimit]
  requests := by rw [hrequests, h.requests, List.append_assoc]
  knows r hr := by simpa only [Knows, hrepos] using h.knows r hr
  knows_sent p hp hne := by simpa only [Knows, hrepos] using h.knows_sent p hp hne
  pageLimit := hlimit.trans h.pageLimit

/-- Changing the state of a repository by a deed does that deed. -/
theorem does_onRepo (d : Reconciler) (id : Ident) {f : RepoState → RepoState × List Request}
    {a : Deed} (h : f (d.repo id) = (d.repo id).act a) :
    Does d (some (id, a)) [] (d.onRepo id f) where
  repo r := by simp only [onRepo, repo_setRepo, follow_share, h]
  requests := by simp [onRepo, sent, h]
  knows r hr := knows_setRepo.2 (.inr hr)
  knows_sent p hp _ := by
    obtain rfl := Option.mem_some.1 hp
    exact knows_setRepo.2 (.inl rfl)
  pageLimit := rfl

/-- A deed without effect is done by leaving everything as it is. -/
theorem does_stay (d : Reconciler) {id : Ident} {a : Deed}
    (h : (d.repo id).act a = (d.repo id, [])) : Does d (some (id, a)) [] (d, []) where
  repo r := by
    rw [follow_share, h]
    split_ifs with hr <;> simp [hr]
  requests := by simp [sent, h]
  knows _ hr := hr
  knows_sent p _ hne := by simp [sent, h] at hne
  pageLimit := rfl

/-- No deed at any repository is done by leaving everything as it is. -/
theorem does_nothing (d : Reconciler) : Does d none [] (d, []) where
  repo _ := rfl
  requests := rfl
  knows _ hr := hr
  knows_sent _ hp := by simp at hp
  pageLimit := rfl

/-- Every state is that of the repository it is kept under. -/
def Named (d : Reconciler) : Prop :=
  ∀ r, (d.repo r).window.repoId = r

/-- A synchronisation is started, or refused with a notice. -/
theorem does_startSync {d : Reconciler} (hd : d.Named) :
    Does d (some (d.subject, .startSync)) [] d.startSync := by
  unfold startSync current
  cases h : (d.repo d.subject).sync.start with
  | error e =>
    have hact : (d.repo d.subject).act .startSync = (d.repo d.subject, []) := by
      simp [RepoState.act, h]
    exact (d.does_stay hact).congr rfl rfl rfl
  | ok sync =>
    have hact : (d.repo d.subject).act .startSync =
        ({ d.repo d.subject with sync := sync }, [.sync d.subject]) := by
      simp [RepoState.act, h, hd d.subject]
    exact d.does_onRepo d.subject (f := fun s => ({ s with sync := sync }, [.sync d.subject]))
      hact.symm

/-- An event that names a repository is a deed there if that is the subject. -/
theorem does_onSubject_if {d : Reconciler} {repo : Ident} {f : RepoState → RepoState × List Request}
    {a : Deed} (h : f (d.repo d.subject) = (d.repo d.subject).act a) :
    Does d (if repo = d.subject then some (d.subject, a) else none) []
      (if repo ≠ d.subject then (d, []) else d.onSubject f) := by
  by_cases hr : repo = d.subject
  · simpa [hr, onSubject] using d.does_onRepo d.subject h
  · simpa [hr] using d.does_nothing

/-- A page is merged, unless the window was reset since it was asked for. -/
theorem does_completePage (d : Reconciler) (f : PageFetch) (result : Except Failure Page) :
    Does d (if d.Knows f.repoId then some (f.repoId, .page f result) else none) []
      (d.completePage f result) := by
  unfold completePage
  cases hf : d.repos.find? f.repoId with
  | none => simpa [Knows, hf] using d.does_nothing
  | some s =>
    obtain rfl := repo_of_find? hf
    have hknown : d.Knows f.repoId := by simp [Knows, hf]
    rw [if_pos hknown]
    dsimp only
    by_cases he : f.epoch = (d.repo f.repoId).epoch
    · have hdo := d.does_onRepo f.repoId (a := .page f result)
        (f := fun s => s.completePage f result) (by simp [RepoState.act, he])
      rw [if_neg (not_not.2 he)]
      cases result with
      | ok page => exact hdo
      | error e => exact hdo.congr rfl rfl (List.append_nil _).symm
    · rw [if_pos he]
      exact d.does_stay (by simp [RepoState.act, he])

/-- The answer to a synchronisation request is taken. -/
theorem does_completeSync (d : Reconciler) (repo : Ident) (result : Except Failure SyncReport) :
    Does d (if d.Knows repo then some (repo, .sync repo result) else none) []
      (d.completeSync repo result) := by
  unfold completeSync
  cases hf : d.repos.find? repo with
  | none => simpa [Knows, hf] using d.does_nothing
  | some s =>
    obtain rfl := repo_of_find? hf
    have hknown : d.Knows repo := by simp [Knows, hf]
    have hdo := d.does_onRepo repo (a := .sync repo result)
      (f := fun s => s.completeSync result) rfl
    rw [if_pos hknown]
    cases result with
    | ok report => exact hdo.congr rfl rfl (List.append_nil _).symm
    | error e => exact hdo.congr rfl rfl (List.append_nil _).symm

/-- The answer to a fetch of the project list settles its gate. -/
theorem stepProjects_of_answered {d : Reconciler} {i : Input} (h : i.answered = some .projects) :
    d.stepProjects i = d.projectsGate.settle := by
  obtain ⟨c, rfl, hc⟩ := Input.exists_of_answered h
  cases c with
  | projects result => rfl
  | page f result => simp [Completion.request] at hc
  | sync repo result => simp [Completion.request] at hc

/-- Any other input asks for the project list or leaves its gate alone. -/
theorem stepProjects_of_answered_ne {d : Reconciler} {i : Input} (h : i.answered ≠ some .projects) :
    d.stepProjects i =
      if asksProjects i then d.projectsGate.request else (d.projectsGate, false) := by
  cases i with
  | completion c =>
    cases c with
    | projects result => exact absurd rfl h
    | page f result => rfl
    | sync repo result => rfl
  | load => rfl
  | switchTo subject => rfl
  | refresh => rfl
  | startSync => rfl
  | loadMore => rfl
  | event e => rfl

/-- The requests for the project list that a step sends. -/
def projectRequests (d : Reconciler) (i : Input) : List Request :=
  if (d.stepProjects i).2 then [.projects] else []

/-- An event does its deed at the subject, and may ask for the project list. -/
theorem does_handle (d : Reconciler) (e : Event) :
    Does d (d.target (.event e)) (d.projectRequests (.event e)) (d.handle e) := by
  cases e with
  | syncProgress p =>
    refine does_onSubject_if ?_
    cases p.isRunning <;> rfl
  | auditProgress p => exact does_onSubject_if rfl
  | auditUpdate p => exact does_onSubject_if rfl
  | contractProgress p =>
    by_cases hp : p.isFinal
    · have hasked : d.projectRequests (.event (.contractProgress p)) = d.requestProjects.2 := by
        simp [projectRequests, stepProjects, asksProjects, requestProjects, hp]
      simp only [handle, hp, if_true, hasked]
      exact d.does_nothing.congr rfl rfl rfl
    · simpa [handle, projectRequests, stepProjects, asksProjects, target, hp] using d.does_nothing
  | build phase => exact d.does_nothing.congr rfl rfl rfl
  | other kind => exact d.does_nothing

/-- Every input does its deed at the repository it concerns, and may ask for the project list. -/
theorem does_step {d : Reconciler} (hd : d.Named) (i : Input) :
    Does d (d.target i) (d.projectRequests i) (d.step i) := by
  cases i with
  | load =>
    have hdo := d.does_onRepo d.subject (f := fun s => s.reset.requestRefresh) (a := .reopen) rfl
    exact hdo.congr rfl rfl rfl
  | switchTo subject =>
    simp only [step, switchTo, target]
    by_cases h : subject = d.subject
    · rw [if_pos h, if_pos h]
      exact d.does_nothing
    · rw [if_neg h, if_neg h]
      have hdo := does_onRepo { d with subject := subject } subject
        (f := fun s => s.reset.requestRefresh) (a := .reopen) rfl
      exact ⟨hdo.repo, hdo.requests, hdo.knows, hdo.knows_sent, hdo.pageLimit⟩
  | refresh => exact d.does_onRepo d.subject (f := RepoState.requestRefresh) (a := .refresh) rfl
  | startSync => exact does_startSync hd
  | loadMore => exact d.does_onRepo d.subject (f := RepoState.requestMore) (a := .loadMore) rfl
  | event e => exact d.does_handle e
  | completion c =>
    cases c with
    | page f result => exact d.does_completePage f result
    | sync repo result => exact d.does_completeSync repo result
    | projects result => cases result <;> exact d.does_nothing.congr rfl rfl rfl

/-- What a step sends is sent by its deed, or asks for the project list. -/
theorem mem_step {d : Reconciler} (hd : d.Named) {i : Input} {q : Request}
    (hq : q ∈ (d.step i).2) :
    q = .projects ∨ ∃ id a, d.target i = some (id, a) ∧ q ∈ ((d.repo id).act a).2 := by
  rw [(does_step hd i).requests] at hq
  rcases List.mem_append.1 hq with hs | hp
  · right
    cases ht : d.target i with
    | none => simp [ht, sent] at hs
    | some p =>
      rw [ht] at hs
      exact ⟨p.1, p.2, rfl, hs⟩
  · left
    simp only [projectRequests] at hp
    split_ifs at hp
    · exact List.mem_singleton.1 hp
    · simp at hp

/-- The subject after an input. -/
def nextSubject (d : Reconciler) : Input → Ident
  | .switchTo subject => subject
  | .load | .refresh | .startSync | .loadMore | .event _ | .completion _ => d.subject

/-- An input moves the subject as `nextSubject` says and the gate of the project list as
`stepProjects` does. -/
theorem control_step (d : Reconciler) (i : Input) :
    (d.step i).1.subject = d.nextSubject i ∧
      (d.step i).1.projectsGate = (d.stepProjects i).1 := by
  cases i with
  | load => exact ⟨rfl, rfl⟩
  | switchTo subject =>
    simp only [step, switchTo]
    split_ifs with h
    · exact ⟨h.symm, rfl⟩
    · exact ⟨rfl, rfl⟩
  | refresh => exact ⟨rfl, rfl⟩
  | startSync =>
    simp only [step, startSync]
    split <;> exact ⟨rfl, rfl⟩
  | loadMore => exact ⟨rfl, rfl⟩
  | event e =>
    cases e with
    | syncProgress p =>
      simp only [step, handle]
      split <;> exact ⟨rfl, rfl⟩
    | auditProgress p =>
      simp only [step, handle]
      split <;> exact ⟨rfl, rfl⟩
    | auditUpdate p =>
      simp only [step, handle]
      split <;> exact ⟨rfl, rfl⟩
    | contractProgress p =>
      cases hp : p.isFinal <;>
        simp [step, handle, nextSubject, stepProjects, asksProjects, requestProjects, hp]
    | build phase => exact ⟨rfl, rfl⟩
    | other kind => exact ⟨rfl, rfl⟩
  | completion c =>
    cases c with
    | page f result =>
      simp only [step, complete, completePage]
      split
      · exact ⟨rfl, rfl⟩
      · split
        · exact ⟨rfl, rfl⟩
        · cases result <;> exact ⟨rfl, rfl⟩
    | sync repo result =>
      simp only [step, complete, completeSync]
      split
      · exact ⟨rfl, rfl⟩
      · cases result <;> exact ⟨rfl, rfl⟩
    | projects result => cases result <;> exact ⟨rfl, rfl⟩

/-- The subject after an input was the subject before, or the input opens it. -/
theorem share_of_subject_step {d : Reconciler} {i : Input} {repo : Ident}
    (h : (d.step i).1.subject = repo) :
    share (d.target i) repo = some .reopen ∨ d.subject = repo := by
  rw [(d.control_step i).1] at h
  cases i with
  | switchTo subject =>
    obtain rfl : subject = repo := h
    by_cases hs : subject = d.subject
    · exact .inr hs.symm
    · left
      simp [target, share, hs]
  | load => exact .inr h
  | refresh => exact .inr h
  | startSync => exact .inr h
  | loadMore => exact .inr h
  | event e => exact .inr h
  | completion c => exact .inr h

/-- Whether an input opens a repository, again or by a switch to it from another one. -/
def opens (d : Reconciler) (repo : Ident) : Input → Bool
  | .load => d.subject = repo
  | .switchTo subject => subject ≠ d.subject ∧ subject = repo
  | .refresh | .startSync | .loadMore | .event _ | .completion _ => false

/-- A deed falls to the one repository that the target names. -/
theorem share_eq_some_iff {target : Option (Ident × Deed)} {repo : Ident} {a : Deed} :
    share target repo = some a ↔ target = some (repo, a) := by
  cases target with
  | none => simp [share]
  | some p => simp [share, Prod.ext_iff]

/-- What opens a repository amounts to its deed of reopening. -/
theorem opens_iff {d : Reconciler} {repo : Ident} {i : Input} :
    d.opens repo i ↔ d.target i = some (repo, .reopen) := by
  cases i with
  | load => simp [opens, target]
  | switchTo subject => simp [opens, target]
  | refresh => simp [opens, target]
  | startSync => simp [opens, target]
  | loadMore => simp [opens, target]
  | event e => cases e <;> simp [opens, target]
  | completion c => cases c <;> simp [opens, target]

end Reconciler

end LiveAudit
