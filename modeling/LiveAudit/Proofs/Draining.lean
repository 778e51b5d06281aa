import LiveAudit.Proofs.Coalescing

/-!
# Answers come to an end

An answer may itself make a request go out: the fetch that waits at a gate follows the one that is
settled, and a synchronisation that succeeds asks for a refresh. So the number of requests that are
out need not fall when one is answered. What falls is `Traffic.debt`, which also counts the fetches
that wait, and each synchronisation request once more for the refresh it may lead to
(`Traffic.debt_next`).

When nothing but answers comes, there can therefore be only so many of them, and once none can come
any more nothing is in flight anywhere (`Traffic.drained_run`).
-/

namespace LiveAudit

open Reconciler (Input)

/-- Whether a request is for a synchronisation. -/
def Request.isSync : Request → Bool
  | .sync _ => true
  | .page _ => false
  | .projects => false

/-- Every request can be answered. -/
theorem Request.exists_completion (q : Request) : ∃ c : Completion, c.request = q := by
  cases q with
  | page f => exact ⟨.page f (.error (.transport "")), rfl⟩
  | sync repo => exact ⟨.sync repo (.error (.transport "")), rfl⟩
  | projects => exact ⟨.projects (.ok []), rfl⟩

/-- Putting another value under a key moves the number of values of some kind by what the two are
worth. -/
theorem Table.countP_put {κ α : Type} [DecidableEq κ] {t : Table κ α} {key : κ} {old : α}
    (h : t.find? key = some old) (a : α) (p : α → Bool) :
    (t.put key a).entries.countP (fun e => p e.2) + (p old).toNat =
      t.entries.countP (fun e => p e.2) + (p a).toNat := by
  obtain ⟨entries⟩ := t
  simp only [find?, put] at h ⊢
  induction entries with
  | nil => simp at h
  | cons e rest ih =>
    obtain ⟨k, b⟩ := e
    by_cases hk : k = key
    · rw [List.find?_cons_of_pos (by simp [hk])] at h
      obtain rfl := Option.some.inj h
      simp only [putEntry, if_pos hk, List.countP_cons]
      cases p b <;> cases p a <;> simp
    · rw [List.find?_cons_of_neg (by simp [hk])] at h
      have hrest := ih h
      simp only [putEntry, if_neg hk, List.countP_cons]
      omega

/-! ### What an answer does -/

/-- A deed that answers a request sends refreshes only. -/
theorem RepoState.isRefresh_of_answered {s : RepoState} {a : Deed} {q : Request}
    (ha : a.answered = some q) : ∀ q' ∈ (s.act a).2, q'.isRefresh := by
  have hrequest : ∀ (s : RepoState), ∀ q' ∈ s.requestRefresh.2, q'.isRefresh := by
    intro s q' hq'
    rw [mem_requestRefresh hq']
    rfl
  intro q' hq'
  cases a with
  | page f result =>
    by_cases he : f.epoch = s.epoch
    · rw [act_page_of_eq he, completePage_eq] at hq'
      cases hr : f.reason with
      | loadMore => simp [hr, settleFetch_loadMore] at hq'
      | refresh =>
        rw [hr, settleFetch_refresh] at hq'
        split_ifs at hq'
        · exact hrequest _ q' hq'
        · simp at hq'
    · simp [act_page_of_ne he] at hq'
  | sync repo result =>
    cases result with
    | ok report => exact hrequest _ q' hq'
    | error e => simp [act, completeSync_error] at hq'
  | reopen => simp [Deed.answered] at ha
  | refresh => simp [Deed.answered] at ha
  | loadMore => simp [Deed.answered] at ha
  | startSync => simp [Deed.answered] at ha
  | observe running => simp [Deed.answered] at ha
  | report p => simp [Deed.answered] at ha

namespace Reconciler

/-- The number of fetches that wait: of refreshes, and of the project list. -/
def trailing (d : Reconciler) : Nat :=
  d.repos.entries.countP (fun e => e.2.refresh.trailing) + d.projectsGate.trailing.toNat

/-- What an answer amounts to is an answer at a known repository, and asks for a refresh at most if
it is one to a synchronisation request. -/
theorem target_completion {d : Reconciler} {c : Completion} {id : Ident} {a : Deed}
    (h : d.target (.completion c) = some (id, a)) :
    d.Knows id ∧ a.answered = some c.request ∧ a.asks.toNat ≤ c.request.isSync.toNat := by
  cases c with
  | page f result =>
    obtain ⟨hknown, hpair⟩ := Option.ite_none_right_eq_some.1 h
    obtain ⟨rfl, rfl⟩ := Prod.mk.inj (Option.some.inj hpair)
    exact ⟨hknown, rfl, Nat.le_refl _⟩
  | sync r result =>
    obtain ⟨hknown, hpair⟩ := Option.ite_none_right_eq_some.1 h
    obtain ⟨rfl, rfl⟩ := Prod.mk.inj (Option.some.inj hpair)
    exact ⟨hknown, rfl, Bool.toNat_le _⟩
  | projects result => simp [target] at h

/-- An answer sets the state of the repository that it concerns, and no other. -/
theorem repos_complete (d : Reconciler) (c : Completion) :
    (d.complete c).1.repos = (d.target (.completion c)).elim d.repos fun p =>
      d.repos.put p.1 ((d.repo p.1).act p.2).1 := by
  cases c with
  | page f result =>
    simp only [complete, completePage]
    cases hf : d.repos.find? f.repoId with
    | none => simp [target, Knows, hf]
    | some s =>
      obtain rfl := repo_of_find? hf
      have hknown : d.Knows f.repoId := by simp [Knows, hf]
      rw [show d.target (.completion (.page f result)) = some (f.repoId, .page f result) from
        if_pos hknown, Option.elim_some]
      by_cases he : f.epoch = (d.repo f.repoId).epoch
      · rw [RepoState.act_page_of_eq he]
        cases result <;> simp [he, setRepo, notify]
      · rw [RepoState.act_page_of_ne he]
        simp [he, Table.put_of_find? hf]
  | sync r result =>
    simp only [complete, completeSync]
    cases hf : d.repos.find? r with
    | none => simp [target, Knows, hf]
    | some s =>
      obtain rfl := repo_of_find? hf
      have hknown : d.Knows r := by simp [Knows, hf]
      rw [show d.target (.completion (.sync r result)) = some (r, .sync r result) from
        if_pos hknown, Option.elim_some]
      cases result <;> rfl
  | projects result => cases result <;> rfl

/-- At the repositories, an answer to a synchronisation request makes at most one refresh more go
out or wait, and no other answer does. -/
theorem sent_complete_le {d : Reconciler} {c : Completion} :
    (d.sent (d.target (.completion c))).length +
        (d.complete c).1.repos.entries.countP (fun e => e.2.refresh.trailing) ≤
      d.repos.entries.countP (fun e => e.2.refresh.trailing) + c.request.isSync.toNat := by
  rw [repos_complete]
  cases ht : d.target (.completion c) with
  | none => simp [sent]
  | some p =>
    obtain ⟨id, a⟩ := p
    obtain ⟨hknown, hanswered, hasks⟩ := target_completion ht
    obtain ⟨s, hs⟩ := Option.isSome_iff_exists.1 hknown
    obtain rfl := repo_of_find? hs
    have hserves := ((d.repo id).serves_act a).bounded
    have hsent := List.countP_eq_length.2 ((d.repo id).isRefresh_of_answered hanswered)
    have hput := Table.countP_put hs ((d.repo id).act a).1 fun s => s.refresh.trailing
    simp only [sent, Option.elim_some] at hserves hput ⊢
    omega

/-- An answer sends at most what has waited, and one refresh more if it is to a synchronisation
request. -/
theorem trailing_complete {d : Reconciler} (hd : d.Named) (c : Completion) :
    (d.step (.completion c)).2.length + (d.step (.completion c)).1.trailing ≤
      d.trailing + c.request.isSync.toNat := by
  have hrepos := d.sent_complete_le (c := c)
  have hprojects := (d.serves_projects hd (.completion c)).bounded
  have hlength : (d.projectRequests (.completion c)).length =
      (d.step (.completion c)).2.count .projects := by
    rw [Traffic.count_projects_step hd, projectRequests]
    split_ifs with h <;> simp [h]
  rw [show asksProjects (.completion c) = false from rfl, Bool.toNat_false] at hprojects
  rw [(d.does_step hd (.completion c)).requests, List.length_append, hlength]
  simp only [trailing, step] at hprojects hrepos ⊢
  omega

/-- No answer makes a synchronisation request go out. -/
theorem isSync_complete {d : Reconciler} (hd : d.Named) (c : Completion) :
    (d.step (.completion c)).2.countP Request.isSync = 0 := by
  refine List.countP_eq_zero.2 fun q hq => ?_
  rcases mem_step hd hq with rfl | ⟨id, a, ht, hsent⟩
  · simp [Request.isSync]
  · have hrefresh := (d.repo id).isRefresh_of_answered (target_completion ht).2.1 q hsent
    cases q <;> simp_all [Request.isSync, Request.isRefresh]

/-- Nothing is in flight, for any repository or for the project list, and none is shown to be. -/
structure Idle (d : Reconciler) : Prop where
  refreshes : ∀ repo, (d.repo repo).refresh.inFlight = false
  mores : ∀ repo, (d.repo repo).loadMore = none
  syncs : ∀ repo, (d.repo repo).sync.requestInFlight = false
  projects : d.projectsGate.inFlight = false
  busy : d.view.busy = false

end Reconciler

/-! ### Runs of answers -/

namespace Traffic

/-- A bound on the answers that can still come when nothing else does. -/
def debt (t : Traffic Reconciler) : Nat :=
  t.out.length + t.state.trailing + t.out.countP Request.isSync

/-- Every answer takes something off the debt. -/
theorem debt_next {t : Traffic Reconciler} (hs : t.Sound) {c : Completion}
    (hc : t.Admits (Input.completion c)) : (t.next (Input.completion c)).debt + 1 ≤ t.debt := by
  have hout : t.out.Perm (c.request :: t.out.erase c.request) :=
    List.perm_cons_erase (hc _ rfl)
  have hlength := hout.length_eq
  have hsyncs := hout.countP_eq Request.isSync
  have hnew := t.state.trailing_complete hs.named c
  have hnone := t.state.isSync_complete hs.named c
  have hnext : (t.next (Input.completion c)).out =
      t.out.erase c.request ++ (t.state.step (.completion c)).2 := rfl
  have hstate : (t.next (Input.completion c)).state = (t.state.step (.completion c)).1 := rfl
  rw [List.length_cons] at hlength
  simp only [debt, hnext, hstate, List.length_append, List.countP_append, hnone]
  cases hq : c.request.isSync with
  | false =>
    rw [List.countP_cons_of_neg (by simp [hq])] at hsyncs
    rw [hq, Bool.toNat_false] at hnew
    omega
  | true =>
    rw [List.countP_cons_of_pos hq] at hsyncs
    rw [hq, Bool.toNat_true] at hnew
    omega

/-- In a run of answers there are no more of them than the debt. -/
theorem debt_run {t : Traffic Reconciler} (hs : t.Sound) {answers : List Completion}
    (hl : t.Lawful (answers.map Input.completion)) :
    answers.length + (t.run (answers.map Input.completion)).debt ≤ t.debt := by
  induction answers generalizing t with
  | nil => simp
  | cons c rest ih =>
    have hfirst := debt_next hs hl.1
    have hrest := ih (hs.next _) hl.2
    rw [List.length_cons, List.map_cons, run_cons]
    omega

/-- Where no answer can come, nothing is out. -/
theorem out_eq_nil {t : Traffic Reconciler}
    (h : ∀ c : Completion, ¬t.Admits (Input.completion c)) : t.out = [] := by
  refine List.eq_nil_iff_forall_not_mem.2 fun q hq => ?_
  obtain ⟨c, rfl⟩ := q.exists_completion
  exact h c (admits_of_mem rfl hq)

/-- While nothing is out, nothing is in flight. -/
theorem Accounted.idle {t : Traffic Reconciler} (h : t.Accounted) (hout : t.out = []) :
    t.state.Idle where
  refreshes repo := by
    have hgate := h.refreshes repo
    simpa [fetches, hout] using hgate.symm
  mores repo := by
    have hmore := h.mores repo
    cases hk : (t.state.repo repo).loadMore with
    | none => rfl
    | some offset => simp [fetches, hout, hk] at hmore
  syncs repo := by
    have hsync := h.syncs repo
    simpa [hout] using hsync.symm
  projects := by
    have hgate := h.projects
    simpa [hout] using hgate.symm
  busy := by
    rw [Bool.eq_false_iff, ne_eq, h.busy]
    simp [hout]

/-- Wherever a run has come to, if nothing but answers comes from then on, to requests that are out
or that the answers make go out, then there are no more of them than requests out, fetches waiting
and synchronisation requests out; and once no answer can come any more, nothing is in flight. -/
theorem drained_run (subject : Ident) (pageLimit noticeCapacity : UInt64) {past : List Input}
    {answers : List Completion} :
    let t := (start (Reconciler.new subject pageLimit noticeCapacity)).run past
    let t' := t.run (answers.map Input.completion)
    (start (Reconciler.new subject pageLimit noticeCapacity)).Lawful past →
    t.Lawful (answers.map Input.completion) →
    answers.length ≤ t.out.length + t.state.trailing + t.out.countP Request.isSync ∧
      ((∀ c : Completion, ¬t'.Admits (Input.completion c)) → t'.state.Idle) := by
  intro t t' hpast hanswers
  have hs : t.Sound := (sound_start subject pageLimit noticeCapacity).run past
  refine ⟨Nat.le_trans (Nat.le_add_right _ _) (debt_run hs hanswers), fun hnone => ?_⟩
  have hall := accounted_run subject pageLimit noticeCapacity
    (lawful_append.2 ⟨hpast, hanswers⟩)
  rw [run_append] at hall
  exact hall.idle (out_eq_nil hnone)

/-- Three requests are out, one of them for a synchronisation, and two fetches wait: six answers
come before nothing is in flight, and no bound below six would do. -/
theorem drained_run_six :
    let past : List Input := [.load, .startSync, .refresh, .event (.build .started)]
    let answers : List Completion := [.page ⟨"r", 0, 2, .refresh, 1⟩ (.ok ⟨[], 0⟩),
      .projects (.ok []), .sync "r" (.ok ⟨1, 0⟩),
      .page ⟨"r", 0, 2, .refresh, 1⟩ (.error (.transport "timeout")),
      .projects (.error (.transport "timeout")), .page ⟨"r", 0, 2, .refresh, 1⟩ (.ok ⟨[], 0⟩)]
    let t := (start (Reconciler.new "r" 2 4)).run past
    let t' := t.run (answers.map Input.completion)
    t.Lawful (answers.map Input.completion) ∧
      answers.length = t.out.length + t.state.trailing + t.out.countP Request.isSync ∧
      t'.state.Idle := by
  intro past answers t t'
  have hpast : (start (Reconciler.new "r" 2 4)).Lawful past := by decide
  have hanswers : t.Lawful (answers.map Input.completion) := by decide
  have hout : t'.out = [] := by decide
  obtain ⟨-, hidle⟩ := drained_run "r" 2 4 hpast hanswers
  refine ⟨hanswers, by decide, hidle fun c hc => ?_⟩
  have hmem : c.request ∈ t'.out := hc _ rfl
  rw [hout] at hmem
  exact List.not_mem_nil hmem

end Traffic

end LiveAudit
