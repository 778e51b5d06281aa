import LiveAudit.Proofs.InFlight
import LiveAudit.Proofs.Loop

/-!
# Settling

A session has settled at a barrier when the barrier is reached and the published view is not busy.
Whoever sees this may be late: the loop may have a message in hand by then whose requests are out
already. But there was a moment, since the barrier was set, when everything queued before had been
handled and every request that was ever sent had been answered (`Traffic.settled_run`).

Behind this is that the messages which the loop takes are a lawful run of the reconciler
(`Traffic.mirrors_run`), and that the reconciler of a session never leaves its subject, so that busy
tells of everything that is out (`Reconciler.Undivided.out_eq_nil`).
-/

namespace LiveAudit

open Reconciler (Input share)
open Loop (Move)

/-! ### One subject -/

/-- Every request is made for the subject, and every fetch is of its present generation. -/
structure Reconciler.Undivided (d : Reconciler) (out : List Request) : Prop where
  pages : ∀ f, .page f ∈ out → f.repoId = d.subject ∧ f.epoch = d.current.epoch
  syncs : ∀ repo, .sync repo ∈ out → repo = d.subject

namespace Reconciler

/-- What a step sends is so if its deed is done at the repository that is the subject then. -/
theorem undivided_step {d : Reconciler} (hd : d.Named) {i : Input}
    (h : ∀ p ∈ d.target i, p.1 = (d.step i).1.subject) :
    (d.step i).1.Undivided (d.step i).2 := by
  constructor
  · intro f hf
    obtain ⟨id, a, ht, hact⟩ := (mem_step hd hf).resolve_left (by simp)
    obtain rfl : id = (d.step i).1.subject := h _ ht
    have hconcerns := Traffic.concerns_sent hd _ a _ hact
    refine ⟨by simpa [Request.concerns] using hconcerns, ?_⟩
    rw [current, (d.does_step hd i).repo, share_eq_some_iff.2 ht]
    exact RepoState.epoch_of_mem_act hact
  · intro repo hrepo
    obtain ⟨id, a, ht, hact⟩ := (mem_step hd hrepo).resolve_left (by simp)
    obtain rfl : id = (d.step i).1.subject := h _ ht
    have hconcerns := Traffic.concerns_sent hd _ a _ hact
    simpa [Request.concerns] using hconcerns

/-- An answer to a request that is made for the subject is a deed there, and so is any other input
that opens nothing. -/
theorem Undivided.target_eq {t : Traffic Reconciler} (h : t.state.Undivided t.out) {i : Input}
    (hi : t.Admits i) (hopens : ∀ repo, t.state.opens repo i = false) {id : Ident} {a : Deed}
    (ht : t.state.target i = some (id, a)) : id = t.state.subject ∧ a ≠ .reopen := by
  have hne : a ≠ .reopen := by
    rintro rfl
    have hopen := opens_iff.2 ht
    rw [hopens] at hopen
    exact Bool.false_ne_true hopen
  refine ⟨?_, hne⟩
  cases i with
  | load => exact (Prod.mk.inj (Option.some.inj ht)).1.symm
  | switchTo subject =>
    obtain ⟨-, hpair⟩ := Option.ite_none_left_eq_some.1 ht
    exact absurd (Prod.mk.inj (Option.some.inj hpair)).2.symm hne
  | refresh => exact (Prod.mk.inj (Option.some.inj ht)).1.symm
  | startSync => exact (Prod.mk.inj (Option.some.inj ht)).1.symm
  | loadMore => exact (Prod.mk.inj (Option.some.inj ht)).1.symm
  | event e =>
    cases e <;> simp only [target, Option.ite_none_right_eq_some, Option.some.injEq, Prod.mk.injEq,
      reduceCtorEq] at ht
    · exact ht.2.1.symm
    · exact ht.2.1.symm
    · exact ht.2.1.symm
  | completion c =>
    cases c with
    | page f result =>
      obtain ⟨-, hpair⟩ := Option.ite_none_right_eq_some.1 ht
      obtain ⟨rfl, -⟩ := Prod.mk.inj (Option.some.inj hpair)
      exact (h.pages f (hi _ rfl)).1
    | sync repo result =>
      obtain ⟨-, hpair⟩ := Option.ite_none_right_eq_some.1 ht
      obtain ⟨rfl, -⟩ := Prod.mk.inj (Option.some.inj hpair)
      exact h.syncs repo (hi _ rfl)
    | projects result => simp [target] at ht

/-- It stays so after every input that opens nothing. -/
theorem Undivided.next {t : Traffic Reconciler} (h : t.state.Undivided t.out) (hs : t.Sound)
    {i : Input} (hi : t.Admits i) (hopens : ∀ repo, t.state.opens repo i = false) :
    (t.next i).state.Undivided (t.next i).out := by
  have hsubject : (t.next i).state.subject = t.state.subject := by
    rcases share_of_subject_step (d := t.state) (i := i) rfl with hshare | hsame
    · exact absurd rfl (h.target_eq hi hopens (share_eq_some_iff.1 hshare)).2
    · exact hsame.symm
  have hepoch : (t.next i).state.current.epoch = t.state.current.epoch := by
    rw [current, hsubject, hs.repo_next]
    cases hshare : share (t.state.target i) t.state.subject with
    | none => rfl
    | some a =>
      exact RepoState.epoch_act (h.target_eq hi hopens (share_eq_some_iff.1 hshare)).2
  have hnew : (t.next i).state.Undivided (t.state.step i).2 :=
    undivided_step hs.named fun p hp => (h.target_eq hi hopens hp).1.trans hsubject.symm
  constructor
  · intro f hf
    rcases Traffic.mem_out_next hf with hold | hsent
    · rw [hsubject, hepoch]
      exact h.pages f hold
    · exact hnew.pages f hsent
  · intro repo hrepo
    rcases Traffic.mem_out_next hrepo with hold | hsent
    · rw [hsubject]
      exact h.syncs repo hold
    · exact hnew.syncs repo hsent

/-- It is so in every run of inputs that open nothing. -/
theorem Undivided.run {t : Traffic Reconciler} (h : t.state.Undivided t.out) (hs : t.Sound)
    {inputs : List Input} (hl : t.Lawful inputs)
    (hopens : ∀ i ∈ inputs, ∀ (d : Reconciler) (repo : Ident), d.opens repo i = false) :
    (t.run inputs).state.Undivided (t.run inputs).out := by
  have hrun : (t.run inputs).Sound ∧ (t.run inputs).state.Undivided (t.run inputs).out :=
    Traffic.run_induction
      (P := fun t : Traffic Reconciler => t.Sound ∧ t.state.Undivided t.out)
      (fun t i ⟨hs, h⟩ hi hopen => ⟨hs.next i, h.next hs hi (hopen t.state)⟩) ⟨hs, h⟩ hl hopens
  exact hrun.2

/-- When busy is not shown then, nothing at all is out. -/
theorem Undivided.out_eq_nil {t : Traffic Reconciler} (h : t.state.Undivided t.out)
    (ha : t.Accounted) (hidle : t.state.view.busy = false) : t.out = [] := by
  refine List.eq_nil_iff_forall_not_mem.2 fun q hq => ?_
  refine Bool.eq_false_iff.1 hidle (ha.busy.2 ?_)
  cases q with
  | page f => exact .inl ⟨f, hq, h.pages f hq⟩
  | sync repo => exact .inr (.inl (h.syncs repo hq ▸ hq))
  | projects => exact .inr (.inr hq)

end Reconciler

namespace Traffic

/-! ### What the loop tells the reconciler -/

/-- The reconciler of a session is one that takes inputs. A request is out for it until its answer
is taken from the queue; answers that come to a closed session are never taken, so that more may be
out for it. -/
structure Mirrors (t : Traffic Loop) (r : Traffic Reconciler) : Prop where
  reconciler : t.state.session.reconciler = r.state
  unsent : t.state.session.unsent = []
  out : (t.out ++ t.state.session.queue.filterMap Message.request?).Subperm r.out

/-- A request that is answered goes from those that are out to the queue, or is lost. -/
theorem subperm_queued {out : List Request} {queue : List Message} {answered : Option Request}
    {queued : Option Message} (hout : ∀ q ∈ answered, q ∈ out)
    (hqueued : ∀ m, queued = some m → answered = m.request?) :
    (answered.elim out out.erase ++ (queue ++ queued.toList).filterMap Message.request?).Subperm
      (out ++ queue.filterMap Message.request?) := by
  rw [List.filterMap_append]
  cases queued with
  | none =>
    rw [Option.toList_none, List.filterMap_nil, List.append_nil]
    cases answered with
    | none => exact List.Subperm.refl _
    | some q => exact (List.erase_subperm q out).append (List.Subperm.refl _)
  | some m =>
    obtain rfl := hqueued m rfl
    cases hq : m.request? with
    | none =>
      rw [Option.toList_some, List.filterMap_cons_none hq, List.filterMap_nil, List.append_nil]
      exact List.Subperm.refl _
    | some q =>
      have hone : [m].filterMap Message.request? = [q] := by simp [hq]
      have hperm : out.Perm (q :: out.erase q) := List.perm_cons_erase (hout q hq)
      rw [Option.toList_some, hone, ← List.append_assoc]
      exact ((List.perm_append_singleton q _).trans (hperm.append_right _).symm).subperm

/-- The request that the first message in the queue answers goes off with it. -/
theorem subperm_taken {out requests : List Request} {m : Message} {queue : List Message}
    (h : (out ++ (m :: queue).filterMap Message.request?).Subperm requests) :
    (∀ q ∈ m.request?, q ∈ requests) ∧ (out ++ queue.filterMap Message.request?).Subperm
      (m.request?.elim requests requests.erase) := by
  cases hm : m.request? with
  | none =>
    rw [List.filterMap_cons_none hm] at h
    exact ⟨by simp, h⟩
  | some q =>
    rw [List.filterMap_cons_some hm] at h
    have hfront := List.perm_middle.symm.subperm.trans h
    have hrest := hfront.erase q
    rw [List.erase_cons_head] at hrest
    refine ⟨fun q' hq' => ?_, hrest⟩
    obtain rfl := Option.some.inj hq'
    exact hfront.subset List.mem_cons_self

namespace Mirrors

variable {t : Traffic Loop} {r : Traffic Reconciler} {v : Move}

/-- Where no message is taken, the reconciler is told nothing. -/
theorem waits (h : t.Mirrors r) (hv : t.Admits v) (ht : t.state.taken v = none) :
    (t.next v).Mirrors r := by
  have hwaits : t.state.Waits v (t.state.step v) := Loop.waits_step ht
  refine ⟨hwaits.reconciler.trans h.reconciler, hwaits.unsent.trans h.unsent, ?_⟩
  refine List.Subperm.trans ?_ h.out
  change ((v.answered.elim t.out t.out.erase ++ (t.state.step v).2) ++
    (t.state.step v).1.session.queue.filterMap Message.request?).Subperm _
  rw [hwaits.requests, hwaits.queue, List.append_nil]
  exact subperm_queued hv fun m hm => Loop.answered_of_queued hm

/-- A message that is taken tells the reconciler what it says. -/
theorem takes (h : t.Mirrors r) {m : Message} (ht : t.state.taken v = some m) :
    r.Lawful m.input?.toList ∧ (t.next v).Mirrors (r.run m.input?.toList) ∧
      (t.state.step v).2 = r.sent m.input?.toList := by
  obtain ⟨rfl, -, hnext⟩ := Loop.taken_eq_some ht
  have hstep := Loop.step_of_taken ht
  have hfirst := h.out
  rw [Session.queue_of_next hnext] at hfirst
  obtain ⟨hmem, hfewer⟩ := subperm_taken hfirst
  rw [Session.begin_eq hnext, h.unsent, List.nil_append, h.reconciler] at hstep
  have hout : (t.next Move.take).out = t.out ++ (t.state.step .take).2 := rfl
  have hstate : (t.next Move.take).state = (t.state.step .take).1 := rfl
  rw [hstep] at hout hstate
  rw [hstep]
  cases hi : m.input? with
  | none =>
    have hq : m.request? = none := by rw [← m.answered_input?, hi]; rfl
    rw [hi] at hout hstate
    rw [hq] at hfewer
    refine ⟨trivial, ⟨by rw [hstate]; rfl, by rw [hstate], ?_⟩, rfl⟩
    rw [hout, hstate]
    simpa [Reconciler.follow] using hfewer
  | some i =>
    have hq : Dialogue.answered i = m.request? := by rw [← m.answered_input?, hi]; rfl
    rw [← hq] at hmem hfewer
    rw [hi] at hout hstate
    refine ⟨⟨hmem, trivial⟩, ⟨by rw [hstate]; rfl, by rw [hstate], ?_⟩, (List.append_nil _).symm⟩
    rw [hout, hstate, List.append_assoc]
    refine (List.perm_append_comm.append_left t.out).subperm.trans ?_
    rw [← List.append_assoc]
    exact hfewer.append (List.Subperm.refl _)

end Mirrors

/-- What the messages tell the reconciler that the loop takes. -/
def told (t : Traffic Loop) (moves : List Move) : List Input :=
  (t.collect Loop.taken moves).filterMap Message.input?

/-- The messages that the loop takes are a lawful run of the reconciler, and what it sends is
sent. -/
theorem mirrors_run {t : Traffic Loop} {r : Traffic Reconciler} (h : t.Mirrors r)
    {moves : List Move} (hl : t.Lawful moves) :
    r.Lawful (t.told moves) ∧ (t.run moves).Mirrors (r.run (t.told moves)) ∧
      t.sent moves = r.sent (t.told moves) := by
  induction moves generalizing t r with
  | nil => exact ⟨trivial, h, rfl⟩
  | cons v rest ih =>
    have htold : t.told (v :: rest) =
        (t.state.taken v).toList.filterMap Message.input? ++ (t.next v).told rest := by
      rw [told, collect_cons, List.filterMap_append]
      rfl
    rw [htold, run_cons, sent_cons]
    cases ht : t.state.taken v with
    | none =>
      obtain ⟨hlawful, hmirrors, hsent⟩ := ih (h.waits hl.1 ht) hl.2
      have hnone : (t.state.step v).2 = [] := (Loop.waits_step ht).requests
      refine ⟨hlawful, hmirrors, ?_⟩
      change (t.state.step v).2 ++ _ = _
      rw [hnone, hsent]
      rfl
    | some m =>
      obtain ⟨hnow, hnext, hsends⟩ := h.takes ht
      obtain ⟨hlawful, hmirrors, hsent⟩ := ih hnext hl.2
      have hone : [m].filterMap Message.input? = m.input?.toList := by
        cases hi : m.input? <;> simp [hi]
      rw [Option.toList_some, hone, lawful_append, run_append, sent_append, ← hsent, ← hsends]
      exact ⟨⟨hnow, hlawful⟩, hmirrors, rfl⟩

/-! ### Settling -/

/-- A session that is opened, with the requests that it begins with out. -/
def opened (subject : Ident) (settings : Settings) : Traffic Loop where
  state := ⟨(Session.start subject settings).takeRequests.2, none⟩
  out := (Session.start subject settings).takeRequests.1

/-- A moment at which nothing is left to be done of what had been queued at an earlier one, and
nothing to be answered. -/
structure Quiet (t : Traffic Loop) (past moves : List Move) : Prop where
  free : (t.run moves).state.inHand = none
  /-- Every message that had joined the queue has been taken. -/
  handled : t.collect Loop.queued past <+: t.collect Loop.taken moves
  /-- Every request that was ever sent has been answered by a message that was taken. -/
  answered : (t.out ++ t.sent moves).Perm
    ((t.collect Loop.taken moves).filterMap Message.request?)
  /-- No request is out, -/
  none_out : (t.run moves).out = []
  /-- and no answer waits in the queue. -/
  none_queued : ∀ m ∈ (t.run moves).state.session.queue, m.request? = none

section

variable (subject : Ident) (settings : Settings)

/-- The reconciler of an opened session, with its first requests out. -/
def loaded : Traffic Reconciler :=
  (start (Reconciler.new subject settings.pageLimit settings.noticeCapacity)).next Input.load

theorem mirrors_opened : (opened subject settings).Mirrors (loaded subject settings) :=
  ⟨rfl, rfl, (List.append_nil _).symm ▸ List.Subperm.refl _⟩

theorem fresh_opened : (opened subject settings).state.Fresh := fun _ => rfl

theorem undivided_loaded :
    (loaded subject settings).state.Undivided (loaded subject settings).out := by
  have hs := sound_start subject settings.pageLimit settings.noticeCapacity
  refine Reconciler.undivided_step hs.named (i := .load) fun p hp => ?_
  obtain rfl := Option.some.inj hp
  exact (Reconciler.control_step _ .load).1.symm

variable {subject settings}

/-- Whenever the view of the reconciler is not busy, none of its requests is out. -/
theorem out_eq_nil_of_not_busy {moves : List Move} (hl : (opened subject settings).Lawful moves)
    (hidle : ((opened subject settings).run moves).state.session.reconciler.view.busy = false) :
    ((loaded subject settings).run ((opened subject settings).told moves)).out = [] := by
  obtain ⟨hlawful, hmirrors, -⟩ := mirrors_run (mirrors_opened subject settings) hl
  have hs := sound_start subject settings.pageLimit settings.noticeCapacity
  have hundivided := (undivided_loaded subject settings).run (hs.next _) hlawful
    fun i hi d repo => by
      obtain ⟨m, -, hm⟩ := List.mem_filterMap.1 hi
      exact m.opens_input? hm d repo
  have hall : (start (Reconciler.new subject settings.pageLimit settings.noticeCapacity)).Lawful
      (Input.load :: (opened subject settings).told moves) := ⟨admits_of_none rfl, hlawful⟩
  have haccounted := accounted_run subject settings.pageLimit settings.noticeCapacity hall
  rw [hmirrors.reconciler] at hidle
  exact hundivided.out_eq_nil haccounted hidle

/-- The answers that the reconciler was told are those that the loop took. -/
theorem answered_told (t : Traffic Loop) (moves : List Move) :
    (t.told moves).filterMap Dialogue.answered =
      (t.collect Loop.taken moves).filterMap Message.request? := by
  rw [told, List.filterMap_filterMap]
  exact congrArg (List.filterMap · _) (funext Message.answered_input?)

/-- A moment at which no message is in hand and the published view is not busy is quiet for all that
the loop has taken by then. -/
theorem quiet_of_not_busy {past moves : List Move} (hl : (opened subject settings).Lawful moves)
    (hfree : ((opened subject settings).run moves).state.inHand = none)
    (hhandled : (opened subject settings).collect Loop.queued past <+:
      (opened subject settings).collect Loop.taken moves)
    (hidle : ((opened subject settings).run moves).state.session.published.busy = false) :
    (opened subject settings).Quiet past moves := by
  have hfresh := fresh_run (fresh_opened subject settings) moves (by rw [hfree]; rfl)
  rw [hfresh] at hidle
  have hnil := out_eq_nil_of_not_busy hl hidle
  obtain ⟨hlawful, hmirrors, hsent⟩ := mirrors_run (mirrors_opened subject settings) hl
  have hout := hmirrors.out
  rw [hnil] at hout
  obtain ⟨hnone, hqueue⟩ := List.append_eq_nil_iff.1 (List.subperm_nil.1 hout)
  refine ⟨hfree, hhandled, ?_, hnone, List.filterMap_eq_nil_iff.1 hqueue⟩
  have hperm := perm_sent hlawful
  rw [hnil, List.append_nil, answered_told, ← hsent] at hperm
  exact hperm

end

/-- What is published is the view of the reconciler whenever no message is in hand. And when someone
who has set a barrier sees it reached and a view that is not busy, there was a moment since then at
which everything queued before the barrier had been handled, every request that was ever sent had
been answered, and nothing was out or queued. -/
theorem settled_run (subject : Ident) (settings : Settings) :
    let t := opened subject settings
    (∀ moves : List Move, (t.run moves).state.inHand = none →
      (t.run moves).state.session.published = (t.run moves).state.session.reconciler.view) ∧
    ∀ past rest : List Move, t.Lawful (past ++ .await :: rest) →
      (t.run (past ++ .await :: rest)).state.session.settledAt
        (t.run past).state.session.setBarrier.2 →
      ∃ before after, rest = before ++ after ∧ t.Quiet past (past ++ .await :: before) := by
  intro t
  refine ⟨fun moves hfree => fresh_run (fresh_opened subject settings) moves (by rw [hfree]; rfl),
    fun past rest hl hsettled => ?_⟩
  obtain ⟨hreached, hidle⟩ : (t.run past).state.session.barriers <
      (t.run (past ++ .await :: rest)).state.session.reached ∧
      (t.run (past ++ .await :: rest)).state.session.published.busy = false := by
    simpa [Session.settledAt, Session.setBarrier, Nat.succ_le_iff] using hsettled
  obtain ⟨before, after, rfl, hfree, hsame, hhandled⟩ :=
    exists_handled_of_reached (t := t) rfl rfl hreached
  have hsplit : past ++ .await :: (before ++ after) = (past ++ .await :: before) ++ after := by simp
  have hlawful : t.Lawful (past ++ .await :: before) := by
    rw [hsplit] at hl
    exact (lawful_append.1 hl).1
  exact ⟨before, after, rfl, quiet_of_not_busy hlawful hfree hhandled (hsame ▸ hidle)⟩

/-- Someone who looks late: a malformed event waits before the barrier, the first answers come, and
by the time the session is seen to have settled the loop has taken a refresh whose request is
out. -/
theorem settled_run_late :
    let t := opened "r" ⟨none, 2, 30, 4⟩
    let past : List Move := [.event ⟨"audit_update", .null⟩]
    let rest : List Move := [.take, .finish, .answer (.page ⟨"r", 0, 2, .refresh, 1⟩ (.ok ⟨[], 0⟩)),
      .answer (.projects (.ok [])), .take, .finish, .take, .finish, .take, .finish, .refresh, .take]
    t.Lawful (past ++ .await :: rest) ∧
      (t.run (past ++ .await :: rest)).state.session.settledAt
        (t.run past).state.session.setBarrier.2 ∧
      (t.run (past ++ .await :: rest)).out ≠ [] ∧
      ∃ before after, rest = before ++ after ∧ t.Quiet past (past ++ .await :: before) := by
  intro t past rest
  have hl : t.Lawful (past ++ .await :: rest) := by decide
  have hsettled : (t.run (past ++ .await :: rest)).state.session.settledAt
      (t.run past).state.session.setBarrier.2 := by decide
  obtain ⟨-, hquiet⟩ := settled_run "r" ⟨none, 2, 30, 4⟩
  refine ⟨hl, hsettled, by decide, ?_⟩
  with_reducible exact hquiet past rest hl hsettled

end Traffic

end LiveAudit
