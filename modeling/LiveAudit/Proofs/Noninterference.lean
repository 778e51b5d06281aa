import LiveAudit.Proofs.History
import LiveAudit.Proofs.RepoTraffic

/-!
# Repositories do not interfere

A repository is touched by commands and events while it is the subject, by a switch to it and by the
answers to its own requests (`Reconciler.involves`). What such an input does there can be read off
the input alone (`Reconciler.Input.deed?`), so the deeds of a repository over a run are told by the
inputs that involve it, in order (`Traffic.deeds_eq`).

Two runs in which the same inputs involve a repository therefore end with it in the same state and
send the same requests for it, whatever else happens in them and in whichever order
(`Traffic.noninterference`).
-/

namespace LiveAudit

open Reconciler (Input share)

deriving instance DecidableEq for Completion
deriving instance DecidableEq for Reconciler.Input

/-! ### Inputs that involve a repository -/

/-- The repository that an event names. -/
def Event.repoId? : Event → Option Ident
  | .syncProgress p => some p.repoId
  | .auditProgress p => some p.repoId
  | .auditUpdate p => some p.repoId
  | .contractProgress _ | .build _ | .other _ => none

/-- What an event does to the repository that it names. -/
def Event.deed? : Event → Option Deed
  | .syncProgress p => some (.observe p.isRunning)
  | .auditProgress p => some (.report p)
  | .auditUpdate _ => some .refresh
  | .contractProgress _ | .build _ | .other _ => none

/-- What an answer does to the repository of its request. -/
def Completion.deed? : Completion → Option Deed
  | .page fetch result => some (.page fetch result)
  | .sync repo result => some (.sync repo result)
  | .projects _ => none

/-- What an input does to a repository that it involves. -/
def Reconciler.Input.deed? : Input → Option Deed
  | .load | .switchTo _ => some .reopen
  | .refresh => some .refresh
  | .startSync => some .startSync
  | .loadMore => some .loadMore
  | .event e => e.deed?
  | .completion c => c.deed?

namespace Reconciler

/-- Whether an input involves a repository: a command, or an event that names it, while it is the
subject, a switch to it from another one, or the answer to a request for it. A switch away from it
is none of these, and neither is one to where it is viewed already. -/
def involves (d : Reconciler) (repo : Ident) : Input → Bool
  | .load | .refresh | .startSync | .loadMore => d.subject = repo
  | .switchTo subject => subject ≠ d.subject ∧ subject = repo
  | .event e => d.subject = repo ∧ e.repoId? = some repo
  | .completion c => c.request.concerns repo

/-- The input, if it involves a repository. -/
def stepAt? (repo : Ident) (d : Reconciler) (i : Input) : Option Input :=
  if d.involves repo i then some i else none

/-- A target at one repository comes to its deed there, and to nothing elsewhere. -/
theorem share_some (id repo : Ident) (a : Deed) :
    share (some (id, a)) repo = if id = repo then some a else none := rfl

/-- An input does its deed at a repository if it involves it. -/
theorem bind_stepAt? (d : Reconciler) (repo : Ident) (i : Input) :
    (d.stepAt? repo i).bind Input.deed? = if d.involves repo i then i.deed? else none := by
  unfold stepAt?
  split_ifs <;> rfl

/-- A command comes to its deed at the subject. -/
theorem share_target_command {d : Reconciler} {i : Input} {a : Deed} {repo : Ident}
    (htarget : d.target i = some (d.subject, a)) (hdeed : i.deed? = some a)
    (hinvolves : d.involves repo i = decide (d.subject = repo)) :
    share (d.target i) repo = (d.stepAt? repo i).bind Input.deed? := by
  rw [htarget, share_some, bind_stepAt?, hdeed, hinvolves]
  simp

/-- An event that names a repository comes to its deed there while that is the subject. -/
theorem share_target_named {d : Reconciler} {e : Event} {r repo : Ident} {a : Deed}
    (htarget : d.target (.event e) = if r = d.subject then some (d.subject, a) else none)
    (hname : e.repoId? = some r) (hdeed : e.deed? = some a) :
    share (d.target (.event e)) repo = (d.stepAt? repo (.event e)).bind Input.deed? := by
  rw [htarget, bind_stepAt?]
  simp only [involves, hname, Input.deed?, hdeed, Option.some.injEq, decide_eq_true_eq]
  by_cases hr : r = d.subject
  · rw [if_pos hr, share_some, hr]
    simp
  · rw [if_neg hr, if_neg fun h => hr (h.2.trans h.1.symm)]
    rfl

/-- An event that names no repository comes to nothing anywhere. -/
theorem share_target_unnamed {d : Reconciler} {e : Event} {repo : Ident}
    (htarget : d.target (.event e) = none) (hname : e.repoId? = none) :
    share (d.target (.event e)) repo = (d.stepAt? repo (.event e)).bind Input.deed? := by
  rw [htarget, bind_stepAt?]
  simp [involves, hname, share]

/-- What the answer to a request for a known repository comes to at a repository. -/
theorem share_target_answer {d : Reconciler} {c : Completion} {id repo : Ident} {a : Deed}
    (htarget : d.target (.completion c) = some (id, a)) (hdeed : c.deed? = some a)
    (hconcerns : c.request.concerns repo = decide (id = repo)) :
    share (d.target (.completion c)) repo = (d.stepAt? repo (.completion c)).bind Input.deed? := by
  rw [htarget, share_some, bind_stepAt?, involves, Input.deed?, hdeed, hconcerns]
  simp

end Reconciler

namespace Traffic

/-- An input that may come amounts to a deed at a repository exactly if it involves it, and the deed
can be read off the input. -/
theorem share_target {t : Traffic Reconciler} (h : t.Sound) {i : Input} (hi : t.Admits i)
    (repo : Ident) :
    share (t.state.target i) repo = (t.state.stepAt? repo i).bind Input.deed? := by
  cases i with
  | load => exact Reconciler.share_target_command rfl rfl rfl
  | switchTo subject =>
    rw [Reconciler.bind_stepAt?]
    by_cases hs : subject = t.state.subject
    · simp [Reconciler.involves, Reconciler.target, share, hs]
    · rw [Reconciler.target, if_neg hs, Reconciler.share_some]
      simp [Reconciler.involves, hs, Input.deed?]
  | refresh => exact Reconciler.share_target_command rfl rfl rfl
  | startSync => exact Reconciler.share_target_command rfl rfl rfl
  | loadMore => exact Reconciler.share_target_command rfl rfl rfl
  | event e =>
    cases e with
    | syncProgress p => exact Reconciler.share_target_named rfl rfl rfl
    | auditProgress p => exact Reconciler.share_target_named rfl rfl rfl
    | auditUpdate p => exact Reconciler.share_target_named rfl rfl rfl
    | contractProgress p => exact Reconciler.share_target_unnamed rfl rfl
    | build phase => exact Reconciler.share_target_unnamed rfl rfl
    | other kind => exact Reconciler.share_target_unnamed rfl rfl
  | completion c =>
    -- requests are out for known repositories only
    have hknown : ∀ r, c.request.concerns r → t.state.Knows r := h.known c.request (hi _ rfl)
    cases c with
    | page f result =>
      have hf : t.state.Knows f.repoId := hknown f.repoId (decide_eq_true rfl)
      exact Reconciler.share_target_answer (if_pos hf) rfl rfl
    | sync r result =>
      have hr : t.state.Knows r := hknown r (decide_eq_true rfl)
      exact Reconciler.share_target_answer (if_pos hr) rfl rfl
    | projects result =>
      rw [Reconciler.bind_stepAt?]
      simp [Reconciler.involves, Reconciler.target, share, Completion.request, Request.concerns]

/-! ### Runs -/

/-- The deeds of a repository in a lawful run are those of the inputs that involve it. -/
theorem deeds_eq {t : Traffic Reconciler} (h : t.Sound) {inputs : List Input}
    (hl : t.Lawful inputs) (repo : Ident) :
    t.deeds repo inputs = (t.collect (Reconciler.stepAt? repo) inputs).filterMap Input.deed? := by
  induction inputs generalizing t with
  | nil => rfl
  | cons i rest ih =>
    rw [deeds, collect_cons, List.filterMap_append, ih (h.next i) hl.2, share_target h hl.1]
    cases t.state.stepAt? repo i <;> rfl

/-- The requests that a run sends for a repository are those that its deeds send there. -/
theorem sent_only {t : Traffic Reconciler} (h : t.Sound) {inputs : List Input}
    (hl : t.Lawful inputs) (repo : Ident) :
    (t.sent inputs).filter (Request.concerns repo) =
      (t.only repo).sent (t.deeds repo inputs) := by
  induction inputs generalizing t with
  | nil => rfl
  | cons i rest ih =>
    have hstep : (Dialogue.step t.state i).2.filter (Request.concerns repo) =
        (t.only repo).sent (share (t.state.target i) repo).toList := by
      refine (filter_step h.named i repo).trans ?_
      cases share (t.state.target i) repo with
      | none => rfl
      | some a => exact (List.append_nil _).symm
    rw [sent_cons, List.filter_append, deeds, sent_append, hstep, ih (h.next i) hl.2,
      only_next h hl.1, run_toList]

/-- Two runs in which the same inputs involve a repository end with it in the same state, and send
the same requests for it in the same order: its window, synchronisation, progress, fetches in flight
and generation are told by these inputs and the page size alone. A repository that was never viewed
is in the state of a fresh one. -/
theorem noninterference (repo : Ident) (pageLimit : UInt64)
    {subject subject' : Ident} {noticeCapacity noticeCapacity' : UInt64}
    {inputs inputs' : List Input} :
    let t := start (Reconciler.new subject pageLimit noticeCapacity)
    let t' := start (Reconciler.new subject' pageLimit noticeCapacity')
    t.Lawful inputs → t'.Lawful inputs' →
    t.collect (Reconciler.stepAt? repo) inputs = t'.collect (Reconciler.stepAt? repo) inputs' →
      (t.run inputs).state.repo repo = (t'.run inputs').state.repo repo ∧
      (t.sent inputs).filter (Request.concerns repo) =
        (t'.sent inputs').filter (Request.concerns repo) := by
  intro t t' hl hl' hsteps
  have hs : t.Sound := sound_start subject pageLimit noticeCapacity
  have hs' : t'.Sound := sound_start subject' pageLimit noticeCapacity'
  have hfresh : t.only repo = t'.only repo := by
    rw [only_start subject repo, only_start subject' repo]
  have hdeeds : t.deeds repo inputs = t'.deeds repo inputs' := by
    rw [deeds_eq hs hl, deeds_eq hs' hl', hsteps]
  constructor
  · calc (t.run inputs).state.repo repo
        = ((t.only repo).run (t.deeds repo inputs)).state :=
          congrArg Traffic.state (only_run hs hl repo).1
      _ = ((t'.only repo).run (t'.deeds repo inputs')).state := by rw [hfresh, hdeeds]
      _ = (t'.run inputs').state.repo repo :=
          congrArg Traffic.state (only_run hs' hl' repo).1.symm
  · rw [sent_only hs hl, sent_only hs' hl', hfresh, hdeeds]

/-- One repository is viewed alone; in another run it is left while its first page is out, the
repository viewed instead is synchronised, and events on the first one come to nothing. Either way
its page comes to the same window and lets the refresh go out that waits behind it. -/
theorem noninterference_left :
    let t := start (Reconciler.new "q" 2 4)
    let t' := start (Reconciler.new "p" 2 1)
    let row : Run := ⟨"a", .pending, none, none, none, none⟩
    let answer := Input.completion (.page ⟨"r", 0, 2, .refresh, 1⟩ (.ok ⟨[row], 1⟩))
    let inputs : List Input := [.switchTo "r", .event (.auditUpdate ⟨"r"⟩), answer]
    let inputs' : List Input := [.load, .event (.syncProgress ⟨"r", "running"⟩), .switchTo "r",
      .event (.auditUpdate ⟨"r"⟩), .switchTo "s", .startSync, .event (.auditUpdate ⟨"r"⟩), answer,
      .completion (.sync "s" (.error (.transport "timeout")))]
    t.Lawful inputs ∧ t'.Lawful inputs' ∧ (t'.run inputs').state.subject = "s" ∧
      (t.run inputs).state.repo "r" = (t'.run inputs').state.repo "r" ∧
      (t.sent inputs).filter (Request.concerns "r") =
        (t'.sent inputs').filter (Request.concerns "r") := by
  intro t t' row answer inputs inputs'
  have hl : t.Lawful inputs := by decide
  have hl' : t'.Lawful inputs' := by decide
  have hsteps : t.collect (Reconciler.stepAt? "r") inputs =
      t'.collect (Reconciler.stepAt? "r") inputs' := by decide
  have hsubject : (t'.run inputs').state.subject = "s" := by decide
  obtain ⟨hstate, hsent⟩ := noninterference "r" 2 hl hl' hsteps
  refine ⟨hl, hl', hsubject, ?_, ?_⟩
  · with_reducible exact hstate
  · with_reducible exact hsent

end Traffic

end LiveAudit
