import Mathlib.Data.List.Induction
import LiveAudit.Proofs.Records

/-!
# The latest notices

Of all notices that a run raises (`Traffic.collect` of `Reconciler.raises`) the latest are kept, as
many as there is room for, under the numbers in which they arose (`NoticeLog.Ends`). A notice that
is pushed keeps this up, and nothing else ever touches the notices; so what is shown at any moment
is the end of the full record (`Traffic.noticed_run`). Which inputs raise one, and of which level,
is told by `Reconciler.Alerts`.
-/

namespace LiveAudit

open Reconciler (Input)

namespace NoticeLog

/-- Notices under consecutive numbers from one on. -/
def numbered (raised : List (NoticeLevel × String)) : List Notice :=
  raised.mapIdx fun k n => ⟨k + 1, n.1, n.2⟩

@[simp] theorem length_numbered (raised : List (NoticeLevel × String)) :
    (numbered raised).length = raised.length :=
  List.length_mapIdx

theorem numbered_concat (raised : List (NoticeLevel × String)) (n : NoticeLevel × String) :
    numbered (raised ++ [n]) = numbered raised ++ [⟨raised.length + 1, n.1, n.2⟩] :=
  List.mapIdx_concat

/-- They are numbered from one on, -/
theorem map_seq_numbered (raised : List (NoticeLevel × String)) :
    (numbered raised).map (·.seq) = List.range' 1 raised.length := by
  induction raised using List.reverseRecOn with
  | nil => rfl
  | append_singleton raised n ih =>
    rw [numbered_concat, List.map_append, ih, List.length_append, List.length_singleton,
      List.range'_1_concat, List.map_singleton, Nat.add_comm]

/-- and each is what was raised. -/
theorem map_raised_numbered (raised : List (NoticeLevel × String)) :
    (numbered raised).map (fun n => (n.level, n.message)) = raised := by
  refine List.ext_getElem (by simp) fun k _ _ => ?_
  simp [numbered]

/-- There is room for so many, and those kept are the last of all that were raised. -/
structure Ends (capacity : Nat) (raised : List (NoticeLevel × String)) (log : NoticeLog) :
    Prop where
  capacity_eq : log.capacity = capacity
  raised_eq : log.raised = raised.length
  kept_eq : log.kept = (numbered raised).drop (raised.length - capacity)

theorem ends_new (capacity : UInt64) : Ends (max capacity.toNat 1) [] (NoticeLog.new capacity) :=
  ⟨rfl, rfl, List.drop_nil.symm⟩

section

variable {capacity : Nat} {raised : List (NoticeLevel × String)} {log : NoticeLog}

/-- A notice that is pushed is the last one, and the oldest that is kept gives way if there is no
room for both. -/
theorem Ends.push (h : Ends capacity raised log) (level : NoticeLevel) (message : String) :
    Ends capacity (raised ++ [(level, message)]) (log.push level message) := by
  refine ⟨h.capacity_eq, ?_, ?_⟩
  · rw [List.length_append, ← h.raised_eq]
    rfl
  · have hall : log.kept ++ [⟨log.raised + 1, level, message⟩] =
        (numbered (raised ++ [(level, message)])).drop (raised.length - capacity) := by
      rw [numbered_concat, List.drop_append_of_le_length (by simp), h.kept_eq, h.raised_eq]
    change (log.kept ++ [_]).drop ((log.kept ++ [_]).length - log.capacity) = _
    rw [hall, h.capacity_eq, List.drop_drop, List.length_drop, length_numbered, List.length_append,
      List.length_singleton]
    congr 1
    omega

/-- Of those kept, the numbers follow one another up to that of the last notice, and each is what
was raised. -/
theorem Ends.kept (h : Ends capacity raised log) :
    let count := min raised.length capacity
    log.kept.map (fun n => (n.level, n.message)) = raised.drop (raised.length - count) ∧
      log.kept.map (·.seq) = List.range' (raised.length - count + 1) count := by
  intro count
  have hsame : raised.length - capacity = raised.length - count := by omega
  rw [h.kept_eq, hsame, List.map_drop, List.map_drop, map_raised_numbered, map_seq_numbered,
    List.drop_range']
  refine ⟨rfl, ?_⟩
  congr 1 <;> omega

end

end NoticeLog

namespace Reconciler

/-! ### What raises a notice -/

/-- The inputs that raise a notice of a level: a synchronisation that is asked for and refused, a
page fetch of the present generation that has failed, a synchronisation of a known repository that
has ended either way, and a list of projects that could not be had. -/
inductive Alerts (d : Reconciler) : Input → NoticeLevel → Prop
  | refused (h : (d.step .startSync).2 = []) : Alerts d .startSync .error
  | pageFailed (f : PageFetch) (e : Failure) (hknown : d.Knows f.repoId)
      (hpresent : f.epoch = (d.repo f.repoId).epoch) :
      Alerts d (.completion (.page f (.error e))) .error
  | synced (repo : Ident) (report : SyncReport) (hknown : d.Knows repo) :
      Alerts d (.completion (.sync repo (.ok report))) .info
  | syncFailed (repo : Ident) (e : Failure) (hknown : d.Knows repo) :
      Alerts d (.completion (.sync repo (.error e))) .error
  | projectsFailed (e : Failure) : Alerts d (.completion (.projects (.error e))) .error

/-- A synchronisation that is asked for is refused just when the tracker refuses it. -/
theorem raises_startSync (d : Reconciler) :
    d.raises .startSync = if (d.step .startSync).2 = [] then
      some (.error, (Failure.alreadyRunning d.current.sync.repoId).message) else none := by
  simp only [raises, step, startSync_eq, SyncTracker.start_eq]
  by_cases h : d.current.sync.state = .running ∨ d.current.sync.requestInFlight
  · rw [if_pos h, if_pos h, if_pos rfl]
  · rw [if_neg h, if_neg h, if_neg (List.cons_ne_nil _ _)]

/-- A notice that a completion raises is of a failure, or of a synchronisation that has ended. -/
theorem alerts_of_raises_completion {d : Reconciler} {c : Completion} {level : NoticeLevel}
    {message : String} (h : d.raises (.completion c) = some (level, message)) :
    d.Alerts (.completion c) level := by
  cases c with
  | page f result =>
    cases result with
    | ok page => cases h
    | error e =>
      obtain ⟨⟨hknown, hpresent⟩, hsame⟩ := Option.ite_none_right_eq_some.1 h
      obtain ⟨rfl, -⟩ := Prod.mk.inj (Option.some.inj hsame)
      exact .pageFailed f e hknown hpresent
  | sync repo result =>
    cases result with
    | ok report =>
      obtain ⟨hknown, hsame⟩ := Option.ite_none_right_eq_some.1 h
      obtain ⟨rfl, -⟩ := Prod.mk.inj (Option.some.inj hsame)
      exact .synced repo report hknown
    | error e =>
      obtain ⟨hknown, hsame⟩ := Option.ite_none_right_eq_some.1 h
      obtain ⟨rfl, -⟩ := Prod.mk.inj (Option.some.inj hsame)
      exact .syncFailed repo e hknown
  | projects result =>
    cases result with
    | ok projects => cases h
    | error e =>
      obtain ⟨rfl, -⟩ := Prod.mk.inj (Option.some.inj h)
      exact .projectsFailed e

/-- These and no others raise one. -/
theorem exists_raises_iff {d : Reconciler} {i : Input} {level : NoticeLevel} :
    (∃ message, d.raises i = some (level, message)) ↔ d.Alerts i level := by
  constructor
  · rintro ⟨message, h⟩
    cases i with
    | startSync =>
      rw [raises_startSync] at h
      split_ifs at h with hrefused
      obtain ⟨rfl, -⟩ := Prod.mk.inj (Option.some.inj h)
      exact .refused hrefused
    | completion c => exact alerts_of_raises_completion h
    | load => cases h
    | switchTo subject => cases h
    | refresh => cases h
    | loadMore => cases h
    | event e => cases h
  · intro h
    cases h with
    | refused h => exact ⟨_, by rw [raises_startSync, if_pos h]⟩
    | pageFailed f e hknown hpresent => exact ⟨_, if_pos ⟨hknown, hpresent⟩⟩
    | synced repo report hknown => exact ⟨_, if_pos hknown⟩
    | syncFailed repo e hknown => exact ⟨_, if_pos hknown⟩
    | projectsFailed e => exact ⟨_, rfl⟩

/-- An input that raises no notice leaves the notices as they are. -/
theorem notices_step_of_not_alerts {d : Reconciler} {i : Input} (h : ∀ level, ¬ d.Alerts i level) :
    (d.step i).1.notices = d.notices := by
  have hnone : d.raises i = none := by
    refine Option.eq_none_iff_forall_not_mem.2 fun n hn => ?_
    exact h n.1 (exists_raises_iff.1 ⟨n.2, hn⟩)
  rw [(d.records_step i).1, hnone]
  rfl

end Reconciler

namespace Traffic

/-! ### The record of a run -/

/-- Where every input pushes the notice that it raises, what is kept stays the end of what was
raised. -/
theorem ends_run {ι σ : Type} [Dialogue ι σ] {f : σ → ι → Option (NoticeLevel × String)}
    (log : σ → NoticeLog) (hpush : ∀ s (i : ι), log (Dialogue.step s i).1 =
      (f s i).elim (log s) fun n => (log s).push n.1 n.2)
    {t : Traffic σ} {capacity : Nat} {raised : List (NoticeLevel × String)}
    (h : NoticeLog.Ends capacity raised (log t.state)) (inputs : List ι) :
    NoticeLog.Ends capacity (raised ++ t.collect f inputs) (log (t.run inputs).state) := by
  induction inputs generalizing t raised with
  | nil => simpa [collect] using h
  | cons i rest ih =>
    have hnext : NoticeLog.Ends capacity (raised ++ (f t.state i).toList)
        (log (t.next i).state) := by
      change NoticeLog.Ends capacity _ (log (Dialogue.step t.state i).1)
      rw [hpush]
      cases f t.state i with
      | none => rwa [Option.toList_none, List.append_nil]
      | some n => exact h.push n.1 n.2
    rw [collect_cons, ← List.append_assoc]
    exact ih hnext

/-- After any run the notices that are shown are the last of all that it has raised, as many as
there is room for, under consecutive numbers of which the last is the number of all. Those inputs
raise one, each of its level, that are told by `Reconciler.Alerts`, and no other input touches the
notices. -/
theorem noticed_run (subject : Ident) (pageLimit noticeCapacity : UInt64) (inputs : List Input) :
    let t := start (Reconciler.new subject pageLimit noticeCapacity)
    let raised := t.collect Reconciler.raises inputs
    let kept := (t.run inputs).state.view.notices
    let count := min raised.length (max noticeCapacity.toNat 1)
    kept.map (fun n => (n.level, n.message)) = raised.drop (raised.length - count) ∧
      kept.map (·.seq) = List.range' (raised.length - count + 1) count ∧
      (∀ (d : Reconciler) (i : Input) (level : NoticeLevel),
        (∃ message, d.raises i = some (level, message)) ↔ d.Alerts i level) ∧
      ∀ (d : Reconciler) (i : Input), (∀ level, ¬ d.Alerts i level) →
        (d.step i).1.notices = d.notices := by
  intro t raised kept count
  have hends : NoticeLog.Ends (max noticeCapacity.toNat 1) ([] ++ raised)
      (t.run inputs).state.notices :=
    ends_run Reconciler.notices (fun d i => (d.records_step i).1)
      (NoticeLog.ends_new noticeCapacity) inputs
  obtain ⟨hkept, hseq⟩ := hends.kept
  exact ⟨hkept, hseq, fun _ _ _ => Reconciler.exists_raises_iff,
    fun _ _ => Reconciler.notices_step_of_not_alerts⟩

/-- There is room for two: of a synchronisation that is refused, a page of an earlier generation
that has failed, a synchronisation that has ended and a list that could not be had, the last two are
kept. -/
theorem noticed_run_evicted :
    let t := start (Reconciler.new "r" 2 2)
    let inputs : List Input := [.load, .startSync, .startSync, .load,
      .completion (.page ⟨"r", 0, 2, .refresh, 1⟩ (.error (.transport "late"))),
      .completion (.sync "r" (.ok ⟨1, 0⟩)),
      .completion (.projects (.error (.transport "none")))]
    let kept := (t.run inputs).state.view.notices
    kept.map (·.seq) = [2, 3] ∧ kept.map (·.level) = [.info, .error] := by
  intro t inputs kept
  obtain ⟨hkept, hseq, -⟩ := noticed_run "r" 2 2 inputs
  have hcount : (t.collect Reconciler.raises inputs).length = 3 := by decide
  have hlevels : (t.collect Reconciler.raises inputs).map (·.1) = [.error, .info, .error] := by
    decide
  refine ⟨?_, ?_⟩
  · rw [hseq, hcount]
    rfl
  · have hfirst : kept.map (·.level) =
        (kept.map fun n => (n.level, n.message)).map (·.1) := by
      rw [List.map_map]
      rfl
    rw [hfirst, hkept, List.map_drop, hlevels, hcount]
    rfl

end Traffic

end LiveAudit
