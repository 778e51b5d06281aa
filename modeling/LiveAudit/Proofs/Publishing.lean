import LiveAudit.Proofs.Notices
import LiveAudit.Proofs.Settling

/-!
# What a session publishes

The views that a session publishes (`Traffic.views`) are those of its reconciler at some moments of
its course (`Traffic.exists_of_mem_views`), and the last of them is the one that is shown
(`Traffic.getLast?_views`). Each shows the end of what had been raised by its moment. So a view that
was published before a notice was raised shows none but earlier ones
(`Traffic.mem_numbered_of_mem_views`), and one that is published afterwards shows the notice until
there have been as many further ones as there is room for (`Traffic.shows_of_mem_publishes`).
-/

namespace LiveAudit

open Loop (Move)

namespace NoticeLog

/-! ### The numbers of those kept -/

section

variable {capacity : Nat} {raised : List (NoticeLevel × String)} {log : NoticeLog} {n : Notice}

theorem seq_of_getElem? {k : Nat} (h : (numbered raised)[k]? = some n) : n.seq = k + 1 := by
  rw [numbered, List.getElem?_mapIdx] at h
  obtain ⟨p, -, rfl⟩ := Option.map_eq_some_iff.1 h
  rfl

/-- The numbers go up. -/
theorem pairwise_numbered (raised : List (NoticeLevel × String)) :
    (numbered raised).Pairwise (·.seq < ·.seq) := by
  refine List.pairwise_map.1 ?_
  rw [map_seq_numbered]
  exact List.pairwise_lt_range'

/-- They are at most as many as have been raised. -/
theorem seq_le_of_mem_numbered (h : n ∈ numbered raised) : n.seq ≤ raised.length := by
  have hseq := List.mem_map_of_mem (f := (·.seq)) h
  rw [map_seq_numbered, List.mem_range'_1] at hseq
  omega

/-- Numbers stay when more is raised. -/
theorem numbered_isPrefix (raised more : List (NoticeLevel × String)) :
    numbered raised <+: numbered (raised ++ more) := by
  rw [numbered, numbered, List.mapIdx_append]
  exact List.prefix_append _ _

/-- What is raised next has the next number. -/
theorem mem_numbered_next (raised : List (NoticeLevel × String)) (p : NoticeLevel × String)
    (more : List (NoticeLevel × String)) :
    ⟨raised.length + 1, p.1, p.2⟩ ∈ numbered (raised ++ p :: more) := by
  have hfirst := numbered_isPrefix (raised ++ [p]) more
  rw [List.append_assoc, numbered_concat] at hfirst
  exact hfirst.subset (by simp)

/-- Those that have been raised are kept until there have been as many further ones as there is room
for. -/
theorem Ends.mem_kept_iff (h : Ends capacity raised log) :
    n ∈ log.kept ↔ n ∈ numbered raised ∧ raised.length < n.seq + capacity := by
  rw [h.kept_eq]
  constructor
  · intro hn
    obtain ⟨k, hk⟩ := List.mem_iff_getElem?.1 hn
    rw [List.getElem?_drop] at hk
    have hseq := seq_of_getElem? hk
    exact ⟨List.mem_of_getElem? hk, by omega⟩
  · rintro ⟨hn, hroom⟩
    obtain ⟨k, hk⟩ := List.mem_iff_getElem?.1 hn
    have hseq := seq_of_getElem? hk
    refine List.mem_iff_getElem?.2 ⟨k - (raised.length - capacity), ?_⟩
    rw [List.getElem?_drop, ← hk]
    congr 1
    omega

theorem Ends.pairwise_kept (h : Ends capacity raised log) : log.kept.Pairwise (·.seq < ·.seq) := by
  rw [h.kept_eq]
  exact (pairwise_numbered raised).sublist (List.drop_sublist _ _)

/-- A notice is kept until there have been as many further ones as there is room for. -/
theorem Ends.mem_kept_of_later {p : NoticeLevel × String} {more : List (NoticeLevel × String)}
    (h : Ends capacity (raised ++ p :: more) log) :
    ⟨raised.length + 1, p.1, p.2⟩ ∈ log.kept ↔ more.length < capacity := by
  rw [h.mem_kept_iff, and_iff_right (mem_numbered_next raised p more), List.length_append,
    List.length_cons]
  dsimp only
  omega

/-- It or a later one is kept in any case. -/
theorem Ends.exists_later {p : NoticeLevel × String} {more : List (NoticeLevel × String)}
    (h : Ends capacity (raised ++ p :: more) log) (hroom : 0 < capacity) :
    ∃ n ∈ log.kept, raised.length < n.seq := by
  rcases List.eq_nil_or_concat more with rfl | ⟨more, q, rfl⟩
  · exact ⟨_, h.mem_kept_of_later.2 hroom, Nat.lt_succ_self _⟩
  · have hlast : raised ++ p :: (more.concat q) = (raised ++ p :: more) ++ [q] := by simp
    rw [hlast] at h
    refine ⟨_, h.mem_kept_of_later.2 hroom, ?_⟩
    rw [List.length_append, List.length_cons]
    dsimp only
    omega

end

end NoticeLog

namespace Loop

/-! ### One move -/

/-- The notice that a move raises: the one of the message that the loop takes. -/
def raises (l : Loop) (v : Move) : Option (NoticeLevel × String) :=
  ((l.taken v).bind Message.input?).bind l.session.reconciler.raises

/-- The view that a move publishes: the one shown after it, if it is another than before. -/
def publishes (l : Loop) (v : Move) : Option View :=
  if (l.step v).1.session.published = l.session.published then none
  else some (l.step v).1.session.published

/-- A move pushes the notice that it raises. -/
theorem notices_step (l : Loop) (v : Move) :
    (l.step v).1.session.reconciler.notices =
      (l.raises v).elim l.session.reconciler.notices fun n =>
        l.session.reconciler.notices.push n.1 n.2 := by
  cases ht : l.taken v with
  | none =>
    rw [(waits_step ht).reconciler, raises, ht]
    rfl
  | some m =>
    obtain ⟨-, -, hnext⟩ := taken_eq_some ht
    rw [step_of_taken ht, Session.begin_eq hnext, raises, ht, Option.bind_some]
    cases m.input? with
    | none => rfl
    | some i => exact (l.session.reconciler.records_step i).1

theorem published_step (l : Loop) (v : Move) :
    (l.step v).1.session.published = (l.publishes v).getD l.session.published := by
  unfold publishes
  split_ifs with h
  · exact h
  · rfl

/-- What is published is the view of the reconciler, by the loop when it is done with a message. -/
theorem eq_view_of_publishes {l : Loop} {v : Move} {w : View} (h : l.publishes v = some w) :
    v = .finish ∧ w = (l.step v).1.session.reconciler.view := by
  obtain ⟨hchanged, hshown⟩ := Option.ite_none_left_eq_some.1 h
  obtain rfl := Option.some.inj hshown
  have hfinish : v = .finish := by
    by_contra hv
    cases ht : l.taken v with
    | none => exact hchanged ((waits_step ht).published hv)
    | some m => exact hchanged (by rw [step_of_taken ht]; rfl)
  subst hfinish
  refine ⟨rfl, ?_⟩
  cases hi : l.inHand.bind Message.input? with
  | some i =>
    simp only [step, hi]
    rw [Session.publish_eq]
  | none => exact absurd (by simp only [step, hi]) hchanged

/-- No notice is raised by a move that publishes a view. -/
theorem raises_of_publishes {l : Loop} {v : Move} {w : View} (h : l.publishes v = some w) :
    l.raises v = none := by
  obtain ⟨rfl, -⟩ := eq_view_of_publishes h
  rfl

end Loop

namespace Traffic

/-! ### The views of a course -/

/-- The views that are published in a course of moves, with the one that is shown before it. -/
def views (t : Traffic Loop) (moves : List Move) : List View :=
  t.state.session.published :: t.collect Loop.publishes moves

theorem views_append (t : Traffic Loop) (past rest : List Move) :
    t.views (past ++ rest) = t.views past ++ (t.run past).collect Loop.publishes rest := by
  rw [views, collect_append]
  rfl

/-- The last of them is the one that is shown. -/
theorem getLast?_views (t : Traffic Loop) (moves : List Move) :
    (t.views moves).getLast? = some (t.run moves).state.session.published := by
  induction moves using List.reverseRecOn with
  | nil => rfl
  | append_singleton moves v ih =>
    have hshown : ((t.run moves).next v).state.session.published =
        ((t.run moves).state.publishes v).getD (t.run moves).state.session.published :=
      Loop.published_step _ v
    rw [views_append, collect_cons, run_concat, hshown, List.getLast?_append, ih]
    cases (t.run moves).state.publishes v <;> rfl

section

variable (subject : Ident) (settings : Settings)

/-- After any course of moves the notices kept are the end of those raised in it. -/
theorem ends_opened (moves : List Move) :
    NoticeLog.Ends (max settings.noticeCapacity.toNat 1)
      ((opened subject settings).collect Loop.raises moves)
      ((opened subject settings).run moves).state.session.reconciler.notices :=
  ends_run (fun l : Loop => l.session.reconciler.notices) Loop.notices_step
    (t := opened subject settings) (NoticeLog.ends_new settings.noticeCapacity) moves

/-- Every view that is published, and the first one, is the view of the reconciler at some
moment. -/
theorem exists_of_mem_views {moves : List Move} {w : View}
    (h : w ∈ (opened subject settings).views moves) : ∃ before after, moves = before ++ after ∧
      w = ((opened subject settings).run before).state.session.reconciler.view := by
  rcases List.mem_cons.1 h with rfl | hlater
  · exact ⟨[], moves, rfl, fresh_opened subject settings rfl⟩
  · obtain ⟨before, v, after, rfl, hv⟩ := exists_of_mem_collect hlater
    obtain ⟨-, rfl⟩ := Loop.eq_view_of_publishes hv
    exact ⟨before ++ [v], after, by simp, by rw [run_concat]; rfl⟩

/-- It shows notices in the order of their numbers, -/
theorem pairwise_of_mem_views {moves : List Move} {w : View}
    (h : w ∈ (opened subject settings).views moves) : w.notices.Pairwise (·.seq < ·.seq) := by
  obtain ⟨before, -, -, rfl⟩ := exists_of_mem_views subject settings h
  exact (ends_opened subject settings before).pairwise_kept

/-- and none but those that have been raised. -/
theorem mem_numbered_of_mem_views {moves : List Move} {w : View}
    (h : w ∈ (opened subject settings).views moves) {n : Notice} (hn : n ∈ w.notices) :
    n ∈ NoticeLog.numbered ((opened subject settings).collect Loop.raises moves) := by
  obtain ⟨before, after, rfl, rfl⟩ := exists_of_mem_views subject settings h
  have hraised := ((ends_opened subject settings before).mem_kept_iff.1 hn).1
  rw [collect_append]
  exact (NoticeLog.numbered_isPrefix _ _).subset hraised

end

/-- A view that is published after a move that raises a notice is the one shown, and that of the
reconciler, at some later moment. -/
theorem exists_of_mem_publishes {t : Traffic Loop} {v : Move} {rest : List Move} {w : View}
    (hv : t.state.raises v ≠ none) (hw : w ∈ t.collect Loop.publishes (v :: rest)) :
    ∃ between after, rest = between ++ after ∧
      w = ((t.next v).run between).state.session.published ∧
      w = ((t.next v).run between).state.session.reconciler.view := by
  obtain ⟨before, u, after, hsplit, hu⟩ := exists_of_mem_collect hw
  cases before with
  | nil =>
    -- the move itself raises a notice, so that it does not publish
    obtain ⟨rfl, -⟩ := List.cons.inj hsplit
    exact absurd (Loop.raises_of_publishes hu) hv
  | cons v' before =>
    obtain ⟨rfl, rfl⟩ := List.cons.inj hsplit
    refine ⟨before ++ [u], after, by simp, ?_, ?_⟩
    · rw [run_concat]
      exact ((Loop.published_step _ u).trans (by rw [← run_cons, hu]; rfl)).symm
    · rw [run_concat]
      exact (Loop.eq_view_of_publishes hu).2

/-- A view that is published after a notice was raised shows it until there have been as many
further notices as there is room for, and always shows it or a later one. -/
theorem shows_of_mem_publishes {subject : Ident} {settings : Settings} {past rest : List Move}
    {v : Move} {p : NoticeLevel × String}
    (hp : ((opened subject settings).run past).state.raises v = some p) {w : View}
    (hw : w ∈ ((opened subject settings).run past).collect Loop.publishes (v :: rest)) :
    let t := opened subject settings
    let n : Notice := ⟨(t.collect Loop.raises past).length + 1, p.1, p.2⟩
    ∃ between after, rest = between ++ after ∧
      w = (t.run (past ++ v :: between)).state.session.published ∧
      (n ∈ w.notices ↔ ((t.run (past ++ [v])).collect Loop.raises between).length <
        max settings.noticeCapacity.toNat 1) ∧
      ∃ n' ∈ w.notices, n.seq ≤ n'.seq := by
  intro t n
  obtain ⟨between, after, rfl, hshown, hview⟩ := exists_of_mem_publishes (by simp [hp]) hw
  have hmoment : t.run (past ++ v :: between) = ((t.run past).next v).run between :=
    run_append t past (v :: between)
  have hraised : t.collect Loop.raises (past ++ v :: between) =
      t.collect Loop.raises past ++ p :: (t.run (past ++ [v])).collect Loop.raises between := by
    rw [collect_append, collect_cons, hp, run_concat]
    rfl
  have hends := ends_opened subject settings (past ++ v :: between)
  change NoticeLog.Ends _ (t.collect _ _) (t.run _).state.session.reconciler.notices at hends
  rw [hraised, hmoment] at hends
  refine ⟨between, after, rfl, hshown.trans (by rw [hmoment]), ?_, ?_⟩
  · rw [hview]
    exact hends.mem_kept_of_later
  · rw [hview]
    exact hends.exists_later (by omega)

end Traffic

end LiveAudit
