import LiveAudit.Cli.Ticker
import LiveAudit.Proofs.Publishing

/-!
# What a watch tells

A ticker sees some of the views that a session publishes. What it puts out is said by its reports
(`Ticker.ticks_eq`), one for each view. Since it never tells a notice whose number is not above
those it has told, no notice is told twice; and it tells a notice when it first sees a view that is
published after the notice was raised, or never (`Ticker.mem_told_iff`). So a notice is missed only
if it has been pushed out by then (`Traffic.ticked_run`).
-/

namespace LiveAudit

open Loop (Move)

namespace Json

/-- A number is written as an integer if it is in range. -/
theorem Value.ofNat_eq (n : Nat) : ofNat n = (Whole.ofInt? n).elim .null .integer := by
  -- unfolded as a function, so that the range is not compared with a number
  have hofNat : ofNat = fun n : Nat => (Whole.ofInt? n).elim .null .integer := by
    delta ofNat
    funext n
    cases Whole.ofInt? n <;> rfl
  exact congrFun hofNat n

/-- A number that fits a word is written as itself. -/
theorem Value.ofNat_of_value_eq {n : Nat} {w : Whole} (h : w.value = n) : ofNat n = .integer w := by
  obtain ⟨value, hrange⟩ := w
  obtain rfl : value = n := h
  have hwhole : Whole.ofInt? (n : Int) = some ⟨n, hrange⟩ := dif_pos hrange
  rw [ofNat_eq, hwhole]
  rfl

end Json

namespace Cli

/-! ### Reports -/

/-- The entry that is noted in the journal. -/
def Tick.entry? : Tick → Option Entry
  | .print _ => none
  | .note e => some e

/-- What there is to say of a view. -/
structure Report where
  /-- The status line, if it is another than the one before. -/
  status : Option String
  /-- The notices that were not told before. -/
  notices : List Notice
  /-- The last report, if a synchronisation has come to an end. -/
  ended : Option (Option SyncReport)

/-- Line that tells a notice: its level and its message. -/
def toldLine : Notice → String
  | ⟨_, .info, message⟩ => "info: " ++ message
  | ⟨_, .error, message⟩ => "error: " ++ message

theorem noticeLine_eq_toldLine (n : Notice) : noticeLine n = toldLine n := by
  obtain ⟨seq, level, message⟩ := n
  cases level <;> rfl

/-- What is put out when a report is given: the status line, the notices, each on a line and in an
entry, and an entry for the end of a synchronisation. -/
def Report.ticks (repo : Ident) (r : Report) : List Tick :=
  r.status.toList.map .print ++
    r.notices.flatMap (fun n => [.print (toldLine n), .note (Ticker.noticeEntry repo n)]) ++
    r.ended.toList.map fun last => .note (Ticker.finishEntry repo last)

/-- The entries are those for the notices that are told, in their order, and the one for the end of
a synchronisation. -/
theorem Report.entries_ticks (repo : Ident) (r : Report) :
    (r.ticks repo).filterMap Tick.entry? = r.notices.map (Ticker.noticeEntry repo) ++
      r.ended.toList.map (Ticker.finishEntry repo) := by
  have hnotices : (r.notices.flatMap fun n => [Tick.print (toldLine n),
      Tick.note (Ticker.noticeEntry repo n)]).filterMap Tick.entry? =
        r.notices.map (Ticker.noticeEntry repo) := by
    induction r.notices with
    | nil => rfl
    | cons n rest ih =>
      rw [List.flatMap_cons, List.filterMap_append, ih]
      rfl
  rw [ticks, List.filterMap_append, List.filterMap_append, hnotices]
  cases r.status <;> cases r.ended <;> rfl

/-- The entries for notices are those of the notices that are told. -/
theorem Report.noticed_ticks (repo : Ident) (r : Report) :
    ((r.ticks repo).filterMap Tick.entry?).filter (·.event = "notice") =
      r.notices.map (Ticker.noticeEntry repo) := by
  have hall : (r.notices.map (Ticker.noticeEntry repo)).filter (·.event = "notice") =
      r.notices.map (Ticker.noticeEntry repo) := by
    refine List.filter_eq_self.2 fun e he => ?_
    obtain ⟨n, -, rfl⟩ := List.mem_map.1 he
    rfl
  rw [entries_ticks, List.filter_append, hall]
  cases r.ended <;> simp [Ticker.finishEntry, Entry.ofEvent]

/-- A status line is never empty. -/
theorem statusLine_ne_empty (v : View) : statusLine v ≠ "" := by
  unfold statusLine
  simp

namespace Ticker

/-- The entry is the one of a notice: its details are the number and the message, and that of an
error is failed and has the message for its error, too. A number that fits a word is written as
itself. -/
structure Notes (repo : Ident) (n : Notice) (e : Entry) : Prop where
  event : e.event = "notice"
  repo : e.repo = some repo
  info : n.level = .info → e.status = .ok ∧ e.error = none
  error : n.level = .error → e.status = .failed ∧ e.error = some n.message
  details : ∃ seq, e.details = some (.object [("seq", seq), ("message", .string n.message)]) ∧
    ∀ w : Json.Whole, w.value = n.seq → seq = .integer w

theorem notes_noticeEntry (repo : Ident) (n : Notice) : Notes repo n (noticeEntry repo n) where
  event := rfl
  repo := rfl
  info h := by simp [noticeEntry, h]
  error h := by simp [noticeEntry, h]
  details := ⟨_, rfl, fun _ => Json.Value.ofNat_of_value_eq⟩

/-- What a ticker has to say of a view. -/
def report (t : Ticker) (v : View) : Report where
  status := if statusLine v = t.line then none else some (statusLine v)
  notices := t.fresh v
  ended := if t.sync.isRunning && !v.sync.isRunning then some v.lastSync else none

/-- That is what it puts out. -/
theorem observe_eq (t : Ticker) (repo : Ident) (v : View) :
    (t.observe repo v).2 = (t.report v).ticks repo := by
  simp only [observe, report, Report.ticks, noticeLine_eq_toldLine]
  split_ifs <;> rfl

section

variable (repo : Ident)

/-- What a ticker puts out that sees views, one after another. -/
def ticks : Ticker → List View → List Tick
  | _, [] => []
  | t, v :: rest => (t.observe repo v).2 ++ ticks (t.observe repo v).1 rest

/-- Its reports, one for each view. -/
def reports : Ticker → List View → List Report
  | _, [] => []
  | t, v :: rest => t.report v :: reports (t.observe repo v).1 rest

theorem ticks_eq (t : Ticker) (views : List View) :
    t.ticks repo views = (t.reports repo views).flatMap (Report.ticks repo) := by
  induction views generalizing t with
  | nil => rfl
  | cons v rest ih => rw [ticks, reports, List.flatMap_cons, observe_eq, ih]

/-- The notices that it tells. -/
def told (t : Ticker) (views : List View) : List Notice :=
  (t.reports repo views).flatMap Report.notices

/-- The status lines that it prints. -/
def lines (t : Ticker) (views : List View) : List String :=
  (t.reports repo views).filterMap Report.status

end

/-! ### Which notices are told -/

section

variable {repo : Ident} {t : Ticker} {v : View} {n : Notice}

theorem mem_fresh : n ∈ t.fresh v ↔ n ∈ v.notices ∧ t.seen < n.seq := by
  simp [fresh]

/-- A ticker that tells nothing has seen no more than before, and one that does has seen the last
that it tells. -/
theorem seen_observe (repo : Ident) (t : Ticker) (v : View) :
    (t.fresh v = [] ∧ (t.observe repo v).1.seen = t.seen) ∨
      ∃ older last, t.fresh v = older ++ [last] ∧ (t.observe repo v).1.seen = last.seq := by
  have hseen : (t.observe repo v).1.seen = ((t.fresh v).getLast?.map (·.seq)).getD t.seen := rfl
  rcases List.eq_nil_or_concat (t.fresh v) with hnone | ⟨older, last, hlast⟩
  · exact .inl ⟨hnone, by rw [hseen, hnone]; rfl⟩
  · rw [List.concat_eq_append] at hlast
    exact .inr ⟨older, last, hlast, by rw [hseen, hlast, List.getLast?_concat]; rfl⟩

/-- It has never seen less than before, -/
theorem seen_le_observe (repo : Ident) (t : Ticker) (v : View) :
    t.seen ≤ (t.observe repo v).1.seen := by
  rcases t.seen_observe repo v with ⟨-, hsame⟩ | ⟨older, last, hlast, hseen⟩
  · exact Nat.le_of_eq hsame.symm
  · have hnew : last ∈ t.fresh v := by simp [hlast]
    exact hseen ▸ Nat.le_of_lt (mem_fresh.1 hnew).2

/-- no more than the view shows, if that is more, -/
theorem seen_observe_lt {bound : Nat} (hseen : t.seen < bound)
    (hv : ∀ m ∈ v.notices, m.seq < bound) : (t.observe repo v).1.seen < bound := by
  rcases t.seen_observe repo v with ⟨-, hsame⟩ | ⟨older, last, hlast, hlater⟩
  · exact hsame ▸ hseen
  · have hnew : last ∈ t.fresh v := by simp [hlast]
    exact hlater ▸ hv last (mem_fresh.1 hnew).1

/-- and all that the view shows. -/
theorem le_seen_observe (hv : v.notices.Pairwise (·.seq < ·.seq)) (hn : n ∈ v.notices) :
    n.seq ≤ (t.observe repo v).1.seen := by
  by_cases hold : n.seq ≤ t.seen
  · exact Nat.le_trans hold (t.seen_le_observe repo v)
  · have hnew : n ∈ t.fresh v := mem_fresh.2 ⟨hn, Nat.lt_of_not_le hold⟩
    rcases t.seen_observe repo v with ⟨hnone, -⟩ | ⟨older, last, hlast, hseen⟩
    · simp [hnone] at hnew
    · have hsorted : (older ++ [last]).Pairwise (·.seq < ·.seq) := by
        rw [← hlast]
        exact hv.filter _
      rw [hlast, List.mem_append, List.mem_singleton] at hnew
      rw [hseen]
      rcases hnew with hmem | rfl
      · exact Nat.le_of_lt ((List.pairwise_append.1 hsorted).2.2 n hmem last (by simp))
      · exact Nat.le_refl _

theorem told_cons (v : View) (rest : List View) :
    t.told repo (v :: rest) = t.fresh v ++ (t.observe repo v).1.told repo rest := rfl

/-- Nothing is told that was seen before, -/
theorem seen_lt_of_mem_told {views : List View} (hn : n ∈ t.told repo views) : t.seen < n.seq := by
  induction views generalizing t with
  | nil => cases hn
  | cons v rest ih =>
    rw [told_cons, List.mem_append] at hn
    rcases hn with hnow | hlater
    · exact (mem_fresh.1 hnow).2
    · exact Nat.lt_of_le_of_lt (t.seen_le_observe repo v) (ih hlater)

/-- and only what is shown. -/
theorem exists_of_mem_told {views : List View} (hn : n ∈ t.told repo views) :
    ∃ v ∈ views, n ∈ v.notices := by
  induction views generalizing t with
  | nil => cases hn
  | cons v rest ih =>
    rw [told_cons, List.mem_append] at hn
    rcases hn with hnow | hlater
    · exact ⟨v, List.mem_cons_self, (mem_fresh.1 hnow).1⟩
    · obtain ⟨w, hw, hnw⟩ := ih hlater
      exact ⟨w, List.mem_cons_of_mem v hw, hnw⟩

/-- Of views that show notices in the order of their numbers, they are told in that order. -/
theorem pairwise_told {views : List View}
    (hviews : ∀ v ∈ views, v.notices.Pairwise (·.seq < ·.seq)) :
    (t.told repo views).Pairwise (·.seq < ·.seq) := by
  induction views generalizing t with
  | nil => exact List.Pairwise.nil
  | cons v rest ih =>
    have hv := hviews v List.mem_cons_self
    rw [told_cons]
    refine List.pairwise_append.2
      ⟨hv.filter _, ih fun w hw => hviews w (List.mem_cons_of_mem v hw), fun m hm n hn => ?_⟩
    exact Nat.lt_of_le_of_lt (le_seen_observe hv (mem_fresh.1 hm).1) (seen_lt_of_mem_told hn)

/-- A notice that is above all those shown before, and that is shown from then on unless a later one
is, is told if the first of the views that come then shows it, and otherwise never. -/
theorem mem_told_iff {before later : List View} (hseen : t.seen < n.seq)
    (hbefore : ∀ v ∈ before, ∀ m ∈ v.notices, m.seq < n.seq)
    (hsorted : ∀ v ∈ later, v.notices.Pairwise (·.seq < ·.seq))
    (hlater : ∀ v ∈ later, ∃ m ∈ v.notices, n.seq ≤ m.seq) :
    n ∈ t.told repo (before ++ later) ↔ ∃ w ∈ later.head?, n ∈ w.notices := by
  induction before generalizing t with
  | nil =>
    cases later with
    | nil => simp [told, reports]
    | cons w rest =>
      obtain ⟨m, hm, hle⟩ := hlater w List.mem_cons_self
      have hpast : n ∉ (t.observe repo w).1.told repo rest := fun hn => by
        have hgone : m.seq ≤ (t.observe repo w).1.seen :=
          le_seen_observe (hsorted w List.mem_cons_self) hm
        have hnew := seen_lt_of_mem_told hn
        omega
      rw [List.nil_append, told_cons, List.mem_append, or_iff_left hpast, mem_fresh,
        and_iff_left hseen]
      simp
  | cons v before ih =>
    have hv := hbefore v List.mem_cons_self
    have hearly : n ∉ t.fresh v := fun hn => Nat.lt_irrefl _ (hv n (mem_fresh.1 hn).1)
    rw [List.cons_append, told_cons, List.mem_append, or_iff_right hearly]
    exact ih (seen_observe_lt hseen hv) fun w hw => hbefore w (List.mem_cons_of_mem v hw)

end

/-! ### Which lines are printed -/

section

variable (repo : Ident)

theorem lines_cons (t : Ticker) (v : View) (rest : List View) :
    t.lines repo (v :: rest) = (if statusLine v = t.line then [] else [statusLine v]) ++
      (t.observe repo v).1.lines repo rest := by
  rw [lines, reports, List.filterMap_cons, report]
  split_ifs <;> rfl

/-- Each line differs from the one before. -/
theorem isChain_lines (t : Ticker) (views : List View) :
    (t.line :: t.lines repo views).IsChain (· ≠ ·) := by
  induction views generalizing t with
  | nil => exact .singleton _
  | cons v rest ih =>
    have hrest := ih (t.observe repo v).1
    have hline : (t.observe repo v).1.line = statusLine v := rfl
    rw [lines_cons]
    split_ifs with hsame
    · rwa [hline, hsame] at hrest
    · exact List.isChain_cons_cons.2 ⟨Ne.symm hsame, hrest⟩

/-- The last line, or the one before all if there is none, is that of the last view. -/
theorem getLast?_lines (t : Ticker) (views : List View) :
    (t.line :: t.lines repo views).getLast? = (t.line :: views.map statusLine).getLast? := by
  induction views generalizing t with
  | nil => rfl
  | cons v rest ih =>
    have hrest := ih (t.observe repo v).1
    have hline : (t.observe repo v).1.line = statusLine v := rfl
    rw [lines_cons, List.map_cons, List.getLast?_cons_cons, ← hline, ← hrest]
    split_ifs with hsame
    · rw [← hsame]
      rfl
    · exact List.getLast?_cons_cons

/-- A ticker prints the line of the last view that it sees, and no line after it. -/
theorem getLast?_lines_start (views : List View) :
    (start.lines repo views).getLast? = views.getLast?.map statusLine := by
  have hlast := getLast?_lines repo start views
  rw [← List.getLast?_map]
  cases views with
  | nil => rfl
  | cons v rest =>
    -- the first view gives a line, since none was printed before
    have hnew : statusLine v ≠ start.line := statusLine_ne_empty v
    obtain ⟨later, hlines⟩ : ∃ later, start.lines repo (v :: rest) = statusLine v :: later :=
      ⟨_, by rw [lines_cons, if_neg hnew]; rfl⟩
    rwa [hlines, List.map_cons, List.getLast?_cons_cons, List.getLast?_cons_cons, ← hlines] at hlast

end

/-- The entries for notices are those of the notices that are told, in their order. -/
theorem noticed_ticks (repo : Ident) (t : Ticker) (views : List View) :
    ((t.ticks repo views).filterMap Tick.entry?).filter (·.event = "notice") =
      (t.told repo views).map (noticeEntry repo) := by
  induction views generalizing t with
  | nil => rfl
  | cons v rest ih =>
    rw [ticks, observe_eq, List.filterMap_append, List.filter_append, Report.noticed_ticks, ih,
      told_cons, List.map_append]
    rfl

end Ticker

end Cli

namespace Traffic

open Cli (Report Tick Ticker statusLine)

/-! ### A watch on a session -/

/-- What a watch has put out when it has seen some of the views that a session has published. -/
structure Watched (t : Traffic Loop) (repo : Ident) (moves : List Move) (observed : List View) :
    Prop where
  /-- Everything that is put out is said by the reports. -/
  said : Ticker.start.ticks repo observed =
    (Ticker.start.reports repo observed).flatMap (Report.ticks repo)
  /-- The numbers of the notices that are told go up, so that none is told twice; -/
  increasing : (Ticker.start.told repo observed).Pairwise (·.seq < ·.seq)
  /-- all of them have been raised, under those numbers; -/
  raised : ∀ n ∈ Ticker.start.told repo observed,
    n ∈ NoticeLog.numbered (t.collect Loop.raises moves)
  /-- and the journal has an entry for each, in the same order. -/
  noted : List.Forall₂ (Ticker.Notes repo) (Ticker.start.told repo observed)
    (((Ticker.start.ticks repo observed).filterMap Tick.entry?).filter (·.event = "notice"))
  /-- Each status line that is printed differs from the one before, -/
  changing : (Ticker.start.lines repo observed).IsChain (· ≠ ·)
  /-- and the last one is that of the view that is shown in the end. -/
  final : (Ticker.start.lines repo observed).getLast? =
    some (statusLine (t.run moves).state.session.published)

theorem watched_run (subject : Ident) (settings : Settings) {moves : List Move}
    {observed : List View} (hsome : observed.Sublist ((opened subject settings).views moves))
    (hlast : observed.getLast? = ((opened subject settings).views moves).getLast?) :
    (opened subject settings).Watched subject moves observed where
  said := Ticker.ticks_eq subject Ticker.start observed
  increasing := Ticker.pairwise_told fun v hv =>
    pairwise_of_mem_views subject settings (hsome.subset hv)
  raised n hn := by
    obtain ⟨v, hv, hnv⟩ := Ticker.exists_of_mem_told hn
    exact mem_numbered_of_mem_views subject settings (hsome.subset hv) hnv
  noted := by
    rw [Ticker.noticed_ticks, List.forall₂_map_right_iff, List.forall₂_same]
    exact fun n _ => Ticker.notes_noticeEntry subject n
  changing := by
    have hchain := Ticker.isChain_lines subject Ticker.start observed
    exact hchain.of_cons
  final := by rw [Ticker.getLast?_lines_start, hlast, getLast?_views]; rfl

/-- What becomes of a notice when a watch has seen some of the views that were published before it
was raised and some of those published since: it is told if the first of the latter shows it, and
otherwise never. -/
theorem mem_told_iff_of_raises {subject : Ident} {settings : Settings} {past rest : List Move}
    {v : Move} {p : NoticeLevel × String}
    (hp : ((opened subject settings).run past).state.raises v = some p) {seen unseen : List View}
    (hseen : seen.Sublist ((opened subject settings).views past))
    (hunseen : unseen.Sublist
      (((opened subject settings).run past).collect Loop.publishes (v :: rest))) :
    let n : Notice :=
      ⟨((opened subject settings).collect Loop.raises past).length + 1, p.1, p.2⟩
    n ∈ Ticker.start.told subject (seen ++ unseen) ↔ ∃ w ∈ unseen.head?, n ∈ w.notices := by
  intro n
  refine Ticker.mem_told_iff (Nat.succ_pos _) (fun w hw m hm => ?_) (fun w hw => ?_)
    fun w hw => ?_
  · have hmem := mem_numbered_of_mem_views subject settings (hseen.subset hw) hm
    exact Nat.lt_succ_of_le (NoticeLog.seq_le_of_mem_numbered hmem)
  · have hmem : w ∈ (opened subject settings).views (past ++ v :: rest) := by
      rw [views_append]
      exact List.mem_append_right _ (hunseen.subset hw)
    exact pairwise_of_mem_views subject settings hmem
  · obtain ⟨-, -, -, -, -, hlater⟩ := shows_of_mem_publishes hp (hunseen.subset hw)
    exact hlater

/-- Where no message is in hand in the end, a view was seen that was published after the notice was
raised. -/
theorem unseen_ne_nil {subject : Ident} {settings : Settings} {past rest : List Move}
    {v : Move} {p : NoticeLevel × String}
    (hp : ((opened subject settings).run past).state.raises v = some p) {seen unseen : List View}
    (hseen : seen.Sublist ((opened subject settings).views past))
    (hlast : (seen ++ unseen).getLast? =
      ((opened subject settings).views (past ++ v :: rest)).getLast?)
    (hfree : ((opened subject settings).run (past ++ v :: rest)).state.inHand = none) :
    unseen ≠ [] := by
  rintro rfl
  have hends := ends_opened subject settings (past ++ v :: rest)
  rw [collect_append, collect_cons, hp] at hends
  obtain ⟨m, hm, hlater⟩ := hends.exists_later (by omega)
  -- the view that is shown in the end shows a notice that had not been raised by then
  rw [List.append_nil, getLast?_views, fresh_run (fresh_opened subject settings) _
    (by rw [hfree]; rfl)] at hlast
  have hmem := mem_numbered_of_mem_views subject settings
    (hseen.subset (List.mem_of_getLast? hlast)) hm
  have hearly := NoticeLog.seq_le_of_mem_numbered hmem
  omega

/-- A watch that has seen some of the views that a session has published, and the last of them, has
told notices in the order of their numbers, none twice, and noted each in the journal, with its
number, its message and its level; it has printed no status line twice in a row, and the last one is
that of the view that is shown. A notice is told if it is still shown by the first view seen that
was published after it was raised. So it is missed only if as many further notices as there is room
for were raised before that view was published. -/
theorem ticked_run (subject : Ident) (settings : Settings) {moves : List Move}
    {observed : List View} (hsome : observed.Sublist ((opened subject settings).views moves))
    (hlast : observed.getLast? = ((opened subject settings).views moves).getLast?) :
    let t := opened subject settings
    t.Watched subject moves observed ∧
    ∀ (past : List Move) (v : Move) (rest : List Move) (p : NoticeLevel × String),
      moves = past ++ v :: rest → (t.run past).state.raises v = some p →
      ∀ seen unseen : List View, observed = seen ++ unseen → seen.Sublist (t.views past) →
        unseen.Sublist ((t.run past).collect Loop.publishes (v :: rest)) →
        let n : Notice := ⟨(t.collect Loop.raises past).length + 1, p.1, p.2⟩
        let told := Ticker.start.told subject observed
        (n ∈ told ↔ ∃ w ∈ unseen.head?, n ∈ w.notices) ∧
        (∀ w ∈ unseen.head?, ∃ between after, rest = between ++ after ∧
          w = (t.run (past ++ v :: between)).state.session.published ∧
          (n ∉ told ↔ max settings.noticeCapacity.toNat 1 ≤
            ((t.run (past ++ [v])).collect Loop.raises between).length)) ∧
        ((t.run moves).state.inHand = none → unseen ≠ []) := by
  intro t
  refine ⟨watched_run subject settings hsome hlast, ?_⟩
  rintro past v rest p rfl hp seen unseen rfl hseen hunseen n told
  have htold : n ∈ told ↔ ∃ w ∈ unseen.head?, n ∈ w.notices :=
    mem_told_iff_of_raises hp hseen hunseen
  refine ⟨htold, fun w hw => ?_, unseen_ne_nil hp hseen hlast⟩
  have hmem : w ∈ (t.run past).collect Loop.publishes (v :: rest) :=
    hunseen.subset (List.mem_of_mem_head? hw)
  obtain ⟨between, after, hrest, hshown, hkept, -⟩ := shows_of_mem_publishes hp hmem
  refine ⟨between, after, hrest, hshown, ?_⟩
  have hfirst : n ∈ told ↔ n ∈ w.notices := by
    rw [htold]
    simp only [Option.mem_def.1 hw, Option.mem_some_iff, exists_eq_left']
  rw [hfirst, hkept, Nat.not_lt]

/-- There is room for one notice, and a watch that sees the first view and the last misses the first
of two, which is pushed out in between. The other is noted as an error. -/
theorem ticked_run_missed :
    let t := opened "r" ⟨none, 2, 30, 1⟩
    let past : List Move := [.startSync, .take, .finish, .startSync]
    let rest : List Move := [.finish, .startSync, .take, .finish]
    let observed : List View :=
      [t.state.session.published, (t.run (past ++ .take :: rest)).state.session.published]
    observed.Sublist (t.views (past ++ .take :: rest)) ∧
      observed.getLast? = (t.views (past ++ .take :: rest)).getLast? ∧
      ∃ p, (t.run past).state.raises .take = some p ∧
        ⟨1, p.1, p.2⟩ ∉ Ticker.start.told "r" observed ∧
        ∃ e ∈ (Ticker.start.ticks "r" observed).filterMap Tick.entry?,
          e.status = .failed ∧ e.error = some "sync already running for repo r" ∧
          e.details = some (.object [("seq", .integer ⟨2, by decide⟩),
            ("message", .string "sync already running for repo r")]) := by
  intro t past rest observed
  have hlast : observed.getLast? = (t.views (past ++ .take :: rest)).getLast? :=
    (getLast?_views t _).symm
  have hlater : (t.run past).collect Loop.publishes (.take :: rest) ≠ [] :=
    List.ne_nil_of_length_pos (by decide)
  have hmem : (t.run (past ++ .take :: rest)).state.session.published ∈
      (t.run past).collect Loop.publishes (.take :: rest) := by
    have hshown := getLast?_views t (past ++ .take :: rest)
    rw [views_append, List.getLast?_append_of_ne_nil _ hlater] at hshown
    exact List.mem_of_getLast? hshown
  have hseen : [t.state.session.published].Sublist (t.views past) :=
    List.singleton_sublist.2 List.mem_cons_self
  have hunseen := List.singleton_sublist.2 hmem
  have hsome : observed.Sublist (t.views (past ++ .take :: rest)) := by
    rw [views_append]
    exact hseen.append hunseen
  obtain ⟨p, hp⟩ : ∃ p, (t.run past).state.raises .take = some p :=
    Option.isSome_iff_exists.1 (by decide)
  have hnone : (t.collect Loop.raises past).length = 0 := by decide
  have hseqs : (t.run (past ++ .take :: rest)).state.session.published.notices.map (·.seq) =
      [2] := by
    decide
  obtain ⟨hwatched, hfate⟩ := ticked_run "r" ⟨none, 2, 30, 1⟩ hsome hlast
  obtain ⟨hfirst, -⟩ := hfate past .take rest p rfl hp _ _ rfl hseen hunseen
  refine ⟨hsome, hlast, p, hp, fun hmiss => ?_, ?_⟩
  · rw [hnone] at hfirst
    obtain ⟨w, hw, hshown⟩ := hfirst.1 hmiss
    obtain rfl := Option.some.inj hw
    have hone := List.mem_map_of_mem (f := (·.seq)) hshown
    rw [hseqs] at hone
    exact absurd hone (by decide : 1 ∉ [2])
  · have htold : Ticker.start.told "r" observed =
        [⟨2, .error, "sync already running for repo r"⟩] := by
      decide
    have hnoted := hwatched.noted
    rw [htold, List.forall₂_cons_left_iff] at hnoted
    obtain ⟨e, others, he, -, hentries⟩ := hnoted
    have hmem : e ∈ ((Ticker.start.ticks "r" observed).filterMap Tick.entry?).filter
        (·.event = "notice") := by
      rw [hentries]
      exact List.mem_cons_self
    obtain ⟨seq, hdetails, hseq⟩ := he.details
    rw [hseq ⟨2, by decide⟩ rfl] at hdetails
    exact ⟨e, List.mem_of_mem_filter hmem, (he.error rfl).1, (he.error rfl).2, hdetails⟩

end Traffic

end LiveAudit
