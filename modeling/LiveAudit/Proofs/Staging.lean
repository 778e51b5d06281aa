import LiveAudit.Proofs.Acting

/-!
# Stages do what programs say

A stage holds a registry, the subscriptions that nobody has given up and the number of publications.
All of that agrees with the course of events on it (`Stage.Accurate`), and so what a program does on
a stage is what comes of it in view of the course alone (`Stage.does_of_run`); the induction is on
the program, and on how deeply calls nest. Conversely, whatever comes of a program is done, if calls
may be nested deeply enough (`Stage.exists_run_iff_does`).
-/

namespace LiveAudit.Bus

namespace Stage

variable {σ : Type} {s t u : Stage σ}

/-- What a stage holds agrees with what has happened on it. -/
structure Accurate (s : Stage σ) : Prop where
  founded : Founded s.course
  handlers : s.bus.handlers = registered s.course
  next : s.bus.next = (subscriptions s.course).length
  held : s.held = (registered s.course).map (·.1)
  published : s.published = publications s.course

/-- One stage comes of another by a task. -/
structure Attends (s : Stage σ) (task : Task σ) (t : Stage σ) : Prop where
  accurate : t.Accurate
  does : ∃ tail, t.course = s.course ++ tail ∧ Does s.course s.shared task tail t.shared

theorem accurate_start (shared : σ) : (start shared).Accurate where
  founded := founded_nil
  handlers := rfl
  next := rfl
  held := rfl
  published := rfl

/-- A step that changes nothing of what a stage holds is noted. -/
theorem Accurate.note {x : Step (Handler σ)} (h : s.Accurate) (hx : x.Founded s.course)
    (hsub : x.subscription? = none) (hrelease : x.isRelease = false)
    (hpub : x.isPublication = false) : (s.note x).Accurate where
  founded := founded_concat.2 ⟨h.founded, hx⟩
  handlers := h.handlers.trans (registered_other hsub hrelease).symm
  next := by
    have hsubs : subscriptions [x] = [] := by simp [subscriptions, hsub]
    rw [Stage.note, subscriptions_append, hsubs, List.append_nil]
    exact h.next
  held := by
    rw [Stage.note, registered_other hsub hrelease]
    exact h.held
  published := by
    have hpubs : publications [x] = 0 := by simp [publications, hpub]
    rw [Stage.note, publications_append, hpubs]
    exact h.published

theorem Accurate.subscribe {handler : Handler σ} (h : s.Accurate) :
    (s.subscribe handler).Accurate := by
  have hnew : .released s.bus.next ∉ s.course := by
    intro hr
    have hlt := h.founded.lt_of_released hr
    rw [h.next] at hlt
    exact absurd hlt (Nat.lt_irrefl _)
  have hreg := registered_subscribed handler hnew
  refine ⟨founded_concat.2 ⟨h.founded, h.next⟩, ?_, ?_, ?_, ?_⟩
  · exact (congrArg (· ++ _) h.handlers).trans hreg.symm
  · rw [Stage.subscribe, Stage.note, subscriptions_append, List.length_append]
    exact congrArg (· + 1) h.next
  · rw [Stage.subscribe, Stage.note, hreg, List.map_append]
    exact congrArg (· ++ _) h.held
  · rw [Stage.subscribe, Stage.note, publications_append]
    exact h.published

/-- What is held is registered. -/
theorem Accurate.mem_held {number : Nat} (h : s.Accurate) :
    number ∈ s.held ↔ ∃ handler, (number, handler) ∈ registered s.course := by
  simp [h.held]

theorem Accurate.release {number : Nat} (h : s.Accurate) : (s.release number).Accurate := by
  unfold Stage.release
  split_ifs with hheld
  · have hreg := registered_released s.course number
    refine ⟨founded_concat.2 ⟨h.founded, h.mem_held.1 hheld⟩, ?_, ?_, ?_, ?_⟩
    · exact (congrArg (List.filter _) h.handlers).trans hreg.symm
    · rw [Stage.note, subscriptions_append]
      exact h.next.trans (congrArg List.length (List.append_nil _).symm)
    · rw [Stage.note, hreg]
      exact (congrArg (List.filter _) h.held).trans List.filter_map
    · rw [Stage.note, publications_append]
      exact h.published
  · exact h

theorem course_release {number : Nat} (h : number ∈ s.held) :
    (s.release number).course = s.course ++ [.released number] := by
  rw [Stage.release, if_pos h]
  rfl

theorem shared_release (s : Stage σ) (number : Nat) : (s.release number).shared = s.shared := by
  unfold Stage.release
  split_ifs <;> rfl

/-- What has been given up stays so. -/
theorem release_release (s : Stage σ) (number : Nat) :
    (s.release number).release number = s.release number := by
  by_cases h : number ∈ s.held
  · have hgone : number ∉ (s.release number).held := by
      rw [Stage.release, if_pos h]
      simp [Stage.note]
    exact if_neg hgone
  · have hsame : s.release number = s := if_neg h
    rw [hsame, hsame]

/-- The number that a publication gets is that of the publications before it. -/
theorem Accurate.publish {e : Envelope} (h : s.Accurate) :
    ({ s with published := s.published + 1 }.note (.published s.published e)).Accurate := by
  refine ⟨founded_concat.2 ⟨h.founded, h.published⟩, ?_, ?_, ?_, ?_⟩
  · exact h.handlers.trans (registered_other rfl rfl).symm
  · rw [Stage.note, subscriptions_append]
    exact h.next.trans (congrArg List.length (List.append_nil _).symm)
  · rw [Stage.note, registered_other rfl rfl]
    exact h.held
  · rw [Stage.note, publications_append]
    exact congrArg (· + 1) h.published

/-- Who asks is told the subscriptions less the releases. -/
theorem Accurate.count (h : s.Accurate) :
    s.bus.count + releases s.course = (subscriptions s.course).length := by
  rw [Bus.count, h.handlers]
  exact h.founded.length_registered

theorem Accurate.counted (h : s.Accurate) : (s.note (.counted s.bus.count)).Accurate :=
  h.note (x := .counted s.bus.count) h.count rfl rfl rfl

/-- Handlers are called for an event that was published. -/
theorem Accurate.call {publication : Nat} {e : Envelope} (h : s.Accurate)
    (hp : .published publication e ∈ s.course) (number : Nat) (handler : Handler σ) :
    (s.note (.called publication number handler e)).Accurate :=
  h.note (x := .called publication number handler e) hp rfl rfl rfl

theorem Accurate.refuse {line : String} {f : Failure} (h : s.Accurate)
    (hline : Envelope.ofText line = .error f) : (s.note (.refused line)).Accurate :=
  h.note (x := .refused line) ⟨f, hline⟩ rfl rfl rfl

/-- The shared state is nothing that a course tells of. -/
theorem Accurate.modify (h : s.Accurate) (x : σ) : ({ s with shared := x } : Stage σ).Accurate :=
  ⟨h.founded, h.handlers, h.next, h.held, h.published⟩

/-! ### What programs do on a stage -/

section

variable {call : Stage σ → Program σ → Option (Stage σ)}

/-- Handing an event out calls the handlers one after another, each with what it does. -/
theorem attends_of_deliver {publication : Nat} {e : Envelope} {handlers : List (Nat × Handler σ)}
    (hcall : ∀ s program t, s.Accurate → call s program = some t → s.Attends (.carryOut program) t)
    (hs : s.Accurate) (hp : .published publication e ∈ s.course)
    (h : deliver call publication e handlers s = some t) :
    s.Attends (.hand publication e handlers) t := by
  induction handlers generalizing s with
  | nil =>
    obtain rfl := Option.some.inj h
    exact ⟨hs, [], (List.append_nil _).symm, .handed ..⟩
  | cons head rest ih =>
    obtain ⟨number, handler⟩ := head
    obtain ⟨m, hm, hrest⟩ := Option.bind_eq_some_iff.1 h
    obtain ⟨hmacc, inner, hinner, hact⟩ := hcall _ _ _ (hs.call hp number handler) hm
    rw [Stage.note, ← List.append_cons] at hinner
    have hp' : .published publication e ∈ m.course := by
      rw [hinner]
      exact List.mem_append_left _ hp
    obtain ⟨htacc, tail, htail, hlater⟩ := ih hmacc hp' hrest
    rw [hinner] at htail hlater
    exact ⟨htacc, _, by rw [htail, List.append_assoc], .call hact hlater⟩

/-- A publication is handed out, and then the program goes on. -/
theorem attends_of_publish {e : Envelope} {next : Program σ}
    (hcall : ∀ s program t, s.Accurate → call s program = some t → s.Attends (.carryOut program) t)
    (hs : s.Accurate) (h : s.publish call e = some t)
    (hnext : t.Accurate → t.Attends (.carryOut next) u) :
    s.Attends (.carryOut (.publish e next)) u := by
  obtain ⟨htacc, inner, hinner, hhand⟩ := attends_of_deliver hcall hs.publish
    (List.mem_append_right _ (List.mem_singleton_self _)) h
  obtain ⟨huacc, tail, htail, hrest⟩ := hnext htacc
  rw [Stage.note, ← List.append_cons] at hinner
  rw [hinner] at htail hrest
  rw [hs.handlers] at hhand
  exact ⟨huacc, _, by rw [htail, List.append_assoc], .publish hs.published hhand hrest⟩

/-- A subscription is given up, if that has not been done yet, and then the program goes on. -/
theorem attends_of_release {number : Nat} {next : Program σ} (hs : s.Accurate)
    (h : (s.release number).Accurate → (s.release number).Attends (.carryOut next) t) :
    s.Attends (.carryOut (.drop number next)) t := by
  obtain ⟨htacc, tail, htail, hrest⟩ := h hs.release
  unfold Stage.release at htail hrest
  split_ifs at htail hrest with hheld
  · rw [Stage.note, ← List.append_cons] at htail
    exact ⟨htacc, _, htail, .drop (hs.mem_held.1 hheld) hrest⟩
  · exact ⟨htacc, _, htail, .dropAgain (fun f hf => hheld (hs.mem_held.2 ⟨f, hf⟩)) hrest⟩

/-- What a program does is what comes of it, if that is so of the handlers called. -/
theorem attends_of_perform {program : Program σ}
    (hcall : ∀ s program t, s.Accurate → call s program = some t → s.Attends (.carryOut program) t)
    (hs : s.Accurate) (h : perform call s program = some t) : s.Attends (.carryOut program) t := by
  induction program generalizing s with
  | done =>
    obtain rfl := Option.some.inj h
    exact ⟨hs, [], (List.append_nil _).symm, .done ..⟩
  | subscribe handler next _ ih =>
    obtain ⟨htacc, tail, htail, hrest⟩ := ih _ hs.subscribe h
    rw [Stage.subscribe, Stage.note, ← List.append_cons] at htail
    exact ⟨htacc, _, htail, .subscribe hs.next hrest⟩
  | unsubscribe number next ih =>
    rw [perform, release_release] at h
    obtain ⟨htacc, tail, htail, hrest⟩ := attends_of_release hs fun hs => ih hs h
    exact ⟨htacc, tail, htail, .unsubscribe hrest⟩
  | drop number next ih => exact attends_of_release hs fun hs => ih hs h
  | publish e next ih =>
    obtain ⟨m, hm, hrest⟩ := Option.bind_eq_some_iff.1 h
    exact attends_of_publish hcall hs hm fun hs => ih hs hrest
  | publishLine line next ih =>
    rw [perform] at h
    cases hline : Envelope.ofText line with
    | ok e =>
      rw [hline] at h
      obtain ⟨m, hm, hrest⟩ := Option.bind_eq_some_iff.1 h
      obtain ⟨htacc, tail, htail, hdoes⟩ :=
        attends_of_publish hcall hs hm fun hs => ih (.ok ()) hs hrest
      exact ⟨htacc, tail, htail, .publishLine hline hdoes⟩
    | error f =>
      rw [hline] at h
      obtain ⟨htacc, tail, htail, hrest⟩ := ih _ (hs.refuse hline) h
      rw [Stage.note, ← List.append_cons] at htail
      exact ⟨htacc, _, htail, .refuse hline hrest⟩
  | count next ih =>
    obtain ⟨htacc, tail, htail, hrest⟩ := ih _ hs.counted h
    rw [Stage.note, ← List.append_cons] at htail
    exact ⟨htacc, _, htail, .count hs.count hrest⟩
  | modify change next ih =>
    obtain ⟨htacc, tail, htail, hrest⟩ := ih _ (hs.modify _) h
    exact ⟨htacc, tail, htail, .modify hrest⟩

end

/-- So it is with handlers that act. -/
theorem attends_of_run {depth : Nat} {program : Program σ} (hs : s.Accurate)
    (h : run depth s program = some t) : s.Attends (.carryOut program) t := by
  induction depth generalizing s t program with
  | zero => exact attends_of_perform (fun _ _ _ _ h => by simp at h) hs h
  | succ depth ih => exact attends_of_perform (fun _ _ _ hs h => ih hs h) hs h

/-- The course of a bus is what comes of the program. -/
theorem does_of_run {shared : σ} {depth : Nat} {program : Program σ}
    (h : run depth (start shared) program = some s) :
    Does [] shared (.carryOut program) s.course s.shared := by
  obtain ⟨-, tail, htail, hdoes⟩ := attends_of_run (accurate_start shared) h
  obtain rfl : tail = s.course := htail.symm
  exact hdoes

/-! ### Whatever comes of a program is done -/

section

variable {call call' : Stage σ → Program σ → Option (Stage σ)}

/-- A way of calling handlers that does more hands an event out in the same way. -/
theorem deliver_mono {publication : Nat} {e : Envelope} {handlers : List (Nat × Handler σ)}
    (hcall : ∀ s program t, call s program = some t → call' s program = some t)
    (h : deliver call publication e handlers s = some t) :
    deliver call' publication e handlers s = some t := by
  induction handlers generalizing s with
  | nil => exact h
  | cons head rest ih =>
    obtain ⟨m, hm, hrest⟩ := Option.bind_eq_some_iff.1 h
    exact Option.bind_eq_some_iff.2 ⟨m, hcall _ _ _ hm, ih hrest⟩

/-- It also does what a program says in the same way. -/
theorem perform_mono {program : Program σ}
    (hcall : ∀ s program t, call s program = some t → call' s program = some t)
    (h : perform call s program = some t) : perform call' s program = some t := by
  induction program generalizing s with
  | done => exact h
  | subscribe handler next _ ih => exact ih _ h
  | unsubscribe number next ih => exact ih h
  | drop number next ih => exact ih h
  | publish e next ih =>
    obtain ⟨m, hm, hrest⟩ := Option.bind_eq_some_iff.1 h
    exact Option.bind_eq_some_iff.2 ⟨m, deliver_mono hcall hm, ih hrest⟩
  | publishLine line next ih =>
    rw [perform] at h ⊢
    cases hline : Envelope.ofText line with
    | ok e =>
      rw [hline] at h
      obtain ⟨m, hm, hrest⟩ := Option.bind_eq_some_iff.1 h
      exact Option.bind_eq_some_iff.2 ⟨m, deliver_mono hcall hm, ih _ hrest⟩
    | error f =>
      rw [hline] at h
      exact ih _ h
  | count next ih => exact ih _ h
  | modify change next ih => exact ih _ h

end

/-- A run goes the same way where calls may be nested more deeply. -/
theorem run_mono {depth depth' : Nat} {program : Program σ} (hle : depth ≤ depth')
    (h : run depth s program = some t) : run depth' s program = some t := by
  induction depth generalizing s t program depth' with
  | zero =>
    cases depth' with
    | zero => exact h
    | succ depth' => exact perform_mono (fun _ _ _ h => by simp at h) h
  | succ depth ih =>
    obtain ⟨more, rfl⟩ := Nat.exists_eq_add_of_le' hle
    have hle : depth ≤ more + depth := Nat.le_add_left depth more
    exact perform_mono (fun _ _ _ h => ih hle h) h

/-- Attends to a task, with an allowance for how deeply calls may be nested. -/
def attend (depth : Nat) (s : Stage σ) : Task σ → Option (Stage σ)
  | .carryOut program => run depth s program
  | .hand publication e handlers => deliver (run depth) publication e handlers s

theorem attend_mono {depth depth' : Nat} {task : Task σ} (hle : depth ≤ depth')
    (h : attend depth s task = some t) : attend depth' s task = some t := by
  cases task with
  | carryOut program => exact run_mono hle h
  | hand publication e handlers => exact deliver_mono (fun _ _ _ => run_mono hle) h

/-- A program runs with some way of calling handlers. -/
theorem run_eq_perform (depth : Nat) :
    ∃ call, (run depth : Stage σ → Program σ → Option (Stage σ)) = perform call := by
  cases depth with
  | zero => exact ⟨_, rfl⟩
  | succ depth => exact ⟨_, rfl⟩

/-- A task is attended to with these steps and leaves this state, if calls may be nested deeply
enough. -/
def Achieves (s : Stage σ) (task : Task σ) (tail : List (Step (Handler σ))) (y : σ) : Prop :=
  ∃ depth t, attend depth s task = some t ∧ t.Accurate ∧ t.course = s.course ++ tail ∧ t.shared = y

/-- A program that goes on with another after some steps. -/
theorem Achieves.carryOut {s' : Stage σ} {program next : Program σ}
    {tail : List (Step (Handler σ))} {y : σ} (h : s'.Achieves (.carryOut next) tail y)
    (added : List (Step (Handler σ)))
    (hrun : ∀ call, perform call s program = perform call s' next)
    (hcourse : s'.course = s.course ++ added) :
    s.Achieves (.carryOut program) (added ++ tail) y := by
  obtain ⟨depth, t, ht, hacc, htail, hy⟩ := h
  obtain ⟨call, hcall⟩ := run_eq_perform (σ := σ) depth
  refine ⟨depth, t, ?_, hacc, by rw [htail, hcourse, List.append_assoc], hy⟩
  rw [attend, hcall] at ht ⊢
  rw [hrun, ht]

/-- Whatever comes of a task, it can be attended to. -/
theorem achieves_of_does {past tail : List (Step (Handler σ))} {x y : σ} {task : Task σ}
    (h : Does past x task tail y) (hready : task.Ready past) (hs : s.Accurate)
    (hpast : s.course = past) (hx : s.shared = x) : s.Achieves task tail y := by
  induction h generalizing s with
  | done past x => exact ⟨0, s, rfl, hs, (List.append_nil _).symm, hx⟩
  | subscribe new _ ih =>
    subst hpast
    obtain rfl := new.trans hs.next.symm
    exact (ih trivial hs.subscribe rfl hx).carryOut [_] (fun _ => rfl) rfl
  | drop held _ ih =>
    subst hpast
    have hcourse := course_release (hs.mem_held.2 held)
    have hrest := ih trivial hs.release hcourse ((s.shared_release _).trans hx)
    exact hrest.carryOut [_] (fun _ => rfl) hcourse
  | dropAgain gone _ ih =>
    subst hpast
    refine (ih trivial hs rfl hx).carryOut [] (fun call => ?_) (List.append_nil _).symm
    rw [perform, Stage.release, if_neg]
    intro hheld
    obtain ⟨handler, hmem⟩ := hs.mem_held.1 hheld
    exact gone handler hmem
  | unsubscribe _ ih =>
    refine (ih trivial hs hpast hx).carryOut [] (fun call => ?_) (List.append_nil _).symm
    rw [perform, perform, release_release]
  | publish new _ _ ihHand ihRest =>
    subst hpast
    obtain rfl := new.trans hs.published.symm
    obtain ⟨depth, m, hm, hmacc, hmcourse, hmshared⟩ :=
      ihHand (List.mem_append_right _ (List.mem_singleton_self _)) hs.publish rfl hx
    rw [Stage.note, ← List.append_cons] at hmcourse
    obtain ⟨depth', t, ht, htacc, htcourse, hy⟩ := ihRest trivial hmacc hmcourse hmshared
    -- the handlers run one level deeper than the program that publishes
    obtain ⟨hdeep, hlong⟩ : depth + 1 ≤ depth + depth' + 1 ∧ depth' ≤ depth + depth' + 1 := by
      omega
    refine ⟨depth + depth' + 1, t, ?_, htacc, by rw [htcourse, hmcourse, List.append_assoc], hy⟩
    rw [← hs.handlers] at hm
    have hhand := attend_mono (Nat.le_of_succ_le_succ hdeep) hm
    exact Option.bind_eq_some_iff.2 ⟨m, hhand, run_mono hlong ht⟩
  | publishLine read _ ih =>
    refine (ih trivial hs hpast hx).carryOut [] (fun call => ?_) (List.append_nil _).symm
    rw [perform, perform, read]
  | refuse unread _ ih =>
    subst hpast
    refine (ih trivial (hs.refuse unread) rfl hx).carryOut [_] (fun call => ?_) rfl
    rw [perform, unread]
  | count told _ ih =>
    subst hpast
    obtain rfl := Nat.add_right_cancel (told.trans hs.count.symm)
    exact (ih trivial hs.counted rfl hx).carryOut [_] (fun _ => rfl) rfl
  | modify _ ih =>
    subst hx
    refine (ih trivial (hs.modify _) ?_ rfl).carryOut [] (fun _ => rfl) (List.append_nil _).symm
    exact hpast
  | handed past x publication e => exact ⟨0, s, rfl, hs, (List.append_nil _).symm, hx⟩
  | call _ _ ihAct ihRest =>
    subst hpast
    obtain ⟨depth, m, hm, hmacc, hmcourse, hmshared⟩ :=
      ihAct trivial (hs.call hready _ _) rfl hx
    rw [Stage.note, ← List.append_cons] at hmcourse
    obtain ⟨depth', t, ht, htacc, htcourse, hy⟩ :=
      ihRest (List.mem_append_left _ hready) hmacc hmcourse hmshared
    refine ⟨max depth depth', t, ?_, htacc, by rw [htcourse, hmcourse, List.append_assoc], hy⟩
    rw [attend, deliver, Option.bind_eq_some_iff]
    exact ⟨m, attend_mono (Nat.le_max_left _ _) hm, attend_mono (Nat.le_max_right _ _) ht⟩

/-- A course is that of a program exactly if it is what comes of the program. -/
theorem exists_run_iff_does {shared left : σ} {program : Program σ}
    {course : List (Step (Handler σ))} :
    (∃ depth s, run depth (start shared) program = some s ∧ s.course = course ∧ s.shared = left) ↔
      Does [] shared (.carryOut program) course left := by
  constructor
  · rintro ⟨depth, s, h, rfl, rfl⟩
    exact does_of_run h
  · intro h
    obtain ⟨depth, s, hrun, -, hcourse, hleft⟩ :=
      achieves_of_does h trivial (accurate_start shared) rfl rfl
    exact ⟨depth, s, hrun, hcourse, hleft⟩

end Stage

end LiveAudit.Bus
