import LiveAudit.Proofs.Staging

/-!
# Deliveries

Whatever programs do with a bus, and whatever handlers do with it while they are called, each
publication calls the handlers that are registered when it is made, each of them once, in the order
of their subscriptions and with its event (`Bus.delivered_run`). A handler that is released
meanwhile is called, one that is added meanwhile is not.
-/

namespace LiveAudit.Bus

/-- A course in which events are handed out as they should be. -/
structure Orderly {η : Type} (course : List (Step η)) : Prop where
  /-- A publication calls the handlers registered at its moment, in the order of their subscriptions
  and with its event. -/
  handed : ∀ past publication e rest, course = past ++ .published publication e :: rest →
    calls publication course = (registered past).map (·, e)
  /-- No handler is registered twice. -/
  distinct : ∀ past rest, course = past ++ rest → ((registered past).map (·.1)).Nodup
  /-- Handlers are called for publications, with their events and after them. -/
  called : ∀ past publication number handler e rest,
    course = past ++ .called publication number handler e :: rest →
    .published publication e ∈ past
  /-- A line is refused if it stands for no event. -/
  refused : ∀ line, .refused line ∈ course → ∃ f, Envelope.ofText line = .error f
  /-- A release takes a handler away that is registered, and no other. -/
  released : ∀ past number rest, course = past ++ .released number :: rest →
    (∃ handler, (number, handler) ∈ registered past) ∧
    registered (past ++ [.released number]) = (registered past).filter (·.1 != number)
  /-- A subscription is released once at most. -/
  once : ∀ number, course.countP (Step.isReleaseOf number) ≤ 1
  /-- Numbers are not used again. -/
  numbers : (subscriptions course).map (·.1) = List.range (subscriptions course).length
  /-- At every moment as many handlers are registered as there are subscriptions less releases. -/
  counted : ∀ past n rest, course = past ++ .counted n :: rest →
    n + releases past = (subscriptions past).length

/-- A founded course of which every part is served is orderly. -/
theorem Founded.orderly {η : Type} {course : List (Step η)} (h : Founded course)
    (hserved : Served [] course) : Orderly course where
  handed past publication e rest heq := by
    obtain ⟨hcalls, -⟩ := hserved past _ rest heq
    have hbefore : calls publication past = [] := by
      refine calls_eq_nil fun n f e' hmem => ?_
      have hlt := (Founded.of_append (heq ▸ h)).lt_of_called hmem
      have hnumber : publication = publications past := h past _ rest heq
      omega
    rw [heq, calls_append, hbefore]
    exact hcalls
  distinct past rest heq := (Founded.of_append (heq ▸ h)).nodup_registered
  called past publication number handler e rest heq := h past _ rest heq
  refused line hmem := by
    obtain ⟨past, rest, heq⟩ := List.append_of_mem hmem
    exact h past _ rest heq
  released past number rest heq := ⟨h past _ rest heq, registered_released past number⟩
  once := h.countP_isReleaseOf_le
  numbers := h.numbers
  counted past n rest heq := h past _ rest heq

variable {σ : Type}

/-- What comes of a program is orderly. -/
theorem Does.orderly {x y : σ} {program : Program σ} {course : List (Step (Handler σ))}
    (h : Does [] x (.carryOut program) course y) : Orderly course := by
  obtain ⟨hfounded, hpart, -⟩ := h.continues founded_nil trivial
  exact hfounded.orderly hpart.served

/-- Whatever a program and the handlers that it registers do with a bus, the course of events is
what comes of the program: each of its operations has its own step, with the event, the number or
the line that was given, and is told what the course tells. Events are handed out as they should be,
and the handlers that a course tells are registered at its end, as many as subscriptions less
releases. It is all the same whether a subscription is released in so many words or let go of, and a
line that stands for no event does nothing but to be refused. Handlers own no subscriptions of their
own here. -/
theorem delivered_run {shared : σ} {program : Program σ} {depth : Nat} {s : Stage σ}
    (h : Stage.run depth (.start shared) program = some s) :
    Does [] shared (.carryOut program) s.course s.shared ∧ Orderly s.course ∧
    s.bus.handlers = registered s.course ∧
    s.bus.count + releases s.course = (subscriptions s.course).length ∧
    (∀ (t : Stage σ) number next,
      Stage.run depth t (.unsubscribe number next) = Stage.run depth t (.drop number next)) ∧
    ∀ (t : Stage σ) line next f, Envelope.ofText line = .error f →
      Stage.run depth t (.publishLine line next) =
        Stage.run depth (t.note (.refused line)) (next (.error f)) := by
  have hacc := (Stage.attends_of_run (Stage.accurate_start shared) h).accurate
  have hdoes := Stage.does_of_run h
  obtain ⟨call, hcall⟩ := Stage.run_eq_perform (σ := σ) depth
  refine ⟨hdoes, hdoes.orderly, hacc.handlers, hacc.count, ?_, ?_⟩
  · intro t number next
    rw [hcall, Stage.perform, Stage.perform, Stage.release_release]
  · intro t line next f hline
    rw [hcall, Stage.perform, hline]

/-- Two subscriptions and a publication. When it is called first, the first handler gives up the
second subscription, makes a third one and publishes. -/
def meddling : Program Nat :=
  .subscribe
    (fun _ => .modify (· + 1) fun n =>
      if n = 1 then
        .unsubscribe 1 (.subscribe (fun _ => .done) fun _ => .publish ⟨"y", .null⟩ .done)
      else .done)
    fun _ => .subscribe (fun _ => .done) fun _ => .publish ⟨"x", .null⟩ .done

/-- The second subscription is called for the first publication though it has been released, and the
third only for the second one. -/
theorem delivered_run_meddling :
    ∃ s, Stage.run 2 (.start 0) meddling = some s ∧ Orderly s.course ∧
      Does [] 0 (.carryOut meddling) s.course 2 ∧
      (calls 0 s.course).map (·.1.1) = [0, 1] ∧ (calls 1 s.course).map (·.1.1) = [0, 2] := by
  obtain ⟨s, hs⟩ : ∃ s, Stage.run 2 (.start 0) meddling = some s := ⟨_, rfl⟩
  have hresult : (Stage.run 2 (.start 0) meddling).map (fun s =>
      (s.shared, (calls 0 s.course).map (·.1.1), (calls 1 s.course).map (·.1.1))) =
      some (2, [0, 1], [0, 2]) := by decide
  rw [hs, Option.map_some, Option.some.injEq, Prod.mk.injEq, Prod.mk.injEq] at hresult
  obtain ⟨hshared, hcalls⟩ := hresult
  obtain ⟨hdoes, horderly, -⟩ := delivered_run hs
  rw [hshared] at hdoes
  exact ⟨s, hs, horderly, hdoes, hcalls⟩

end LiveAudit.Bus
