import LiveAudit.Proofs.Delivery

/-!
# Order of arrival

In what order a subscription receives events (`Bus.received`). A handler that publishes while it is
called is heard at once by all that are registered, also by those that have not been called yet for
the event that it was called for. They receive the later publication first. So events arrive in the
order in which they were published exactly at the subscriptions for which no event is published
while an earlier one has still to arrive (`Bus.received_sorted_iff`), and not at all of them
(`Bus.received_reversed`).
-/

namespace LiveAudit.Bus

variable {η : Type}

/-- Publication that a step brings to a subscription. -/
def Step.receipt? (number : Nat) : Step η → Option Nat
  | .called publication n _ _ => if n = number then some publication else none
  | _ => none

/-- Publications that a subscription receives, in the order of their arrival. -/
def received (number : Nat) (course : List (Step η)) : List Nat :=
  course.filterMap (Step.receipt? number)

section

variable {course : List (Step η)} {number publication : Nat}

theorem mem_received : publication ∈ received number course ↔
    ∃ handler e, .called publication number handler e ∈ course := by
  rw [received, List.mem_filterMap]
  constructor
  · rintro ⟨x, hx, hreceipt⟩
    cases x with
    | called p n f e =>
      simp only [Step.receipt?, Option.ite_none_right_eq_some, Option.some.injEq] at hreceipt
      obtain ⟨rfl, rfl⟩ := hreceipt
      exact ⟨f, e, hx⟩
    | _ => simp [Step.receipt?] at hreceipt
  · rintro ⟨f, e, hmem⟩
    exact ⟨_, hmem, by simp [Step.receipt?]⟩

@[simp] theorem received_append (c d : List (Step η)) :
    received number (c ++ d) = received number c ++ received number d :=
  List.filterMap_append

theorem received_cons_called {handler : η} {e : Envelope} :
    received number (.called publication number handler e :: course) =
      publication :: received number course :=
  List.filterMap_cons_some (by simp [Step.receipt?])

/-- What is received is received by a call. -/
theorem exists_called_of_mem_received (h : publication ∈ received number course) :
    ∃ a handler e b, course = a ++ .called publication number handler e :: b := by
  obtain ⟨handler, e, hmem⟩ := mem_received.1 h
  obtain ⟨a, b, hsplit⟩ := List.append_of_mem hmem
  exact ⟨a, handler, e, b, hsplit⟩

/-- What is received was published before. -/
theorem Orderly.exists_published {past rest : List (Step η)} {handler : η} {e : Envelope}
    (h : Orderly course)
    (hcourse : course = past ++ .called publication number handler e :: rest) :
    ∃ before between, course = before ++ .published publication e ::
      (between ++ .called publication number handler e :: rest) := by
  obtain ⟨before, between, rfl⟩ :=
    List.append_of_mem (h.called past publication number handler e rest hcourse)
  exact ⟨before, between, by rw [hcourse, List.append_assoc, List.cons_append]⟩

/-- A subscription receives a publication once. -/
theorem Orderly.not_mem_received {past rest : List (Step η)} {handler : η} {e : Envelope}
    (h : Orderly course)
    (hcourse : course = past ++ .called publication number handler e :: rest) :
    publication ∉ received number rest := by
  intro hmem
  obtain ⟨handler', e', hagain⟩ := mem_received.1 hmem
  obtain ⟨before, between, hall⟩ := h.exists_published hcourse
  -- the handlers called for it are those registered before, with a number each
  have hnodup : ((calls publication course).map (·.1.1)).Nodup := by
    rw [h.handed before publication e _ hall, List.map_map]
    exact h.distinct before _ hall
  have hone : calls publication (.called publication number handler e :: rest) =
      ((number, handler), e) :: calls publication rest :=
    List.filterMap_cons_some (by simp [Step.call?])
  rw [hcourse, calls_append, hone, List.map_append, List.map_cons] at hnodup
  have hnot := (List.nodup_cons.1 hnodup.of_append_right).1
  exact hnot (List.mem_map.2 ⟨((number, handler'), e'), mem_calls.2 hagain, rfl⟩)

/-- Events arrive in order if none is published while an earlier one has still to arrive. -/
theorem Orderly.pairwise_received (h : Orderly course)
    (hcond : ∀ past publication e rest, course = past ++ .published publication e :: rest →
      publication ∈ received number rest → ∀ p ∈ received number rest, publication ≤ p)
    (past : List (Step η)) {rest : List (Step η)} (hcourse : course = past ++ rest) :
    (received number rest).Pairwise (· < ·) := by
  induction rest generalizing past with
  | nil => exact List.Pairwise.nil
  | cons x rest ih =>
    have hrest : (received number rest).Pairwise (· < ·) :=
      ih (past ++ [x]) (by rw [hcourse, List.append_assoc, List.singleton_append])
    cases hx : x.receipt? number with
    | none =>
      rw [received, List.filterMap_cons_none hx]
      exact hrest
    | some p =>
      obtain ⟨handler, e, rfl⟩ : ∃ handler e, x = .called p number handler e := by
        have hmem : p ∈ received number [x] := by simp [received, hx]
        obtain ⟨handler, e, hmem⟩ := mem_received.1 hmem
        exact ⟨handler, e, (List.mem_singleton.1 hmem).symm⟩
      rw [received_cons_called, List.pairwise_cons]
      refine ⟨fun q hq => ?_, hrest⟩
      have hne : q ≠ p := by
        rintro rfl
        exact h.not_mem_received hcourse hq
      obtain ⟨before, between, hall⟩ := h.exists_published hcourse
      have hle : p ≤ q := by
        refine hcond before p e _ hall ?_ q ?_
        · rw [received_append, received_cons_called]
          exact List.mem_append_right _ List.mem_cons_self
        · rw [received_append, received_cons_called]
          exact List.mem_append_right _ (List.mem_cons_of_mem _ hq)
      exact Nat.lt_of_le_of_ne hle hne.symm

end

variable {σ : Type}

/-- Events arrive at a subscription in the order in which they were published exactly if none of
them is published while an earlier one has still to arrive there. -/
theorem received_sorted_iff {shared : σ} {program : Program σ} {depth : Nat} {s : Stage σ}
    (h : Stage.run depth (.start shared) program = some s) (number : Nat) :
    (received number s.course).Pairwise (· < ·) ↔
      ∀ past publication e rest, s.course = past ++ .published publication e :: rest →
        publication ∈ received number rest → ∀ p ∈ received number rest, publication ≤ p := by
  obtain ⟨hfounded, hpart, -⟩ := (Stage.does_of_run h).continues founded_nil trivial
  constructor
  · intro hsorted past publication e rest hcourse hmem p hp
    by_contra hlt
    rw [Nat.not_le] at hlt
    obtain ⟨a, handler, e', b, rfl⟩ := exists_called_of_mem_received hp
    have hrest : (received number (a ++ .called p number handler e' :: b)).Pairwise (· < ·) := by
      rw [hcourse, ← List.singleton_append, received_append, received_append] at hsorted
      exact (List.pairwise_append.1 (List.pairwise_append.1 hsorted).2.1).2.1
    rw [received_append, received_cons_called] at hrest hmem
    rcases List.mem_append.1 hmem with hbefore | hafter
    · have hle := (List.pairwise_append.1 hrest).2.2 _ hbefore p List.mem_cons_self
      omega
    · -- the publication that is interrupted goes on only when the later one is done with
      have hmem : publication ∈ received number b :=
        (List.mem_cons.1 hafter).resolve_left (Nat.ne_of_gt hlt)
      obtain ⟨handler', e'', hcalled⟩ := mem_received.1 hmem
      have hnil := (hpart.served past _ _ hcourse).2 a p number handler e' b rfl hlt
      have hcall : ((number, handler'), e'') ∈ calls publication b := mem_calls.2 hcalled
      rw [hnil] at hcall
      exact absurd hcall List.not_mem_nil
  · intro hcond
    exact (hfounded.orderly hpart.served).pairwise_received hcond [] rfl

/-- Two subscriptions and a publication. The first handler publishes in answer to it. -/
def answering : Program Unit :=
  .subscribe (fun e => if e.kind = "x" then .publish ⟨"y", .null⟩ .done else .done) fun _ =>
    .subscribe (fun _ => .done) fun _ => .publish ⟨"x", .null⟩ .done

/-- Where the handler that publishes is, events arrive in the order of their publication. -/
theorem received_sorted_iff_answering :
    ∃ s, Stage.run 2 (.start ()) answering = some s ∧ received 0 s.course = [0, 1] ∧
      ∀ past publication e rest, s.course = past ++ .published publication e :: rest →
        publication ∈ received 0 rest → ∀ p ∈ received 0 rest, publication ≤ p := by
  obtain ⟨s, hs⟩ : ∃ s, Stage.run 2 (.start ()) answering = some s := ⟨_, rfl⟩
  have hreceived : (Stage.run 2 (.start ()) answering).map (fun s => received 0 s.course) =
      some [0, 1] := by decide
  rw [hs, Option.map_some, Option.some.injEq] at hreceived
  exact ⟨s, hs, hreceived, (received_sorted_iff hs 0).1 (by rw [hreceived]; decide)⟩

/-- At the other subscription the answer arrives first. -/
theorem received_reversed :
    ∃ s, Stage.run 2 (.start ()) answering = some s ∧ received 1 s.course = [1, 0] ∧
      ¬(received 1 s.course).Pairwise (· < ·) := by
  obtain ⟨s, hs⟩ : ∃ s, Stage.run 2 (.start ()) answering = some s := ⟨_, rfl⟩
  have hreceived : (Stage.run 2 (.start ()) answering).map (fun s => received 1 s.course) =
      some [1, 0] := by decide
  rw [hs, Option.map_some, Option.some.injEq] at hreceived
  exact ⟨s, hs, hreceived, by rw [hreceived]; decide⟩

end LiveAudit.Bus
