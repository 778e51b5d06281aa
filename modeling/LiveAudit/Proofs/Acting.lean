import LiveAudit.Proofs.Course

/-!
# What programs do to the course of events

What comes of a program can be said without a registry, in terms of what has happened before
(`Bus.Does`): a subscription is numbered by those made before it, an event is handed to the handlers
that the past tells are registered, each of which is a program again, and who asks is told the
subscriptions less the releases. What is done in this way continues a founded course as a part of it
(`Bus.Does.continues`).
-/

namespace LiveAudit.Bus

/-- What is to be done on a bus: what a program says, or to hand an event to handlers. -/
inductive Task (σ : Type) where
  | carryOut (program : Program σ)
  | hand (publication : Nat) (e : Envelope) (handlers : List (Nat × Handler σ))

namespace Task

variable {σ : Type}

/-- Publication that a task serves. -/
def own : Task σ → Option Nat
  | .carryOut _ => none
  | .hand publication _ _ => some publication

/-- An event is handed on after it was published. -/
def Ready (past : List (Step (Handler σ))) : Task σ → Prop
  | .carryOut _ => True
  | .hand publication e _ => .published publication e ∈ past

/-- The handlers are called that an event is to be handed to, and no others. -/
def Handed (tail : List (Step (Handler σ))) : Task σ → Prop
  | .carryOut _ => True
  | .hand publication e handlers => calls publication tail = handlers.map (·, e)

end Task

/-- What comes of a task in view of what has happened before: the steps that are added to the
course, and what becomes of the shared state. -/
inductive Does {σ : Type} :
    List (Step (Handler σ)) → σ → Task σ → List (Step (Handler σ)) → σ → Prop where
  | done (past : List (Step (Handler σ))) (x : σ) : Does past x (.carryOut .done) [] x
  /-- What is done next knows the number of the subscription. -/
  | subscribe {past tail : List (Step (Handler σ))} {x y : σ} {number : Nat} {handler : Handler σ}
      {next : Nat → Program σ} (new : number = (subscriptions past).length)
      (rest : Does (past ++ [.subscribed number handler]) x (.carryOut (next number)) tail y) :
      Does past x (.carryOut (.subscribe handler next)) (.subscribed number handler :: tail) y
  | drop {past tail : List (Step (Handler σ))} {x y : σ} {number : Nat} {next : Program σ}
      (held : ∃ handler, (number, handler) ∈ registered past)
      (rest : Does (past ++ [.released number]) x (.carryOut next) tail y) :
      Does past x (.carryOut (.drop number next)) (.released number :: tail) y
  /-- What has been given up is not given up again. -/
  | dropAgain {past tail : List (Step (Handler σ))} {x y : σ} {number : Nat} {next : Program σ}
      (gone : ∀ handler, (number, handler) ∉ registered past)
      (rest : Does past x (.carryOut next) tail y) :
      Does past x (.carryOut (.drop number next)) tail y
  | unsubscribe {past tail : List (Step (Handler σ))} {x y : σ} {number : Nat} {next : Program σ}
      (same : Does past x (.carryOut (.drop number next)) tail y) :
      Does past x (.carryOut (.unsubscribe number next)) tail y
  /-- The event is handed to the handlers that are registered, before anything else is done. -/
  | publish {past inner tail : List (Step (Handler σ))} {x y z : σ} {publication : Nat}
      {e : Envelope} {next : Program σ} (new : publication = publications past)
      (hand : Does (past ++ [.published publication e]) x
        (.hand publication e (registered past)) inner z)
      (rest : Does (past ++ .published publication e :: inner) z (.carryOut next) tail y) :
      Does past x (.carryOut (.publish e next)) (.published publication e :: inner ++ tail) y
  | publishLine {past tail : List (Step (Handler σ))} {x y : σ} {line : String} {e : Envelope}
      {next : Except Failure Unit → Program σ} (read : Envelope.ofText line = .ok e)
      (same : Does past x (.carryOut (.publish e (next (.ok ())))) tail y) :
      Does past x (.carryOut (.publishLine line next)) tail y
  | refuse {past tail : List (Step (Handler σ))} {x y : σ} {line : String} {f : Failure}
      {next : Except Failure Unit → Program σ} (unread : Envelope.ofText line = .error f)
      (rest : Does (past ++ [.refused line]) x (.carryOut (next (.error f))) tail y) :
      Does past x (.carryOut (.publishLine line next)) (.refused line :: tail) y
  | count {past tail : List (Step (Handler σ))} {x y : σ} {n : Nat} {next : Nat → Program σ}
      (told : n + releases past = (subscriptions past).length)
      (rest : Does (past ++ [.counted n]) x (.carryOut (next n)) tail y) :
      Does past x (.carryOut (.count next)) (.counted n :: tail) y
  | modify {past tail : List (Step (Handler σ))} {x y : σ} {change : σ → σ} {next : σ → Program σ}
      (rest : Does past (change x) (.carryOut (next (change x))) tail y) :
      Does past x (.carryOut (.modify change next)) tail y
  | handed (past : List (Step (Handler σ))) (x : σ) (publication : Nat) (e : Envelope) :
      Does past x (.hand publication e []) [] x
  /-- A handler is called with the event, and does what it says to that event before the next one is
  called. -/
  | call {past inner tail : List (Step (Handler σ))} {x y z : σ} {publication number : Nat}
      {e : Envelope} {handler : Handler σ} {others : List (Nat × Handler σ)}
      (act : Does (past ++ [.called publication number handler e]) x
        (.carryOut (handler e)) inner z)
      (rest : Does (past ++ .called publication number handler e :: inner) z
        (.hand publication e others) tail y) :
      Does past x (.hand publication e ((number, handler) :: others))
        (.called publication number handler e :: inner ++ tail) y

section

variable {σ : Type} {past inner tail : List (Step (Handler σ))} {x : Step (Handler σ)}
  {task : Task σ}

/-- What comes of a task continues the course that there is. -/
structure Task.Continues (task : Task σ) (past tail : List (Step (Handler σ))) : Prop where
  founded : Founded (past ++ tail)
  part : Part task.own past tail
  handed : task.Handed tail

/-- A step that neither publishes nor calls, and what is done after it. -/
theorem Task.Continues.cons {program next : Program σ} (hpast : Founded past)
    (hx : x.Founded past) (hserved : ∀ rest, x.Served past rest)
    (hcall : ∀ p n f e, x ≠ .called p n f e)
    (h : Founded (past ++ [x]) → (carryOut next).Continues (past ++ [x]) tail) :
    (carryOut program).Continues past (x :: tail) := by
  have hfounded := founded_concat.2 ⟨hpast, hx⟩
  obtain ⟨hall, hpart, -⟩ := h hfounded
  refine ⟨?_, ?_, trivial⟩
  · rwa [List.append_cons]
  · have hone : Part none past [x] :=
      .single (hserved []) fun p n f e heq => absurd heq (hcall p n f e)
    exact hone.append hfounded nofun hpart

/-- A publication is a part with all that its handlers do. -/
theorem part_publication {publication : Nat} {e : Envelope}
    (hnew : publication = publications past)
    (h : (Task.hand publication e (registered past)).Continues
      (past ++ [.published publication e]) inner) :
    Part none past (.published publication e :: inner) := by
  have hone : publications (past ++ [.published publication e]) = publication + 1 := by
    rw [publications_append, hnew]
    rfl
  have hrecent : ∀ p n f e', .called p n f e' ∈ inner → publication ≤ p := by
    intro p n f e' hmem
    rcases h.part.recent p n f e' hmem with hp | hp
    · exact Nat.le_of_eq (Option.some.inj hp)
    · rw [hone] at hp
      exact Nat.le_of_succ_le hp
  refine ⟨?_, ?_⟩
  · intro a y b heq
    rcases List.cons_eq_append_iff.1 heq with ⟨rfl, hy⟩ | ⟨c, rfl, hc⟩
    · obtain ⟨rfl, rfl⟩ := List.cons.inj hy
      rw [List.append_nil]
      refine ⟨h.handed, fun a p n f e' c hsplit hlt => ?_⟩
      have hmem : .called p n f e' ∈ b := by rw [hsplit]; simp
      exact absurd hlt (Nat.not_lt.2 (hrecent p n f e' hmem))
    · have hserved := h.part.served c y b hc
      rwa [List.append_assoc] at hserved
  · intro p n f e' hmem
    have hmem : .called p n f e' ∈ inner := (List.mem_cons.1 hmem).resolve_left (by simp)
    exact .inr (hnew ▸ hrecent p n f e' hmem)

/-- An event is published and handed out, and then the program goes on. -/
theorem Task.Continues.publish {publication : Nat} {e : Envelope} {next : Program σ}
    (hpast : Founded past) (hnew : publication = publications past)
    (hhand : Founded (past ++ [.published publication e]) →
      (hand publication e (registered past)).Ready (past ++ [.published publication e]) →
      (hand publication e (registered past)).Continues (past ++ [.published publication e]) inner)
    (hrest : Founded (past ++ .published publication e :: inner) →
      (carryOut next).Continues (past ++ .published publication e :: inner) tail) :
    (carryOut (.publish e next)).Continues past (.published publication e :: inner ++ tail) := by
  have hfounded : Founded (past ++ [.published publication e]) := founded_concat.2 ⟨hpast, hnew⟩
  have hserved := hhand hfounded (List.mem_append_right _ (List.mem_singleton_self _))
  have hinner := hserved.founded
  rw [← List.append_cons] at hinner
  obtain ⟨hall, hlater, -⟩ := hrest hinner
  refine ⟨?_, (part_publication hnew hserved).append hinner nofun hlater, trivial⟩
  rwa [← List.append_assoc]

/-- A handler is called, does what it does, and the event is handed on. -/
theorem Task.Continues.call {publication number : Nat} {e : Envelope} {handler : Handler σ}
    {others : List (Nat × Handler σ)} {program : Program σ} (hpast : Founded past)
    (hready : .published publication e ∈ past)
    (hact : Founded (past ++ [.called publication number handler e]) →
      (carryOut program).Continues (past ++ [.called publication number handler e]) inner)
    (hrest : Founded (past ++ .called publication number handler e :: inner) →
      (hand publication e others).Continues
        (past ++ .called publication number handler e :: inner) tail) :
    (hand publication e ((number, handler) :: others)).Continues past
      (.called publication number handler e :: inner ++ tail) := by
  have hfounded : Founded (past ++ [.called publication number handler e]) :=
    founded_concat.2 ⟨hpast, hready⟩
  have hlt : publication < publications past := hpast.lt_of_published hready
  have hown : ∀ p, some publication = some p → p < publications past := by
    rintro p ⟨⟩
    exact hlt
  obtain ⟨hinner, hpart, -⟩ := hact hfounded
  rw [← List.append_cons] at hinner
  obtain ⟨hall, hlater, hcalls⟩ := hrest hinner
  -- what the handler does brings no call for this publication, which was made before
  have hnone : calls publication inner = [] := by
    refine calls_eq_nil fun n f e' hmem => ?_
    rcases hpart.recent _ _ _ _ hmem with hp | hp
    · simp [own] at hp
    · rw [publications_append] at hp
      exact absurd hlt (Nat.not_lt.2 (Nat.le_of_add_right_le hp))
  have hcalled : Part (some publication) past (.called publication number handler e :: inner) := by
    have hone : Part (some publication) past [.called publication number handler e] :=
      .single trivial (by rintro p n f e' ⟨⟩; rfl)
    exact hone.append hfounded hown hpart.within
  refine ⟨?_, hcalled.append hinner hown hlater, ?_⟩
  · rwa [← List.append_assoc]
  · have hone : calls publication (.called publication number handler e :: inner) =
        [((number, handler), e)] := by
      rw [← List.singleton_append, calls_append, hnone]
      simp [calls, Step.call?]
    rw [Handed, calls_append, hone, hcalls]
    rfl

/-- What comes of a task continues a founded course, and an event is handed to those that it is to
be handed to. -/
theorem Does.continues {y z : σ} (h : Does past y task tail z) (hpast : Founded past)
    (hready : task.Ready past) : task.Continues past tail := by
  induction h with
  | done past x => exact ⟨by rwa [List.append_nil], .nil, trivial⟩
  | subscribe new _ ih =>
    exact .cons hpast new (fun _ => trivial) (by simp) fun h => ih h trivial
  | drop held _ ih => exact .cons hpast held (fun _ => trivial) (by simp) fun h => ih h trivial
  | dropAgain _ _ ih =>
    obtain ⟨hfounded, hpart, -⟩ := ih hpast trivial
    exact ⟨hfounded, hpart, trivial⟩
  | unsubscribe _ ih =>
    obtain ⟨hfounded, hpart, -⟩ := ih hpast trivial
    exact ⟨hfounded, hpart, trivial⟩
  | publish new _ _ ihHand ihRest => exact .publish hpast new ihHand fun h => ihRest h trivial
  | publishLine _ _ ih =>
    obtain ⟨hfounded, hpart, -⟩ := ih hpast trivial
    exact ⟨hfounded, hpart, trivial⟩
  | refuse unread _ ih =>
    exact .cons hpast ⟨_, unread⟩ (fun _ => trivial) (by simp) fun h => ih h trivial
  | count told _ ih => exact .cons hpast told (fun _ => trivial) (by simp) fun h => ih h trivial
  | modify _ ih =>
    obtain ⟨hfounded, hpart, -⟩ := ih hpast trivial
    exact ⟨hfounded, hpart, trivial⟩
  | handed past x publication e => exact ⟨by rwa [List.append_nil], .nil, rfl⟩
  | call _ _ ihAct ihRest =>
    exact .call hpast hready (fun h => ihAct h trivial)
      fun h => ihRest h (List.mem_append_left _ hready)

end

end LiveAudit.Bus
