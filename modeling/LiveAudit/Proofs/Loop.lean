import Mathlib.Data.List.Induction
import LiveAudit.Session
import LiveAudit.Proofs.History
import LiveAudit.Proofs.Share

/-!
# The loop at work

`Session.step` handles a message as a whole. Seen from outside there are two moments to it: the loop
takes the message, handles it and sends the requests that arise, and later it publishes the view. In
between, as at any other time, messages join the queue, and so do the answers to requests that were
sent. `Loop` is a session with the message that is in hand, and a list of moves is one interleaving
of what the loop does with what happens around it. The two moves of the loop together are
`Session.step` (`Loop.finish_take`).

Messages are taken in the order in which they joined the queue (`Traffic.fifo`), a barrier is
reached only by taking one (`Traffic.exists_barrier_of_reached`), and what is published is the view
of the reconciler whenever no message is in hand (`Traffic.fresh_run`). So when a barrier is seen to
be reached, everything that was queued before it had been handled at a moment since it was set
(`Traffic.exists_handled_of_reached`).
-/

namespace LiveAudit

namespace Message

/-- What a message tells the reconciler. A malformed event tells it nothing. -/
def input? : Message → Option Reconciler.Input
  | .event e =>
    match Event.ofEnvelope e with
    | .ok told => some (.event told)
    | .error _ => none
  | .completed c => some (.completion c)
  | .startSync => some .startSync
  | .loadMore => some .loadMore
  | .refresh => some .refresh
  | .barrier _ | .shutdown => none

/-- The request that a message brings the answer to. -/
def request? : Message → Option Request
  | .completed c => some c.request
  | .event _ | .startSync | .loadMore | .refresh | .barrier _ | .shutdown => none

/-- The number of a barrier. -/
def number? : Message → Option Nat
  | .barrier number => some number
  | .event _ | .completed _ | .startSync | .loadMore | .refresh | .shutdown => none

/-- Whether a message closes the session. -/
def closes : Message → Bool
  | .shutdown => true
  | .event _ | .completed _ | .startSync | .loadMore | .refresh | .barrier _ => false

/-- What a message brings the answer to is what it tells the reconciler of. -/
theorem answered_input? (m : Message) :
    m.input?.bind Reconciler.Input.answered = m.request? := by
  cases m with
  | event e =>
    simp only [input?]
    cases Event.ofEnvelope e <;> rfl
  | completed c => rfl
  | startSync => rfl
  | loadMore => rfl
  | refresh => rfl
  | barrier number => rfl
  | shutdown => rfl

/-- A message never opens a repository. -/
theorem opens_input? {m : Message} {i : Reconciler.Input} (h : m.input? = some i) (d : Reconciler)
    (repo : Ident) : d.opens repo i = false := by
  cases m with
  | event e =>
    simp only [input?] at h
    split at h
    · obtain rfl := Option.some.inj h
      rfl
    · simp at h
  | completed c => obtain rfl := Option.some.inj h; rfl
  | startSync => obtain rfl := Option.some.inj h; rfl
  | loadMore => obtain rfl := Option.some.inj h; rfl
  | refresh => obtain rfl := Option.some.inj h; rfl
  | barrier number => simp [input?] at h
  | shutdown => simp [input?] at h

end Message

/-- What an input does to a reconciler, if there is one. -/
def Reconciler.follow (d : Reconciler) : Option Input → Reconciler × List Request
  | none => (d, [])
  | some i => d.step i

namespace Session

/-! ### One message -/

/-- Publishing makes the view the published one, and changes nothing else but the version. -/
theorem publish_eq (s : Session) :
    s.publish = { s with published := s.reconciler.view, version := s.publish.version } := by
  unfold publish
  dsimp only
  split_ifs with h
  · rw [h]
  · rfl

/-- Requests may be taken before the view is published or after it. -/
theorem takeRequests_publish (s : Session) :
    s.publish.takeRequests = (s.takeRequests.1, s.takeRequests.2.publish) := by
  unfold publish takeRequests
  dsimp only
  split_ifs <;> rfl

/-- A message that tells the reconciler something makes the session go on by that. -/
theorem handle_of_input (s : Session) {m : Message} {i : Reconciler.Input} (h : m.input? = some i) :
    s.handle m = s.advance (s.reconciler.step i) ∧ m.number? = none ∧ m.closes = false := by
  cases m with
  | event e =>
    simp only [Message.input?] at h
    split at h
    · rename_i event he
      obtain rfl := Option.some.inj h
      exact ⟨by simp only [handle, he]; rfl, rfl, rfl⟩
    · simp at h
  | completed c => obtain rfl := Option.some.inj h; exact ⟨rfl, rfl, rfl⟩
  | startSync => obtain rfl := Option.some.inj h; exact ⟨rfl, rfl, rfl⟩
  | loadMore => obtain rfl := Option.some.inj h; exact ⟨rfl, rfl, rfl⟩
  | refresh => obtain rfl := Option.some.inj h; exact ⟨rfl, rfl, rfl⟩
  | barrier number => simp [Message.input?] at h
  | shutdown => simp [Message.input?] at h

/-- Any other message may be a barrier, or close the session. -/
theorem handle_of_no_input (s : Session) {m : Message} (h : m.input? = none) :
    s.handle m = { s with
      reached := m.number?.elim s.reached (max s.reached)
      closed := s.closed || m.closes } := by
  cases m with
  | event e =>
    simp only [Message.input?] at h
    split at h
    · simp at h
    · rename_i he
      simp [handle, he, Message.number?, Message.closes]
  | completed c => simp [Message.input?] at h
  | startSync => simp [Message.input?] at h
  | loadMore => simp [Message.input?] at h
  | refresh => simp [Message.input?] at h
  | barrier number => simp [handle, Message.number?, Message.closes]
  | shutdown => simp [handle, Message.number?, Message.closes]

/-- The message that is handled next. -/
def next? (s : Session) : Option Message :=
  if s.closed then none else s.queue.head?

/-- Handles the next message, but does not publish the view yet. -/
def begin (s : Session) : Session :=
  { s.step with published := s.published, version := s.version }

/-- The message that is next is the first in the queue. -/
theorem queue_of_next {s : Session} {m : Message} (h : s.next? = some m) :
    s.queue = m :: s.queue.tail := by
  simp only [next?] at h
  split_ifs at h
  obtain ⟨rest, hqueue⟩ := List.head?_eq_some_iff.1 h
  rw [hqueue, List.tail_cons]

/-- It is taken off the queue and handled. -/
theorem step_of_next {s : Session} {m : Message} (h : s.next? = some m) :
    s.step = { s with queue := s.queue.tail }.handle m := by
  have hqueue := queue_of_next h
  simp only [next?] at h
  split_ifs at h with hclosed
  rw [step, if_neg hclosed, hqueue]
  rfl

/-- What handling the next message does, before the view is published. -/
theorem begin_eq {s : Session} {m : Message} (h : s.next? = some m) :
    s.begin = { s with
      reconciler := (s.reconciler.follow m.input?).1
      queue := s.queue.tail
      unsent := s.unsent ++ (s.reconciler.follow m.input?).2
      reached := m.number?.elim s.reached (max s.reached)
      closed := s.closed || m.closes } := by
  rw [begin, step_of_next h]
  cases hi : m.input? with
  | some i =>
    obtain ⟨hhandle, hnumber, hcloses⟩ := handle_of_input { s with queue := s.queue.tail } hi
    rw [hhandle, advance, publish_eq, hnumber, hcloses, Bool.or_false]
    rfl
  | none =>
    rw [handle_of_no_input _ hi, Reconciler.follow, List.append_nil]

/-- A session handles its next message by beginning it, and then publishing the view if the message
has told the reconciler something. -/
theorem step_eq_begin {s : Session} {m : Message} (h : s.next? = some m) :
    s.step = if m.input?.isSome then s.begin.publish else s.begin := by
  rw [begin_eq h, step_of_next h]
  cases hi : m.input? with
  | some i =>
    obtain ⟨hhandle, hnumber, hcloses⟩ := handle_of_input { s with queue := s.queue.tail } hi
    rw [hhandle, advance, hnumber, hcloses, Bool.or_false]
    rfl
  | none =>
    rw [handle_of_no_input _ hi, Reconciler.follow, List.append_nil]
    rfl

end Session

/-! ### The loop -/

/-- A session at any moment, with the message that is in hand. -/
structure Loop where
  session : Session
  inHand : Option Message

namespace Loop

/-- One thing that happens, in the loop or around it. -/
inductive Move where
  | event (e : Envelope)
  | startSync
  | loadMore
  | refresh
  | shutdown
  /-- A barrier is set, by someone who waits until the session has settled. -/
  | await
  /-- A request has been carried out, and its completion joins the queue. -/
  | answer (c : Completion)
  /-- The loop takes the next message, handles it and sends the requests that arise. -/
  | take
  /-- The loop publishes the view, and is done with the message. -/
  | finish

/-- The message that joins the queue with a move, if the session is not closed. -/
def message (l : Loop) : Move → Option Message
  | .event e => some (.event e)
  | .startSync => some .startSync
  | .loadMore => some .loadMore
  | .refresh => some .refresh
  | .shutdown => some .shutdown
  | .await => some (.barrier (l.session.barriers + 1))
  | .answer c => some (.completed c)
  | .take | .finish => none

/-- Sends a message. -/
def send (l : Loop) (m : Message) : Loop × List Request :=
  ({ l with session := l.session.send m }, [])

def step (l : Loop) : Move → Loop × List Request
  | .event e => l.send (.event e)
  | .startSync => l.send .startSync
  | .loadMore => l.send .loadMore
  | .refresh => l.send .refresh
  | .shutdown => l.send .shutdown
  | .await => ({ l with session := l.session.setBarrier.1 }, [])
  | .answer c => l.send (.completed c)
  | .take =>
    match l.inHand, l.session.next? with
    | none, some m =>
      let (requests, s) := l.session.begin.takeRequests
      (⟨s, some m⟩, requests)
    | _, _ => (l, [])
  | .finish =>
    -- a message that tells the reconciler nothing is passed over without publishing
    match l.inHand.bind Message.input? with
    | some _ => (⟨l.session.publish, none⟩, [])
    | none => (⟨l.session, none⟩, [])

/-- The request whose answer a move brings. -/
def Move.answered : Move → Option Request
  | .answer c => some c.request
  | .event _ | .startSync | .loadMore | .refresh | .shutdown | .await | .take | .finish => none

instance : Dialogue Move Loop where
  step := Loop.step
  answered := Move.answered

/-- The message that joins the queue with a move. -/
def queued (l : Loop) (v : Move) : Option Message :=
  if l.session.closed then none else l.message v

/-- The message that the loop takes with a move. -/
def taken (l : Loop) : Move → Option Message
  | .take => if l.inHand.isSome then none else l.session.next?
  | .event _ | .startSync | .loadMore | .refresh | .shutdown | .await | .answer _ | .finish => none

/-- A move brings the answer that its message carries. -/
theorem answered_of_queued {l : Loop} {v : Move} {m : Message} (h : l.queued v = some m) :
    v.answered = m.request? := by
  simp only [queued] at h
  split_ifs at h
  cases v <;> simp only [message, Option.some.injEq, reduceCtorEq] at h <;> subst h <;> rfl

/-- What is published is the view of the reconciler, unless a message is in hand that tells it
something. -/
def Fresh (l : Loop) : Prop :=
  l.inHand.bind Message.input? = none → l.session.published = l.session.reconciler.view

/-! ### One move -/

/-- What a move does by which no message is taken. -/
structure Waits (l : Loop) (v : Move) (next : Loop × List Request) : Prop where
  queue : next.1.session.queue = l.session.queue ++ (l.queued v).toList
  /-- Barriers are numbered in the order in which they are set. -/
  numbered : ∀ number, l.queued v = some (.barrier number) → number ≤ next.1.session.barriers
  barriers : l.session.barriers ≤ next.1.session.barriers := by exact Nat.le_refl _
  reached : next.1.session.reached = l.session.reached := by rfl
  reconciler : next.1.session.reconciler = l.session.reconciler := by rfl
  unsent : next.1.session.unsent = l.session.unsent := by rfl
  requests : next.2 = [] := by rfl
  inHand : v ≠ .finish → next.1.inHand = l.inHand := by intro _; rfl
  published : v ≠ .finish → next.1.session.published = l.session.published := by intro _; rfl

/-- A move that changes nothing takes no message. -/
theorem waits_stay (l : Loop) {v : Move} (h : l.message v = none) : l.Waits v (l, []) where
  queue := by simp [queued, h]
  numbered := by simp [queued, h]

/-- Nor does one that sends a message. -/
theorem waits_send (l : Loop) {v : Move} {m : Message} (h : l.message v = some m)
    (hm : m.number? = none) : l.Waits v (l.send m) := by
  unfold send Session.send
  split_ifs with hclosed
  · exact { queue := by simp [queued, hclosed], numbered := by simp [queued, hclosed] }
  · refine { queue := by simp [queued, hclosed, h], numbered := fun number hnumber => ?_ }
    have hbarrier : m = .barrier number := by simpa [queued, hclosed, h] using hnumber
    simp [hbarrier, Message.number?] at hm

/-- Nor does one that sets a barrier. -/
theorem waits_await (l : Loop) : l.Waits .await (l.step .await) := by
  simp only [step, Session.setBarrier, Session.send]
  split_ifs with hclosed
  · exact {
      queue := by simp [queued, hclosed]
      numbered := by simp [queued, hclosed]
      barriers := Nat.le_succ _ }
  · exact {
      queue := by simp [queued, hclosed, message]
      numbered := by simp [queued, hclosed, message]
      barriers := Nat.le_succ _ }

/-- Nor is one taken when the loop is done with one. -/
theorem waits_finish (l : Loop) : l.Waits .finish (l.step .finish) := by
  have hnone : l.queued .finish = none := by simp [queued, message]
  simp only [step]
  split
  · rw [Session.publish_eq]
    exact {
      queue := by simp [hnone]
      numbered := by simp [hnone]
      inHand := fun h => absurd rfl h
      published := fun h => absurd rfl h }
  · exact {
      queue := by simp [hnone]
      numbered := by simp [hnone]
      inHand := fun h => absurd rfl h }

/-- A move takes the next message if the loop is free, and that is handled. -/
theorem taken_eq_some {l : Loop} {v : Move} {m : Message} (h : l.taken v = some m) :
    v = .take ∧ l.inHand = none ∧ l.session.next? = some m := by
  cases v with
  | take =>
    simp only [taken] at h
    split_ifs at h with hfree
    exact ⟨rfl, by simpa using hfree, h⟩
  | event e => simp [taken] at h
  | startSync => simp [taken] at h
  | loadMore => simp [taken] at h
  | refresh => simp [taken] at h
  | shutdown => simp [taken] at h
  | await => simp [taken] at h
  | answer c => simp [taken] at h
  | finish => simp [taken] at h

/-- The message that is taken is handled, and the requests that arise are sent. -/
theorem step_of_taken {l : Loop} {v : Move} {m : Message} (h : l.taken v = some m) :
    l.step v = (⟨{ l.session.begin with unsent := [] }, some m⟩, l.session.begin.unsent) := by
  obtain ⟨rfl, hfree, hnext⟩ := taken_eq_some h
  simp only [step, hfree, hnext, Session.takeRequests]

/-- Any other move leaves the reconciler alone. -/
theorem waits_step {l : Loop} {v : Move} (h : l.taken v = none) : l.Waits v (l.step v) := by
  cases v with
  | event e => exact l.waits_send rfl rfl
  | startSync => exact l.waits_send rfl rfl
  | loadMore => exact l.waits_send rfl rfl
  | refresh => exact l.waits_send rfl rfl
  | shutdown => exact l.waits_send rfl rfl
  | answer c => exact l.waits_send rfl rfl
  | await => exact l.waits_await
  | take =>
    have hstay : l.step .take = (l, []) := by
      cases hhand : l.inHand with
      | some m => simp [step, hhand]
      | none =>
        have hnext : l.session.next? = none := by simpa [taken, hhand] using h
        simp [step, hhand, hnext]
    rw [hstay]
    exact l.waits_stay rfl
  | finish => exact l.waits_finish

/-- Taking a message and being done with it is what a session does with its next message, and hands
over the requests. -/
theorem finish_take {s : Session} {m : Message} (h : s.next? = some m) :
    (Loop.step ⟨s, none⟩ .take).2 = s.step.takeRequests.1 ∧
      ((Loop.step ⟨s, none⟩ .take).1.step .finish).1 = ⟨s.step.takeRequests.2, none⟩ := by
  have htaken : Loop.taken ⟨s, none⟩ .take = some m := h
  rw [step_of_taken htaken, Session.step_eq_begin h]
  simp only [step, Option.bind_some]
  cases m.input? with
  | some i =>
    rw [Option.isSome_some, if_pos rfl, Session.takeRequests_publish]
    exact ⟨rfl, rfl⟩
  | none => exact ⟨rfl, rfl⟩

/-- Messages leave the queue at its front when they are taken, and join it at its end. -/
theorem queue_step (l : Loop) (v : Move) :
    l.session.queue ++ (l.queued v).toList =
      (l.taken v).toList ++ (l.step v).1.session.queue := by
  cases h : l.taken v with
  | none => exact (waits_step h).queue.symm
  | some m =>
    obtain ⟨rfl, -, hnext⟩ := taken_eq_some h
    have hnone : l.queued .take = none := by simp [queued, message]
    rw [step_of_taken h, Session.begin_eq hnext, hnone]
    simpa using Session.queue_of_next hnext

/-- Barriers are numbered in the order in which they are set. -/
theorem barriers_step (l : Loop) (v : Move) :
    l.session.barriers ≤ (l.step v).1.session.barriers ∧
      ∀ number, l.queued v = some (.barrier number) →
        number ≤ (l.step v).1.session.barriers := by
  cases h : l.taken v with
  | none => exact ⟨(waits_step h).barriers, (waits_step h).numbered⟩
  | some m =>
    obtain ⟨rfl, -, hnext⟩ := taken_eq_some h
    rw [step_of_taken h, Session.begin_eq hnext]
    exact ⟨Nat.le_refl _, by simp [queued, message]⟩

/-- A barrier is reached by taking one with that number or a higher one. -/
theorem reached_step {l : Loop} {v : Move} {b : Nat} (h : b ≤ (l.step v).1.session.reached) :
    b ≤ l.session.reached ∨ ∃ number, l.taken v = some (.barrier number) ∧ b ≤ number := by
  cases ht : l.taken v with
  | none =>
    rw [(waits_step ht).reached] at h
    exact .inl h
  | some m =>
    obtain ⟨rfl, -, hnext⟩ := taken_eq_some ht
    rw [step_of_taken ht, Session.begin_eq hnext] at h
    cases m with
    | barrier number =>
      have hmax : b ≤ max l.session.reached number := h
      have hor : b ≤ l.session.reached ∨ b ≤ number := by omega
      exact hor.imp_right fun hle => ⟨number, rfl, hle⟩
    | event e => exact .inl h
    | completed c => exact .inl h
    | startSync => exact .inl h
    | loadMore => exact .inl h
    | refresh => exact .inl h
    | shutdown => exact .inl h

/-- Being done with a message publishes the view, unless the message has changed nothing. -/
theorem fresh_finish {l : Loop} (h : l.Fresh) : (l.step .finish).1.Fresh := by
  intro _
  simp only [step]
  split
  · rw [Session.publish_eq]
  · exact h ‹_›

/-- Every move leaves what is published the view, unless a message is in hand. -/
theorem Fresh.step {l : Loop} (h : l.Fresh) (v : Move) : (l.step v).1.Fresh := by
  cases ht : l.taken v with
  | some m =>
    obtain ⟨rfl, hfree, hnext⟩ := taken_eq_some ht
    rw [step_of_taken ht, Session.begin_eq hnext]
    intro hm
    have hm' : m.input? = none := hm
    rw [hm']
    exact h (by rw [hfree]; rfl)
  | none =>
    by_cases hv : v = .finish
    · subst hv
      exact fresh_finish h
    · have hwaits := waits_step ht
      unfold Fresh
      rw [hwaits.inHand hv, hwaits.published hv, hwaits.reconciler]
      exact h

/-- Done with a message, the loop is free. -/
theorem inHand_finish (l : Loop) : (l.step .finish).1.inHand = none := by
  simp only [step]
  split <;> rfl

end Loop

namespace Traffic

open Loop (Move)

/-! ### Interleavings -/

/-- Messages are taken in the order in which they joined the queue, and none is lost. -/
theorem fifo (t : Traffic Loop) (moves : List Move) :
    t.state.session.queue ++ t.collect Loop.queued moves =
      t.collect Loop.taken moves ++ (t.run moves).state.session.queue := by
  induction moves generalizing t with
  | nil => exact List.append_nil _
  | cons v rest ih =>
    have hstep : t.state.session.queue ++ (t.state.queued v).toList =
        (t.state.taken v).toList ++ (t.next v).state.session.queue := t.state.queue_step v
    rw [collect_cons, collect_cons, ← List.append_assoc, hstep, List.append_assoc, ih,
      List.append_assoc, run_cons]

/-- Barriers that have joined the queue have been numbered. -/
theorem le_barriers (t : Traffic Loop) (moves : List Move) :
    t.state.session.barriers ≤ (t.run moves).state.session.barriers ∧
      ∀ number, .barrier number ∈ t.collect Loop.queued moves →
        number ≤ (t.run moves).state.session.barriers := by
  induction moves generalizing t with
  | nil => exact ⟨Nat.le_refl _, by simp [collect]⟩
  | cons v rest ih =>
    obtain ⟨hmore, hnumbered⟩ := t.state.barriers_step v
    obtain ⟨hrest, hlater⟩ := ih (t.next v)
    refine ⟨Nat.le_trans hmore hrest, fun number hmem => ?_⟩
    rw [collect_cons, List.mem_append, Option.mem_toList] at hmem
    exact hmem.elim (fun hnow => Nat.le_trans (hnumbered number hnow) hrest) (hlater number)

/-- A barrier that was not reached before is reached by taking one with its number or a higher
one. -/
theorem exists_barrier_of_reached {t : Traffic Loop} {b : Nat} {moves : List Move}
    (h : b ≤ (t.run moves).state.session.reached) :
    b ≤ t.state.session.reached ∨
      ∃ number, .barrier number ∈ t.collect Loop.taken moves ∧ b ≤ number := by
  induction moves generalizing t with
  | nil => exact .inl h
  | cons v rest ih =>
    rw [collect_cons]
    rcases ih h with hnow | ⟨number, hmem, hle⟩
    · refine (Loop.reached_step hnow).imp_right ?_
      rintro ⟨number, htaken, hle⟩
      exact ⟨number, List.mem_append_left _ (Option.mem_toList.2 htaken), hle⟩
    · exact .inr ⟨number, List.mem_append_right _ hmem, hle⟩

/-- What is published stays the view of the reconciler, unless a message is in hand. -/
theorem fresh_run {t : Traffic Loop} (h : t.state.Fresh) (moves : List Move) :
    (t.run moves).state.Fresh := by
  induction moves generalizing t with
  | nil => exact h
  | cons v rest ih => exact ih (h.step v)

/-- Unless no message was taken, there was a moment when none was in hand, since when at most one
was taken and nothing else was published. -/
theorem exists_free (t : Traffic Loop) (moves : List Move) :
    t.collect Loop.taken moves = [] ∨ ∃ before after, moves = before ++ after ∧
      (t.run before).state.inHand = none ∧
      (t.run before).state.session.published = (t.run moves).state.session.published ∧
      (t.collect Loop.taken moves).length ≤ (t.collect Loop.taken before).length + 1 := by
  induction moves using List.reverseRecOn with
  | nil => exact .inl rfl
  | append_singleton moves v ih =>
    rw [collect_concat, run_concat]
    cases ht : (t.run moves).state.taken v with
    | some m =>
      obtain ⟨rfl, hfree, hnext⟩ := Loop.taken_eq_some ht
      have hsame : ((t.run moves).next Move.take).state.session.published =
          (t.run moves).state.session.published := by
        change ((t.run moves).state.step .take).1.session.published = _
        rw [Loop.step_of_taken ht]
        rfl
      exact .inr ⟨moves, [.take], rfl, hfree, hsame.symm, by simp⟩
    | none =>
      rw [Option.toList_none, List.append_nil]
      by_cases hv : v = .finish
      · subst hv
        have hfree : (t.run (moves ++ [.finish])).state.inHand = none := by
          rw [run_concat]
          exact Loop.inHand_finish _
        refine .inr ⟨moves ++ [.finish], [], by simp, hfree, by rw [run_concat], ?_⟩
        rw [collect_concat, ht]
        simp
      · refine ih.imp_right ?_
        rintro ⟨before, after, rfl, hfree, hsame, hlength⟩
        have hstays : ((t.run (before ++ after)).next v).state.session.published =
            (t.run (before ++ after)).state.session.published := (Loop.waits_step ht).published hv
        exact ⟨before, after ++ [v], List.append_assoc .., hfree, hsame.trans hstays.symm, hlength⟩

/-! ### Barriers -/

section

variable {t : Traffic Loop}

/-- What is taken from a queue that was empty is the beginning of what has joined it. -/
theorem taken_isPrefix (hempty : t.state.session.queue = []) (moves : List Move) :
    t.collect Loop.taken moves <+: t.collect Loop.queued moves := by
  have hfifo := t.fifo moves
  rw [hempty, List.nil_append] at hfifo
  exact ⟨_, hfifo.symm⟩

/-- By when a barrier is reached that was set after some moves, more has been taken than had joined
the queue with them. -/
theorem length_queued_lt (hempty : t.state.session.queue = []) (hnone : t.state.session.reached = 0)
    {past rest : List Move} (h : (t.run past).state.session.barriers <
      (t.run (past ++ rest)).state.session.reached) :
    (t.collect Loop.queued past).length < (t.collect Loop.taken (past ++ rest)).length := by
  obtain hstart | ⟨number, hmem, hlt⟩ := exists_barrier_of_reached (Nat.succ_le_of_lt h)
  · exact absurd (hnone ▸ hstart) (Nat.not_succ_le_zero _)
  · by_contra hle
    -- otherwise the barrier had joined the queue before it was numbered
    have hfirst : t.collect Loop.taken (past ++ rest) <+: t.collect Loop.queued past :=
      List.prefix_of_prefix_length_le (taken_isPrefix hempty _) (t.collect_isPrefix past rest)
        (Nat.le_of_not_lt hle)
    have hnumbered := (t.le_barriers past).2 number (hfirst.subset hmem)
    omega

/-- When a barrier is reached, there was a moment since it was set when no message was in hand and
everything had been taken that was queued before it, and nothing has been published since. -/
theorem exists_handled_of_reached (hempty : t.state.session.queue = [])
    (hnone : t.state.session.reached = 0) {past rest : List Move}
    (h : (t.run past).state.session.barriers <
      (t.run (past ++ .await :: rest)).state.session.reached) :
    ∃ before after, rest = before ++ after ∧
      (t.run (past ++ .await :: before)).state.inHand = none ∧
      (t.run (past ++ .await :: before)).state.session.published =
        (t.run (past ++ .await :: rest)).state.session.published ∧
      t.collect Loop.queued past <+: t.collect Loop.taken (past ++ .await :: before) := by
  have hmore := length_queued_lt hempty hnone h
  have htaken : ∀ moves, t.collect Loop.taken (past ++ .await :: moves) =
      t.collect Loop.taken past ++ ((t.run past).next Move.await).collect Loop.taken moves :=
    fun moves => collect_append t past (.await :: moves)
  have hrun : ∀ moves, t.run (past ++ .await :: moves) =
      ((t.run past).next Move.await).run moves := fun moves => run_append t past (.await :: moves)
  rw [htaken, List.length_append] at hmore
  rcases exists_free ((t.run past).next Move.await) rest with hidle | hbetween
  · -- what was taken before the barrier was set had joined the queue by then
    have hpast := (taken_isPrefix hempty past).length_le
    rw [hidle, List.length_nil] at hmore
    omega
  · obtain ⟨before, after, rfl, hfree, hsame, hlength⟩ := hbetween
    refine ⟨before, after, rfl, by rwa [hrun], by rwa [hrun, hrun], ?_⟩
    refine List.prefix_of_prefix_length_le (t.collect_isPrefix past (.await :: before))
      (taken_isPrefix hempty _) ?_
    rw [htaken, List.length_append]
    omega

end

end Traffic

end LiveAudit
