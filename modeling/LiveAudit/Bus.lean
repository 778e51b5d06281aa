import LiveAudit.Event

/-!
# Event bus

Subscriptions to a stream of events within one process. Every subscription has a number of its own
and numbers are never used again, so that registration order is the order of the numbers. Whoever
publishes an event hands it to the subscriptions registered at that moment.

A handler may act on the bus itself while an event is handed out: what it does is a program of
operations (`Bus.Program`), which may publish in turn. A bus in use (`Bus.Stage`) keeps account of
what happens on it, step by step.

A handler knows subscriptions by their numbers and owns none. One that did would let go of its own
subscriptions in the middle of a removal, at which time the registry is locked against them, and the
removal would never end. Handlers of this kind are left out.
-/

namespace LiveAudit

/-- Registered handlers by increasing number. -/
structure Bus (η : Type) where
  next : Nat
  handlers : List (Nat × η)

namespace Bus

variable {η : Type}

def empty : Bus η :=
  ⟨0, []⟩

/-- Registers a handler behind all others, and returns its number. -/
def subscribe (b : Bus η) (handler : η) : Bus η × Nat :=
  (⟨b.next + 1, b.handlers ++ [(b.next, handler)]⟩, b.next)

/-- Removes a handler; one that is not registered is none the worse. Nothing else ends with it,
since handlers own nothing. -/
def release (b : Bus η) (number : Nat) : Bus η :=
  { b with handlers := b.handlers.filter fun h => h.1 != number }

def count (b : Bus η) : Nat :=
  b.handlers.length

end Bus

/-! ### Handlers that act -/

namespace Bus

/-- Operations on a bus, one after another, each with what is done next. So do handlers act, and
those who use the bus. They share a state that any of them may change. A subscription is given up by
an operation and in no other way. -/
inductive Program (σ : Type) where
  | done
  /-- Registers a handler; what is done next knows the number of its subscription. -/
  | subscribe (handler : Envelope → Program σ) (next : Nat → Program σ)
  | unsubscribe (number : Nat) (next : Program σ)
  /-- Lets go of a subscription without a word. -/
  | drop (number : Nat) (next : Program σ)
  | publish (e : Envelope) (next : Program σ)
  /-- Publishes the event that a line stands for, if it stands for one. -/
  | publishLine (line : String) (next : Except Failure Unit → Program σ)
  /-- Asks how many handlers are registered. -/
  | count (next : Nat → Program σ)
  /-- Changes the shared state; what is done next knows it. -/
  | modify (change : σ → σ) (next : σ → Program σ)

abbrev Handler (σ : Type) : Type :=
  Envelope → Program σ

/-- What happens on a bus. -/
inductive Step (η : Type) where
  | subscribed (number : Nat) (handler : η)
  | released (number : Nat)
  /-- An event is published; publications are numbered from zero. -/
  | published (publication : Nat) (e : Envelope)
  /-- A handler is called for a publication. -/
  | called (publication number : Nat) (handler : η) (e : Envelope)
  /-- A line is no event and is not published. -/
  | refused (line : String)
  /-- Somebody is told how many handlers are registered. -/
  | counted (n : Nat)

/-- A bus in use, with the shared state of its users. -/
structure Stage (σ : Type) where
  bus : Bus (Handler σ)
  /-- Subscriptions that nobody has given up. -/
  held : List Nat
  /-- Number of publications. -/
  published : Nat
  shared : σ
  /-- All that has happened. -/
  course : List (Step (Handler σ))

namespace Stage

variable {σ : Type}

def start (shared : σ) : Stage σ :=
  ⟨.empty, [], 0, shared, []⟩

def note (s : Stage σ) (x : Step (Handler σ)) : Stage σ :=
  { s with course := s.course ++ [x] }

def subscribe (s : Stage σ) (handler : Handler σ) : Stage σ :=
  { s with
    bus := (s.bus.subscribe handler).1
    held := s.held ++ [s.bus.next] }.note (.subscribed s.bus.next handler)

/-- Gives a subscription up; one that has been given up already stays so. -/
def release (s : Stage σ) (number : Nat) : Stage σ :=
  if number ∈ s.held then
    { s with
      bus := s.bus.release number
      held := s.held.filter (· != number) }.note (.released number)
  else s

/-- Hands an event to handlers one after another, by a way of calling them. -/
def deliver (call : Stage σ → Program σ → Option (Stage σ)) (publication : Nat) (e : Envelope) :
    List (Nat × Handler σ) → Stage σ → Option (Stage σ)
  | [], s => some s
  | (number, handler) :: rest, s =>
    (call (s.note (.called publication number handler e)) (handler e)).bind
      (deliver call publication e rest)

/-- Hands an event to the handlers that are registered now. -/
def publish (call : Stage σ → Program σ → Option (Stage σ)) (s : Stage σ) (e : Envelope) :
    Option (Stage σ) :=
  deliver call s.published e s.bus.handlers
    ({ s with published := s.published + 1 }.note (.published s.published e))

/-- Does what a program says, with a way of calling handlers. Who unsubscribes lets go of the
subscription afterwards. -/
def perform (call : Stage σ → Program σ → Option (Stage σ)) :
    Stage σ → Program σ → Option (Stage σ)
  | s, .done => some s
  | s, .subscribe handler next => perform call (s.subscribe handler) (next s.bus.next)
  | s, .unsubscribe number next => perform call ((s.release number).release number) next
  | s, .drop number next => perform call (s.release number) next
  | s, .publish e next => (s.publish call e).bind fun s => perform call s next
  | s, .publishLine line next =>
    match Envelope.ofText line with
    | .ok e => (s.publish call e).bind fun s => perform call s (next (.ok ()))
    | .error f => perform call (s.note (.refused line)) (next (.error f))
  | s, .count next => perform call (s.note (.counted s.bus.count)) (next s.bus.count)
  | s, .modify change next =>
    perform call { s with shared := change s.shared } (next (change s.shared))

/-- Does what a program says; `none` if calls are nested more deeply than the allowance. -/
def run : Nat → Stage σ → Program σ → Option (Stage σ)
  | 0 => perform fun _ _ => none
  | depth + 1 => perform (run depth)

end Stage

end Bus

/-! ### Named subscriptions -/

mutual

/-- What can be done with a bus whose subscriptions have names, also by a handler. Registering a
second subscription under a name removes the first. -/
inductive BusAction where
  | subscribe (name : String) (handler : Reactions)
  | release (name : String)
  | publish (e : Envelope)
  /-- Publishes the event that a line stands for. -/
  | publishLine (line : String)
  /-- Does nothing. -/
  | rest

/-- A handler: the action it takes on each type of event, the last one given for it. -/
inductive Reactions where
  | ignore
  | on (kind : String) (act : BusAction) (others : Reactions)

end

/-- One call of a handler. -/
structure Delivery where
  name : String
  envelope : Envelope

/-- What named subscriptions share. -/
structure Names where
  /-- Number of the current subscription of each name. -/
  numbers : List (String × Nat)
  /-- Calls of handlers, the latest first. -/
  log : List Delivery

namespace Names

def forget (n : Names) (name : String) : Names :=
  { n with numbers := n.numbers.filter (·.1 != name) }

def enter (n : Names) (name : String) (number : Nat) : Names :=
  { n.forget name with numbers := (name, number) :: (n.forget name).numbers }

def record (n : Names) (d : Delivery) : Names :=
  { n with log := d :: n.log }

end Names

open Bus (Program Stage) in
mutual

/-- Program of an action. An earlier subscription of a name is dropped after the new one has been
registered. -/
def BusAction.program : BusAction → Program Names
  | .subscribe name handler =>
    .subscribe
      (fun e => .modify (·.record ⟨name, e⟩) fun _ => (handler.program? e.kind).getD .done)
      fun number => .modify id fun names =>
        let enter : Program Names := .modify (·.enter name number) fun _ => .done
        match names.numbers.lookup name with
        | some old => .drop old enter
        | none => enter
  | .release name =>
    .modify id fun names =>
      match names.numbers.lookup name with
      | some number => .drop number (.modify (·.forget name) fun _ => .done)
      | none => .done
  | .publish e => .publish e .done
  | .publishLine line => .publishLine line fun _ => .done
  | .rest => .done

/-- Program on a type of event. -/
def Reactions.program? : Reactions → String → Option (Program Names)
  | .ignore, _ => none
  | .on kind act others, k => others.program? k <|> if kind = k then some act.program else none

end

/-- A bus with named subscriptions, and what has been delivered on it. -/
abbrev Hub : Type :=
  Bus.Stage Names

namespace Hub

def empty : Hub :=
  .start ⟨[], []⟩

def named (h : Hub) : List (String × Nat) :=
  h.shared.numbers

def log (h : Hub) : List Delivery :=
  h.shared.log

/-- Takes an action; `none` if deliveries are nested more deeply than the allowance. -/
def perform (depth : Nat) (h : Hub) (act : BusAction) : Option Hub :=
  Bus.Stage.run depth h act.program

end Hub

end LiveAudit
