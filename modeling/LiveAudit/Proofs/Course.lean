import Mathlib.Data.List.Induction
import Mathlib.Data.List.Nodup
import LiveAudit.Bus

/-!
# The course of events on a bus

What has happened on a bus, read as a list of steps, tells who is registered: the subscriptions that
have been made, without those released since (`Bus.registered`). In a course in which each step
rests on those before it (`Bus.Founded`), no number is used twice, each subscription is released
once at most, and there are as many handlers as subscriptions less releases
(`Founded.length_registered`).

A publication calls the handlers registered at its moment. Calls nest, so that a publication is not
done with when the next one is made. What is done in between is therefore described on its own
(`Bus.Part`): the calls in it are for publications made in it, or for the one that is being handed
out. Two parts one behind the other are a part (`Part.append`).
-/

namespace LiveAudit.Bus

variable {η : Type}

/-! ### What a course tells -/

namespace Step

/-- Subscription that a step makes. -/
def subscription? : Step η → Option (Nat × η)
  | .subscribed number handler => some (number, handler)
  | _ => none

def isRelease : Step η → Bool
  | .released _ => true
  | _ => false

/-- Whether a step releases a subscription. -/
def isReleaseOf (number : Nat) : Step η → Bool
  | .released n => n == number
  | _ => false

def isPublication : Step η → Bool
  | .published _ _ => true
  | _ => false

/-- Handler that a step calls for a publication, and what it is given. -/
def call? (publication : Nat) : Step η → Option ((Nat × η) × Envelope)
  | .called p number handler e => if p = publication then some ((number, handler), e) else none
  | _ => none

end Step

/-- Subscriptions that have been made, in their order. -/
def subscriptions (course : List (Step η)) : List (Nat × η) :=
  course.filterMap Step.subscription?

/-- Handlers of the subscriptions that have been made and not released. -/
def registered (course : List (Step η)) : List (Nat × η) :=
  (subscriptions course).filter fun s => !course.any (Step.isReleaseOf s.1)

/-- Calls for a publication, in their order. -/
def calls (publication : Nat) (course : List (Step η)) : List ((Nat × η) × Envelope) :=
  course.filterMap (Step.call? publication)

def publications (course : List (Step η)) : Nat :=
  course.countP Step.isPublication

def releases (course : List (Step η)) : Nat :=
  course.countP Step.isRelease

section

variable {course : List (Step η)} {number publication : Nat} {x : Step η}

theorem any_isReleaseOf : course.any (Step.isReleaseOf number) ↔ .released number ∈ course := by
  rw [List.any_eq_true]
  constructor
  · rintro ⟨x, hx, hrelease⟩
    cases x with
    | released n =>
      obtain rfl : n = number := by simpa [Step.isReleaseOf] using hrelease
      exact hx
    | _ => simp [Step.isReleaseOf] at hrelease
  · intro h
    exact ⟨_, h, by simp [Step.isReleaseOf]⟩

theorem mem_registered {s : Nat × η} :
    s ∈ registered course ↔ s ∈ subscriptions course ∧ .released s.1 ∉ course := by
  rw [registered, List.mem_filter, Bool.not_eq_true', ← Bool.not_eq_true, any_isReleaseOf]

theorem mem_calls {c : (Nat × η) × Envelope} :
    c ∈ calls publication course ↔ .called publication c.1.1 c.1.2 c.2 ∈ course := by
  obtain ⟨⟨number, handler⟩, e⟩ := c
  rw [calls, List.mem_filterMap]
  constructor
  · rintro ⟨x, hx, hcall⟩
    cases x with
    | called p n h e' =>
      simp only [Step.call?, Option.ite_none_right_eq_some, Option.some.injEq, Prod.mk.injEq]
        at hcall
      obtain ⟨rfl, ⟨rfl, rfl⟩, rfl⟩ := hcall
      exact hx
    | _ => simp [Step.call?] at hcall
  · intro h
    exact ⟨_, h, by simp [Step.call?]⟩

/-- There are no calls for a publication that no call is for. -/
theorem calls_eq_nil (h : ∀ n f e, .called publication n f e ∉ course) :
    calls publication course = [] := by
  rw [List.eq_nil_iff_forall_not_mem]
  intro c hc
  exact h _ _ _ (mem_calls.1 hc)

@[simp] theorem subscriptions_append (c d : List (Step η)) :
    subscriptions (c ++ d) = subscriptions c ++ subscriptions d :=
  List.filterMap_append

@[simp] theorem calls_append (c d : List (Step η)) :
    calls publication (c ++ d) = calls publication c ++ calls publication d :=
  List.filterMap_append

@[simp] theorem publications_append (c d : List (Step η)) :
    publications (c ++ d) = publications c + publications d :=
  List.countP_append

@[simp] theorem releases_append (c d : List (Step η)) :
    releases (c ++ d) = releases c + releases d :=
  List.countP_append

/-- A release takes its subscription away and no other. -/
theorem registered_released (course : List (Step η)) (number : Nat) :
    registered (course ++ [.released number]) = (registered course).filter (·.1 != number) := by
  have hsubs : subscriptions (course ++ [.released number]) = subscriptions course := by
    rw [subscriptions_append]
    exact List.append_nil _
  rw [registered, registered, hsubs, List.filter_filter]
  refine List.filter_congr fun s _ => ?_
  rw [List.any_append, Bool.not_or, Bool.and_comm]
  congr 1
  simp [Step.isReleaseOf, bne, BEq.comm]

/-- A subscription of a number that has not been released comes behind those there are. -/
theorem registered_subscribed (handler : η) (h : .released number ∉ course) :
    registered (course ++ [.subscribed number handler]) =
      registered course ++ [(number, handler)] := by
  have hsame (n : Nat) : (course ++ [Step.subscribed number handler]).any (Step.isReleaseOf n) =
      course.any (Step.isReleaseOf n) := by
    rw [List.any_append]
    exact Bool.or_false _
  have hnew : course.any (Step.isReleaseOf number) = false := by
    rw [← Bool.not_eq_true, any_isReleaseOf]
    exact h
  simp only [registered, hsame, subscriptions_append, List.filter_append]
  congr 1
  simp [subscriptions, Step.subscription?, hnew]

/-- Other steps change nothing about who is registered. -/
theorem registered_other (hsub : x.subscription? = none) (hrelease : x.isRelease = false) :
    registered (course ++ [x]) = registered course := by
  have hsubs : subscriptions (course ++ [x]) = subscriptions course := by
    simp [subscriptions, hsub]
  have hsame (n : Nat) : (course ++ [x]).any (Step.isReleaseOf n) =
      course.any (Step.isReleaseOf n) := by
    cases x with
    | released m => simp [Step.isRelease] at hrelease
    | _ => simp [Step.isReleaseOf]
  simp only [registered, hsubs, hsame]

end

/-! ### What a step rests on -/

/-- What must have happened before a step. Subscriptions and publications are numbered in their
order, so that no number is used again; only what is registered is released; calls are for a
publication and with its event; and who is told how many handlers there are is told the
subscriptions less the releases. -/
def Step.Founded (past : List (Step η)) : Step η → Prop
  | .subscribed number _ => number = (subscriptions past).length
  | .released number => ∃ handler, (number, handler) ∈ registered past
  | .published publication _ => publication = publications past
  | .called publication _ _ e => .published publication e ∈ past
  | .refused line => ∃ f, Envelope.ofText line = .error f
  | .counted n => n + releases past = (subscriptions past).length

/-- A course in which each step rests on those before it. -/
def Founded (course : List (Step η)) : Prop :=
  ∀ past x rest, course = past ++ x :: rest → x.Founded past

theorem founded_nil : Founded ([] : List (Step η)) := by
  intro past x rest h
  simp at h

/-- Where a step of two joined lists stands: in the first, or in the second. -/
theorem append_eq_append_cons {α : Type} {l m a b : List α} {x : α} (h : l ++ m = a ++ x :: b) :
    (∃ c, l = a ++ x :: c ∧ b = c ++ m) ∨ ∃ c, a = l ++ c ∧ m = c ++ x :: b := by
  rcases List.append_eq_append_iff.1 h with ⟨c, hl, hm⟩ | ⟨c, hl, hm⟩
  · exact .inr ⟨c, hl, hm⟩
  · rcases List.append_eq_cons_iff.1 hm.symm with ⟨rfl, hm'⟩ | ⟨c, rfl, hb⟩
    · exact .inr ⟨[], by simp [hl], by simpa using hm'⟩
    · exact .inl ⟨c, hl, hb⟩

section

variable {course : List (Step η)} {x : Step η}

theorem founded_concat : Founded (course ++ [x]) ↔ Founded course ∧ x.Founded course := by
  constructor
  · intro h
    refine ⟨fun past y rest heq => ?_, h course x [] rfl⟩
    exact h past y (rest ++ [x]) (by rw [heq, List.append_assoc, List.cons_append])
  · rintro ⟨h, hx⟩ past y rest heq
    rcases append_eq_append_cons heq with ⟨c, hc, -⟩ | ⟨c, rfl, hc⟩
    · exact h past y c hc
    · cases c with
      | nil =>
        obtain ⟨rfl, -⟩ := List.cons.inj hc
        rwa [List.append_nil]
      | cons z c => simp at hc

/-- The beginning of a founded course is one. -/
theorem Founded.of_append {rest : List (Step η)} (h : Founded (course ++ rest)) :
    Founded course := by
  intro past y after heq
  exact h past y (after ++ rest) (by rw [heq, List.append_assoc, List.cons_append])

/-- Subscriptions have the numbers from zero on. -/
theorem Founded.numbers (h : Founded course) :
    (subscriptions course).map (·.1) = List.range (subscriptions course).length := by
  induction course using List.reverseRecOn with
  | nil => rfl
  | append_singleton course x ih =>
    obtain ⟨hcourse, hx⟩ := founded_concat.1 h
    have ih := ih hcourse
    cases x with
    | subscribed number handler =>
      have hone : subscriptions [Step.subscribed number handler] = [(number, handler)] := rfl
      have hnumber : number = (subscriptions course).length := hx
      rw [subscriptions_append, hone, List.map_append, ih, List.length_append,
        List.length_singleton, List.range_succ, hnumber]
      rfl
    | _ =>
      rw [subscriptions_append]
      exact (List.append_nil (subscriptions course)).symm ▸ ih

theorem Founded.lt_of_mem {s : Nat × η} (h : Founded course) (hs : s ∈ subscriptions course) :
    s.1 < (subscriptions course).length := by
  have hmem : s.1 ∈ (subscriptions course).map (·.1) := List.mem_map_of_mem hs
  rwa [h.numbers, List.mem_range] at hmem

/-- Only a subscription that has been made is released. -/
theorem Founded.lt_of_released {number : Nat} (h : Founded course)
    (hr : .released number ∈ course) : number < (subscriptions course).length := by
  obtain ⟨past, rest, rfl⟩ := List.append_of_mem hr
  obtain ⟨handler, hreg⟩ := h past _ rest rfl
  have hlt := h.of_append.lt_of_mem (mem_registered.1 hreg).1
  rw [subscriptions_append, List.length_append]
  exact Nat.lt_add_right _ hlt

theorem Founded.lt_of_published {publication : Nat} {e : Envelope} (h : Founded course)
    (hp : .published publication e ∈ course) : publication < publications course := by
  obtain ⟨past, rest, rfl⟩ := List.append_of_mem hp
  have hnumber : publication = publications past := h past _ rest rfl
  have hone : publications (.published publication e :: rest) = publications rest + 1 :=
    List.countP_cons_of_pos rfl
  rw [publications_append, hone, hnumber]
  omega

theorem Founded.lt_of_called {publication number : Nat} {f : η} {e : Envelope}
    (h : Founded course) (hc : .called publication number f e ∈ course) :
    publication < publications course := by
  obtain ⟨past, rest, rfl⟩ := List.append_of_mem hc
  have hpublished : .published publication e ∈ past := h past _ rest rfl
  exact h.lt_of_published (List.mem_append_left _ hpublished)

theorem Founded.nodup_registered (h : Founded course) :
    ((registered course).map (·.1)).Nodup := by
  have hsublist : ((registered course).map (·.1)).Sublist ((subscriptions course).map (·.1)) :=
    List.filter_sublist.map _
  refine hsublist.nodup ?_
  rw [h.numbers]
  exact List.nodup_range

/-- A release takes away one handler. -/
theorem Founded.length_registered_released {number : Nat}
    (h : Founded (course ++ [.released number])) :
    (registered (course ++ [.released number])).length + 1 = (registered course).length := by
  obtain ⟨hcourse, handler, hreg⟩ := founded_concat.1 h
  have hmem : number ∈ (registered course).map (·.1) := List.mem_map_of_mem hreg
  have hcount : (registered course).countP (·.1 == number) = 1 := by
    have hone := List.count_eq_one_of_mem hcourse.nodup_registered hmem
    rwa [List.count, List.countP_map] at hone
  have hsum : (registered course).length = (registered course).countP (·.1 == number) +
      (registered course).countP fun s => ¬(s.1 == number) = true :=
    List.length_eq_countP_add_countP _
  have hrest : (registered (course ++ [.released number])).length =
      (registered course).countP fun s => ¬(s.1 == number) = true := by
    rw [registered_released, List.countP_eq_length_filter]
    congr 2
    funext s
    by_cases hs : s.1 = number <;> simp [hs]
  omega

/-- Handlers that are registered and releases make up the subscriptions. -/
theorem Founded.length_registered (h : Founded course) :
    (registered course).length + releases course = (subscriptions course).length := by
  induction course using List.reverseRecOn with
  | nil => rfl
  | append_singleton course x ih =>
    have hx := founded_concat.1 h
    have ih := ih hx.1
    rw [subscriptions_append, List.length_append, releases_append]
    cases x with
    | subscribed number handler =>
      have hnew : .released number ∉ course := by
        intro hr
        have hlt := hx.1.lt_of_released hr
        have hnumber : number = (subscriptions course).length := hx.2
        omega
      rw [registered_subscribed handler hnew, List.length_append]
      change _ + 1 + (_ + 0) = _ + 1
      omega
    | released number =>
      have hless := h.length_registered_released
      change _ + (_ + 1) = _ + 0
      omega
    | _ =>
      rw [registered_other rfl rfl]
      exact ih

/-- A subscription is released once at most. -/
theorem Founded.countP_isReleaseOf_le (h : Founded course) (number : Nat) :
    course.countP (Step.isReleaseOf number) ≤ 1 := by
  induction course using List.reverseRecOn with
  | nil => exact Nat.zero_le 1
  | append_singleton course x ih =>
    obtain ⟨hcourse, hx⟩ := founded_concat.1 h
    rw [List.countP_append]
    by_cases hrelease : x.isReleaseOf number
    · cases x with
      | released n =>
        obtain rfl : n = number := by simpa [Step.isReleaseOf] using hrelease
        obtain ⟨handler, hreg⟩ := hx
        have hnone : ¬0 < course.countP (Step.isReleaseOf n) := by
          rw [List.countP_pos_iff, ← List.any_eq_true, any_isReleaseOf]
          exact (mem_registered.1 hreg).2
        have hone : [(Step.released n : Step η)].countP (Step.isReleaseOf n) ≤ 1 :=
          List.countP_le_length
        omega
      | _ => simp [Step.isReleaseOf] at hrelease
    · rw [List.countP_cons_of_neg hrelease]
      exact ih hcourse

end

/-! ### What a publication brings about -/

/-- What must come of a step. A publication calls the handlers registered when it is made, and with
its event; and it is done with before the one that it interrupts goes on. -/
def Step.Served (past : List (Step η)) : Step η → List (Step η) → Prop
  | .published publication e, rest =>
    calls publication rest = (registered past).map (·, e) ∧
      ∀ a p number handler e' b, rest = a ++ .called p number handler e' :: b → p < publication →
        calls publication b = []
  | _, _ => True

/-- Of each step in a part of a course comes what must, within that part. -/
def Served (past tail : List (Step η)) : Prop :=
  ∀ a x b, tail = a ++ x :: b → x.Served (past ++ a) b

/-- Part of a course in which every publication is served, and every call is for a publication made
in it or for the one that it serves. -/
structure Part (own : Option Nat) (past tail : List (Step η)) : Prop where
  served : Served past tail
  recent : ∀ publication number handler e, .called publication number handler e ∈ tail →
    own = some publication ∨ publications past ≤ publication

section

variable {own : Option Nat} {past tail tail' : List (Step η)} {x : Step η}

theorem Part.nil : Part own past [] where
  served a x b h := by simp at h
  recent publication number handler e h := by simp at h

/-- A step that neither publishes nor calls is such a part. -/
theorem Part.single (h : x.Served past []) (hcall : ∀ p n f e, x = .called p n f e → own = some p) :
    Part own past [x] where
  served a y b heq := by
    rcases List.cons_eq_append_iff.1 heq with ⟨rfl, hy⟩ | ⟨c, -, hc⟩
    · obtain ⟨rfl, rfl⟩ := List.cons.inj hy
      rwa [List.append_nil]
    · simp at hc
  recent p n f e hmem := .inl (hcall p n f e (List.mem_singleton.1 hmem).symm)

/-- Calls for a publication of a part are all in that part. -/
theorem Part.calls_eq_nil {publication : Nat} (h : Part own (past ++ tail) tail')
    (hown : ∀ p, own = some p → p < publications past)
    (hle : publications past ≤ publication) (hlt : publication < publications (past ++ tail)) :
    calls publication tail' = [] := by
  refine Bus.calls_eq_nil fun n f e hmem => ?_
  rcases h.recent _ _ _ _ hmem with hp | hp
  · exact absurd (hown _ hp) (Nat.not_lt.2 hle)
  · exact absurd hlt (Nat.not_lt.2 hp)

/-- Two parts one behind the other are a part. -/
theorem Part.append (hfounded : Founded (past ++ tail))
    (hown : ∀ p, own = some p → p < publications past) (h : Part own past tail)
    (h' : Part own (past ++ tail) tail') : Part own past (tail ++ tail') where
  served a x b heq := by
    rcases append_eq_append_cons heq with ⟨c, hc, rfl⟩ | ⟨c, rfl, hc⟩
    · cases x with
      | published publication e =>
        subst hc
        have hnumber : publication = publications (past ++ a) :=
          hfounded (past ++ a) (.published publication e) c (by rw [List.append_assoc])
        have hle : publications past ≤ publication := by
          rw [hnumber, publications_append]
          exact Nat.le_add_right _ _
        have hmem : .published publication e ∈ past ++ (a ++ .published publication e :: c) := by
          simp
        have hlt := hfounded.lt_of_published hmem
        have hnil : calls publication tail' = [] := h'.calls_eq_nil hown hle hlt
        obtain ⟨hcalls, hdone⟩ := h.served a _ c rfl
        refine ⟨by rw [calls_append, hnil, List.append_nil, hcalls], ?_⟩
        intro a' p n f e' b' hsplit hp
        rcases append_eq_append_cons hsplit with ⟨c', hc', rfl⟩ | ⟨c', rfl, hc'⟩
        · rw [calls_append, hnil, List.append_nil]
          exact hdone a' p n f e' c' hc' hp
        · rw [hc', calls_append, List.append_eq_nil_iff] at hnil
          exact (List.append_eq_nil_iff.1 ((calls_append [_] b').symm.trans hnil.2)).2
      | _ => trivial
    · rw [← List.append_assoc]
      exact h'.served c x b hc
  recent p n f e hmem := by
    rcases List.mem_append.1 hmem with hmem | hmem
    · exact h.recent p n f e hmem
    · rcases h'.recent p n f e hmem with hp | hp
      · exact .inl hp
      · rw [publications_append] at hp
        exact .inr (Nat.le_of_add_right_le hp)

/-- Calls for nothing but the publications of a part are also those in the course of another. -/
theorem Part.within (h : Part none past tail) : Part own past tail where
  served := h.served
  recent p n f e hmem := .inr ((h.recent p n f e hmem).resolve_left (by simp))

end

end LiveAudit.Bus
