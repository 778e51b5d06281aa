import Mathlib.Data.List.Perm.Subperm
import LiveAudit.Proofs.Traffic

/-!
# What happens during a run

Besides the state that a run ends in, some things count of its past: the requests that it has sent
(`Traffic.sent`), of which those that are out are a part, how often something has happened that
depends on the state an input came to (`Traffic.tally`), and what the inputs have brought of some
kind (`Traffic.collect`, and `Traffic.latest` for the last of it).

Inputs that a run ignores may be left out of it (`Traffic.Omits`): the rest sends the same requests
and ends in the same state (`Traffic.Omits.run`).
-/

namespace LiveAudit

namespace Traffic

variable {ι σ : Type} [Dialogue ι σ]

/-- All requests that are sent while inputs are taken, in order. -/
def sent : Traffic σ → List ι → List Request
  | _, [] => []
  | t, i :: rest => (Dialogue.step t.state i).2 ++ sent (t.next i) rest

/-- The number of inputs of which something holds, in the states that they come to. -/
def tally (p : σ → ι → Bool) : Traffic σ → List ι → Nat
  | _, [] => 0
  | t, i :: rest => (p t.state i).toNat + tally p (t.next i) rest

@[simp] theorem sent_nil (t : Traffic σ) : t.sent ([] : List ι) = [] := rfl

theorem sent_cons (t : Traffic σ) (i : ι) (rest : List ι) :
    t.sent (i :: rest) = (Dialogue.step t.state i).2 ++ (t.next i).sent rest := rfl

theorem sent_append (t : Traffic σ) (past rest : List ι) :
    t.sent (past ++ rest) = t.sent past ++ (t.run past).sent rest := by
  induction past generalizing t with
  | nil => rfl
  | cons i past ih => rw [List.cons_append, sent_cons, ih, sent_cons, List.append_assoc, run_cons]

/-- What is out after an input was out before, or is sent. -/
theorem mem_out_next {t : Traffic σ} {i : ι} {q : Request} (h : q ∈ (t.next i).out) :
    q ∈ t.out ∨ q ∈ (Dialogue.step t.state i).2 := by
  rcases List.mem_append.1 h with hold | hnew
  · left
    cases ha : Dialogue.answered i with
    | none => simpa [ha] using hold
    | some q' =>
      rw [ha] at hold
      exact List.mem_of_mem_erase hold
  · exact .inr hnew

/-- An answer that comes in a lawful run is to a request that was out before, or that the run has
sent. -/
theorem mem_of_answered {t : Traffic σ} {inputs : List ι} (hl : t.Lawful inputs) {i : ι}
    (hi : i ∈ inputs) {q : Request} (hq : Dialogue.answered i = some q) :
    q ∈ t.out ∨ q ∈ t.sent inputs := by
  induction inputs generalizing t with
  | nil => simp at hi
  | cons j rest ih =>
    rw [sent_cons, List.mem_append]
    rcases List.mem_cons.1 hi with rfl | hrest
    · exact .inl (hl.1 q hq)
    · rcases ih hl.2 hrest with hout | hsent
      · exact (mem_out_next hout).imp_right .inl
      · exact .inr (.inr hsent)

/-- Every request that was out or is sent has been answered in a lawful run, or is out at its
end. -/
theorem perm_sent {t : Traffic σ} {inputs : List ι} (hl : t.Lawful inputs) :
    (t.out ++ t.sent inputs).Perm
      (inputs.filterMap Dialogue.answered ++ (t.run inputs).out) := by
  induction inputs generalizing t with
  | nil => simp
  | cons i rest ih =>
    have hrest := ih hl.2
    rw [sent_cons, run_cons, ← List.append_assoc]
    change ((_ ++ (Dialogue.step t.state i).2) ++ _).Perm _ at hrest
    cases ha : Dialogue.answered i with
    | none =>
      rw [List.filterMap_cons_none ha]
      simpa [ha] using hrest
    | some q =>
      have hq : t.out.Perm (q :: t.out.erase q) := List.perm_cons_erase (hl.1 q ha)
      rw [ha, Option.elim_some] at hrest
      rw [List.filterMap_cons_some ha]
      exact ((hq.append_right _).append_right _).trans (hrest.cons q)

/-! ### What inputs have brought -/

/-- What inputs bring of some kind, in the states that they come to, in order. -/
def collect {α : Type} (f : σ → ι → Option α) : Traffic σ → List ι → List α
  | _, [] => []
  | t, i :: rest => (f t.state i).toList ++ collect f (t.next i) rest

/-- The last that inputs bring of some kind. -/
def latest {α : Type} (f : σ → ι → Option α) (t : Traffic σ) (inputs : List ι) : Option α :=
  (t.collect f inputs).getLast?

section

variable {α : Type} {f : σ → ι → Option α}

theorem collect_cons (t : Traffic σ) (i : ι) (rest : List ι) :
    t.collect f (i :: rest) = (f t.state i).toList ++ (t.next i).collect f rest := rfl

theorem collect_append (t : Traffic σ) (past rest : List ι) :
    t.collect f (past ++ rest) = t.collect f past ++ (t.run past).collect f rest := by
  induction past generalizing t with
  | nil => rfl
  | cons i past ih =>
    rw [List.cons_append, collect_cons, ih, collect_cons, List.append_assoc, run_cons]

theorem collect_concat (t : Traffic σ) (past : List ι) (i : ι) :
    t.collect f (past ++ [i]) = t.collect f past ++ (f (t.run past).state i).toList := by
  rw [collect_append, collect_cons]
  exact congrArg _ (List.append_nil _)

theorem collect_isPrefix (t : Traffic σ) (past rest : List ι) :
    t.collect f past <+: t.collect f (past ++ rest) := by
  rw [collect_append]
  exact List.prefix_append _ _

/-- What was brought of a kind was brought by one of the inputs. -/
theorem exists_of_mem_collect {t : Traffic σ} {inputs : List ι} {a : α}
    (h : a ∈ t.collect f inputs) : ∃ before i after, inputs = before ++ i :: after ∧
      f (t.run before).state i = some a := by
  induction inputs generalizing t with
  | nil => cases h
  | cons i rest ih =>
    rw [collect_cons, List.mem_append, Option.mem_toList] at h
    rcases h with hnow | hlater
    · exact ⟨[], i, rest, rfl, hnow⟩
    · obtain ⟨before, j, after, rfl, hj⟩ := ih hlater
      exact ⟨i :: before, j, after, rfl, hj⟩

/-- The last is that of the inputs that follow, or that of the first one if they bring none. -/
theorem latest_cons (t : Traffic σ) (i : ι) (rest : List ι) :
    t.latest f (i :: rest) = ((t.next i).latest f rest).or (f t.state i) := by
  rw [latest, collect_cons, List.getLast?_append]
  cases f t.state i <;> rfl

/-- What one input preserves of a state and the last that was brought so far, a run preserves. -/
theorem latest_induction {R : Option α → Traffic σ → Prop}
    (hstep : ∀ last t (i : ι), R last t → R ((f t.state i).or last) (t.next i))
    {last : Option α} {t : Traffic σ} (h : R last t) (inputs : List ι) :
    R ((t.latest f inputs).or last) (t.run inputs) := by
  induction inputs generalizing last t with
  | nil => exact h
  | cons i rest ih =>
    rw [latest_cons, Option.or_assoc]
    exact ih (hstep last t i h)

end

/-! ### Leaving inputs out -/

/-- The second list is the first without some of the inputs that may be left out. -/
inductive Omits (P : ι → Prop) : List ι → List ι → Prop
  | nil : Omits P [] []
  | keep (i : ι) {inputs fewer : List ι} (h : Omits P inputs fewer) :
      Omits P (i :: inputs) (i :: fewer)
  | drop {i : ι} {inputs fewer : List ι} (hi : P i) (h : Omits P inputs fewer) :
      Omits P (i :: inputs) fewer

/-- Where no fewer requests are out, no fewer are after an input. -/
theorem subperm_next {t t' : Traffic σ} (hstate : t'.state = t.state) (hout : t.out.Subperm t'.out)
    (i : ι) : (t.next i).out.Subperm (t'.next i).out := by
  have hrest : ((Dialogue.answered i).elim t.out t.out.erase).Subperm
      ((Dialogue.answered i).elim t'.out t'.out.erase) := by
    cases Dialogue.answered i with
    | none => exact hout
    | some q => exact hout.erase q
  change (_ ++ (Dialogue.step t.state i).2).Subperm (_ ++ (Dialogue.step t'.state i).2)
  rw [hstate]
  exact hrest.append (List.Subperm.refl _)

/-- Inputs that are ignored as long as an invariant holds may be left out of a lawful run: it stays
lawful, ends in the same state and sends the same. -/
theorem Omits.run {P : ι → Prop} {J : Traffic σ → Prop} (hJ : ∀ t (i : ι), J t → J (t.next i))
    (hignored : ∀ t (i : ι), J t → P i → Dialogue.step t.state i = (t.state, []))
    {inputs fewer : List ι} (h : Omits P inputs fewer) {t t' : Traffic σ}
    (hstate : t'.state = t.state) (hout : t.out.Subperm t'.out) (ht : J t) (hl : t.Lawful inputs) :
    t'.Lawful fewer ∧ (t'.run fewer).state = (t.run inputs).state ∧
      t'.sent fewer = t.sent inputs := by
  induction h generalizing t t' with
  | nil => exact ⟨trivial, hstate, rfl⟩
  | keep i h ih =>
    have hnext : (t'.next i).state = (t.next i).state :=
      congrArg (fun s => (Dialogue.step s i).1) hstate
    obtain ⟨hlawful, hend, hsent⟩ := ih hnext (subperm_next hstate hout i) (hJ t i ht) hl.2
    refine ⟨⟨fun q hq => hout.subset (hl.1 q hq), hlawful⟩, hend, ?_⟩
    rw [sent_cons, sent_cons, hstate, hsent]
  | @drop i inputs fewer hi h ih =>
    have hstep := hignored t i ht hi
    have hstay : (t.next i).state = t.state := congrArg Prod.fst hstep
    have hfewer : (t.next i).out.Subperm t.out := by
      change (_ ++ (Dialogue.step t.state i).2).Subperm t.out
      rw [hstep, List.append_nil]
      cases Dialogue.answered i with
      | none => exact List.Subperm.refl _
      | some q => exact List.erase_subperm q t.out
    obtain ⟨hlawful, hend, hsent⟩ :=
      ih (hstate.trans hstay.symm) (hfewer.trans hout) (hJ t i ht) hl.2
    refine ⟨hlawful, hend, ?_⟩
    rw [hsent, sent_cons, hstep]
    rfl

end Traffic

end LiveAudit
