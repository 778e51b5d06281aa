import Mathlib.Data.List.Basic
import LiveAudit.Request

/-!
# Requests that are out

A state that is told inputs sends requests, and each request is answered by a later input. `Traffic`
puts the state together with the requests that were sent and not answered yet. An input may come if
the request it answers is out (`Traffic.Admits`); it is then taken off, so that every request is
answered at most once, with its own parameters (`Traffic.Lawful`).

What holds of a whole run is proved from what one input preserves (`Traffic.run_induction`).
-/

namespace LiveAudit

/-- A way in which inputs move a state and make it send requests. -/
class Dialogue (ι : Type) (σ : outParam Type) where
  /-- The next state, with the requests that are sent. -/
  step : σ → ι → σ × List Request
  /-- The request that an input answers. -/
  answered : ι → Option Request

/-- A state with the requests that are out. -/
structure Traffic (σ : Type) where
  state : σ
  out : List Request

namespace Request

/-- Whether a request is made for a repository. -/
def concerns (repo : Ident) : Request → Bool
  | .page f => f.repoId = repo
  | .sync r => r = repo
  | .projects => false

/-- Whether a request is a page fetch of a repository, for a reason, of a generation of its
window. -/
def isFetch (repo : Ident) (reason : FetchReason) (epoch : Nat) : Request → Bool
  | .page f => f.repoId = repo ∧ f.reason = reason ∧ f.epoch = epoch
  | .sync _ => false
  | .projects => false

/-- Whether a request is a page fetch from the top. -/
def isRefresh : Request → Bool
  | .page f => f.reason = .refresh
  | .sync _ => false
  | .projects => false

/-- The page fetch that a request is. -/
def page? : Request → Option PageFetch
  | .page f => some f
  | .sync _ => none
  | .projects => none

/-- A page fetch is one of the repository, reason and generation that it carries. -/
@[simp] theorem isFetch_page {repo : Ident} {reason : FetchReason} {epoch : Nat} {f : PageFetch} :
    isFetch repo reason epoch (.page f) = true ↔
      f.repoId = repo ∧ f.reason = reason ∧ f.epoch = epoch := by
  simp [isFetch]

/-- Only page fetches are made for a reason. -/
theorem exists_page_of_isFetch {repo : Ident} {reason : FetchReason} {epoch : Nat} {q : Request}
    (h : isFetch repo reason epoch q) :
    ∃ f, q = .page f ∧ f.repoId = repo ∧ f.reason = reason ∧ f.epoch = epoch := by
  cases q with
  | page f => exact ⟨f, rfl, isFetch_page.1 h⟩
  | sync r => simp [isFetch] at h
  | projects => simp [isFetch] at h

/-- A fetch for a repository is made for it. -/
theorem concerns_of_isFetch {repo : Ident} {reason : FetchReason} {epoch : Nat} {q : Request}
    (h : isFetch repo reason epoch q) : concerns repo q := by
  obtain ⟨f, rfl, hrepo, -, -⟩ := exists_page_of_isFetch h
  simp [concerns, hrepo]

end Request

namespace Traffic

variable {ι σ : Type} [Dialogue ι σ]

/-- A state with no request out. -/
def start (s : σ) : Traffic σ :=
  ⟨s, []⟩

/-- The page fetches of a repository that are out, for a reason and of a generation. -/
def fetches (t : Traffic σ) (repo : Ident) (reason : FetchReason) (epoch : Nat) : List Request :=
  t.out.filter (Request.isFetch repo reason epoch)

/-- An input may come if the request it answers is out. -/
def Admits (t : Traffic σ) (i : ι) : Prop :=
  ∀ q ∈ Dialogue.answered i, q ∈ t.out

instance (t : Traffic σ) (i : ι) : Decidable (t.Admits i) :=
  inferInstanceAs (Decidable (∀ q ∈ Dialogue.answered i, q ∈ t.out))

/-- An input that answers nothing may always come. -/
theorem admits_of_none {t : Traffic σ} {i : ι} (h : Dialogue.answered i = none) : t.Admits i := by
  intro q hq
  simp [h] at hq

/-- The answer to a request that is out may come. -/
theorem admits_of_mem {t : Traffic σ} {i : ι} {q : Request} (h : Dialogue.answered i = some q)
    (hq : q ∈ t.out) : t.Admits i := by
  intro q' hq'
  obtain rfl := Option.some.inj (h.symm.trans hq')
  exact hq

/-- Takes an input: the request it answers is off, and those that are sent are out. -/
def next (t : Traffic σ) (i : ι) : Traffic σ where
  state := (Dialogue.step t.state i).1
  out := (Dialogue.answered i).elim t.out t.out.erase ++ (Dialogue.step t.state i).2

/-- Takes inputs, one after another. -/
def run (t : Traffic σ) : List ι → Traffic σ :=
  List.foldl next t

/-- Inputs of which each answers, if any, a request that is out when it comes. -/
def Lawful : Traffic σ → List ι → Prop
  | _, [] => True
  | t, i :: rest => t.Admits i ∧ Lawful (t.next i) rest

instance decidableLawful : ∀ (t : Traffic σ) (inputs : List ι), Decidable (t.Lawful inputs)
  | _, [] => isTrue trivial
  | t, i :: rest =>
    have := decidableLawful (t.next i) rest
    inferInstanceAs (Decidable (t.Admits i ∧ (t.next i).Lawful rest))

/-! ### Runs -/

@[simp] theorem run_nil (t : Traffic σ) : t.run ([] : List ι) = t := rfl

@[simp] theorem run_cons (t : Traffic σ) (i : ι) (rest : List ι) :
    t.run (i :: rest) = (t.next i).run rest := rfl

theorem run_append (t : Traffic σ) (past rest : List ι) :
    t.run (past ++ rest) = (t.run past).run rest :=
  List.foldl_append

theorem run_concat (t : Traffic σ) (past : List ι) (i : ι) :
    t.run (past ++ [i]) = (t.run past).next i := run_append t past [i]

/-- A run is lawful if its beginning is, and its rest from there. -/
theorem lawful_append {t : Traffic σ} {past rest : List ι} :
    t.Lawful (past ++ rest) ↔ t.Lawful past ∧ (t.run past).Lawful rest := by
  induction past generalizing t with
  | nil => simp [Lawful]
  | cons i past ih => simp [Lawful, ih, and_assoc]

/-- What every admitted input preserves holds at the end of every lawful run. -/
theorem run_induction {P : Traffic σ → Prop} {A : ι → Prop}
    (hstep : ∀ t i, P t → t.Admits i → A i → P (t.next i)) {t : Traffic σ} {inputs : List ι}
    (h0 : P t) (h : t.Lawful inputs) (hA : ∀ i ∈ inputs, A i) : P (t.run inputs) := by
  induction inputs generalizing t with
  | nil => exact h0
  | cons i rest ih =>
    have hi : P (t.next i) := hstep t i h0 h.1 (hA i List.mem_cons_self)
    exact ih hi h.2 fun j hj => hA j (List.mem_cons_of_mem i hj)

/-! ### Requests after an input -/

/-- A request stays out until it is answered. -/
theorem mem_next_of_ne {t : Traffic σ} {i : ι} {q : Request} (hq : q ∈ t.out)
    (h : Dialogue.answered i ≠ some q) : q ∈ (t.next i).out := by
  refine List.mem_append_left _ ?_
  cases ha : Dialogue.answered i with
  | none => exact hq
  | some q' =>
    refine (List.mem_erase_of_ne ?_).2 hq
    rintro rfl
    exact h ha

end Traffic

end LiveAudit
