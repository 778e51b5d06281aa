import Mathlib.Order.MinMax
import Mathlib.Tactic.SplitIfs
import LiveAudit.Health

/-!
# The worst light

Lights are ordered from pending over green and yellow to red. A run has a light of its own
(`Run.light`), and the health of runs is the worst light among them (`light_le_health`,
`exists_light_eq_health`). So the health of two lists together is the worse of both, and neither the
order of runs nor their repetition counts, nor what is not completed. Main statement:
`health_of_parts`.
-/

namespace LiveAudit

/-! ### Order of lights -/

namespace Health

/-- How bad a light is. -/
def severity : Health → Nat
  | .pending => 0
  | .green => 1
  | .yellow => 2
  | .red => 3

theorem severity_injective : Function.Injective severity := by
  intro a b h
  cases a <;> cases b <;> first | rfl | cases h

instance : LinearOrder Health :=
  LinearOrder.lift' severity severity_injective

variable {h : Health}

theorem pending_le : .pending ≤ h := by
  cases h <;> decide

theorem le_red : h ≤ .red := by
  cases h <;> decide

theorem le_pending_iff : h ≤ .pending ↔ h = .pending := by
  cases h <;> decide

theorem le_green_iff : h ≤ .green ↔ h = .pending ∨ h = .green := by
  cases h <;> decide

theorem le_yellow_iff : h ≤ .yellow ↔ h ≠ .red := by
  cases h <;> decide

end Health

/-! ### Light of one run -/

namespace Run

/-- The run is completed, and it failed or broke. -/
def Failed (r : Run) : Prop :=
  r.isCompleted ∧ (r.result = some .fail ∨ r.result = some .error)

/-- Light that a run gives on its own. -/
def light (r : Run) : Health :=
  if r.isCompleted then
    match r.result with
    | some .pass => .green
    | some .fail | some .error => .red
    | some (.other _) | none => .yellow
  else .pending

variable {r : Run}

theorem light_eq_pending_iff : r.light = .pending ↔ ¬r.isCompleted := by
  unfold light
  split_ifs with hcompleted
  · split <;> simp [hcompleted]
  · simp [hcompleted]

theorem light_eq_green_iff : r.light = .green ↔ r.isCompleted ∧ r.result = some .pass := by
  unfold light
  split_ifs with hcompleted
  · split <;> simp_all
  · simp [hcompleted]

theorem light_eq_red_iff : r.light = .red ↔ r.Failed := by
  unfold light Failed
  split_ifs with hcompleted
  · split <;> simp_all
  · simp [hcompleted]

theorem light_eq_yellow_iff :
    r.light = .yellow ↔ r.isCompleted ∧ r.result ≠ some .pass ∧ ¬r.Failed := by
  rw [← light_eq_red_iff]
  unfold light
  split_ifs with hcompleted
  · split <;> simp_all
  · simp [hcompleted]

theorem isFailure_iff {result : Option Verdict} :
    result.any Verdict.isFailure ↔ result = some .fail ∨ result = some .error := by
  rcases result with _ | (_ | _ | _ | _) <;> simp [Verdict.isFailure]

end Run

/-! ### Health of a list -/

section

variable {runs xs ys : List Run}

/-- No run has a worse light than all of them together. -/
theorem light_le_health {r : Run} (hr : r ∈ runs) : r.light ≤ health runs := by
  unfold health
  dsimp only
  split_ifs with hempty hpass hfail
  · rw [List.isEmpty_iff, List.filter_eq_nil_iff] at hempty
    exact Health.le_pending_iff.2 (Run.light_eq_pending_iff.2 (hempty r hr))
  · rw [Health.le_green_iff, Run.light_eq_pending_iff, Run.light_eq_green_iff]
    by_cases hcompleted : r.isCompleted
    · have hresult := List.all_eq_true.1 hpass r (List.mem_filter.2 ⟨hr, hcompleted⟩)
      exact .inr ⟨hcompleted, of_decide_eq_true hresult⟩
    · exact .inl hcompleted
  · exact Health.le_red
  · rw [Health.le_yellow_iff, ne_eq, Run.light_eq_red_iff]
    rintro ⟨hcompleted, hresult⟩
    exact hfail (List.any_eq_true.2
      ⟨r, List.mem_filter.2 ⟨hr, hcompleted⟩, Run.isFailure_iff.2 hresult⟩)

/-- Unless it is pending, health is the light of one of the runs. -/
theorem exists_light_eq_health (h : health runs ≠ .pending) :
    ∃ r ∈ runs, r.light = health runs := by
  unfold health at h ⊢
  dsimp only at h ⊢
  split_ifs at h ⊢ with hempty hpass hfail
  · exact absurd rfl h
  · obtain ⟨r, hr⟩ := List.exists_mem_of_ne_nil _ (mt List.isEmpty_iff.2 hempty)
    have hresult := of_decide_eq_true (List.all_eq_true.1 hpass r hr)
    obtain ⟨hmem, hcompleted⟩ := List.mem_filter.1 hr
    exact ⟨r, hmem, Run.light_eq_green_iff.2 ⟨hcompleted, hresult⟩⟩
  · obtain ⟨r, hr, hresult⟩ := List.any_eq_true.1 hfail
    obtain ⟨hmem, hcompleted⟩ := List.mem_filter.1 hr
    exact ⟨r, hmem, Run.light_eq_red_iff.2 ⟨hcompleted, Run.isFailure_iff.1 hresult⟩⟩
  · obtain ⟨r, hr, hcompleted, hresult⟩ :
        ∃ r ∈ runs, r.isCompleted = true ∧ r.result ≠ some .pass := by
      simpa using hpass
    refine ⟨r, hr, Run.light_eq_yellow_iff.2 ⟨hcompleted, hresult, ?_⟩⟩
    rintro ⟨-, hfailed⟩
    exact hfail (List.any_eq_true.2
      ⟨r, List.mem_filter.2 ⟨hr, hcompleted⟩, Run.isFailure_iff.2 hfailed⟩)

/-- Health is the least light that no run passes. -/
theorem health_le_iff {h : Health} : health runs ≤ h ↔ ∀ r ∈ runs, r.light ≤ h := by
  constructor
  · intro hle r hr
    exact (light_le_health hr).trans hle
  · intro hall
    by_cases hpending : health runs = .pending
    · exact hpending ▸ Health.pending_le
    · obtain ⟨r, hr, hlight⟩ := exists_light_eq_health hpending
      exact hlight ▸ hall r hr

theorem health_append (xs ys : List Run) : health (xs ++ ys) = max (health xs) (health ys) := by
  apply eq_of_forall_ge_iff
  intro h
  simp only [health_le_iff, max_le_iff, List.mem_append, or_imp, forall_and]

/-- Runs that are not completed add nothing, and any others can only make it worse. -/
theorem health_mono (h : ∀ r ∈ xs, r.isCompleted → r ∈ ys) : health xs ≤ health ys := by
  rw [health_le_iff]
  intro r hr
  by_cases hcompleted : r.isCompleted
  · exact light_le_health (h r hr hcompleted)
  · rw [Run.light_eq_pending_iff.2 hcompleted]
    exact Health.pending_le

/-- A light other than pending is the health of runs if one of them has it and none a worse one. -/
theorem health_eq_iff {h : Health} (hne : h ≠ .pending) :
    health runs = h ↔ (∃ r ∈ runs, r.light = h) ∧ ∀ r ∈ runs, r.light ≤ h := by
  constructor
  · rintro rfl
    exact ⟨exists_light_eq_health hne, fun r hr => light_le_health hr⟩
  · rintro ⟨⟨r, hr, rfl⟩, hall⟩
    exact le_antisymm (health_le_iff.2 hall) (light_le_health hr)

end

/-- Health of two lists together is the worse of both. So it depends only on which completed runs
there are, whatever their order and number and whatever other runs stand among them, and more rows
never lower it. It is red exactly if a completed run failed or broke, green exactly if there is a
completed run and all of them passed, and yellow exactly if none failed but one has another result
or none. -/
theorem health_of_parts :
    (∀ xs ys, health (xs ++ ys) = max (health xs) (health ys)) ∧
    (∀ xs ys : List Run, (∀ r : Run, r.isCompleted → (r ∈ xs ↔ r ∈ ys)) →
      health xs = health ys) ∧
    (∀ xs ys, xs ⊆ ys → health xs ≤ health ys) ∧
    ∀ runs,
      (health runs = .red ↔
        ∃ r ∈ runs, r.isCompleted ∧ (r.result = some .fail ∨ r.result = some .error)) ∧
      (health runs = .green ↔
        (∃ r ∈ runs, r.isCompleted) ∧ ∀ r ∈ runs, r.isCompleted → r.result = some .pass) ∧
      (health runs = .yellow ↔
        (∀ r ∈ runs, r.isCompleted → r.result ≠ some .fail ∧ r.result ≠ some .error) ∧
        ∃ r ∈ runs, r.isCompleted ∧ r.result ≠ some .pass) := by
  refine ⟨health_append, ?_, ?_, fun runs => ⟨?_, ?_, ?_⟩⟩
  · intro xs ys h
    exact le_antisymm (health_mono fun r hr hcompleted => (h r hcompleted).1 hr)
      (health_mono fun r hr hcompleted => (h r hcompleted).2 hr)
  · intro xs ys h
    exact health_mono fun r hr _ => h hr
  · rw [health_eq_iff (by decide)]
    simp only [Health.le_red, Run.light_eq_red_iff, Run.Failed, implies_true, and_true]
  · rw [health_eq_iff (by decide)]
    simp only [Health.le_green_iff, Run.light_eq_green_iff, Run.light_eq_pending_iff]
    grind
  · rw [health_eq_iff (by decide)]
    simp only [Health.le_yellow_iff, Run.light_eq_yellow_iff, ne_eq, Run.light_eq_red_iff,
      Run.Failed]
    grind

/-- A completed run that passed, a running one that carries a failure and a completed one with an
unknown verdict: the first two together are as healthy as the first one twice, and not healthier
than all three. -/
theorem health_of_parts_running :
    let passed : Run := ⟨"a", .completed, some .pass, none, none, none⟩
    let running : Run := ⟨"b", .running, some .fail, none, none, none⟩
    let unknown : Run := ⟨"c", .completed, some (.other "WARN"), none, none, none⟩
    health [passed, running] = health [passed, passed] ∧
      health [passed, running] ≤ health [unknown, running, passed] ∧
      health [unknown, running, passed] = .yellow := by
  intro passed running unknown
  obtain ⟨-, hsame, hmore, hlights⟩ := health_of_parts
  have hcompleted : ∀ r : Run, r.isCompleted → (r ∈ [passed, running] ↔ r ∈ [passed, passed]) := by
    intro r hr
    have hne : r ≠ running := by
      rintro rfl
      cases hr
    simp [hne]
  refine ⟨hsame _ _ hcompleted, hmore _ _ (by simp), (hlights _).2.2.2 ⟨?_, ?_⟩⟩
  · decide
  · exact ⟨unknown, by simp, by decide⟩

end LiveAudit
