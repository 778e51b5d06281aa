/-!
# Tables

A finite map. What a table holds under a key is all that counts; the order of its entries is never
looked at.
-/

namespace LiveAudit

structure Table (κ α : Type) where
  entries : List (κ × α)
deriving DecidableEq, Repr

namespace Table

variable {κ α : Type} [DecidableEq κ]

def empty : Table κ α :=
  ⟨[]⟩

def find? (t : Table κ α) (key : κ) : Option α :=
  (t.entries.find? fun e => decide (e.1 = key)).map (·.2)

/-- Entries with the value under a key replaced, or a new entry at the end. -/
def putEntry (key : κ) (a : α) : List (κ × α) → List (κ × α)
  | [] => [(key, a)]
  | (k, b) :: rest => if k = key then (key, a) :: rest else (k, b) :: putEntry key a rest

/-- The table with a value under a key. -/
def put (t : Table κ α) (key : κ) (a : α) : Table κ α :=
  ⟨putEntry key a t.entries⟩

@[simp] theorem find?_empty (key : κ) : (empty : Table κ α).find? key = none := rfl

@[simp] theorem find?_put_self (t : Table κ α) (key : κ) (a : α) :
    (t.put key a).find? key = some a := by
  obtain ⟨entries⟩ := t
  simp only [put, find?]
  induction entries with
  | nil => simp [putEntry]
  | cons e rest ih =>
    obtain ⟨k, b⟩ := e
    by_cases h : k = key
    · simp [putEntry, h]
    · simp [putEntry, h, ih]

theorem find?_put_of_ne (t : Table κ α) {key other : κ} (a : α) (h : other ≠ key) :
    (t.put key a).find? other = t.find? other := by
  obtain ⟨entries⟩ := t
  simp only [put, find?]
  induction entries with
  | nil => simp [putEntry, Ne.symm h]
  | cons e rest ih =>
    obtain ⟨k, b⟩ := e
    by_cases hk : k = key
    · simp [putEntry, hk, Ne.symm h]
    · by_cases ho : k = other
      · simp [putEntry, ho, h]
      · simp only [putEntry, if_neg hk, List.find?_cons]
        simpa [ho] using ih

/-- Putting what is there already changes nothing. -/
theorem put_of_find? {t : Table κ α} {key : κ} {a : α} (h : t.find? key = some a) :
    t.put key a = t := by
  obtain ⟨entries⟩ := t
  simp only [put, find?] at h ⊢
  congr 1
  induction entries with
  | nil => simp at h
  | cons e rest ih =>
    obtain ⟨k, b⟩ := e
    by_cases hk : k = key
    · subst hk
      rw [List.find?_cons_of_pos (by simp)] at h
      rw [putEntry, if_pos rfl, ← Option.some.inj h]
    · rw [List.find?_cons_of_neg (by simp [hk])] at h
      rw [putEntry, if_neg hk, ih h]

end Table

end LiveAudit
