import Mathlib.Data.List.DropRight
import LiveAudit.Settings

/-!
# Normalising settings twice

An address is trimmed first and loses its slashes afterwards, so that a blank in front of the
slashes becomes its last character. Settings are the same after a second normalisation exactly if no
such blank is left by the first one (`Settings.normalized_normalized_iff`), and what a second one
takes away no third one brings back (`Settings.normalized_twice_iff`).
-/

namespace LiveAudit

namespace Text

/-- A text without the blanks around it and the slashes at its end. -/
def stripped (s : List Char) : List Char :=
  dropEnd (· = '/') (trim s)

variable {s t : List Char}

theorem dropEnd_isPrefix (p : Char → Bool) (s : List Char) : dropEnd p s <+: s :=
  List.rdropWhile_prefix p s

/-- Nothing is dropped behind a last character that is not in the class. -/
theorem dropEnd_eq_self_iff {p : Char → Bool} :
    dropEnd p s = s ↔ ∀ c ∈ s.getLast?, p c = false := by
  rcases List.eq_nil_or_concat s with rfl | ⟨front, c, rfl⟩
  · simp [dropEnd]
  · have hconcat : dropEnd p (front ++ [c]) = if p c then dropEnd p front else front ++ [c] :=
      List.rdropWhile_concat p front c
    rw [List.concat_eq_append, hconcat, List.getLast?_concat]
    split_ifs with hc
    · have hshort := (dropEnd_isPrefix p front).length_le
      have hne : dropEnd p front ≠ front ++ [c] := by
        intro heq
        rw [heq, List.length_append] at hshort
        exact Nat.not_succ_le_self _ hshort
      simpa [hc] using hne
    · simpa using hc

theorem stripped_sublist (s : List Char) : (stripped s).Sublist s := by
  have hfront : stripped s <+: trimStart s :=
    (dropEnd_isPrefix _ _).trans (dropEnd_isPrefix _ _)
  exact hfront.sublist.trans (List.dropWhile_sublist _)

/-- What begins like a text without blanks in front has none there. -/
theorem trimStart_of_isPrefix (h : t <+: trimStart s) : trimStart t = t := by
  cases t with
  | nil => rfl
  | cons c t =>
    obtain ⟨rest, hrest⟩ := h
    have hagain : trimStart (c :: (t ++ rest)) = c :: (t ++ rest) := by
      rw [← List.cons_append, hrest]
      exact List.dropWhile_idempotent _ _
    have hshown : ¬isBlank c = true := by
      intro hblank
      have hlength := (List.dropWhile_sublist (l := t ++ rest) isBlank).length_le
      rw [trimStart, List.dropWhile_cons_of_pos hblank] at hagain
      rw [hagain] at hlength
      exact Nat.not_succ_le_self _ hlength
    exact List.dropWhile_cons_of_neg hshown

/-- What is stripped of a stripped text are the blanks at its end and the slashes before them. -/
theorem stripped_stripped (s : List Char) :
    stripped (stripped s) = dropEnd (· = '/') (trimEnd (stripped s)) := by
  have hfront : stripped s <+: trimStart s :=
    (dropEnd_isPrefix _ _).trans (dropEnd_isPrefix _ _)
  rw [stripped, trim, trimStart_of_isPrefix hfront]

/-- A stripped text is only stripped again if it ends in a blank. -/
theorem stripped_stripped_iff :
    stripped (stripped s) = stripped s ↔ ∀ c ∈ (stripped s).getLast?, isBlank c = false := by
  rw [stripped_stripped, ← dropEnd_eq_self_iff]
  constructor
  · intro h
    have hback := dropEnd_isPrefix (· = '/') (trimEnd (stripped s))
    rw [h] at hback
    exact (dropEnd_isPrefix isBlank _).eq_of_length_le hback.length_le
  · intro h
    rw [trimEnd, h]
    exact List.rdropWhile_idempotent _ _

end Text

namespace Settings

open Text (stripped isBlank)

/-- The address ends in a blank. -/
def EndsBlank (s : Settings) : Prop :=
  ∃ url ∈ s.baseUrl, ∃ c ∈ url.toList.getLast?, isBlank c = true

theorem normalUrl_eq_some {url u : String} :
    normalUrl url = some u ↔ stripped url.toList = u.toList ∧ u.toList ≠ [] := by
  have hurl : normalUrl url = if (stripped url.toList).isEmpty then none
      else some (String.ofList (stripped url.toList)) := rfl
  rw [hurl]
  constructor
  · intro h
    split_ifs at h with hempty
    obtain rfl := Option.some.inj h
    rw [String.toList_ofList]
    exact ⟨rfl, by simpa using hempty⟩
  · rintro ⟨hu, hne⟩
    rw [hu, if_neg (by simpa using hne), String.ofList_toList]

/-- A normal address is normalised again only if it ends in a blank. -/
theorem normalUrl_normal_iff {url u : String} (h : normalUrl url = some u) :
    normalUrl u = some u ↔ ∀ c ∈ u.toList.getLast?, isBlank c = false := by
  obtain ⟨hu, hne⟩ := normalUrl_eq_some.1 h
  rw [normalUrl_eq_some, and_iff_left hne, ← hu, Text.stripped_stripped_iff]

/-- An address that comes back was not changed. -/
theorem normalUrl_of_twice {u v : String} (h : normalUrl u = some v) (h' : normalUrl v = some u) :
    u = v := by
  have hv := (normalUrl_eq_some.1 h).1 ▸ Text.stripped_sublist u.toList
  have hu := (normalUrl_eq_some.1 h').1 ▸ Text.stripped_sublist v.toList
  exact String.toList_inj.1 (hu.antisymm hv)

/-- Only the address is changed by a second normalisation. -/
theorem normalized_normalized (s : Settings) : s.normalized.normalized =
    { s.normalized with baseUrl := s.normalized.baseUrl.bind normalUrl } := by
  have hmax (a b : UInt64) : max a b = if a ≤ b then b else a := rfl
  have hfloor (n : UInt64) : max (max n 1) 1 = max n 1 := by
    rw [hmax n 1]
    split_ifs with hn
    · rfl
    · rw [hmax, if_neg hn]
  simp only [normalized, hfloor]

theorem normalized_eq_iff {s : Settings} : s.normalized.normalized = s.normalized ↔
    s.normalized.baseUrl.bind normalUrl = s.normalized.baseUrl := by
  rw [normalized_normalized]
  constructor
  · intro h
    exact congrArg baseUrl h
  · intro h
    rw [h]

/-- Settings are the same after a second normalisation exactly if the first one leaves no blank at
the end of the address. -/
theorem normalized_normalized_iff (s : Settings) :
    s.normalized.normalized = s.normalized ↔ ¬s.normalized.EndsBlank := by
  rw [normalized_eq_iff]
  cases hu : s.normalized.baseUrl with
  | none => simp [EndsBlank, hu]
  | some u =>
    obtain ⟨url, -, hurl⟩ := Option.bind_eq_some_iff.1 hu
    rw [Option.bind_some, normalUrl_normal_iff hurl]
    simp [EndsBlank, hu]

/-- What a second normalisation takes away, no third one brings back. -/
theorem normalized_twice_iff (s : Settings) :
    s.normalized.normalized.normalized = s.normalized ↔
      s.normalized.normalized = s.normalized := by
  constructor
  · intro h
    have hback : (s.normalized.baseUrl.bind normalUrl).bind normalUrl = s.normalized.baseUrl :=
      congrArg baseUrl h
    rw [normalized_eq_iff]
    cases hu : s.normalized.baseUrl with
    | none => rfl
    | some u =>
      rw [hu] at hback
      obtain ⟨v, hv, hvu⟩ := Option.bind_eq_some_iff.1 hback
      obtain rfl := normalUrl_of_twice hv hvu
      exact hv
  · intro h
    rw [h, h]

end Settings

end LiveAudit
