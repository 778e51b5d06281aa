import Mathlib.Algebra.Order.Group.Nat
import LiveAudit.Window

/-!
# Pages of a window

A window grows by pages of its limit, and its offset is where its last page begins. Pages of the
right place keep this up (`Window.Paged`): a page from the top may be as long as all pages held, and
a page that begins at a later page boundary is appended, whatever has happened to the rows in front
of it.

Words are compared by the numbers they stand for. None of the sums here reaches the largest word, so
that the ceiling of `capWord` never shows.
-/

namespace LiveAudit

/-! ### Words as numbers -/

theorem toNat_le_maxWord (a : UInt64) : a.toNat ≤ maxWord :=
  Nat.le_sub_one_of_lt a.toNat_lt

theorem toNat_max (a b : UInt64) : (max a b).toNat = max a.toNat b.toNat := by
  rw [show max a b = if a ≤ b then b else a from rfl, Nat.max_def]
  by_cases h : a ≤ b
  · rw [if_pos h, if_pos (UInt64.le_iff_toNat_le.1 h)]
  · rw [if_neg h, if_neg fun h' => h (UInt64.le_iff_toNat_le.2 h')]

theorem toNat_min (a b : UInt64) : (min a b).toNat = min a.toNat b.toNat := by
  rw [show min a b = if a ≤ b then a else b from rfl, Nat.min_def]
  by_cases h : a ≤ b
  · rw [if_pos h, if_pos (UInt64.le_iff_toNat_le.1 h)]
  · rw [if_neg h, if_neg fun h' => h (UInt64.le_iff_toNat_le.2 h')]

/-! ### The last page of some rows -/

/-- Where the last page of `n` rows begins. -/
def lastPage (limit n : Nat) : Nat :=
  (n - 1) / limit * limit

@[simp] theorem lastPage_zero (limit : Nat) : lastPage limit 0 = 0 := by
  simp [lastPage]

theorem dvd_lastPage (limit n : Nat) : limit ∣ lastPage limit n :=
  Nat.dvd_mul_left limit _

/-- The last page begins in front of the last row. -/
theorem lastPage_lt {limit n : Nat} (hn : 0 < n) : lastPage limit n < n :=
  Nat.lt_of_le_of_lt (Nat.div_mul_le_self _ _) (Nat.sub_lt hn Nat.one_pos)

/-- No row is behind the last page. -/
theorem le_lastPage_add {limit : Nat} (hlimit : 0 < limit) (n : Nat) :
    n ≤ lastPage limit n + limit := by
  have hdiv : n - 1 < (n - 1) / limit * limit + limit := Nat.lt_div_mul_add hlimit
  unfold lastPage
  omega

/-- The last page begins at the only page boundary that has rows behind it, and at most one page of
them. -/
theorem lastPage_eq {limit m n : Nat} (hdvd : limit ∣ m) (hlt : m < n) (hle : n ≤ m + limit) :
    lastPage limit n = m := by
  obtain ⟨c, rfl⟩ := hdvd
  have hlimit : 0 < limit := by omega
  have hc : (n - 1) / limit = c := by
    refine Nat.div_eq_of_lt_le ?_ ?_
    · rw [Nat.mul_comm]
      omega
    · rw [Nat.add_mul, Nat.mul_comm]
      omega
  rw [lastPage, hc, Nat.mul_comm]

/-- Rows that end within a page boundary's page begin their last page there or before. -/
theorem lastPage_le {limit m n : Nat} (hdvd : limit ∣ m) (hle : n ≤ m + limit) :
    lastPage limit n ≤ m := by
  by_cases hlt : m < n
  · rw [lastPage_eq hdvd hlt hle]
  · rcases Nat.eq_zero_or_pos n with rfl | hn
    · simp
    · exact Nat.le_trans (Nat.le_of_lt (lastPage_lt hn)) (Nat.le_of_not_lt hlt)

/-- Where more rows are held, the last page begins later or at the same place. -/
theorem lastPage_mono {limit m n : Nat} (h : m ≤ n) : lastPage limit m ≤ lastPage limit n :=
  Nat.mul_le_mul_right _ (Nat.div_le_div_right (Nat.sub_le_sub_right h 1))

/-- Rows beyond the largest word count as the largest word, which begins the same page. -/
theorem min_lastPage_capped {limit m n : Nat} (hdvd : limit ∣ m) (hm : m < maxWord)
    (hle : n ≤ m + limit) :
    min m (lastPage limit (min n maxWord)) = lastPage limit n := by
  rcases Nat.le_total n maxWord with hn | hn
  · rw [Nat.min_eq_left hn]
    exact Nat.min_eq_right (lastPage_le hdvd hle)
  · rw [Nat.min_eq_right hn, lastPage_eq hdvd (by omega) hle,
      lastPage_eq hdvd hm (Nat.le_trans hn hle), Nat.min_self]

namespace Window

/-! ### Positions of a window as numbers -/

theorem toNat_rows (w : Window) : w.rows.toNat = min w.items.length maxWord :=
  toNat_capWord _

theorem toNat_nextOffset (w : Window) :
    w.nextOffset.toNat = min (w.offset.toNat + w.limit.toNat) maxWord :=
  toNat_capWord _

/-- There are more rows if the total is behind the last page. -/
theorem hasMore_iff (w : Window) :
    w.hasMore ↔ w.offset.toNat + w.limit.toNat < w.total.toNat := by
  have htotal := toNat_le_maxWord w.total
  rw [hasMore, decide_eq_true_iff, UInt64.lt_iff_toNat_lt, toNat_nextOffset]
  omega

theorem toNat_refreshLimit (w : Window) :
    w.refreshLimit.toNat = max (min w.items.length maxWord) w.limit.toNat := by
  rw [refreshLimit, toNat_max, toNat_rows]

theorem toNat_lastPageOffset (w : Window) :
    w.lastPageOffset.toNat = lastPage (max w.limit.toNat 1) (min w.items.length maxWord) := by
  rw [lastPageOffset, toNat_capWord, toNat_rows]
  refine Nat.min_eq_left ?_
  exact Nat.le_trans (Nat.div_mul_le_self _ _)
    (Nat.le_trans (Nat.sub_le _ _) (Nat.min_le_right _ _))

/-! ### Rows after a page -/

/-- A page from the top replaces as many rows as it was asked for. -/
theorem items_applySpan_top (w : Window) (limit : UInt64) (page : Page) :
    (w.applySpan 0 limit page).items = page.items ++ w.items.drop limit.toNat := by
  simp [applySpan]

/-- A page that begins where the rows end, or behind it, is appended. -/
theorem items_applySpan_append {w : Window} {offset : UInt64} (h : w.items.length ≤ offset.toNat)
    (limit : UInt64) (page : Page) :
    (w.applySpan offset limit page).items = w.items ++ page.items := by
  simp [applySpan, Nat.min_eq_right h]

/-- The offset goes to the page's if that is later, but not behind the last page of the rows. -/
theorem toNat_offset_applySpan (w : Window) (offset limit : UInt64) (page : Page) :
    (w.applySpan offset limit page).offset.toNat =
      min (max w.offset.toNat offset.toNat) (lastPage (max w.limit.toNat 1)
        (min (w.applySpan offset limit page).items.length maxWord)) := by
  let merged : Window :=
    { w with items := (w.applySpan offset limit page).items, total := page.total }
  have hlast := merged.toNat_lastPageOffset
  change (min (max w.offset offset) merged.lastPageOffset).toNat = _
  rw [toNat_min, toNat_max, hlast]

/-! ### Windows that consist of pages -/

/-- The offset is where the last page of the rows begins. -/
structure Paged (w : Window) : Prop where
  limit_pos : 0 < w.limit.toNat
  offset_eq : w.offset.toNat = lastPage w.limit.toNat w.items.length
  offset_lt : w.offset.toNat < maxWord

/-- A fresh window consists of no page. -/
theorem paged_new (repo : Ident) (limit : UInt64) : (Window.new repo limit).Paged where
  limit_pos := by
    rw [new, toNat_max]
    exact Nat.lt_of_lt_of_le Nat.one_pos (Nat.le_max_right _ _)
  offset_eq := (lastPage_zero _).symm
  offset_lt := Nat.succ_pos _

namespace Paged

variable {w : Window}

theorem reset (h : w.Paged) : w.reset.Paged where
  limit_pos := h.limit_pos
  offset_eq := (lastPage_zero _).symm
  offset_lt := Nat.succ_pos _

theorem dvd_offset (h : w.Paged) : w.limit.toNat ∣ w.offset.toNat :=
  h.offset_eq ▸ dvd_lastPage _ _

theorem length_le (h : w.Paged) : w.items.length ≤ w.offset.toNat + w.limit.toNat :=
  h.offset_eq ▸ le_lastPage_add h.limit_pos _

/-- The last page has rows, unless there are none at all. -/
theorem offset_lt_length (h : w.Paged) : w.offset = 0 ∨ w.offset.toNat < w.items.length := by
  rcases Nat.eq_zero_or_pos w.items.length with hnone | hsome
  · left
    rw [← UInt64.toNat_inj, h.offset_eq, hnone, lastPage_zero]
    rfl
  · right
    rw [h.offset_eq]
    exact lastPage_lt hsome

/-- The rows held fill up the last page exactly if their number is a positive multiple of the
limit. -/
theorem length_eq_iff (h : w.Paged) : w.offset.toNat + w.limit.toNat = w.items.length ↔
    w.items.length ≠ 0 ∧ w.limit.toNat ∣ w.items.length := by
  have hpos := h.limit_pos
  constructor
  · intro heq
    exact ⟨by omega, heq ▸ Nat.dvd_add h.dvd_offset (Nat.dvd_refl _)⟩
  · rintro ⟨hne, hdvd⟩
    obtain ⟨c, hc⟩ := Nat.dvd_sub hdvd (Nat.dvd_refl w.limit.toNat)
    have hle : w.limit.toNat ≤ w.items.length := Nat.le_of_dvd (Nat.pos_of_ne_zero hne) hdvd
    have hlast : lastPage w.limit.toNat w.items.length = w.items.length - w.limit.toNat :=
      lastPage_eq ⟨c, hc⟩ (by omega) (by omega)
    rw [h.offset_eq, hlast]
    omega

/-- While there are more rows, the next page begins one limit behind the last one. -/
theorem toNat_nextOffset_of_hasMore (hmore : w.hasMore) :
    w.nextOffset.toNat = w.offset.toNat + w.limit.toNat ∧ w.nextOffset.toNat < maxWord := by
  have hlt := (hasMore_iff w).1 hmore
  have htotal := toNat_le_maxWord w.total
  rw [toNat_nextOffset]
  omega

/-- A page keeps the window paged whose rows end within a limit behind where it or the last page
begins. -/
theorem applySpan (h : w.Paged) {offset limit : UInt64} {page : Page}
    (hdvd : w.limit.toNat ∣ offset.toNat) (hlt : offset.toNat < maxWord)
    (hlength : (w.applySpan offset limit page).items.length ≤
      max w.offset.toNat offset.toNat + w.limit.toNat) :
    (w.applySpan offset limit page).Paged := by
  have hmax : w.limit.toNat ∣ max w.offset.toNat offset.toNat := by
    rcases Nat.le_total w.offset.toNat offset.toNat with hle | hle
    · rwa [Nat.max_eq_right hle]
    · rw [Nat.max_eq_left hle]
      exact h.dvd_offset
  have hmax_lt : max w.offset.toNat offset.toNat < maxWord := Nat.max_lt.2 ⟨h.offset_lt, hlt⟩
  have hoffset : (w.applySpan offset limit page).offset.toNat =
      lastPage w.limit.toNat (w.applySpan offset limit page).items.length := by
    rw [toNat_offset_applySpan, Nat.max_eq_left h.limit_pos,
      min_lastPage_capped hmax hmax_lt hlength]
  refine ⟨h.limit_pos, hoffset, ?_⟩
  rw [hoffset]
  exact Nat.lt_of_le_of_lt (lastPage_le hmax hlength) hmax_lt

/-- A page from the top that was asked for within the pages held. -/
theorem applySpan_top (h : w.Paged) {limit : UInt64} {page : Page}
    (hlimit : limit.toNat ≤ w.offset.toNat + w.limit.toNat)
    (hpage : page.items.length ≤ limit.toNat) : (w.applySpan 0 limit page).Paged := by
  refine h.applySpan (Nat.dvd_zero _) (by decide) ?_
  have hlength := h.length_le
  rw [items_applySpan_top, List.length_append, List.length_drop]
  exact Nat.le_trans (by omega) (Nat.add_le_add_right (Nat.le_max_left _ _) _)

/-- A page that is appended, from a page boundary behind the pages held. -/
theorem applySpan_append (h : w.Paged) {offset limit : UInt64} {page : Page}
    (hdvd : w.limit.toNat ∣ offset.toNat) (hlt : offset.toNat < maxWord)
    (hoffset : w.offset.toNat + w.limit.toNat ≤ offset.toNat)
    (hpage : page.items.length ≤ w.limit.toNat) : (w.applySpan offset limit page).Paged := by
  refine h.applySpan hdvd hlt ?_
  have hlength := Nat.le_trans h.length_le hoffset
  rw [items_applySpan_append hlength, List.length_append, Nat.max_eq_right (by omega)]
  exact Nat.add_le_add hlength hpage

end Paged

end Window

end LiveAudit
