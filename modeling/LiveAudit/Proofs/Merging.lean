import LiveAudit.Proofs.Paging

/-!
# Merging word by word

A page is merged by arithmetic on places in a list. `Window.applySpan` does it with numbers; a
machine does it with words, and is stopped by a difference below zero, a product beyond the largest
word, a division by zero, and a part of a list that does not lie in it. `Window.applySpan?` takes
one machine step after another and is `none` where the machine would stop.

It never stops, for any offset and limit, while the rows held and those of the page can be counted
by one word; and it computes what `Window.applySpan` does (`Window.applySpan?_eq`). What that is,
the positions of a window included, is exact arithmetic with a ceiling (`Window.merged_exactly`).
-/

namespace LiveAudit

/-! ### Steps of a machine -/

/-- An integer as a word, if it is one. -/
def word? (n : Int) : Option UInt64 :=
  if 0 ≤ n ∧ n ≤ maxWord then some (UInt64.ofNat n.toNat) else none

/-- Quotient of two words, unless the divisor is zero. -/
def quotient? (a b : UInt64) : Option UInt64 :=
  if b = 0 then none else some (a / b)

/-- Replaces the part of a list from one place to another, if there is such a part. -/
def splice? {α : Type} (l : List α) (start stop : UInt64) (new : List α) : Option (List α) :=
  if start ≤ stop ∧ stop.toNat ≤ l.length then
    some (l.take start.toNat ++ new ++ l.drop stop.toNat)
  else none

theorem toNat_ofNat_of_le {n : Nat} (h : n ≤ maxWord) : (UInt64.ofNat n).toNat = n :=
  UInt64.toNat_ofNat_of_lt' (Nat.lt_succ_of_le h)

/-- A number up to the largest word is one. -/
theorem word?_of_le {n : Nat} (h : n ≤ maxWord) : word? n = some (UInt64.ofNat n) := by
  have hbounds : (0 : Int) ≤ n ∧ (n : Int) ≤ maxWord := by omega
  rw [word?, if_pos hbounds, Int.toNat_natCast]

/-- A difference that is not below zero is a word. -/
theorem word?_sub {a b : UInt64} (h : b.toNat ≤ a.toNat) :
    word? (a.toNat - b.toNat) = some (UInt64.ofNat (a.toNat - b.toNat)) := by
  rw [← Int.natCast_sub h]
  exact word?_of_le (Nat.le_trans (Nat.sub_le _ _) (toNat_le_maxWord a))

/-- A part that lies in the list is replaced. -/
theorem splice?_of_le {α : Type} {l : List α} {start stop : UInt64}
    (hle : start.toNat ≤ stop.toNat) (hstop : stop.toNat ≤ l.length) (new : List α) :
    splice? l start stop new = some (l.take start.toNat ++ new ++ l.drop stop.toNat) :=
  if_pos ⟨UInt64.le_iff_toNat_le.2 hle, hstop⟩

namespace Window

/-- Where the last page of the held rows begins, computed with words. -/
def lastPageOffset? (w : Window) : Option UInt64 := do
  let limit := max w.limit 1
  -- this difference stops at zero
  let pages ← quotient? (UInt64.ofNat (w.rows.toNat - 1)) limit
  word? (pages.toNat * limit.toNat : Nat)

/-- Moves the offset on to another, but not behind the last page, computed with words. -/
def moveOn? (w : Window) (offset : UInt64) : Option Window := do
  let last ← w.lastPageOffset?
  return { w with offset := min (max w.offset offset) last }

/-- Merges a page that was fetched from `offset` with `limit`, computed with words. -/
def applySpan? (w : Window) (offset limit : UInt64) (page : Page) : Option Window := do
  let rows ← word? w.items.length
  let start := min offset rows
  -- this sum stops at the largest word
  let stop := min (capWord (start.toNat + limit.toNat)) rows
  let _replaced ← word? (stop.toNat - start.toNat)
  let items ← splice? w.items start stop page.items
  { w with items := items, total := page.total }.moveOn? offset

/-- The last page is found without a stop, whatever the limit. -/
theorem lastPageOffset?_eq (w : Window) : w.lastPageOffset? = some w.lastPageOffset := by
  have hlimit : (max w.limit 1).toNat = max w.limit.toNat 1 := toNat_max _ _
  have hne : max w.limit 1 ≠ 0 := by
    rw [ne_eq, ← UInt64.toNat_inj, hlimit, UInt64.toNat_zero]
    omega
  have hrows : w.rows.toNat - 1 ≤ maxWord :=
    Nat.le_trans (Nat.sub_le _ _) (toNat_le_maxWord w.rows)
  have hpages : (UInt64.ofNat (w.rows.toNat - 1) / max w.limit 1).toNat =
      (w.rows.toNat - 1) / max w.limit.toNat 1 := by
    rw [UInt64.toNat_div, toNat_ofNat_of_le hrows, hlimit]
  have hproduct : (w.rows.toNat - 1) / max w.limit.toNat 1 * max w.limit.toNat 1 ≤ maxWord :=
    Nat.le_trans (Nat.div_mul_le_self _ _) hrows
  simp only [lastPageOffset?, quotient?, if_neg hne, Option.bind_eq_bind, Option.bind_some, hpages,
    hlimit]
  rw [word?_of_le hproduct, lastPageOffset, capWord, Nat.min_eq_left hproduct]

theorem moveOn?_eq (w : Window) (offset : UInt64) :
    w.moveOn? offset = some { w with offset := min (max w.offset offset) w.lastPageOffset } := by
  rw [moveOn?, lastPageOffset?_eq]
  rfl

/-- Merging does not stop while the rows held can be counted, whatever the offset and the limit. -/
theorem applySpan?_eq {w : Window} (hrows : w.items.length ≤ maxWord) (offset limit : UInt64)
    (page : Page) : w.applySpan? offset limit page = some (w.applySpan offset limit page) := by
  let rows := UInt64.ofNat w.items.length
  let start := min offset rows
  let stop := min (capWord (start.toNat + limit.toNat)) rows
  have hcount : rows.toNat = w.items.length := toNat_ofNat_of_le hrows
  have hstart : start.toNat = min offset.toNat w.items.length := by rw [toNat_min, hcount]
  have hstop : stop.toNat = min (start.toNat + limit.toNat) w.items.length := by
    rw [toNat_min, toNat_capWord, hcount]
    omega
  have hreplaced : word? (stop.toNat - start.toNat) =
      some (UInt64.ofNat (stop.toNat - start.toNat)) := word?_sub (by omega)
  have hsplice : splice? w.items start stop page.items =
      some (w.applySpan offset limit page).items := by
    have hdrop : w.items.drop stop.toNat = w.items.drop (start.toNat + limit.toNat) :=
      List.drop_eq_drop_iff.2 (by omega)
    rw [splice?_of_le (by omega) (by omega), hdrop, hstart]
    rfl
  calc w.applySpan? offset limit page
      = (word? w.items.length).bind fun _ => (word? (stop.toNat - start.toNat)).bind fun _ =>
          (splice? w.items start stop page.items).bind fun items =>
            { w with items := items, total := page.total }.moveOn? offset := by
        rw [applySpan?, word?_of_le hrows]
        rfl
    _ = { w with items := (w.applySpan offset limit page).items, total := page.total }.moveOn?
          offset := by
        rw [word?_of_le hrows, hreplaced, hsplice, Option.bind_some, Option.bind_some,
          Option.bind_some]
    _ = some (w.applySpan offset limit page) := by
        rw [moveOn?_eq]
        rfl

/-! ### What merging does -/

/-- What a window is after a page that was fetched from `offset` with `limit`. -/
structure Merges (w : Window) (offset limit : UInt64) (page : Page) (merged : Window) : Prop where
  /-- From the offset on, as many rows as the limit says give way to those of the page. -/
  items : merged.items = w.items.take (min offset.toNat w.items.length) ++ page.items ++
    w.items.drop (min w.items.length (min offset.toNat w.items.length + limit.toNat))
  total : merged.total = page.total
  /-- The offset goes to the page's if that is later, but not behind the last page of the rows. -/
  offset : merged.offset.toNat = min (max w.offset.toNat offset.toNat)
    ((max merged.items.length 1 - 1) / max w.limit.toNat 1 * max w.limit.toNat 1)
  repoId : merged.repoId = w.repoId
  limit : merged.limit = w.limit
  loading : merged.loading = w.loading

/-- A page brings no more rows than it has. -/
theorem length_applySpan_le (w : Window) (offset limit : UInt64) (page : Page) :
    (w.applySpan offset limit page).items.length ≤ w.items.length + page.items.length := by
  simp only [applySpan, List.length_append, List.length_take, List.length_drop]
  omega

/-- Merging is exact while the rows held and those of the page can be counted together. -/
theorem merges_applySpan {w : Window} {page : Page}
    (hroom : w.items.length + page.items.length ≤ maxWord) (offset limit : UInt64) :
    w.Merges offset limit page (w.applySpan offset limit page) where
  items := by
    have hdrop : w.items.drop (min offset.toNat w.items.length + limit.toNat) =
        w.items.drop (min w.items.length (min offset.toNat w.items.length + limit.toNat)) :=
      List.drop_eq_drop_iff.2 (by omega)
    rw [← hdrop]
    rfl
  total := rfl
  offset := by
    have hlength := Nat.le_trans (w.length_applySpan_le offset limit page) hroom
    have hlast : max (w.applySpan offset limit page).items.length 1 - 1 =
        (w.applySpan offset limit page).items.length - 1 := by omega
    rw [toNat_offset_applySpan, Nat.min_eq_left hlength, lastPage, hlast]
  repoId := rfl
  limit := rfl
  loading := rfl

/-- Merging a page never stops and does exactly what it should, for any offset and limit and any
window, a window without a limit included; rows that are in memory can always be counted by a word.
The next offset and the limit of a refresh are exact up to the largest word, and there are more rows
exactly if the total is behind the last page. A page of the window's own size is merged with its
limit, and a page that could not be loaded changes nothing. -/
theorem merged_exactly (w : Window) (offset limit : UInt64) (page : Page)
    (hroom : w.items.length + page.items.length ≤ maxWord) :
    w.applySpan? offset limit page = some (w.applySpan offset limit page) ∧
    w.Merges offset limit page (w.applySpan offset limit page) ∧
    w.nextOffset.toNat = min (w.offset.toNat + w.limit.toNat) maxWord ∧
    (w.hasMore ↔ w.offset.toNat + w.limit.toNat < w.total.toNat) ∧
    w.refreshLimit.toNat = min (max w.items.length w.limit.toNat) maxWord ∧
    w.applyPage offset page = w.applySpan offset w.limit page ∧
    w.loadPage offset (.ok page) = (w.applyPage offset page, .ok ()) ∧
    ∀ e, w.loadPage offset (.error e) = (w, .error e) := by
  have hlimit := toNat_le_maxWord w.limit
  have hrefresh : w.refreshLimit.toNat = min (max w.items.length w.limit.toNat) maxWord := by
    rw [toNat_refreshLimit]
    omega
  exact ⟨applySpan?_eq (Nat.le_of_add_right_le hroom) offset limit page,
    merges_applySpan hroom offset limit, w.toNat_nextOffset, w.hasMore_iff, hrefresh, rfl, rfl,
    fun _ => rfl⟩

/-- A window without a limit whose offset is the largest word: a page of two rows that was asked for
from its third row on, with the largest limit, takes the place of that row. -/
theorem merged_exactly_extremes :
    let row (id : Ident) : Run := ⟨id, .pending, none, none, none, none⟩
    let top : UInt64 := 18446744073709551615
    let w : Window := ⟨"r", [row "a", row "b", row "c"], 3, top, 0, true⟩
    let page : Page := ⟨[row "d", row "e"], 9⟩
    w.items.length + page.items.length ≤ maxWord ∧
      w.applySpan? 2 top page =
        some ⟨"r", [row "a", row "b", row "d", row "e"], 9, 3, 0, true⟩ ∧
      w.nextOffset = top ∧ ¬w.hasMore := by
  intro row top w page
  have hroom : w.items.length + page.items.length ≤ maxWord := by decide
  obtain ⟨hmachine, -, hnext, hmore, -⟩ := merged_exactly w 2 top page hroom
  have hmerged : w.applySpan 2 top page =
      ⟨"r", [row "a", row "b", row "d", row "e"], 9, 3, 0, true⟩ := by decide
  refine ⟨hroom, hmerged ▸ hmachine, UInt64.toNat_inj.1 (hnext.trans (by decide)), ?_⟩
  rw [hmore]
  decide

end Window

end LiveAudit
