import LiveAudit.Proofs.Mirror

/-!
# In sync with a list that changes

A change of the list queues an update, and the update leads to a refresh. So at any time an update
waits, or a refresh waits for the one in flight, or the list has not changed since the last refresh
was sent (`RepoState.Synced`). In the last case that refresh reads the present list, and everything
that was asked for after it does (`RepoState.Clean`); a page that was already out when it was sent
may have read an older one, and `RepoState.Straight` is about the case that there is none.
-/

namespace LiveAudit

namespace RepoState

/-! ### Rows that can be counted -/

/-- A window of pages whose rows can be counted; a refresh waits only for one in flight. -/
structure Tidy (limit : UInt64) (s : RepoState) (out : List Request) : Prop where
  fits : Fits limit s out
  counted : s.window.items.length ≤ maxWord
  trailing : s.refresh.trailing → s.refresh.inFlight

/-- Where pages are slices, windows stay tidy. -/
theorem preserved_tidy (limit : UInt64) : Preserved Sliced (Tidy limit) where
  thin sync progress h hsub := ⟨(preserved_fits limit).thin sync progress h.fits hsub, h.counted,
    h.trailing⟩
  reset hb h := ⟨(preserved_fits limit).reset hb h.fits, Nat.zero_le _, id⟩
  requestRefresh {s _} _ h := by
    exact ⟨h.fits.requestRefresh, h.counted, fun _ => s.inFlight_requestRefresh⟩
  requestMore {s _} _ h := by
    refine ⟨h.fits.requestMore, ?_, ?_⟩
    · by_cases hmore : s.loadMore = none ∧ s.window.hasMore
      · rw [requestMore_of hmore]
        exact h.counted
      · rw [requestMore_of_not hmore]
        exact h.counted
    · rw [refresh_requestMore]
      exact h.trailing
  takeRefresh {s _ f result} hb h hf hr he hsliced := by
    refine ⟨h.fits.takeRefresh hb _ hf hr he fun page hpage => short_of_sliced (hsliced page hpage),
      ?_, fun ht => by simp [openGate, markLoading, Gate.idle] at ht⟩
    cases result with
    | error e => exact h.counted
    | ok page =>
      have hshort : page.items.length ≤ f.limit.toNat := short_of_sliced (hsliced page rfl)
      have hlimit := toNat_le_maxWord f.limit
      have hcounted := h.counted
      change (s.merge f (.ok page)).window.items.length ≤ maxWord
      rw [Fits.items_takeRefresh hb hf hr he page, List.length_append, List.length_drop]
      omega
  takeMore {s _ f result} hb h hf hr he hsliced := by
    refine ⟨h.fits.takeMore hb _ hf hr he fun page hpage => short_of_sliced (hsliced page hpage),
      ?_, by cases result <;> exact h.trailing⟩
    cases result with
    | error e => exact h.counted
    | ok page =>
      obtain ⟨hk, -⟩ := h.fits.more_fetch hb hf hr he
      have hlength := h.fits.length_le_of_more (Option.mem_def.2 hk)
      obtain ⟨list, hlist, hpage⟩ := hsliced page rfl
      have hread : page.items.length ≤ list.length - f.offset.toNat := by
        rw [hpage, Service.slice, List.length_take, List.length_drop]
        exact Nat.min_le_right _ _
      have hsize : list.length ≤ maxWord := Nat.le_sub_one_of_lt hlist
      have hcounted := h.counted
      change (s.merge f (.ok page)).window.items.length ≤ maxWord
      rw [h.fits.items_takeMore hb hf hr he page, List.length_append]
      omega

/-! ### What is read of the present list -/

section

variable (limit : UInt64) (runs : List Run) (read? : PageFetch → Option (List Run))

/-- The page being appended was asked for after the last refresh was sent: it reads the present
list, where the rows held end, and so does what was appended before it. -/
structure Straight (last : LastRefresh) (s : RepoState) (out : List Request) : Prop where
  read : ∀ f, .page f ∈ out → f.reason = .loadMore → f.epoch = s.epoch →
    ∀ list ∈ read? f, list = runs
  appended : last.appended <+: runs.drop last.limit
  place : ∀ offset ∈ s.loadMore,
    offset.toNat = last.limit + last.appended.length ∨ runs.length ≤ offset.toNat
  total : s.refresh.inFlight = false → s.window.total.toNat = runs.length
  /-- Before the first page is full, none is appended. -/
  short : s.refresh.inFlight → last.held < limit.toNat → s.loadMore = none ∧ last.appended = []

/-- The list has not changed since the last refresh was sent. -/
structure Clean (last : LastRefresh) (s : RepoState) (out : List Request) : Prop where
  limit_eq : last.limit = max last.held limit.toNat
  refresh : ∀ f, .page f ∈ out → f.reason = .refresh → f.epoch = s.epoch →
    f.limit.toNat = last.limit ∧ ∀ list ∈ read? f, list = runs
  /-- While the refresh is out, the rows it was sent for are held as they were. -/
  rows_before : s.refresh.inFlight → ∃ held, s.window.items = held ++ last.appended ∧
    held.length = last.held
  rows_after : s.refresh.inFlight = false →
    s.window.items = runs.take last.limit ++ last.appended
  straight : last.crossed = false → Straight limit runs read? last s out

/-- An update waits, or a refresh waits, or the list has not changed since the last one. -/
def Synced (hints : Nat) (last : LastRefresh) (s : RepoState) (out : List Request) : Prop :=
  0 < hints ∨ s.refresh.trailing ∨ Clean limit runs read? last s out

end

section

variable {limit : UInt64} {runs : List Run} {read? : PageFetch → Option (List Run)}
  {last : LastRefresh} {s : RepoState} {out : List Request}

/-- What is out and what is held decide; fetches may go, and may read the present list. -/
theorem Clean.congr (h : Clean limit runs read? last s out) {s' : RepoState}
    {out' : List Request} {read?' : PageFetch → Option (List Run)}
    (hitems : s'.window.items = s.window.items) (htotal : s'.window.total = s.window.total)
    (hgate : s'.refresh.inFlight = s.refresh.inFlight) (hmore : s'.loadMore = s.loadMore)
    (hepoch : s'.epoch = s.epoch) (hout : ∀ f, .page f ∈ out' → .page f ∈ out)
    (hread : ∀ f, ∀ list ∈ read?' f, list = runs ∨ list ∈ read? f) :
    Clean limit runs read?' last s' out' where
  limit_eq := h.limit_eq
  refresh f hf hr he := by
    obtain ⟨hlimit, hruns⟩ := h.refresh f (hout f hf) hr (he.trans hepoch)
    exact ⟨hlimit, fun list hlist => (hread f list hlist).elim id (hruns list)⟩
  rows_before hg := by
    rw [hitems]
    exact h.rows_before (hgate ▸ hg)
  rows_after hg := by
    rw [hitems]
    exact h.rows_after (hgate ▸ hg)
  straight hcrossed := by
    have hs := h.straight hcrossed
    constructor
    · exact fun f hf hr he list hlist =>
        (hread f list hlist).elim id (hs.read f (hout f hf) hr (he.trans hepoch) list)
    · exact hs.appended
    · rw [hmore]
      exact hs.place
    · rw [hgate, htotal]
      exact hs.total
    · rw [hgate, hmore]
      exact hs.short

/-! ### Refreshes and pages that go out -/

/-- When a refresh goes out and no page is being appended, what is asked for next reads on behind
it. -/
theorem straight_sent (hb : s.Balanced out) (hmore : s.loadMore = none) :
    Straight limit runs read? (.sent s.requestRefresh.1) s.requestRefresh.1
      (out ++ s.requestRefresh.2) := by
  constructor
  · intro f hf hr he
    rcases List.mem_append.1 hf with hold | hnew
    · exact absurd he (hb.epoch_ne_of_no_more hmore hold hr)
    · rw [Request.page.inj (mem_requestRefresh hnew)] at hr
      simp at hr
  · exact List.nil_prefix
  · intro offset hk
    have hk' : s.loadMore = some offset := hk
    simp [hmore] at hk'
  · intro hg
    rw [inFlight_requestRefresh] at hg
    exact absurd hg Bool.noConfusion
  · exact fun _ _ => ⟨hmore, rfl⟩

/-- A refresh that goes out reads the list as it is now or will be. -/
theorem clean_sent (hb : s.Balanced out) (ht : Tidy limit s out) (hg : s.refresh.inFlight = false)
    (hreads : ∀ f, (read? f).isSome → .page f ∈ out) :
    Clean limit runs read? (.sent s.requestRefresh.1) s.requestRefresh.1
      (out ++ s.requestRefresh.2) := by
  constructor
  · change s.window.refreshLimit.toNat = max s.window.items.length limit.toNat
    rw [Window.toNat_refreshLimit, Nat.min_eq_left ht.counted, ht.fits.limit_eq]
  · intro f hf hr he
    rcases List.mem_append.1 hf with hold | hnew
    · exact absurd he (hb.epoch_ne_of_idle hg hold hr)
    · refine ⟨?_, fun list hlist => ?_⟩
      · rw [Request.page.inj (mem_requestRefresh hnew)]
        rfl
      · have hout := hreads f (Option.isSome_of_mem hlist)
        exact absurd he (hb.epoch_ne_of_idle hg hout hr)
  · exact fun _ => ⟨s.window.items, (List.append_nil _).symm, rfl⟩
  · intro hg'
    rw [inFlight_requestRefresh] at hg'
    exact absurd hg' Bool.noConfusion
  · intro hcrossed
    have hsome : s.loadMore.isSome = false := hcrossed
    exact straight_sent hb (by simpa using hsome)

/-- The next page begins where the rows end: there, the present list goes on behind what was
appended. -/
theorem Clean.length_eq (h : Clean limit runs read? last s out)
    (hs : Straight limit runs read? last s out)
    (hheld : s.refresh.inFlight → limit.toNat ≤ last.held) :
    s.window.items.length = last.limit + last.appended.length ∨
      runs.length ≤ s.window.items.length := by
  cases hg : s.refresh.inFlight with
  | true =>
    obtain ⟨held, hrows, hlength⟩ := h.rows_before hg
    left
    rw [hrows, List.length_append, hlength, h.limit_eq, Nat.max_eq_left (hheld hg)]
  | false =>
    have happended := hs.appended.length_le
    rw [List.length_drop] at happended
    rw [h.rows_after hg, List.length_append, List.length_take]
    omega

/-- While the refresh is out, a full page was held when it was sent if one is held now. -/
theorem Clean.limit_le_held (h : Clean limit runs read? last s out)
    (hs : Straight limit runs read? last s out) (hfull : limit.toNat ≤ s.window.items.length)
    (hg : s.refresh.inFlight) : limit.toNat ≤ last.held := by
  by_contra hshort
  obtain ⟨held, hrows, hheld⟩ := h.rows_before hg
  rw [(hs.short hg (Nat.lt_of_not_le hshort)).2, List.append_nil] at hrows
  rw [hrows, hheld] at hfull
  exact hshort hfull

/-- A page that is asked for where the rows end continues the present list. -/
theorem Clean.requestMore (h : Clean limit runs read? last s out) (hb : s.Balanced out)
    (ht : Tidy limit s out) (hreads : ∀ f, (read? f).isSome → .page f ∈ out)
    (hplace : ∀ f, .page f ∈ s.requestMore.2 → f.offset.toNat = s.window.items.length) :
    Clean limit runs read? last s.requestMore.1 (out ++ s.requestMore.2) := by
  by_cases hmore : s.loadMore = none ∧ s.window.hasMore
  · have hnext : s.window.nextOffset.toNat = s.window.items.length := by
      have hsent : s.moreFetch s.window.nextOffset ∈ s.requestMore.2 := by
        rw [requestMore_of hmore]
        exact List.mem_singleton_self _
      exact hplace _ hsent
    have hfull : limit.toNat ≤ s.window.items.length := by
      have hbehind := (Window.Paged.toNat_nextOffset_of_hasMore hmore.2).1
      rw [hnext, ht.fits.limit_eq] at hbehind
      omega
    rw [requestMore_of hmore]
    constructor
    · exact h.limit_eq
    · intro f hf hr he
      rcases List.mem_append.1 hf with hold | hnew
      · exact h.refresh f hold hr he
      · rw [Request.page.inj (List.mem_singleton.1 hnew)] at hr
        simp at hr
    · exact h.rows_before
    · exact h.rows_after
    · intro hcrossed
      have hs := h.straight hcrossed
      have hheld := h.limit_le_held hs hfull
      constructor
      · intro f hf hr he list hlist
        have hold : .page f ∈ out := hreads f (Option.isSome_of_mem hlist)
        exact absurd he (hb.epoch_ne_of_no_more hmore.1 hold hr)
      · exact hs.appended
      · intro offset hk
        obtain rfl := Option.some.inj (Option.mem_def.1 hk)
        rw [hnext]
        exact h.length_eq hs hheld
      · exact hs.total
      · exact fun hg hshort => absurd (hheld hg) (Nat.not_le_of_lt hshort)
  · rw [requestMore_of_not hmore, List.append_nil]
    exact h

/-! ### Answers that come back -/

/-- The refresh that comes back replaces no row that was appended since it was sent. -/
theorem Straight.drop_appended (hs : Straight limit runs read? last s out)
    (hlimit : last.limit = max last.held limit.toNat) (hg : s.refresh.inFlight) :
    last.appended.drop (last.limit - last.held) = last.appended := by
  rcases Nat.lt_or_ge last.held limit.toNat with hshort | hfull
  · rw [(hs.short hg hshort).2, List.drop_nil]
  · rw [hlimit, Nat.max_eq_left hfull, Nat.sub_self, List.drop_zero]

/-- A refresh that comes back replaces the rows it was sent for by those of the present list. -/
theorem Clean.takeRefresh (h : Clean limit runs read? last s out) (hb : s.Balanced out)
    (hruns : runs.length < UInt64.size) {f : PageFetch} (hf : .page f ∈ out)
    (hr : f.reason = .refresh) (he : f.epoch = s.epoch) {list : List Run} (hlist : list ∈ read? f)
    {read?' : PageFetch → Option (List Run)} (hread : ∀ g, ∀ list ∈ read?' g, list ∈ read? g) :
    Clean limit runs read?' { last with appended := last.appended.drop (last.limit - last.held) }
      (s.merge f (.ok (Service.slice list f.offset f.limit))).openGate (out.erase (.page f)) := by
  obtain ⟨hflight, hoffset, -⟩ := hb.refreshes_eq_singleton hf hr he
  obtain ⟨hlimit, hnow⟩ := h.refresh f hf hr he
  obtain rfl := hnow list hlist
  obtain ⟨held, hitems, hheld⟩ := h.rows_before hflight
  have hle : last.held ≤ last.limit := h.limit_eq ▸ Nat.le_max_left _ _
  have hidle := hb.openGate hf hr he
  have hrows : (s.merge f (.ok (Service.slice list f.offset f.limit))).window.items =
      list.take last.limit ++ last.appended.drop (last.limit - last.held) := by
    rw [Fits.items_takeRefresh hb hf hr he, hitems, hlimit, List.drop_append, hheld,
      List.drop_eq_nil_of_le (hheld ▸ hle), List.nil_append, Service.slice, hoffset, ← hlimit]
    rfl
  constructor
  · exact h.limit_eq
  · exact fun g hg hgr hge => absurd hge (hidle.epoch_ne_of_idle rfl hg hgr)
  · intro hg
    simp [openGate, markLoading, Gate.idle] at hg
  · exact fun _ => hrows
  · intro hcrossed
    have hs := h.straight hcrossed
    rw [hs.drop_appended h.limit_eq hflight]
    constructor
    · exact fun g hg hgr hge list' hlist' =>
        hs.read g (List.mem_of_mem_erase hg) hgr hge list' (hread g list' hlist')
    · exact hs.appended
    · exact hs.place
    · exact fun _ => toNat_total_slice hruns f.offset f.limit
    · intro hg
      simp [openGate, markLoading, Gate.idle] at hg

/-- A page that was read of the present list where the appended rows end continues them. -/
theorem Straight.appended_slice (hs : Straight limit runs read? last s out) {offset : UInt64}
    (hk : offset ∈ s.loadMore) (n : UInt64) :
    last.appended ++ (Service.slice runs offset n).items <+: runs.drop last.limit := by
  change last.appended ++ (runs.drop offset.toNat).take n.toNat <+: _
  rcases hs.place offset hk with hplace | hbehind
  · obtain ⟨rest, hrest⟩ := hs.appended
    have hdrop : runs.drop offset.toNat = rest := by
      rw [hplace, ← List.drop_drop, ← hrest, List.drop_left]
    rw [hdrop, ← hrest]
    exact (List.prefix_append_right_inj _).2 (List.take_prefix _ _)
  · rw [List.drop_eq_nil_of_le hbehind, List.take_nil, List.append_nil]
    exact hs.appended

/-- A page that comes back is appended to what was appended before. -/
theorem Clean.takeMore (h : Clean limit runs read? last s out) (hb : s.Balanced out)
    (ht : Tidy limit s out) (hruns : runs.length < UInt64.size) {f : PageFetch}
    (hf : .page f ∈ out) (hr : f.reason = .loadMore) (he : f.epoch = s.epoch) {list : List Run}
    (hlist : list ∈ read? f) {read?' : PageFetch → Option (List Run)}
    (hread : ∀ g, ∀ list ∈ read?' g, list ∈ read? g) :
    Clean limit runs read?'
      { last with appended := last.appended ++ (Service.slice list f.offset f.limit).items }
      (s.merge f (.ok (Service.slice list f.offset f.limit))).closeMore (out.erase (.page f)) := by
  obtain ⟨hk, -⟩ := ht.fits.more_fetch hb hf hr he
  have hitems := ht.fits.items_takeMore hb hf hr he (Service.slice list f.offset f.limit)
  constructor
  · exact h.limit_eq
  · intro g hg hgr hge
    obtain ⟨hlimit, hnow⟩ := h.refresh g (List.mem_of_mem_erase hg) hgr hge
    exact ⟨hlimit, fun list' hlist' => hnow list' (hread g list' hlist')⟩
  · intro hg
    obtain ⟨held, hrows, hheld⟩ := h.rows_before hg
    refine ⟨held, hitems.trans ?_, hheld⟩
    rw [hrows, List.append_assoc]
  · intro hg
    refine hitems.trans ?_
    rw [h.rows_after hg, List.append_assoc]
  · intro hcrossed
    have hs := h.straight hcrossed
    obtain rfl := hs.read f hf hr he list hlist
    constructor
    · intro g hg hgr hge
      exact absurd hge ((hb.closeMore hf hr he).epoch_ne_of_no_more rfl hg hgr)
    · exact hs.appended_slice (Option.mem_def.2 hk) f.limit
    · intro offset hk'
      simp [RepoState.closeMore, markLoading] at hk'
    · exact fun _ => toNat_total_slice hruns f.offset f.limit
    · intro hg hshort
      have hno := (hs.short hg hshort).1
      simp [hno] at hk

/-! ### Deeds -/

/-- Being in sync is decided by what decides about the present list, and by the gate. -/
theorem Synced.congr {hints : Nat} (h : Synced limit runs read? hints last s out) {s' : RepoState}
    {out' : List Request} {read?' : PageFetch → Option (List Run)}
    (hitems : s'.window.items = s.window.items) (htotal : s'.window.total = s.window.total)
    (hgate : s'.refresh = s.refresh) (hmore : s'.loadMore = s.loadMore)
    (hepoch : s'.epoch = s.epoch) (hout : ∀ f, .page f ∈ out' → .page f ∈ out)
    (hread : ∀ f, ∀ list ∈ read?' f, list = runs ∨ list ∈ read? f) :
    Synced limit runs read?' hints last s' out' := by
  rcases h with hhints | htrailing | hclean
  · exact .inl hhints
  · exact .inr (.inl (hgate ▸ htrailing))
  · exact .inr (.inr
      (hclean.congr hitems htotal (congrArg Gate.inFlight hgate) hmore hepoch hout hread))

/-- A deed that ends by asking for a refresh: either one is sent, or one waits. -/
theorem synced_requestRefresh {hints : Nat} (hb : s.Balanced out) (ht : Tidy limit s out)
    (hreads : ∀ f, (read? f).isSome → .page f ∈ out) {s₀ : RepoState} {a : Deed}
    (hact : s₀.act a = s.requestRefresh) :
    Synced limit runs read? hints (last.after s₀ a) (s₀.act a).1 (out ++ (s₀.act a).2) := by
  rw [hact]
  cases hg : s.refresh.inFlight with
  | true =>
    right
    left
    rw [requestRefresh_eq]
    change s.refresh.request.1.trailing = true
    simp [Gate.request, hg]
  | false =>
    have hlast : last.after s₀ a = .sent s.requestRefresh.1 := by
      have hsent : s.requestRefresh.2.any Request.isRefresh = true := by
        rw [requestRefresh_eq, hg]
        rfl
      rw [LastRefresh.after, hact, if_pos hsent]
    rw [hlast]
    exact .inr (.inr (clean_sent hb ht hg hreads))

/-- A deed that sends no refresh adds to what is kept of the last one. -/
theorem after_eq_taken {a : Deed} (hsent : (s.act a).2.any Request.isRefresh = false) :
    last.after s a = last.taken s a :=
  if_neg (by simp [hsent])

/-- Nothing is kept anew by a deed that brings no page and sends no refresh. -/
theorem after_eq_self {a : Deed} (hsent : (s.act a).2.any Request.isRefresh = false)
    (hpage : ∀ f result, a ≠ .page f result) : last.after s a = last := by
  rw [after_eq_taken hsent]
  cases a with
  | page f result => exact absurd rfl (hpage f result)
  | reopen => rfl
  | refresh => rfl
  | loadMore => rfl
  | startSync => rfl
  | observe running => rfl
  | report p => rfl
  | sync repo result => rfl

/-- The next page is asked for where the rows end. -/
theorem Synced.requestMore {hints : Nat} (h : Synced limit runs read? hints last s out)
    (hb : s.Balanced out) (ht : Tidy limit s out) (hreads : ∀ f, (read? f).isSome → .page f ∈ out)
    (hplace : ∀ f, .page f ∈ s.requestMore.2 → f.reason = .loadMore →
      f.offset.toNat = s.window.items.length) :
    Synced limit runs read? hints last s.requestMore.1 (out ++ s.requestMore.2) := by
  rcases h with hhints | htrailing | hclean
  · exact .inl hhints
  · exact .inr (.inl (s.refresh_requestMore ▸ htrailing))
  · refine .inr (.inr (hclean.requestMore hb ht hreads fun f hf => hplace f hf ?_))
    exact (place_of_mem_requestMore ht.fits hf).2.1

/-- No refresh goes out when the next page is asked for. -/
theorem any_isRefresh_requestMore (s : RepoState) :
    s.requestMore.2.any Request.isRefresh = false := by
  by_cases hmore : s.loadMore = none ∧ s.window.hasMore
  · rw [requestMore_of hmore]
    rfl
  · rw [requestMore_of_not hmore]
    rfl

/-- A deed that brings no page keeps a repository in sync, if the page it asks for begins where the
rows end. -/
theorem Synced.act {hints : Nat} (h : Synced limit runs read? hints last s out)
    (hb : s.Balanced out) (ht : Tidy limit s out)
    (hreads : ∀ f, (read? f).isSome → .page f ∈ out) {a : Deed}
    (ha : (⟨s, out⟩ : Traffic RepoState).Admits a) (hpage : ∀ f result, a ≠ .page f result)
    (hplace : ∀ f, .page f ∈ (s.act a).2 → f.reason = .loadMore →
      f.offset.toNat = s.window.items.length) :
    Synced limit runs read? hints (last.after s a) (s.act a).1
      ((⟨s, out⟩ : Traffic RepoState).next a).out := by
  cases a with
  | reopen => exact synced_requestRefresh hb.reset ((preserved_tidy limit).reset hb ht) hreads rfl
  | refresh => exact synced_requestRefresh hb ht hreads rfl
  | loadMore =>
    rw [after_eq_self (a := .loadMore) s.any_isRefresh_requestMore hpage]
    exact h.requestMore hb ht hreads hplace
  | startSync =>
    change Synced limit runs read? hints _ _ (out ++ (s.act .startSync).2)
    cases hs : s.sync.start with
    | ok sync =>
      have hact : s.act .startSync = ({ s with sync := sync }, [.sync s.window.repoId]) := by
        simp [RepoState.act, hs]
      rw [after_eq_self (by rw [hact]; rfl) hpage, hact]
      exact h.congr rfl rfl rfl rfl rfl (fun f hf => by simpa using hf) fun _ _ hlist => .inr hlist
    | error e =>
      have hact : s.act .startSync = (s, []) := by simp [RepoState.act, hs]
      rw [after_eq_self (by rw [hact]; rfl) hpage, hact, List.append_nil]
      exact h
  | observe running =>
    cases running with
    | true =>
      rw [after_eq_self rfl hpage]
      exact h.congr rfl rfl rfl rfl rfl (fun f hf => List.append_nil out ▸ hf)
        fun _ _ hlist => .inr hlist
    | false =>
      let ended : RepoState :=
        { s with sync := s.sync.observe false, progress := s.progress.clear }
      have hb' : ended.Balanced out := hb.congr rfl rfl rfl rfl rfl rfl hb.loading
      have ht' : Tidy limit ended out := (preserved_tidy limit).thin _ _ ht fun _ hf => hf
      exact synced_requestRefresh hb' ht' hreads rfl
  | report p =>
    rw [after_eq_self rfl hpage]
    exact h.congr rfl rfl rfl rfl rfl (fun f hf => List.append_nil out ▸ hf)
        fun _ _ hlist => .inr hlist
  | page f result => exact absurd rfl (hpage f result)
  | sync repo result =>
    have hq : .sync repo ∈ out := ha _ rfl
    obtain rfl : repo = s.window.repoId := by simpa [Request.concerns] using hb.concerns _ hq
    have hreads' : ∀ f, (read? f).isSome → .page f ∈ out.erase (.sync s.window.repoId) :=
      fun f hf => (List.mem_erase_of_ne (by simp)).2 (hreads f hf)
    have hout : ∀ f, .page f ∈ out.erase (.sync s.window.repoId) → .page f ∈ out :=
      fun f hf => List.mem_of_mem_erase hf
    cases result with
    | ok report =>
      exact synced_requestRefresh (hb.finishSync hq (.ok report) s.progress.clear)
        ((preserved_tidy limit).thin _ _ ht hout) hreads' rfl
    | error e =>
      change Synced limit runs read? hints _ _ (out.erase (.sync s.window.repoId) ++ [])
      rw [after_eq_self rfl hpage, List.append_nil]
      exact h.congr rfl rfl rfl rfl rfl hout fun _ _ hlist => .inr hlist

/-- The answer to a fetch keeps a repository in sync. -/
theorem Synced.answer {hints : Nat} (h : Synced limit runs read? hints last s out)
    (hb : s.Balanced out) (ht : Tidy limit s out) (hruns : runs.length < UInt64.size)
    {f : PageFetch} (hf : .page f ∈ out) {list : List Run} (hlist : list ∈ read? f)
    (hsize : list.length < UInt64.size) (hreads : ∀ g, (read? g).isSome → .page g ∈ out)
    {read?' : PageFetch → Option (List Run)}
    (hread : ∀ g, ∀ list ∈ read?' g, list ∈ read? g ∧ g ≠ f) {a : Deed}
    (ha : a = .page f (.ok (Service.slice list f.offset f.limit))) :
    Synced limit runs read?' hints (last.after s a) (s.act a).1
      (out.erase (.page f) ++ (s.act a).2) := by
  have hread' : ∀ g, ∀ list ∈ read?' g, list ∈ read? g := fun g list hl => (hread g list hl).1
  by_cases he : f.epoch = s.epoch
  · set page := Service.slice list f.offset f.limit with hpage
    have hact : s.act a = (s.merge f (.ok page)).settleFetch f.reason := by
      rw [ha, act_page_of_eq he, completePage_eq]
    have hsliced : ∀ page', (.ok page : Except Failure Page) = .ok page' → Sliced f page' :=
      fun page' hpage' => Except.ok.inj hpage' ▸ ⟨list, hsize, hpage⟩
    cases hr : f.reason with
    | loadMore =>
      rw [hr, settleFetch_loadMore] at hact
      have htaken : last.taken s a =
          { last with appended := last.appended ++ page.items } := by
        simp [ha, LastRefresh.taken, he, hr]
      have hlast : last.after s a = _ := (after_eq_taken (by rw [hact]; rfl)).trans htaken
      rw [hact, hlast, List.append_nil]
      rcases h with hhints | htrailing | hclean
      · exact .inl hhints
      · exact .inr (.inl htrailing)
      · exact .inr (.inr (hclean.takeMore hb ht hruns hf hr he hlist hread'))
    | refresh =>
      rw [hr, settleFetch_refresh] at hact
      have htaken : last.taken s a =
          { last with appended := last.appended.drop (last.limit - last.held) } := by
        simp [ha, LastRefresh.taken, he, hr]
      by_cases htrailing : s.refresh.trailing
      · -- the refresh that waited goes out, and what this one has read does not matter
        have hact' : s.act a = (s.merge f (.ok page)).openGate.requestRefresh :=
          hact.trans (if_pos htrailing)
        have hout : ∀ g, (read?' g).isSome → .page g ∈ out.erase (.page f) := by
          intro g hg
          obtain ⟨list', hlist'⟩ := Option.isSome_iff_exists.1 hg
          obtain ⟨hold, hne⟩ := hread g list' hlist'
          refine (List.mem_erase_of_ne ?_).2 (hreads g (Option.isSome_of_mem hold))
          simpa using hne
        exact synced_requestRefresh ((hb.merge f (.ok page)).openGate hf hr he)
          ((preserved_tidy limit).takeRefresh hb ht hf hr he hsliced) hout hact'
      · have hact' : s.act a = ((s.merge f (.ok page)).openGate, []) :=
          hact.trans (if_neg htrailing)
        have hlast : last.after s a = _ := (after_eq_taken (by rw [hact']; rfl)).trans htaken
        rw [hact', hlast, List.append_nil]
        rcases h with hhints | htrailing' | hclean
        · exact .inl hhints
        · exact absurd htrailing' htrailing
        · exact .inr (.inr (hclean.takeRefresh hb hruns hf hr he hlist hread'))
  · -- a page of an earlier generation is dropped
    have hact : s.act a = (s, []) := by
      rw [ha]
      exact act_page_of_ne he _
    have hlast : last.after s a = last := by
      rw [after_eq_taken (by rw [hact]; rfl), ha, LastRefresh.taken, if_pos he]
    rw [hact, hlast, List.append_nil]
    exact h.congr rfl rfl rfl rfl rfl (fun g hg => List.mem_of_mem_erase hg)
      fun g list hl => .inr (hread' g list hl)

end

end RepoState

end LiveAudit
