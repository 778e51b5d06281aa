import LiveAudit.Proofs.Series
import LiveAudit.Proofs.Written

/-!
# Lines of entries

What is written for a value has no line end in it, whatever the strings in it hold
(`Json.Value.newline_not_mem_write`), so an entry is written in one line. The line reads back to the
object that was written (`Entry.Readable.readText_line`), and the object has what the entry tells
(`Entry.tells_toValue`).
-/

namespace LiveAudit

open Text Json

/-! ### No line ends -/

section

theorem newline_not_mem_decimal (n : Nat) : '\n' ∉ decimal n :=
  fun h => absurd (isDigit_of_mem_decimal h) (by decide)

theorem newline_not_mem_signedDecimal (n : Int) : '\n' ∉ signedDecimal n := by
  unfold signedDecimal
  split <;> simp [newline_not_mem_decimal]

theorem newline_not_mem_writeChar (c : Char) : '\n' ∉ writeChar c := by
  have hdigit : ∀ d < 16, '\n' ≠ hexDigit d := by decide
  unfold writeChar
  split_ifs with hplain hn hr ht hb hf hcontrol
  · rcases hplain with rfl | rfl <;> decide
  · decide
  · decide
  · decide
  · decide
  · decide
  · have hhigh := hdigit (c.toNat / 16) (by omega)
    have hlow := hdigit (c.toNat % 16) (by omega)
    simp [hhigh, hlow]
  · simpa using Ne.symm hn

theorem newline_not_mem_writeString (s : String) : '\n' ∉ writeString s := by
  simp [writeString, newline_not_mem_writeChar]

theorem newline_not_mem_writeBool (b : Bool) : '\n' ∉ writeBool b := by
  cases b <;> decide

theorem newline_not_mem_floatText (x : Float) : '\n' ∉ floatText x := by
  have hsign : '\n' ∉ if 9223372036854775808 ≤ x.toBits.toNat then ['-'] else [] := by
    split <;> decide
  have hzero : '\n' ∉ "0.0".toList := by decide
  have hnull : '\n' ∉ "null".toList := by decide
  unfold floatText
  generalize (if 9223372036854775808 ≤ x.toBits.toNat then ['-'] else []) = sign at hsign ⊢
  dsimp only
  cases Decimal.Binary.ofFloat? x with
  | none =>
    dsimp only
    split
    · exact List.not_mem_append hsign hzero
    · exact hnull
  | some b =>
    dsimp only
    generalize b.shortest = d
    have hdigits := newline_not_mem_decimal d.digits
    have htake (k : Nat) : '\n' ∉ (decimal d.digits).take k :=
      fun h => hdigits (List.mem_of_mem_take h)
    have hdrop (k : Nat) : '\n' ∉ (decimal d.digits).drop k :=
      fun h => hdigits (List.mem_of_mem_drop h)
    have htail : '\n' ∉ (decimal d.digits).tail := fun h => hdigits (List.mem_of_mem_tail h)
    refine List.not_mem_append hsign ?_
    split_ifs <;> simp [newline_not_mem_decimal, htake, hdrop, htail]

end

namespace Json.Value

mutual

theorem newline_not_mem_write : (v : Value) → '\n' ∉ v.write
  | .null => by
    rw [write]
    decide
  | .bool b => by
    rw [write]
    exact newline_not_mem_writeBool b
  | .integer n => by
    rw [write]
    exact newline_not_mem_signedDecimal n.value
  | .float x => by
    rw [write]
    exact newline_not_mem_floatText x
  | .string s => by
    rw [write]
    exact newline_not_mem_writeString s
  | .array items => by
    rw [write]
    simp [newline_not_mem_writeItems items]
  | .object members => by
    rw [write]
    simp [newline_not_mem_writeMembers members]

theorem newline_not_mem_writeItems : (items : List Value) → '\n' ∉ writeItems items
  | [] => by
    rw [writeItems]
    exact List.not_mem_nil
  | [v] => by
    rw [writeItems]
    exact newline_not_mem_write v
  | v :: w :: rest => by
    rw [writeItems.eq_3 v _ (by simp)]
    simp [newline_not_mem_write v, newline_not_mem_writeItems (w :: rest)]

theorem newline_not_mem_writeMembers :
    (members : List (String × Value)) → '\n' ∉ writeMembers members
  | [] => by
    rw [writeMembers]
    exact List.not_mem_nil
  | [(k, v)] => by
    rw [writeMembers]
    simp [newline_not_mem_writeString, newline_not_mem_write v]
  | (k, v) :: m :: rest => by
    rw [writeMembers.eq_3 k v _ (by simp)]
    simp [newline_not_mem_writeString, newline_not_mem_write v,
      newline_not_mem_writeMembers (m :: rest)]

end

/-! ### Canonical values -/

theorem mem_insertMember {key : String} {v : Value} {held : List (String × Value)}
    {m : String × Value} (h : m ∈ insertMember key v held) : m = (key, v) ∨ m ∈ held := by
  induction held with
  | nil =>
    rw [insertMember] at h
    exact .inl (List.mem_singleton.1 h)
  | cons first rest ih =>
    rw [insertMember] at h
    split_ifs at h
    · exact List.mem_cons.1 h
    · exact (List.mem_cons.1 h).imp_right (List.mem_cons_of_mem _)
    · rcases List.mem_cons.1 h with rfl | h
      · exact .inr (List.mem_cons_self ..)
      · exact (ih h).imp_right (List.mem_cons_of_mem _)

theorem mem_of_mem_foldl_insertMember {members held : List (String × Value)} {m : String × Value}
    (h : m ∈ members.foldl (fun held m => insertMember m.1 m.2 held) held) :
    m ∈ held ∨ m ∈ members := by
  induction members generalizing held with
  | nil => exact .inl h
  | cons first rest ih =>
    rcases ih h with h | h
    · rcases mem_insertMember h with rfl | h
      · exact .inr (List.mem_cons_self ..)
      · exact .inl h
    · exact .inr (List.mem_cons_of_mem _ h)

/-- Sorting adds no member. -/
theorem mem_of_mem_sortMembers {members : List (String × Value)} {m : String × Value}
    (h : m ∈ sortMembers members) : m ∈ members :=
  (mem_of_mem_foldl_insertMember h).resolve_left List.not_mem_nil

mutual

/-- The keys of every object increase, as those of a sorted map. -/
def Ordered : Value → Prop
  | .array items => OrderedItems items
  | .object members => members.Pairwise (fun m n => m.1 < n.1) ∧ OrderedMembers members
  | .null => True
  | .bool _ => True
  | .integer _ => True
  | .float _ => True
  | .string _ => True

def OrderedItems : List Value → Prop
  | [] => True
  | v :: rest => Ordered v ∧ OrderedItems rest

def OrderedMembers : List (String × Value) → Prop
  | [] => True
  | (_, v) :: rest => Ordered v ∧ OrderedMembers rest

end

theorem insertMember_eq_append {key : String} {v : Value} {held : List (String × Value)}
    (h : ∀ m ∈ held, m.1 < key) : insertMember key v held = held ++ [(key, v)] := by
  induction held with
  | nil => rw [insertMember, List.nil_append]
  | cons first rest ih =>
    have hfirst : first.1 < key := h first (List.mem_cons_self ..)
    rw [insertMember, if_neg (String.lt_asymm hfirst), if_neg (String.ne_of_lt hfirst).symm,
      ih fun m hm => h m (List.mem_cons_of_mem _ hm), List.cons_append]

/-- Members in order stay as they are. -/
theorem sortMembers_of_pairwise {members : List (String × Value)}
    (h : members.Pairwise fun m n => m.1 < n.1) : sortMembers members = members := by
  have hheld : ∀ held, (held ++ members).Pairwise (fun m n => m.1 < n.1) →
      members.foldl (fun held m => insertMember m.1 m.2 held) held = held ++ members := by
    clear h
    induction members with
    | nil =>
      intro held _
      rw [List.foldl_nil, List.append_nil]
    | cons m rest ih =>
      intro held h
      have hbefore : ∀ n ∈ held, n.1 < m.1 :=
        fun n hn => (List.pairwise_append.1 h).2.2 n hn m (List.mem_cons_self ..)
      rw [List.append_cons] at h
      rw [List.foldl_cons, insertMember_eq_append hbefore, ih _ h, ← List.append_cons]
  exact hheld [] h

mutual

theorem canonical_of_ordered : (v : Value) → v.Ordered → v.canonical = v
  | .null, _ => by rw [canonical]
  | .bool _, _ => by rw [canonical]
  | .integer _, _ => by rw [canonical]
  | .float _, _ => by rw [canonical]
  | .string _, _ => by rw [canonical]
  | .array items, h => by
    rw [Ordered] at h
    rw [canonical, canonicalItems_of_ordered items h]
  | .object members, h => by
    rw [Ordered] at h
    rw [canonical, canonicalMembers_of_ordered members h.2, sortMembers_of_pairwise h.1]

theorem canonicalItems_of_ordered : (items : List Value) → OrderedItems items →
    canonicalItems items = items
  | [], _ => by rw [canonicalItems]
  | v :: rest, h => by
    rw [OrderedItems] at h
    rw [canonicalItems, canonical_of_ordered v h.1, canonicalItems_of_ordered rest h.2]

theorem canonicalMembers_of_ordered : (members : List (String × Value)) → OrderedMembers members →
    canonicalMembers members = members
  | [], _ => by rw [canonicalMembers]
  | (_, v) :: rest, h => by
    rw [OrderedMembers] at h
    rw [canonicalMembers, canonical_of_ordered v h.1, canonicalMembers_of_ordered rest h.2]

end

mutual

theorem floatless_canonical : (v : Value) → v.Floatless → v.canonical.Floatless
  | .null, h => by rwa [Value.canonical]
  | .bool _, h => by rwa [Value.canonical]
  | .integer _, h => by rwa [Value.canonical]
  | .float _, h => by rwa [Value.canonical]
  | .string _, h => by rwa [Value.canonical]
  | .array items, h => by
    rw [Floatless] at h
    rw [Value.canonical, Floatless]
    exact floatless_canonicalItems items h
  | .object members, h => by
    rw [Floatless] at h
    rw [Value.canonical, Floatless, floatlessMembers_iff]
    have hmembers := floatlessMembers_iff.1 (floatless_canonicalMembers members h)
    exact fun m hm => hmembers m (mem_of_mem_sortMembers hm)

theorem floatless_canonicalItems : (items : List Value) → FloatlessItems items →
    FloatlessItems (canonicalItems items)
  | [], h => by rwa [canonicalItems]
  | v :: rest, h => by
    rw [FloatlessItems] at h
    rw [canonicalItems, FloatlessItems]
    exact ⟨floatless_canonical v h.1, floatless_canonicalItems rest h.2⟩

theorem floatless_canonicalMembers : (members : List (String × Value)) → FloatlessMembers members →
    FloatlessMembers (canonicalMembers members)
  | [], h => by rwa [canonicalMembers]
  | (_, v) :: rest, h => by
    rw [FloatlessMembers] at h
    rw [canonicalMembers, FloatlessMembers]
    exact ⟨floatless_canonical v h.1, floatless_canonicalMembers rest h.2⟩

end

mutual

theorem nesting_canonical_le : (v : Value) → v.canonical.nesting ≤ v.nesting
  | .null => by rw [canonical]
  | .bool _ => by rw [canonical]
  | .integer _ => by rw [canonical]
  | .float _ => by rw [canonical]
  | .string _ => by rw [canonical]
  | .array items => by
    rw [canonical, nesting, nesting]
    exact Nat.succ_le_succ (nestingItems_canonicalItems_le items)
  | .object members => by
    have hmembers := nestingMembers_le_iff.1 (nestingMembers_canonicalMembers_le members)
    rw [canonical, nesting, nesting]
    apply Nat.succ_le_succ
    rw [nestingMembers_le_iff]
    exact fun m hm => hmembers m (mem_of_mem_sortMembers hm)

theorem nestingItems_canonicalItems_le : (items : List Value) →
    nestingItems (canonicalItems items) ≤ nestingItems items
  | [] => by rw [canonicalItems]
  | v :: rest => by
    have hv := nesting_canonical_le v
    have hrest := nestingItems_canonicalItems_le rest
    rw [canonicalItems, nestingItems, nestingItems]
    omega

theorem nestingMembers_canonicalMembers_le : (members : List (String × Value)) →
    nestingMembers (canonicalMembers members) ≤ nestingMembers members
  | [] => by rw [canonicalMembers]
  | (_, v) :: rest => by
    have hv := nesting_canonical_le v
    have hrest := nestingMembers_canonicalMembers_le rest
    rw [canonicalMembers, nestingMembers, nestingMembers]
    omega

end

end Json.Value

/-! ### The line of an entry -/

theorem Text.eq_newline_of_mem_encodeChar {c : Char} (h : byte '\n' ∈ encodeChar c) :
    c = '\n' := by
  have hbyte : (byte '\n').toNat = 10 := by decide
  have hrange := toNat_ranges c
  have hne : ∀ n, 0x80 ≤ n → n < 256 → byte '\n' ≠ n.toUInt8 := by
    intro n hle hlt heq
    have hcode := congrArg UInt8.toNat heq
    rw [hbyte, toNat_toUInt8 hlt] at hcode
    omega
  unfold encodeChar at h
  dsimp only at h
  split_ifs at h with hone htwo hthree
  · have hcode := congrArg UInt8.toNat (List.mem_singleton.1 h)
    rw [hbyte, toNat_toUInt8 (by omega)] at hcode
    exact Char.toNat_inj.1 hcode.symm
  · simp only [List.mem_cons, List.not_mem_nil, or_false] at h
    rcases h with h | h <;> exact (hne _ (by omega) (by omega) h).elim
  · simp only [List.mem_cons, List.not_mem_nil, or_false] at h
    rcases h with h | h | h <;> exact (hne _ (by omega) (by omega) h).elim
  · simp only [List.mem_cons, List.not_mem_nil, or_false] at h
    rcases h with h | h | h | h <;> exact (hne _ (by omega) (by omega) h).elim

/-- A byte of a line end is the code of a line end, and no part of another code. -/
theorem Text.newline_mem_of_mem_encode {cs : List Char} (h : byte '\n' ∈ encode cs) :
    '\n' ∈ cs := by
  obtain ⟨c, hc, hbyte⟩ := List.mem_flatMap.1 h
  exact eq_newline_of_mem_encodeChar hbyte ▸ hc

namespace Entry

variable {e : Entry} {stamp id session : String}

/-- Line of an entry, without the line end. -/
def line (e : Entry) (stamp id session : String) : List UInt8 :=
  encode (e.toValue stamp id session).write

theorem bytes_eq (e : Entry) (stamp id session : String) :
    e.bytes stamp id session = e.line stamp id session ++ [byte '\n'] := by
  rw [bytes, encode_append]
  rfl

theorem newline_not_mem_line (e : Entry) (stamp id session : String) :
    byte '\n' ∉ e.line stamp id session :=
  fun h => Value.newline_not_mem_write _ (newline_mem_of_mem_encode h)

/-- The details can be read back: there is no double in them, and they are nested less deep than a
text may be. -/
def Readable (e : Entry) : Prop :=
  ∀ v ∈ e.details, v.Floatless ∧ v.nesting < Format.allowance

/-- All members are strings but the details. -/
theorem exists_members (e : Entry) (stamp id session : String) :
    ∃ members, e.toValue stamp id session = .object members ∧
      ∀ m ∈ members, (∃ s, m.2 = .string s) ∨ ∃ v ∈ e.details, m.2 = v.canonical := by
  refine ⟨_, rfl, ?_⟩
  obtain ⟨event, status, repo, details, error⟩ := e
  cases repo <;> cases error <;> cases details <;> simp

theorem Readable.floatless (h : e.Readable) : (e.toValue stamp id session).Floatless := by
  obtain ⟨members, hvalue, hmembers⟩ := e.exists_members stamp id session
  rw [hvalue, Value.Floatless, Value.floatlessMembers_iff]
  intro m hm
  rcases hmembers m hm with ⟨s, hs⟩ | ⟨v, hv, hcanonical⟩
  · rw [hs, Value.Floatless]
    trivial
  · rw [hcanonical]
    exact v.floatless_canonical (h v hv).1

theorem Readable.nesting_le (h : e.Readable) :
    (e.toValue stamp id session).nesting ≤ Format.allowance := by
  obtain ⟨members, hvalue, hmembers⟩ := e.exists_members stamp id session
  rw [hvalue, Value.nesting, Nat.succ_le_iff, Nat.lt_iff_le_pred (by decide),
    Value.nestingMembers_le_iff]
  intro m hm
  rcases hmembers m hm with ⟨s, hs⟩ | ⟨v, hv, hcanonical⟩
  · rw [hs, Value.nesting]
    exact Nat.zero_le _
  · rw [hcanonical]
    exact Nat.le_trans v.nesting_canonical_le (Nat.le_pred_of_lt (h v hv).2)

/-- The line of an entry reads back as the object that was written. -/
theorem Readable.readText_line (h : e.Readable) :
    Format.any.readText (e.line stamp id session) = .ok (e.toValue stamp id session) := by
  have hvalue : Format.any.ofValue (e.toValue stamp id session) =
      .ok (e.toValue stamp id session) := rfl
  have hread := Format.readText_compact Format.accepts_any hvalue h.floatless h.nesting_le
  simpa [utf8, Value.compact, line] using hread

/-- A value is an object that has what an entry tells, and what is absent is missing. Details are
told in canonical form, which is their own if they are made of sorted maps. -/
structure Tells (e : Entry) (stamp id session : String) (v : Value) : Prop where
  object : ∃ members, v = .object members
  event : v.get? "event" = some (.string e.event)
  ok : e.status = .ok →
    v.get? "status" = some (.string "ok") ∧ v.get? "level" = some (.string "INFO")
  failed : e.status = .failed →
    v.get? "status" = some (.string "failed") ∧ v.get? "level" = some (.string "ERROR")
  skipped : e.status = .skipped →
    v.get? "status" = some (.string "skipped") ∧ v.get? "level" = some (.string "WARN")
  repo : v.get? "repo_id" = e.repo.map .string
  error : v.get? "error" = e.error.map .string
  details : v.get? "details" = e.details.map .canonical
  given : (∀ d ∈ e.details, d.Ordered) → v.get? "details" = e.details
  stamp : v.get? "ts" = some (.string stamp)
  id : v.get? "entry_id" = some (.string id)
  session : v.get? "session_id" = some (.string session)

theorem get?_details (e : Entry) (stamp id session : String) :
    (e.toValue stamp id session).get? "details" = e.details.map .canonical := by
  obtain ⟨event, status, repo, details, error⟩ := e
  cases repo <;> cases error <;> cases details <;> simp [toValue, Value.get?]

theorem get?_status (e : Entry) (stamp id session : String) :
    (e.toValue stamp id session).get? "status" = some (.string e.status.text) ∧
      (e.toValue stamp id session).get? "level" = some (.string e.status.level) := by
  obtain ⟨event, status, repo, details, error⟩ := e
  cases repo <;> cases error <;> cases details <;> simp [toValue, Value.get?]

theorem tells_toValue (e : Entry) (stamp id session : String) :
    e.Tells stamp id session (e.toValue stamp id session) := by
  constructor
  case object => exact ⟨_, rfl⟩
  case ok | failed | skipped =>
    intro h
    have hstatus := e.get?_status stamp id session
    rw [h] at hstatus
    exact hstatus
  case details => exact e.get?_details stamp id session
  case given =>
    intro h
    rw [get?_details]
    cases hd : e.details with
    | none => rfl
    | some d => rw [Option.map_some, d.canonical_of_ordered (h d hd)]
  all_goals
    obtain ⟨event, status, repo, details, error⟩ := e
    cases repo <;> cases error <;> cases details <;> simp [toValue, Value.get?]

end Entry

end LiveAudit
