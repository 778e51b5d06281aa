import LiveAudit.Http.Exchange
import LiveAudit.Proofs.Normalizing
import LiveAudit.Proofs.Written

/-!
# What an answer means

An answer with a status of the second hundred is decoded, and one with any other status is a
rejection. What a rejection says is told by a relation between status, body and message
(`Http.Worded`): the body is asked first, as an object with a text under one of three keys and then
as a text, and the phrase of the status stands in for a body that says nothing. Main statement:
`Http.answered_by_status`.
-/

namespace LiveAudit

open Json (Value Format)

/-! ### Texts -/

namespace Text

theorem decodeLossyFrom_of_decodeFrom? {skip : Nat} {s : List UInt8} {cs : List Char}
    (h : decodeFrom? skip s = some cs) : decodeLossyFrom skip s = cs := by
  induction s generalizing skip cs with
  | nil =>
    rw [decodeFrom?] at h
    exact Option.some.inj h
  | cons a s ih =>
    cases skip with
    | succ skip =>
      rw [decodeFrom?] at h
      rw [decodeLossyFrom]
      exact ih h
    | zero =>
      rw [decodeFrom?] at h
      rw [decodeLossyFrom]
      cases hhead : head a s with
      | illFormed width =>
        rw [hhead] at h
        cases h
      | char c width =>
        rw [hhead] at h
        obtain ⟨cs, hcs, rfl⟩ := Option.map_eq_some_iff.1 h
        exact congrArg (c :: ·) (ih hcs)

/-- Nothing of a text is replaced when its bytes are read. -/
theorem decodeLossy_encode (s : List Char) : decodeLossy (encode s) = s :=
  decodeLossyFrom_of_decodeFrom? (decode?_encode s)

/-- The part of a text that is left without the blanks at both ends. -/
def Trims (s shown : List Char) : Prop :=
  ∃ lead trail, s = lead ++ (shown ++ trail) ∧ (∀ c ∈ lead, isBlank c = true) ∧
    (∀ c ∈ trail, isBlank c = true) ∧ (∀ c ∈ shown.head?, isBlank c = false) ∧
    ∀ c ∈ shown.getLast?, isBlank c = false

section

variable {s t shown trail : List Char}

theorem trimStart_eq_self_iff : trimStart s = s ↔ ∀ c ∈ s.head?, isBlank c = false := by
  unfold trimStart
  rw [List.dropWhile_eq_self_iff]
  cases s <;> simp

/-- Blanks behind a text are dropped with those at its end. -/
theorem trimEnd_append (htrail : ∀ c ∈ trail, isBlank c = true) :
    trimEnd (s ++ trail) = trimEnd s := by
  unfold trimEnd dropEnd
  rw [List.reverse_append, List.dropWhile_append_of_pos (by simpa using htrail)]

theorem trims_trim (s : List Char) : Trims s (trim s) := by
  refine ⟨s.takeWhile isBlank, (trimStart s).rtakeWhile isBlank, ?_, ?_, ?_, ?_, ?_⟩
  · have hend : trim s ++ (trimStart s).rtakeWhile isBlank = trimStart s :=
      List.rdropWhile_append_rtakeWhile
    rw [hend]
    exact List.takeWhile_append_dropWhile.symm
  · exact fun c hc => List.mem_takeWhile_imp hc
  · exact fun c hc => List.mem_rtakeWhile_imp hc
  · exact trimStart_eq_self_iff.1 (trimStart_of_isPrefix (dropEnd_isPrefix _ _))
  · exact dropEnd_eq_self_iff.1 (List.rdropWhile_idempotent _ _)

/-- Trimming leaves the one part of a text that has no blank at either end and only blanks around
it. -/
theorem trims_iff : Trims s shown ↔ trim s = shown := by
  constructor
  · rintro ⟨lead, trail, rfl, hlead, htrail, hfirst, hlast⟩
    have hstart : trimStart (lead ++ (shown ++ trail)) = trimStart (shown ++ trail) :=
      List.dropWhile_append_of_pos hlead
    rw [trim, hstart]
    cases shown with
    | nil =>
      have hnone : trimStart ([] ++ trail) = [] := List.dropWhile_eq_nil_iff.2 htrail
      rw [hnone]
      rfl
    | cons c rest =>
      have hshown : trimStart (c :: rest ++ trail) = c :: rest ++ trail :=
        trimStart_eq_self_iff.2 hfirst
      rw [hshown, trimEnd_append htrail]
      exact dropEnd_eq_self_iff.2 hlast
  · rintro rfl
    exact trims_trim s

end

end Text

/-- The last member of a key is found under it. -/
theorem Json.Value.get?_eq_some {members : List (String × Value)} {key : String} {v : Value} :
    (Value.object members).get? key = some v ↔
      ∃ before after, members = before ++ (key, v) :: after ∧ ∀ m ∈ after, m.1 ≠ key := by
  simp only [get?, Option.map_eq_some_iff, List.find?_eq_some_iff_append, beq_iff_eq,
    Bool.not_eq_true', beq_eq_false_iff_ne]
  constructor
  · rintro ⟨⟨_, _⟩, ⟨rfl, later, earlier, hsplit, hlater⟩, rfl⟩
    refine ⟨earlier.reverse, later.reverse, ?_, by simpa using hlater⟩
    rw [← List.reverse_inj, hsplit]
    simp
  · rintro ⟨before, after, rfl, hafter⟩
    exact ⟨(key, v), ⟨rfl, after.reverse, before.reverse, by simp, by simpa using hafter⟩, rfl⟩

namespace Http

/-! ### Messages -/

/-- The last member of the key holds the text. -/
def Holds (members : List (String × Value)) (key text : String) : Prop :=
  ∃ before after, members = before ++ (key, .string text) :: after ∧ ∀ m ∈ after, m.1 ≠ key

/-- The first of three keys that holds a text in an object holds this one. -/
def Names (members : List (String × Value)) (message : String) : Prop :=
  ∃ better key worse, ["detail", "message", "error"] = better ++ key :: worse ∧
    Holds members key message ∧ ∀ k ∈ better, ∀ text, ¬Holds members k text

/-- The body is read as an object that names the message. -/
def Tells (body : List Char) (message : String) : Prop :=
  ∃ members, Format.any.readText (Text.encode body) = .ok (.object members) ∧ Names members message

/-- What a rejection with a status and a body says. -/
inductive Worded (status : Nat) (body : List Char) : String → Prop where
  | told {message : String} (h : Tells body message) : Worded status body message
  | shown {text : List Char} (silent : ∀ message, ¬Tells body message)
      (trimmed : Text.Trims body text) (nonempty : text ≠ []) :
      Worded status body (String.ofList (text.take 200))
  | phrase {text : String} (silent : ∀ message, ¬Tells body message)
      (blank : Text.Trims body []) (known : (status, text) ∈ phrases) : Worded status body text
  | unknown (silent : ∀ message, ¬Tells body message) (blank : Text.Trims body [])
      (none : ∀ text, (status, text) ∉ phrases) : Worded status body "unknown status"

section

variable {members : List (String × Value)} {key text message : String} {status : Nat}
  {body : List Char}

/-- The first text that a look-up finds, where it finds what the keys hold. -/
theorem findSome?_messageKeys {find : String → Option String}
    (hfind : ∀ key text, find key = some text ↔ Holds members key text) :
    messageKeys.findSome? find = some message ↔ Names members message := by
  have hnone (key : String) : find key = none ↔ ∀ text, ¬Holds members key text := by
    simp only [← hfind]
    exact Option.eq_none_iff_forall_ne_some
  simp only [List.findSome?_eq_some_iff, hfind, hnone]
  rfl

theorem memberMessage?_object :
    memberMessage? (.object members) = some message ↔ Names members message :=
  findSome?_messageKeys fun key text => by
    rw [Holds, ← Value.get?_eq_some]
    split
    · next s hs => simp [hs]
    · next hother => simpa using hother text

theorem memberMessage?_eq_some {v : Value} :
    memberMessage? v = some message ↔ ∃ members, v = .object members ∧ Names members message := by
  cases v with
  | object members =>
    rw [memberMessage?_object]
    simp only [Value.object.injEq, exists_eq_left']
  | _ => simp [memberMessage?, Value.get?, messageKeys]

/-- A body tells the message that its members name. -/
theorem tells_iff :
    (Format.any.readText (Text.encode body)).toOption.bind memberMessage? = some message ↔
      Tells body message := by
  simp only [Option.bind_eq_some_iff, memberMessage?_eq_some, Tells]
  cases hread : Format.any.readText (Text.encode body) with
  | error fault => simp [Except.toOption]
  | ok v =>
    constructor
    · rintro ⟨_, hv, members, rfl, hnames⟩
      obtain rfl := Option.some.inj hv
      exact ⟨members, rfl, hnames⟩
    · rintro ⟨members, hv, hnames⟩
      exact ⟨v, rfl, members, Except.ok.inj hv, hnames⟩

theorem silent_iff :
    (Format.any.readText (Text.encode body)).toOption.bind memberMessage? = none ↔
      ∀ message, ¬Tells body message := by
  simp only [← tells_iff]
  exact Option.eq_none_iff_forall_ne_some

theorem nodup_phrases : (phrases.map Prod.fst).Nodup := by
  decide

/-- A status has at most one phrase. -/
theorem lookup_phrases_eq_some : phrases.lookup status = some text ↔ (status, text) ∈ phrases := by
  rw [List.lookup_eq_some_iff]
  constructor
  · rintro ⟨before, after, hsplit, -⟩
    rw [hsplit]
    simp
  · intro hmem
    obtain ⟨before, after, hsplit⟩ := List.append_of_mem hmem
    refine ⟨before, after, hsplit, ?_⟩
    have hnodup := nodup_phrases
    rw [hsplit, List.map_append, List.map_cons, List.nodup_append] at hnodup
    intro p hp
    have hne := hnodup.2.2 p.1 (List.mem_map_of_mem hp) status (by simp)
    simpa using hne.symm

theorem lookup_phrases_eq_none :
    phrases.lookup status = none ↔ ∀ text, (status, text) ∉ phrases := by
  simp only [← lookup_phrases_eq_some]
  exact Option.eq_none_iff_forall_ne_some

/-- The message that is made for a rejection is a message of it. -/
theorem worded_rejectionMessage (status : Nat) (body : List Char) :
    Worded status body (rejectionMessage status (Text.encode body)) := by
  unfold rejectionMessage
  dsimp only
  rw [Text.decodeLossy_encode]
  cases htold : (Format.any.readText (Text.encode body)).toOption.bind memberMessage? with
  | some message => exact .told (tells_iff.1 htold)
  | none =>
    have hsilent := silent_iff.1 htold
    have htrimmed := Text.trims_trim body
    dsimp only
    split_ifs with hempty
    · rw [List.isEmpty_iff] at hempty
      rw [hempty] at htrimmed
      unfold phrase
      cases hlookup : phrases.lookup status with
      | some text => exact .phrase hsilent htrimmed (lookup_phrases_eq_some.1 hlookup)
      | none => exact .unknown hsilent htrimmed (lookup_phrases_eq_none.1 hlookup)
    · exact .shown hsilent htrimmed (by simpa using hempty)

/-- A rejection has exactly one message, the one that is made for it. -/
theorem worded_iff :
    Worded status body message ↔ rejectionMessage status (Text.encode body) = message := by
  constructor
  · intro h
    unfold rejectionMessage
    dsimp only
    rw [Text.decodeLossy_encode]
    cases h with
    | told htold => rw [tells_iff.2 htold]
    | shown silent trimmed nonempty =>
      rw [silent_iff.2 silent, Text.trims_iff.1 trimmed]
      dsimp only
      rw [if_neg (by simpa using nonempty), maxShown]
    | phrase silent blank known =>
      rw [silent_iff.2 silent, Text.trims_iff.1 blank]
      change Http.phrase status = message
      rw [Http.phrase, lookup_phrases_eq_some.2 known]
      rfl
    | unknown silent blank none =>
      rw [silent_iff.2 silent, Text.trims_iff.1 blank]
      change Http.phrase status = "unknown status"
      rw [Http.phrase, lookup_phrases_eq_none.2 none]
      rfl
  · rintro rfl
    exact worded_rejectionMessage status body

end

/-! ### Outcomes -/

/-- The result is what an answer with this status and this body means, where a value of the format
is asked for. -/
structure Answered {α : Type} (form : Format α) (status : Nat) (body : List Char)
    (result : Except Failure α) : Prop where
  ok : ∀ a, result = .ok a ↔
    (200 ≤ status ∧ status ≤ 299) ∧ form.parse (Text.encode body) = .ok a
  transport : ∀ detail, result = .error (.transport detail) ↔
    (200 ≤ status ∧ status ≤ 299) ∧ ∃ reason,
      form.parse (Text.encode body) = .error reason ∧ detail = "decode response: " ++ reason
  rejected : ∀ code message, result = .error (.rejected code message) ↔
    ¬(200 ≤ status ∧ status ≤ 299) ∧ code = status ∧ Worded status body message
  kinds : ∀ failure, result = .error failure →
    (∃ detail, failure = .transport detail) ∨ ∃ message, failure = .rejected status message
  retryable : ∀ failure, result = .error failure →
    (failure.isRetryable ↔
      (∃ detail, failure = .transport detail) ∨ status = 429 ∨ 500 ≤ status)

theorem isSuccess_iff {status : Nat} : isSuccess status ↔ 200 ≤ status ∧ status ≤ 299 := by
  simp [isSuccess, Nat.lt_succ_iff]

/-- A success is decoded. -/
theorem answered_decode {α : Type} (form : Format α) {status : Nat} (body : List Char)
    (h : 200 ≤ status ∧ status ≤ 299) :
    Answered form status body (decode form (Text.encode body)) := by
  unfold decode
  cases hparse : form.parse (Text.encode body) with
  | ok a =>
    constructor
    · simp [h, hparse]
    · simp [hparse]
    · simp [h]
    · simp
    · simp
  | error reason =>
    constructor
    · simp [hparse]
    · intro detail
      simp [h, hparse, eq_comm]
    · simp [h]
    · simp
    · simp [Failure.isRetryable]

/-- An answer with any other status is a rejection. -/
theorem answered_rejected {α : Type} (form : Format α) {status : Nat} (body : List Char)
    (h : ¬(200 ≤ status ∧ status ≤ 299)) :
    Answered form status body
      (.error (.rejected status (rejectionMessage status (Text.encode body)))) := by
  constructor
  · simp [h]
  · simp [h]
  · intro code message
    rw [worded_iff]
    simp [h, eq_comm]
  · simp
  · simp [Failure.isRetryable]

theorem answered_outcome {α : Type} (form : Format α) (url : Url) (status : Nat)
    (body : List Char) :
    Answered form status body (outcome form url (.reply status (Text.encode body) true)) := by
  rw [outcome, if_pos rfl, if_pos rfl]
  split_ifs with hsuccess
  · exact answered_decode form body (isSuccess_iff.1 hsuccess)
  · exact answered_rejected form body (mt isSuccess_iff.2 hsuccess)

end Http

/-- A completion brings what an answer with this status and this body means for its request. -/
def Completion.Answered (status : Nat) (body : List Char) : Completion → Prop
  | .page _ result => Http.Answered Page.format status body result
  | .sync _ result => Http.Answered SyncReport.format status body result
  | .projects result => Http.Answered ProjectList.format status body result

namespace Http

/-- A request that can be sent is completed as its answer says, whatever was asked and whatever the
body is: a value exactly if the status is of the second hundred and the body decodes, a failure of
transport if it does not decode, and otherwise a rejection with the status and its message. Only
failures of transport and rejections with status 429 or from 500 on may succeed when tried again. -/
theorem answered_by_status {base : Url} {r : Request} (h : (callOf base r).url.isRequestable)
    (status : Nat) (body : List Char) :
    let completion := complete base r (.reply status (Text.encode body) true)
    completion.request = r ∧ completion.Answered status body := by
  have hresult {α : Type} (form : Format α) : Answered form status body
      (if (callOf base r).url.isRequestable then
        outcome form (callOf base r).url (.reply status (Text.encode body) true)
      else .error (unsendable (callOf base r).url)) := by
    rw [if_pos h]
    exact answered_outcome form _ status body
  cases r with
  | page fetch => exact ⟨rfl, hresult Page.format⟩
  | sync repo => exact ⟨rfl, hresult SyncReport.format⟩
  | projects => exact ⟨rfl, hresult ProjectList.format⟩

/-- A body whose preferred key holds a number and whose next one stands there twice, under a status
that may pass, a body of a text with blanks at both ends, and bodies that say nothing, under a
status with a phrase and under one without. -/
theorem answered_by_status_rejected :
    let base : Url := ⟨"http", some ⟨.name ['h'], none⟩, "/api".toList, none, none⟩
    let failed := "\x7b\"detail\":1,\"message\":\"a\",\"message\":\"b\"\x7d".toList
    let gone := "\u3000 gone away\n".toList
    complete base (.sync "r1") (.reply 503 (Text.encode failed) true) =
        .sync "r1" (.error (.rejected 503 "b")) ∧
      (Failure.rejected 503 "b").isRetryable ∧
      complete base .projects (.reply 404 (Text.encode gone) true) =
        .projects (.error (.rejected 404 "gone away")) ∧
      complete base .projects (.reply 503 (Text.encode "\t\n ".toList) true) =
        .projects (.error (.rejected 503 "Service Unavailable")) ∧
      complete base .projects (.reply 599 [] true) =
        .projects (.error (.rejected 599 "unknown status")) := by
  intro base failed gone
  have hsync : (callOf base (.sync "r1")).url.isRequestable := by decide +kernel
  have hprojects : (callOf base .projects).url.isRequestable := by decide +kernel
  obtain ⟨-, hfailed⟩ := answered_by_status hsync 503 failed
  obtain ⟨-, hgone⟩ := answered_by_status hprojects 404 gone
  obtain ⟨-, hblank⟩ := answered_by_status hprojects 503 "\t\n ".toList
  obtain ⟨-, hempty⟩ := answered_by_status hprojects 599 []
  have htold : Worded 503 failed "b" := by
    let members : List (String × Value) :=
      [("detail", .integer ⟨1, by decide⟩), ("message", .string "a"), ("message", .string "b")]
    have hread : Format.any.readText (Text.utf8 (Value.object members).compact) =
        .ok (.object members) :=
      Format.readText_compact Format.accepts_any rfl
        (by simp [members, Value.Floatless, Value.FloatlessMembers])
        (by simp [members, Value.nesting, Value.nestingMembers, Format.allowance])
    have htext : Text.utf8 (Value.object members).compact = Text.encode failed := by
      decide +kernel
    rw [htext] at hread
    have hmessage : Holds members "message" "b" :=
      ⟨members.take 2, [], rfl, by simp⟩
    refine .told ⟨members, hread, ["detail"], "message", ["error"], rfl, hmessage, ?_⟩
    intro key hkey text hholds
    rw [List.mem_singleton.1 hkey, Holds, ← Value.get?_eq_some] at hholds
    cases hholds
  have hshown : Worded 404 gone "gone away" := by
    have hsilent : ∀ message, ¬Tells gone message := silent_iff.1 (by decide +kernel)
    have htrims : Text.Trims gone "gone away".toList := Text.trims_iff.2 (by decide +kernel)
    exact .shown hsilent htrims (by decide)
  have hphrase : Worded 503 "\t\n ".toList "Service Unavailable" :=
    .phrase (silent_iff.1 (by decide +kernel)) (Text.trims_iff.2 (by decide)) (by decide)
  have hunknown : Worded 599 [] "unknown status" :=
    .unknown (silent_iff.1 (by decide +kernel)) (Text.trims_iff.2 (by decide))
      (lookup_phrases_eq_none.1 (by decide))
  have hsynced := (hfailed.rejected 503 "b").2 ⟨by decide, rfl, htold⟩
  have hlisted := (hgone.rejected 404 "gone away").2 ⟨by decide, rfl, hshown⟩
  have hretryable := (hfailed.retryable _ hsynced).2 (.inr (.inr (by decide)))
  have hphrased := (hblank.rejected 503 "Service Unavailable").2 ⟨by decide, rfl, hphrase⟩
  have hnone := (hempty.rejected 599 "unknown status").2 ⟨by decide, rfl, hunknown⟩
  exact ⟨congrArg (Completion.sync "r1") hsynced, hretryable, congrArg Completion.projects hlisted,
    congrArg Completion.projects hphrased, congrArg Completion.projects hnone⟩

end Http

end LiveAudit
