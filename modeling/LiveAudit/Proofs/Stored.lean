import LiveAudit.Proofs.Indented
import LiveAudit.Proofs.Members
import LiveAudit.Proofs.Series
import LiveAudit.Settings.Store

/-!
# Settings that are kept

Settings are read from any text of an object that gives some of them, in any order and among any
other members, and from what is written for them. What is saved at a path is so loaded from it
again, normalised. Main statement: `Settings.loaded_as_kept`.
-/

namespace LiveAudit

open Json

/-! ### Running -/

section

variable {ε σ α β : Type}

theorem run_lift (x : StateM σ α) (s : σ) :
    (liftM x : ExceptT ε (StateM σ) α).run.run s = (.ok (x.run s).1, (x.run s).2) := rfl

theorem run_bind (x : ExceptT ε (StateM σ) α) (f : α → ExceptT ε (StateM σ) β) (s : σ) :
    (x >>= f).run.run s =
      match x.run.run s with
      | (.ok a, next) => (f a).run.run next
      | (.error e, next) => (.error e, next) := by
  change (ExceptT.bindCont f (x.run.run s).1 : StateM σ (Except ε β)) (x.run.run s).2 = _
  obtain ⟨a | e, next⟩ := x.run.run s <;> rfl

theorem run_adapt {ε' : Type} (x : ExceptT ε (StateM σ) α) (f : ε → ε') (s : σ) :
    (x.adapt f).run.run s = ((x.run.run s).1.mapError f, (x.run.run s).2) :=
  rfl

/-- A sequence succeeds if both of its parts do. -/
theorem run_bind_eq_ok {x : ExceptT ε (StateM σ) α} {f : α → ExceptT ε (StateM σ) β} {s last : σ}
    {b : β} :
    (x >>= f).run.run s = (.ok b, last) ↔
      ∃ a next, x.run.run s = (.ok a, next) ∧ (f a).run.run next = (.ok b, last) := by
  rw [run_bind]
  obtain ⟨e | a, next⟩ := x.run.run s
  · constructor
    · intro h
      cases h
    · rintro ⟨a, next, h, -⟩
      cases h
  · constructor
    · intro h
      exact ⟨a, next, rfl, h⟩
    · rintro ⟨a, next, h, hrest⟩
      cases h
      exact hrest

theorem run_within (activity : Trouble.Activity) (operation : StateM σ (Except FileFault α))
    (s : σ) :
    (Disk.within activity operation : ExceptT Trouble (StateM σ) α).run.run s =
      match operation.run s with
      | (.ok a, next) => (.ok a, next)
      | (.error fault, next) => (.error ((Trouble.of (.file fault)).during activity), next) := by
  unfold Disk.within
  rw [run_bind, run_lift]
  generalize operation.run s = result
  obtain ⟨a | fault, next⟩ := result <;> rfl

end

namespace Settings

/-! ### Texts -/

theorem accept_fields : fields.Accept :=
  ⟨Format.accepts_string.option, Format.accepts_word64, Format.accepts_word64,
    Format.accepts_integer, trivial⟩

theorem ofValue_toValue (s : Settings) : format.ofValue s.toValue = .ok s := by
  have hfields : fields.Writes (s.baseUrl, s.pageLimit, s.timeoutSecs, s.noticeCapacity, ())
      [("base_url", .ofStringOption s.baseUrl), ("page_limit", .ofWord s.pageLimit),
        ("request_timeout_secs", .ofWord s.timeoutSecs),
        ("notice_capacity", .ofWord s.noticeCapacity)] :=
    Fields.writes_optional (by simp) (Format.ofValue_stringOption _) <|
    Fields.writes_optional (by simp) (Format.ofValue_word64 _) <|
    Fields.writes_optional (by simp) (Format.ofValue_word64 _) <|
    Fields.writes_optional (by simp) (Format.ofValue_size _) rfl
  exact Fields.ofValue_record hfields

/-- Settings are read from what is written for them. -/
theorem readText_fileText (s : Settings) : format.readText (Text.utf8 s.fileText) = .ok s := by
  apply Format.readText_indented ((Fields.accepts_format accept_fields).map _) (ofValue_toValue s)
  · simp [toValue, Value.Floatless, Value.FloatlessMembers, Value.ofWord,
      Value.floatless_ofStringOption]
  · simp [toValue, Value.nesting, Value.nestingMembers, Value.ofWord,
      Value.nesting_ofStringOption, Format.allowance]

/-- What a text may give of settings. -/
structure Given where
  baseUrl : Option (Option String)
  pageLimit : Option UInt64
  timeoutSecs : Option UInt64
  noticeCapacity : Option UInt64

namespace Given

/-- The settings that are given, the others being the usual ones. -/
def filled (g : Given) : Settings where
  baseUrl := g.baseUrl.getD none
  pageLimit := g.pageLimit.getD 20
  timeoutSecs := g.timeoutSecs.getD 30
  noticeCapacity := g.noticeCapacity.getD 20

/-- Keys of settings. -/
def keys : List String :=
  ["base_url", "page_limit", "request_timeout_secs", "notice_capacity"]

/-- Value that is given under a key. -/
def value? (g : Given) (key : String) : Option Value :=
  if key = "base_url" then g.baseUrl.map .ofStringOption
  else if key = "page_limit" then g.pageLimit.map .ofWord
  else if key = "request_timeout_secs" then g.timeoutSecs.map .ofWord
  else if key = "notice_capacity" then g.noticeCapacity.map .ofWord
  else none

/-- Members of an object give these settings: each that is given stands once among them, and the
others are of no setting and have the form of any value. -/
structure Told (g : Given) (entries : List (String × List UInt8)) : Prop where
  given : ∀ key v, g.value? key = some v →
    ∃ s, entries.filter (·.1 = key) = [(key, s)] ∧ v.Spells s
  others : ∀ e ∈ entries, g.value? e.1 = none → e.1 ∉ keys ∧ Formed e.2

/-- The bytes are a text of an object that gives these settings. -/
inductive Spelled (g : Given) : List UInt8 → Prop
  | mk {lead body trail : List UInt8} {entries : List (String × List UInt8)} (hlead : Blank lead)
      (htrail : Blank trail) (hbody : SpellsEntries true entries body) (htold : g.Told entries) :
      Spelled g (lead ++
        (Bracket.object.opening :: (body ++ [Bracket.object.closing]) ++ trail))

section

variable {g : Given} {entries : List (String × List UInt8)}

/-- The members with the values that are given under their keys. -/
def members (g : Given) (entries : List (String × List UInt8)) : List (String × Value) :=
  entries.map fun e => (e.1, (g.value? e.1).getD .null)

/-- A setting has the value that is given under its key, and no other. -/
theorem Told.values {α : Type} (h : g.Told entries) {label : String} (hlabel : label ∈ keys)
    (form : Format α) (default : α) :
    (Field.optional label form default).values (g.members entries) = (g.value? label).toList := by
  have hvalues : (Field.optional label form default).values (g.members entries) =
      (entries.filter (·.1 = label)).map fun e => (g.value? e.1).getD .null := by
    have hanswers (key : String) :
        (Field.optional label form default).answers key = decide (key = label) := by
      simp [Field.answers, Field.optional, beq_eq_decide]
    simp [Field.values, members, List.filter_map, Function.comp_def, hanswers]
  rw [hvalues]
  cases hgiven : g.value? label with
  | none =>
    have hnone : entries.filter (·.1 = label) = [] := by
      rw [List.filter_eq_nil_iff]
      intro e he hkey
      obtain rfl := of_decide_eq_true hkey
      exact (h.others e he hgiven).1 hlabel
    rw [hnone]
    rfl
  | some v =>
    obtain ⟨s, hs, -⟩ := h.given label v hgiven
    rw [hs]
    simp [hgiven]

theorem Told.take_optional {α : Type} (h : g.Told entries) (label : String) (hlabel : label ∈ keys)
    {form : Format α} {write : α → Value} (hform : ∀ a, form.ofValue (write a) = .ok a)
    {found : Option α} (hfound : g.value? label = found.map write) (default : α) :
    (Field.optional label form default).take
      ((Field.optional label form default).values (g.members entries)) =
        some (found.getD default) := by
  rw [h.values hlabel, hfound]
  cases found with
  | none => rfl
  | some a =>
    simp [Field.take, Field.optional, hform, Except.toOption]

theorem Told.ofObject (h : g.Told entries) :
    fields.ofObject (g.members entries) =
      .ok (g.filled.baseUrl, g.filled.pageLimit, g.filled.timeoutSecs, g.filled.noticeCapacity,
        ()) := by
  have hapart : fields.Apart := by
    simp [Fields.Apart, fields, Fields.names, Field.names, Field.optional]
  have hurl := h.take_optional "base_url" (by decide) Format.ofValue_stringOption rfl none
  have hlimit := h.take_optional "page_limit" (by decide) Format.ofValue_word64 rfl 20
  have htimeout :=
    h.take_optional "request_timeout_secs" (by decide) Format.ofValue_word64 rfl 30
  have hcapacity := h.take_optional "notice_capacity" (by decide) Format.ofValue_size rfl 20
  rw [← Json.toOption_eq_some, Fields.toOption_ofObject hapart]
  unfold fields default
  simp only [Fields.take, hurl, hlimit, htimeout, hcapacity]
  rfl

/-- The record knows the keys of settings and no others. -/
theorem mem_keys_of_knows {key : String} (h : fields.knows key = true) : key ∈ keys := by
  obtain ⟨group, hgroup, hkey⟩ := Fields.knows_iff.1 h
  simp only [fields, Fields.names, Field.names, Field.optional, List.mem_cons,
    List.not_mem_nil, or_false] at hgroup
  obtain rfl | rfl | rfl | rfl := hgroup
  all_goals
    rw [List.mem_singleton] at hkey
    subst hkey
    decide

theorem nesting_of_value? {key : String} {v : Value} (h : g.value? key = some v) :
    v.nesting = 0 := by
  unfold value? at h
  split_ifs at h
  · obtain ⟨url, -, rfl⟩ := Option.map_eq_some_iff.1 h
    exact Value.nesting_ofStringOption url
  all_goals
    obtain ⟨n, -, rfl⟩ := Option.map_eq_some_iff.1 h
    simp [Value.ofWord, Value.nesting]

/-- The members stand in the text with the values that are given. -/
theorem Told.stands (h : g.Told entries) (depth : Nat) :
    List.Forall₂ (fields.Stands depth) (g.members entries) entries := by
  rw [members, List.forall₂_map_left_iff, List.forall₂_same]
  intro e he
  cases hgiven : g.value? e.1 with
  | none =>
    obtain ⟨hkey, hformed⟩ := h.others e he hgiven
    have hunknown : ¬fields.knows e.1 = true := fun hknows => hkey (mem_keys_of_knows hknows)
    exact ⟨rfl, hformed, fun hknows => absurd hknows hunknown, fun hknows => absurd hknows hunknown⟩
  | some v =>
    obtain ⟨s, hs, hspells⟩ := h.given e.1 v hgiven
    have hmem : e ∈ entries.filter (·.1 = e.1) := List.mem_filter.2 ⟨he, by simp⟩
    rw [hs, List.mem_singleton] at hmem
    rw [hmem]
    refine ⟨rfl, hspells.formed, fun _ => hspells, fun _ => ?_⟩
    exact (nesting_of_value? hgiven).trans_le (Nat.zero_le _)

/-- A text that gives settings is read as these, the others being the usual ones. -/
theorem Spelled.readText {text : List UInt8} (h : g.Spelled text) :
    format.readText text = .ok g.filled := by
  obtain ⟨hlead, htrail, hbody, htold⟩ := h
  exact Format.readText_of_reads (Json.Reads.map _ <| Fields.reads_format_object accept_fields
    htold.ofObject hbody (htold.stands 126) hlead) htrail

end

end Given

/-! ### Files -/

/-- Settings are made of a file by its text. -/
theorem ofFile_of_readText {text : String} {s : Settings}
    (h : format.readText (Text.utf8 text) = .ok s) :
    ofFile (Text.utf8 text) = .ok s.normalized := by
  have htext : Text.ofUtf8? (Text.utf8 text) = some text := by
    rw [Text.ofUtf8?, Text.utf8, Text.decode?_encode, Option.map_some, String.ofList_toList]
  simp only [ofFile, htext, Format.parse, h]

/-- What is loaded from a path. -/
def found (files : Files) (path : String) : Except Trouble Settings :=
  match files.look path with
  | .error _ => .ok default
  | .ok .folder => .error ((Trouble.of (.file .isFolder)).during .readSettings)
  | .ok (.file bytes) => ofFile bytes

theorem run_load (path : String) (files : Files) :
    (load path : ExceptT Trouble (StateM Files) Settings).run.run files =
      (found files path, files) := by
  have hthere : (Disk.isThere path : StateM Files Bool).run files = (files.isThere path, files) :=
    rfl
  have hread : (Disk.read path : StateM Files (Except FileFault (List UInt8))).run files =
      (files.read path, files) := rfl
  unfold load
  rw [run_bind, run_lift, hthere]
  dsimp only
  unfold found
  cases hlook : files.look path with
  | error fault =>
    rw [if_neg (by simp [Files.isThere, hlook, Except.isOk, Except.toBool])]
    rfl
  | ok node =>
    rw [if_pos (by simp [Files.isThere, hlook, Except.isOk, Except.toBool]), run_bind, run_within,
      hread, Files.read, hlook]
    cases node with
    | folder => rfl
    | file bytes =>
      dsimp only
      cases ofFile bytes <;> rfl

/-- The files with the folder that a path is in, which is made if it is missing. -/
def housed (files : Files) (path : String) : Except FileFault Files :=
  match Path.parent? path with
  | some folder => files.makeFolders folder
  | none => .ok files

theorem run_save (s : Settings) (path : String) (files : Files) :
    (s.save path : ExceptT Trouble (StateM Files) Unit).run.run files =
      match housed files path with
      | .error fault =>
        (.error ((Trouble.of (.file fault)).during .makeSettingsFolder), files)
      | .ok made =>
        match made.write path (Text.utf8 s.fileText) with
        | .ok next => (.ok (), next)
        | .error fault =>
          (.error ((Trouble.of (.file fault)).during .writeSettings), made) := by
  have hwrite (made : Files) :
      (Disk.write path (Text.utf8 s.fileText) : StateM Files (Except FileFault Unit)).run made =
        match made.write path (Text.utf8 s.fileText) with
        | .ok next => (.ok (), next)
        | .error fault => (.error fault, made) := rfl
  unfold save housed
  cases Path.parent? path with
  | none =>
    dsimp only
    rw [run_within, hwrite]
    cases files.write path (Text.utf8 s.fileText) <;> rfl
  | some folder =>
    have hmake : (Disk.makeFolders folder : StateM Files (Except FileFault Unit)).run files =
        match files.makeFolders folder with
        | .ok made => (.ok (), made)
        | .error fault => (.error fault, files) := rfl
    dsimp only
    rw [run_bind, run_within, hmake]
    cases files.makeFolders folder with
    | error fault => rfl
    | ok made =>
      dsimp only
      rw [run_within, hwrite]
      cases made.write path (Text.utf8 s.fileText) <;> rfl

/-- A file can be kept at the path: its folder is there or can be made, and the path leads to no
folder then. -/
def Storable (files : Files) (path : String) : Prop :=
  ∃ made place, housed files path = .ok made ∧ made.locate path = .ok place ∧
    Path.endsInSlash path = false ∧ made.node? place ≠ some .folder

/-- Settings can be saved where a file can be kept, whatever they are. -/
theorem save_eq_ok {s : Settings} {path : String} {files next : Files} :
    (s.save path : ExceptT Trouble (StateM Files) Unit).run.run files = (.ok (), next) ↔
      ∃ made, housed files path = .ok made ∧
        made.write path (Text.utf8 s.fileText) = .ok next := by
  rw [run_save]
  constructor
  · intro h
    cases hmade : housed files path with
    | error fault =>
      rw [hmade] at h
      cases h
    | ok made =>
      rw [hmade] at h
      dsimp only at h
      cases hwrite : made.write path (Text.utf8 s.fileText) with
      | error fault =>
        rw [hwrite] at h
        cases h
      | ok after =>
        rw [hwrite] at h
        obtain rfl : after = next := congrArg Prod.snd h
        exact ⟨made, rfl, hwrite⟩
  · rintro ⟨made, hmade, hwrite⟩
    rw [hmade]
    dsimp only
    rw [hwrite]

theorem exists_save_iff {s : Settings} {path : String} {files : Files} :
    (∃ next, (s.save path : ExceptT Trouble (StateM Files) Unit).run.run files = (.ok (), next)) ↔
      Storable files path := by
  simp only [save_eq_ok, Files.write_eq_ok, Storable]
  constructor
  · rintro ⟨next, made, hmade, place, hlocate, hslash, hnode, -⟩
    exact ⟨made, place, hmade, hlocate, hslash, hnode⟩
  · rintro ⟨made, place, hmade, hlocate, hslash, hnode⟩
    exact ⟨_, made, hmade, place, hlocate, hslash, hnode, rfl⟩

/-- A file can be kept in a folder of the working folder, also if there is no such folder yet. -/
theorem storable_slash {files : Files} {folder name : String} (hfolder : Path.Plain folder)
    (hname : Path.Plain name) (hlong : folder.utf8ByteSize ≤ Files.maxName)
    (hlong' : name.utf8ByteSize ≤ Files.maxName)
    (husable : '\x00' ∉ (folder ++ "/" ++ name).toList)
    (hfile : ∀ bytes, files.node? [folder] ≠ some (.file bytes))
    (hfree : files.node? [folder, name] ≠ some .folder) :
    Storable files (folder ++ "/" ++ name) := by
  have husable' : '\x00' ∉ folder.toList := by
    intro hmem
    exact husable (by simp [hmem])
  obtain ⟨made, hmade, hthere, helse⟩ := Files.exists_makeFolders_plain hfolder hlong husable' hfile
  refine ⟨made, [folder, name], ?_,
    Files.locate_slash hfolder hname hlong hlong' husable hthere, ?_, ?_⟩
  · rw [housed, Path.parent?_slash hfolder hname]
    exact hmade
  · exact hname.endsInSlash_append (folder ++ "/")
  · rwa [helse _ (by simp)]

/-- Settings are found in the file that is written for them, normalised. -/
theorem found_of_look {s : Settings} {path : String} {files : Files}
    (h : files.look path = .ok (.file (Text.utf8 s.fileText))) :
    found files path = .ok s.normalized := by
  rw [found, h]
  exact ofFile_of_readText s.readText_fileText

/-- What was saved at a path is loaded from it, normalised. -/
theorem found_of_save {s : Settings} {path : String} {files next : Files}
    (h : (s.save path : ExceptT Trouble (StateM Files) Unit).run.run files = (.ok (), next)) :
    found next path = .ok s.normalized := by
  obtain ⟨made, -, hwrite⟩ := save_eq_ok.1 h
  exact found_of_look (Files.look_of_write hwrite)

/-- Settings that are saved are loaded again: saving succeeds wherever a file can be kept, whatever
the settings are, and what is loaded afterwards are the settings as they were, normalised. And any
text of an object that gives some settings, in any order and among any other members, is loaded as
these, the others being the usual ones, normalised. -/
theorem loaded_as_kept (path : String) (files : Files) :
    (∀ s : Settings,
      ((∃ next,
          (s.save path : ExceptT Trouble (StateM Files) Unit).run.run files = (.ok (), next)) ↔
        Storable files path) ∧
      ∀ next, (s.save path : ExceptT Trouble (StateM Files) Unit).run.run files = (.ok (), next) →
        (load path : ExceptT Trouble (StateM Files) Settings).run.run next =
          (.ok s.normalized, next)) ∧
    ∀ (g : Given) (text : String), g.Spelled (Text.utf8 text) →
      files.read path = .ok (Text.utf8 text) →
      (load path : ExceptT Trouble (StateM Files) Settings).run.run files =
        (.ok g.filled.normalized, files) := by
  refine ⟨fun s => ⟨exists_save_iff, fun next h => ?_⟩, fun g text h hread => ?_⟩
  · rw [run_load, found_of_save h]
  · have hfound : found files path = ofFile (Text.utf8 text) := by
      unfold Files.read at hread
      unfold found
      split at hread
      · next hlook =>
        obtain rfl := Except.ok.inj hread
        rw [hlook]
      · cases hread
      · cases hread
    rw [run_load, hfound, ofFile_of_readText h.readText]

/-- A text that gives a page size, and a number that is too large for any value under a key of no
setting. -/
theorem spelled_large :
    Given.Spelled ⟨none, some 50, none, none⟩
      (Text.utf8 "\x7b\"page_limit\":50,\"x\":1e999\x7d") := by
  let g : Given := ⟨none, some 50, none, none⟩
  let small := [byte '5', byte '0'] ++ ([] ++ [])
  let large := [byte '1'] ++ ([] ++ (byte 'e' :: [] ++ byte '9' :: [byte '9', byte '9']))
  have hsmall : (Value.ofWord 50).Spells small := by
    rw [Value.ofWord, Value.Spells]
    exact .positive (.mk (.digits rfl (by decide) ⟨List.all_eq_true.1 rfl, rfl⟩) .none .none) rfl
  have hlarge : Formed large :=
    .positive <| .mk (.digits rfl (by decide) ⟨List.all_eq_true.1 rfl, rfl⟩) .none
      (.some rfl .none rfl ⟨List.all_eq_true.1 rfl, rfl⟩)
  have hbody : SpellsEntries true [("page_limit", small), ("x", large)] _ :=
    .cons .first blank_nil (spellsKey_write "page_limit") blank_nil <|
    .cons (.next blank_nil) blank_nil (spellsKey_write "x") blank_nil (.nil blank_nil)
  have htold : g.Told [("page_limit", small), ("x", large)] := by
    constructor
    · intro key v hgiven
      have hkey : key = "page_limit" := by
        by_contra hkey
        simp [Given.value?, g, hkey] at hgiven
      subst hkey
      obtain rfl : Value.ofWord 50 = v := Option.some.inj hgiven
      exact ⟨small, rfl, hsmall⟩
    · intro e he hnone
      rcases List.mem_pair.1 he with rfl | rfl
      · cases hnone
      · exact ⟨by decide, hlarge⟩
  have hspelled := Given.Spelled.mk (g := g) blank_nil blank_nil hbody htold
  convert hspelled using 1
  decide +kernel

/-- Settings with an address that is not normal are saved into a new folder and loaded again; and a
text is read that has a member of no setting. -/
theorem loaded_as_kept_nested :
    let s : Settings := ⟨some " https://h/api/ ", 0, 30, 20⟩
    let text := "\x7b\"page_limit\":50,\"x\":1e999\x7d"
    let files := Files.empty.put ["c.json"] (.file (Text.utf8 text))
    (∃ next, (s.save "nested/config.json" : ExceptT Trouble (StateM Files) Unit).run.run .empty =
        (.ok (), next) ∧
      (load "nested/config.json" : ExceptT Trouble (StateM Files) Settings).run.run next =
        (.ok ⟨some "https://h/api", 1, 30, 20⟩, next)) ∧
      (load "c.json" : ExceptT Trouble (StateM Files) Settings).run.run files =
        (.ok ⟨none, 50, 30, 20⟩, files) := by
  intro s text files
  constructor
  · have hstorable : Storable .empty ("nested" ++ "/" ++ "config.json") := by
      refine storable_slash ⟨by decide, by decide, by decide, by decide⟩
        ⟨by decide, by decide, by decide, by decide⟩ (by decide) (by decide) (by decide) ?_
        (by decide)
      intro bytes h
      cases h
    have hsaved := (loaded_as_kept "nested/config.json" .empty).1 s
    obtain ⟨next, hsave⟩ := hsaved.1.2 hstorable
    exact ⟨next, hsave, hsaved.2 next hsave⟩
  · have hplain : Path.Plain "c.json" := ⟨by decide, by decide, by decide, by decide⟩
    have hlook : files.look "c.json" = .ok (.file (Text.utf8 text)) :=
      Files.look_of_locate (Files.locate_plain hplain (by decide) (by decide) files) (by decide) rfl
    have hread : files.read "c.json" = .ok (Text.utf8 text) := by
      rw [Files.read, hlook]
    exact (loaded_as_kept "c.json" files).2 _ text spelled_large hread

end Settings

end LiveAudit
