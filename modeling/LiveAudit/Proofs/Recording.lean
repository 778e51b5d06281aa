import LiveAudit.Proofs.Lines

/-!
# What a day's calls leave

Calls that record entries on one date, in journals of one folder and one limit, fill the files of
the date one behind the other: what one call adds is told by `Journal.Series.step`, and what a run
of calls leaves by `Journal.Recorded.series`. No call changes what a file already holds
(`Journal.Recorded.grown`), so the files behind each other are the lines of the calls in their
order.
-/

namespace LiveAudit

open Text Json

namespace Journal

/-- A call that records an entry, in the journal of a session. -/
structure Call where
  session : String
  entry : Entry
  now : Moment
  id : String

namespace Call

/-- The call, where journals are in a folder and their files have a limit. -/
def run (c : Call) (folder : String) (maxBytes : Nat) : ExceptT Trouble (StateM Files) String :=
  record ⟨folder, maxBytes, c.session⟩ c.entry c.now c.id

/-- Line that the call writes, with the line end. -/
def bytes (c : Call) : List UInt8 :=
  c.entry.bytes c.now.stamp c.id c.session

end Call

/-- Successful calls on a date, one after another, take the files from one state to another. -/
inductive Recorded (folder : String) (maxBytes : Nat) (date : String) :
    Files → List Call → Files → Prop
  | nil (files : Files) : Recorded folder maxBytes date files [] files
  | cons {c : Call} {calls : List Call} {files next last : Files} {mark : String}
      (hdate : c.now.date = date) (hcall : (c.run folder maxBytes).run.run files = (.ok mark, next))
      (hcalls : Recorded folder maxBytes date next calls last) :
      Recorded folder maxBytes date files (c :: calls) last

/-- The files of a date are there for the first suffixes, with these bytes, and for no other. -/
def Series (folder date : String) (files : Files) (parts : List (List UInt8)) : Prop :=
  ∀ suffix, (files.look (Path.join folder (fileName date suffix))).toOption =
    parts[suffix]?.map .file

/-- All files but the last have reached the limit. -/
def Filled (maxBytes : Nat) (parts : List (List UInt8)) : Prop :=
  ∀ part ∈ parts.dropLast, maxBytes ≤ part.length

variable {folder date : String} {maxBytes : Nat} {files next last : Files}
  {parts : List (List UInt8)} {c : Call} {calls : List Call}

/-! ### One call -/

/-- Only the last file can have room. -/
theorem Filled.exists_room (h : Filled maxBytes parts) :
    ∃ (full : List (List UInt8)) (room : Option (List UInt8)), parts = full ++ room.toList ∧
      (∀ part ∈ full, maxBytes ≤ part.length) ∧ ∀ part ∈ room, part.length < maxBytes := by
  rcases List.eq_nil_or_concat parts with rfl | ⟨front, part, rfl⟩
  · exact ⟨[], none, rfl, by simp, by simp⟩
  · have hfront : ∀ part ∈ front, maxBytes ≤ part.length := by simpa [Filled] using h
    by_cases hpart : part.length < maxBytes
    · exact ⟨front, some part, by simp, hfront, by simpa using hpart⟩
    · refine ⟨front ++ [part], none, by simp, ?_, by simp⟩
      simpa [or_imp, forall_and] using ⟨hfront, Nat.not_lt.1 hpart⟩

theorem Series.size? (h : Series folder date files parts) (suffix : Nat) :
    files.size? (Path.join folder (fileName date suffix)) = parts[suffix]?.map List.length := by
  have hlook := h suffix
  unfold Files.size?
  generalize files.look (Path.join folder (fileName date suffix)) = found at hlook ⊢
  generalize parts[suffix]? = part at hlook ⊢
  cases part <;> cases found <;> cases hlook <;> rfl

/-- The call finds room in the last file, or goes to the next. -/
theorem Series.run_roomFrom {session : String} {full : List (List UInt8)}
    {room : Option (List UInt8)} (h : Series folder date files (full ++ room.toList))
    (hfull : ∀ part ∈ full, maxBytes ≤ part.length) (hroom : ∀ part ∈ room, part.length < maxBytes)
    (hfew : full.length < maxFiles) :
    (roomFrom ⟨folder, maxBytes, session⟩ date maxFiles 0 : StateM Files String).run files =
      (Path.join folder (fileName date full.length), files) := by
  refine Journal.run_roomFrom ?_ ?_ (Nat.zero_le _) (by omega)
  · intro suffix hlt
    have hsize := h.size? suffix
    rw [List.getElem?_append_left hlt, List.getElem?_eq_getElem hlt] at hsize
    exact ⟨_, hsize, hfull _ (List.getElem_mem hlt)⟩
  · intro size hsize
    have hpart := h.size? full.length
    rw [List.getElem?_append_right (Nat.le_refl _), Nat.sub_self] at hpart
    obtain ⟨part, hmem, rfl⟩ := Option.map_eq_some_iff.1 (hpart.symm.trans hsize)
    cases room with
    | none => cases hmem
    | some old =>
      cases hmem
      exact hroom _ rfl

/-- Names of a date lead to different places. -/
theorem locate_fileName_ne {place : Location} {suffix other : Nat}
    (hdate : ∀ ch ∈ date.toList, ch.isDigit = true)
    (hplace : files.locate (Path.join folder (fileName date suffix)) = .ok place)
    (hother : other ≠ suffix) :
    files.locate (Path.join folder (fileName date other)) ≠ .ok place := by
  intro hsame
  have hname := Files.getLast?_of_locate_join (plain_fileName hdate suffix) hplace
  rw [Files.getLast?_of_locate_join (plain_fileName hdate other) hsame] at hname
  exact hother (fileName_injective date (Option.some.inj hname))

/-- Bytes put behind the last file, or into the next one, are the end of the series. -/
theorem Series.appended {full : List (List UInt8)} {room : Option (List UInt8)} {place : Location}
    {bytes : List UInt8} (h : Series folder date files (full ++ room.toList))
    (hdate : ∀ ch ∈ date.toList, ch.isDigit = true)
    (happended : files.Appended (Path.join folder (fileName date full.length)) place bytes next) :
    Series folder date next (full ++ [room.getD [] ++ bytes]) := by
  intro suffix
  by_cases hsuffix : suffix = full.length
  · subst hsuffix
    have hlook := h full.length
    rw [List.getElem?_append_right (Nat.le_refl _), Nat.sub_self] at hlook ⊢
    rcases happended.look_self with ⟨hnone, hnew⟩ | ⟨old, hold, hnew⟩
    · rw [hnone] at hlook
      rw [hnew]
      cases room with
      | none => rfl
      | some old => cases hlook
    · rw [hold] at hlook
      rw [hnew]
      cases room with
      | none => cases hlook
      | some part =>
        cases hlook
        rfl
  · rw [happended.toOption_look_of_ne (locate_fileName_ne hdate happended.locate hsuffix), h suffix]
    rcases Nat.lt_or_gt_of_ne hsuffix with hlt | hgt
    · rw [List.getElem?_append_left hlt, List.getElem?_append_left hlt]
    · rw [List.getElem?_eq_none (by cases room <;> simp <;> omega),
        List.getElem?_eq_none (by simp; omega)]

/-- A successful call puts its line behind a file of the date with room, or into a new one, so that
the series ends in this line. -/
theorem Series.step {mark : String} (h : Series folder date files parts)
    (hfilled : Filled maxBytes parts) (hfew : parts.length < maxFiles)
    (hdigits : ∀ ch ∈ date.toList, ch.isDigit = true)
    (hdate : c.now.date = date) (hcall : (c.run folder maxBytes).run.run files = (.ok mark, next)) :
    (∃ suffix place, files.Appended (Path.join folder (fileName date suffix)) place c.bytes next ∧
      ∀ old, files.node? place = some (.file old) → old.length < maxBytes) ∧
    ∃ more, Series folder date next more ∧ Filled maxBytes more ∧
      more.flatten = parts.flatten ++ c.bytes := by
  subst hdate
  obtain ⟨full, room, rfl, hfull, hroom⟩ := hfilled.exists_room
  have hshort : full.length < maxFiles := by
    rw [List.length_append] at hfew
    omega
  obtain ⟨place, happended⟩ := Files.appended_of_append
    (append_of_run_record (h.run_roomFrom hfull hroom hshort) hcall)
  refine ⟨⟨full.length, place, happended, ?_⟩, full ++ [room.getD [] ++ c.bytes],
    h.appended hdigits happended, by simpa [Filled] using hfull, ?_⟩
  · intro old hold
    have hlook := h full.length
    rw [Files.look_of_locate happended.locate happended.endsInName hold,
      List.getElem?_append_right (Nat.le_refl _), Nat.sub_self] at hlook
    cases room with
    | none => cases hlook
    | some part =>
      cases hlook
      exact hroom _ rfl
  · cases room <;> simp

/-! ### Many calls -/

theorem Recorded.grown (h : Recorded folder maxBytes date files calls last) : files.Grown last := by
  induction h with
  | nil files => exact .refl files
  | @cons c _ files _ _ _ _ hcall _ ih =>
    obtain ⟨k, hroom⟩ :=
      exists_run_roomFrom ⟨folder, maxBytes, c.session⟩ c.now.date files maxFiles 0
    obtain ⟨place, happended⟩ := Files.appended_of_append (append_of_run_record hroom hcall)
    exact happended.grown.trans ih

/-- While one suffix is left over, there are fewer files than a day can have. -/
theorem Series.length_lt (h : Series folder date files parts) (hgrown : files.Grown last)
    (hfew : ∃ suffix < maxFiles,
      last.isThere (Path.join folder (fileName date suffix)) = false) :
    parts.length < maxFiles := by
  obtain ⟨suffix, hsuffix, hfree⟩ := hfew
  refine Nat.lt_of_le_of_lt (Nat.not_lt.1 fun hlt => ?_) hsuffix
  have hlook := h suffix
  rw [List.getElem?_eq_getElem hlt] at hlook
  have hthere : files.isThere (Path.join folder (fileName date suffix)) = true := by
    unfold Files.isThere
    generalize files.look (Path.join folder (fileName date suffix)) = found at hlook ⊢
    cases found with
    | error fault => cases hlook
    | ok node => rfl
  rw [hgrown.isThere hthere] at hfree
  cases hfree

/-- A run of calls adds their lines in their order. -/
theorem Recorded.series (h : Recorded folder maxBytes date files calls last)
    (hseries : Series folder date files parts) (hfilled : Filled maxBytes parts)
    (hdigits : ∀ ch ∈ date.toList, ch.isDigit = true)
    (hfew : ∃ suffix < maxFiles,
      last.isThere (Path.join folder (fileName date suffix)) = false) :
    ∃ more, Series folder date last more ∧ Filled maxBytes more ∧
      more.flatten = parts.flatten ++ calls.flatMap Call.bytes := by
  induction h generalizing parts with
  | nil files => exact ⟨parts, hseries, hfilled, by simp⟩
  | cons hdate hcall hcalls ih =>
    have hlength := hseries.length_lt (Recorded.cons hdate hcall hcalls).grown hfew
    obtain ⟨_, parts, hseries, hfilled, hflatten⟩ :=
      hseries.step hfilled hlength hdigits hdate hcall
    obtain ⟨more, hmore, hfilled, hflatten'⟩ := ih hseries hfilled hfew
    exact ⟨more, hmore, hfilled, by simp [hflatten', hflatten]⟩

theorem Recorded.append {earlier later : List Call}
    (h : Recorded folder maxBytes date files earlier next)
    (hlater : Recorded folder maxBytes date next later last) :
    Recorded folder maxBytes date files (earlier ++ later) last := by
  induction h with
  | nil files => exact hlater
  | cons hdate hcall _ ih => exact .cons hdate hcall (ih hlater)

/-- A call succeeds that finds all files full, and the place for the next one free. -/
theorem Recorded.fresh {k : Nat} {place : Location} (hdate : c.now.date = date)
    (hfull : ∀ suffix < k, ∃ size,
      files.size? (Path.join folder (fileName date suffix)) = some size ∧ maxBytes ≤ size)
    (hk : k < maxFiles) (hlocate : files.locate (Path.join folder (fileName date k)) = .ok place)
    (hname : Path.endsInSlash (Path.join folder (fileName date k)) = false)
    (hnone : files.node? place = none) :
    Recorded folder maxBytes date files [c] (files.put place (.file c.bytes)) := by
  subst hdate
  have hcall : (c.run folder maxBytes).run.run files =
      (.ok c.id, files.put place (.file c.bytes)) :=
    run_record_fresh hfull hk hlocate hname hnone
  exact .cons rfl hcall (.nil _)

end Journal

open Journal

/-- Calls on one date fill the files of the date, which are there for the first suffixes and for no
other. The files behind each other are the lines of all calls in their order, and all files but the
last have reached the limit. A line has its line end and no other one, and reads back to an object
with what the entry tells. At any moment, what a file holds stays in front of what is written later,
and the next call puts its line behind a file that has not reached the limit, or into a new one, and
changes nothing else. -/
theorem journal_append_only {folder date : String} {maxBytes : Nat} {start mid last : Files}
    {earlier later : List Call} (hday : ∃ time, (Moment.ofNanoseconds time).date = date)
    (hstart : ∀ suffix, start.isThere (Path.join folder (fileName date suffix)) = false)
    (hearlier : Recorded folder maxBytes date start earlier mid)
    (hlater : Recorded folder maxBytes date mid later last)
    (hfew : ∃ suffix < maxFiles, last.isThere (Path.join folder (fileName date suffix)) = false) :
    (∃ parts, Series folder date last parts ∧ Filled maxBytes parts ∧
      parts.flatten = (earlier ++ later).flatMap Call.bytes) ∧
    (∀ c ∈ earlier ++ later, ∃ text, c.bytes = text ++ [byte '\n'] ∧ byte '\n' ∉ text ∧
      (c.entry.Readable → ∃ v, Format.any.readText text = .ok v ∧
        c.entry.Tells c.now.stamp c.id c.session v)) ∧
    (∀ place held, mid.node? place = some (.file held) →
      ∃ more, last.node? place = some (.file (held ++ more))) ∧
    ∀ c rest, later = c :: rest → ∃ next mark suffix place,
      (c.run folder maxBytes).run.run mid = (.ok mark, next) ∧
      mid.Appended (Path.join folder (fileName date suffix)) place c.bytes next ∧
      ∀ held, mid.node? place = some (.file held) → held.length < maxBytes := by
  obtain ⟨time, rfl⟩ := hday
  have hdigits : ∀ ch ∈ (Moment.ofNanoseconds time).date.toList, ch.isDigit = true :=
    fun ch => Moment.isDigit_of_mem_date
  have hnone : Series folder (Moment.ofNanoseconds time).date start [] := by
    intro suffix
    have hfree := hstart suffix
    unfold Files.isThere at hfree
    generalize start.look _ = found at hfree ⊢
    cases found with
    | error fault => rfl
    | ok node => cases hfree
  have hempty : Filled maxBytes [] := fun _ hmem => absurd hmem List.not_mem_nil
  refine ⟨?_, ?_, hlater.grown.file, ?_⟩
  · obtain ⟨parts, hparts, hfilled, hflatten⟩ :=
      (hearlier.append hlater).series hnone hempty hdigits hfew
    exact ⟨parts, hparts, hfilled, hflatten⟩
  · intro c _
    exact ⟨_, c.entry.bytes_eq _ _ _, c.entry.newline_not_mem_line _ _ _,
      fun h => ⟨_, h.readText_line, c.entry.tells_toValue _ _ _⟩⟩
  · rintro c rest rfl
    obtain ⟨suffix, hsuffix, hfree⟩ := hfew
    have hfewMid : ∃ suffix < maxFiles,
        mid.isThere (Path.join folder (fileName (Moment.ofNanoseconds time).date suffix)) = false :=
      ⟨suffix, hsuffix, Bool.eq_false_iff.2 fun hthere =>
        Bool.eq_false_iff.1 hfree (hlater.grown.isThere hthere)⟩
    obtain ⟨parts, hparts, hfilled, _⟩ := hearlier.series hnone hempty hdigits hfewMid
    cases hlater with
    | cons hdate hcall hcalls =>
      have hlength := hparts.length_lt (.refl mid) hfewMid
      obtain ⟨⟨suffix, place, happended, hroom⟩, _⟩ :=
        hparts.step hfilled hlength hdigits hdate hcall
      exact ⟨_, _, suffix, place, hcall, happended, hroom⟩

/-- Two sessions in one folder, whose files have no room behind their first line. -/
theorem journal_append_only_two_files :
    let opened : Call :=
      ⟨"a", .ofEvent "session.open" .ok none, ⟨"20250101", "2025-01-01T08:00:00Z"⟩, "1"⟩
    let details := Value.object [("synced", .ofWord 2)]
    let failed : Call :=
      ⟨"b", ⟨"sync.start", .failed, some "r1", some details, some "boom"⟩,
        ⟨"20250101", "2025-01-01T09:00:00.5Z"⟩, "2"⟩
    let name := fileName "20250101"
    let start := Files.empty.put ["log"] .folder
    let mid := start.put ["log", name 0] (.file opened.bytes)
    let last := mid.put ["log", name 1] (.file failed.bytes)
    Recorded "log" 1 "20250101" start [opened] mid ∧
      Recorded "log" 1 "20250101" mid [failed] last ∧
      (∃ parts, Series "log" "20250101" last parts ∧
        parts.flatten = opened.bytes ++ failed.bytes) ∧
      ∃ text v, failed.bytes = text ++ [byte '\n'] ∧ Format.any.readText text = .ok v ∧
        v.get? "details" = some details ∧ v.get? "status" = some (.string "failed") ∧
        v.get? "level" = some (.string "ERROR") := by
  intro opened details failed name start mid last
  have hdate : (Moment.ofNanoseconds 1735689600000000000).date = "20250101" := by
    have hcivil : Moment.civil (1735689600000000000 / 1000000000 / 86400 + Moment.daysBefore1970) =
        (2025, 1, 1) := by decide
    rw [Moment.date_ofNanoseconds, hcivil]
    simp [Moment.writeDay, Moment.digits, decimal, hexDigit]
  have hplain : ∀ suffix, Path.Plain (name suffix) :=
    plain_fileName fun ch h => Moment.isDigit_of_mem_date (hdate ▸ h)
  have hlocate : ∀ files : Files, files.node? ["log"] = some .folder → ∀ suffix < 3,
      files.locate (Path.join "log" (name suffix)) = .ok ["log", name suffix] := by
    have hnames : ∀ suffix < 3, Path.join "log" (name suffix) = "log" ++ "/" ++ name suffix ∧
        (name suffix).utf8ByteSize ≤ Files.maxName ∧
        '\x00' ∉ ("log" ++ "/" ++ name suffix).toList := by
      decide
    intro files hfolder suffix hsuffix
    obtain ⟨hjoin, hlong, husable⟩ := hnames suffix hsuffix
    rw [hjoin]
    exact Files.locate_slash ⟨by decide, by decide, by decide, by decide⟩ (hplain suffix)
      (by decide) hlong husable hfolder
  have hends : ∀ suffix < 2, Path.endsInSlash (Path.join "log" (name suffix)) = false := by decide
  have hmid : mid.node? ["log"] = some .folder := by decide
  have hlast : last.node? ["log"] = some .folder := by decide
  have hearlier : Recorded "log" 1 "20250101" start [opened] mid :=
    .fresh rfl (fun suffix hlt => absurd hlt (Nat.not_lt_zero _)) (by decide)
      (hlocate start (by decide) 0 (by decide)) (hends 0 (by decide)) (by decide)
  have hlater : Recorded "log" 1 "20250101" mid [failed] last := by
    refine .fresh (k := 1) rfl ?_ (by decide) (hlocate mid hmid 1 (by decide)) (hends 1 (by decide))
      (by decide)
    intro suffix hlt
    obtain rfl : suffix = 0 := by omega
    have hlook := Files.look_of_locate (hlocate mid hmid 0 (by decide)) (hends 0 (by decide))
      (Files.node?_put_self (.file opened.bytes) (by simp))
    refine ⟨opened.bytes.length, by rw [Files.size?, hlook], ?_⟩
    rw [Call.bytes, Entry.bytes_eq, List.length_append]
    exact Nat.le_add_left _ _
  have hstart : ∀ suffix, start.isThere (Path.join "log" (name suffix)) = false := by
    intro suffix
    refine Files.isThere_join_eq_false (hplain suffix) fun place hname => ?_
    have hother : place ≠ ["log"] := by
      rintro rfl
      have hhead : (name suffix).toList.head? = some 'j' := head?_fileName "20250101" suffix
      rw [← Option.some.inj hname] at hhead
      exact absurd hhead (by decide)
    have hroot : place ≠ [] := by
      rintro rfl
      cases hname
    rw [Files.node?_put_of_ne _ hother, Files.node?, if_neg hroot]
    rfl
  have hfew : ∃ suffix < maxFiles, last.isThere (Path.join "log" (name suffix)) = false :=
    ⟨2, by decide, Files.isThere_eq_false (hlocate last hlast 2 (by decide)) (by decide)⟩
  have hreadable : failed.entry.Readable := by
    rintro v ⟨⟩
    simp [details, Value.Floatless, Value.FloatlessMembers, Value.nesting, Value.nestingMembers,
      Value.ofWord, Format.allowance]
  have hordered : ∀ v ∈ failed.entry.details, v.Ordered := by
    rintro v ⟨⟩
    simp [details, Value.Ordered, Value.OrderedMembers, Value.ofWord]
  obtain ⟨⟨parts, hparts, _, hflatten⟩, hlines, _⟩ :=
    journal_append_only ⟨_, hdate⟩ hstart hearlier hlater hfew
  obtain ⟨text, htext, _, hread⟩ := hlines failed (by simp)
  obtain ⟨v, hv, htells⟩ := hread hreadable
  exact ⟨hearlier, hlater, ⟨parts, hparts, by simpa using hflatten⟩, text, v, htext, hv,
    htells.given hordered, htells.failed rfl⟩

end LiveAudit
