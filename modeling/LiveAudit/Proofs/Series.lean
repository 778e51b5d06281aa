import LiveAudit.Journal
import LiveAudit.Proofs.Places

/-!
# The series of a day

The files of a day have names that differ (`Journal.fileName_injective`) and that no path can take
apart (`Journal.plain_fileName`). An entry goes to the first one with room (`Journal.run_roomFrom`),
and a call that records it changes nothing else (`Journal.append_of_record`).
-/

namespace LiveAudit

open Text

/-! ### Names -/

theorem Text.isDigit_of_mem_decimal {n : Nat} {c : Char} (h : c ∈ decimal n) :
    c.isDigit = true := by
  have hdigit : ∀ d < 10, (hexDigit d).isDigit = true := by decide
  induction n using decimal.induct with
  | case1 n hn =>
    rw [decimal, if_pos hn] at h
    obtain rfl := List.mem_singleton.1 h
    exact hdigit n hn
  | case2 n hn ih =>
    rw [decimal, if_neg hn] at h
    rcases List.mem_append.1 h with h | h
    · exact ih h
    · obtain rfl := List.mem_singleton.1 h
      exact hdigit _ (Nat.mod_lt n (by decide))

theorem Moment.isDigit_of_mem_digits {width n : Nat} {c : Char} (h : c ∈ digits width n) :
    c.isDigit = true := by
  rcases List.mem_append.1 h with h | h
  · obtain rfl := List.eq_of_mem_replicate h
    decide
  · exact isDigit_of_mem_decimal h

theorem Moment.isDigit_of_mem_writeDay {day : Nat × Nat × Nat} {c : Char}
    (h : c ∈ writeDay [] day) : c.isDigit = true := by
  obtain ⟨year, month, day⟩ := day
  simp only [writeDay, List.append_nil, List.mem_append] at h
  rcases h with (h | h) | h <;> exact isDigit_of_mem_digits h

theorem Moment.date_ofNanoseconds (time : Nat) : (ofNanoseconds time).date =
    String.ofList (writeDay [] (civil (time / 1000000000 / 86400 + daysBefore1970))) :=
  rfl

/-- A date is written in digits only. -/
theorem Moment.isDigit_of_mem_date {time : Nat} {c : Char}
    (h : c ∈ (ofNanoseconds time).date.toList) : c.isDigit = true := by
  rw [date_ofNanoseconds, String.toList_ofList] at h
  exact isDigit_of_mem_writeDay h

namespace Journal

variable {date : String}

theorem toList_fileName (date : String) (suffix : Nat) :
    (fileName date suffix).toList = "journal-".toList ++ date.toList ++
      (if suffix = 0 then [] else '-' :: Nat.toDigits 10 suffix) ++ ".jsonl".toList := by
  unfold fileName
  split <;> simp

theorem head?_fileName (date : String) (suffix : Nat) :
    (fileName date suffix).toList.head? = some 'j' := by
  rw [toList_fileName]
  rfl

theorem plain_fileName (hdate : ∀ c ∈ date.toList, c.isDigit = true) (suffix : Nat) :
    Path.Plain (fileName date suffix) := by
  have hhead := head?_fileName date suffix
  refine ⟨?_, ?_, ?_, ?_⟩
  · intro hname
    simp [hname] at hhead
  · intro hslash
    have hdash : '/' ∉ "journal-".toList := by decide
    have hend : '/' ∉ ".jsonl".toList := by decide
    have hdigits : '/' ∉ date.toList := fun hslash => absurd (hdate _ hslash) (by decide)
    have hsuffix : '/' ∉ if suffix = 0 then [] else '-' :: Nat.toDigits 10 suffix := by
      split
      · exact List.not_mem_nil
      · have hnumber : '/' ∉ Nat.toDigits 10 suffix := fun hslash =>
          absurd (Nat.isDigit_of_mem_toDigits (by decide) (by decide) hslash) (by decide)
        simp [hnumber]
    rw [toList_fileName] at hslash
    simp only [List.mem_append] at hslash
    rcases hslash with ((hslash | hslash) | hslash) | hslash
    · exact hdash hslash
    · exact hdigits hslash
    · exact hsuffix hslash
    · exact hend hslash
  · intro hname
    rw [hname] at hhead
    exact absurd hhead (by decide)
  · intro hname
    rw [hname] at hhead
    exact absurd hhead (by decide)

theorem fileName_injective (date : String) : Function.Injective (fileName date) := by
  intro s t hname
  have hlist := congrArg String.toList hname
  rw [toList_fileName, toList_fileName, List.append_assoc, List.append_assoc, List.append_assoc,
    List.append_assoc, List.append_cancel_left_eq, List.append_cancel_left_eq,
    List.append_cancel_right_eq] at hlist
  split_ifs at hlist with hs ht ht
  · rw [hs, ht]
  · have hdigits := (List.cons_inj_right _).1 hlist
    have hnumber := congrArg (Nat.ofDigitChars 10 · 0) hdigits
    simpa only [Nat.ofDigitChars_ten_toDigits] using hnumber

/-! ### Room -/

variable {j : Journal} {files : Files}

theorem run_roomFrom_succ (j : Journal) (date : String) (files : Files) (fuel suffix : Nat) :
    (j.roomFrom date (fuel + 1) suffix : StateM Files String).run files =
      match files.size? (j.path date suffix) with
      | some size =>
        if j.maxBytes ≤ size then
          (j.roomFrom date fuel (suffix + 1) : StateM Files String).run files
        else (j.path date suffix, files)
      | none => (j.path date suffix, files) := by
  simp only [roomFrom, Disk.size?, StateT.run, bind, StateT.bind, pure]
  cases files.size? (j.path date suffix) with
  | none => rfl
  | some size =>
    dsimp only
    split <;> rfl

/-- The first file with room is the one found, if it is within reach. -/
theorem run_roomFrom {k : Nat}
    (hfull : ∀ suffix < k, ∃ size, files.size? (j.path date suffix) = some size ∧ j.maxBytes ≤ size)
    (hroom : ∀ size, files.size? (j.path date k) = some size → size < j.maxBytes)
    {fuel suffix : Nat} (hle : suffix ≤ k) (hlt : k < suffix + fuel) :
    (j.roomFrom date fuel suffix : StateM Files String).run files = (j.path date k, files) := by
  induction fuel generalizing suffix with
  | zero => omega
  | succ fuel ih =>
    rw [run_roomFrom_succ]
    by_cases hk : suffix = k
    · subst hk
      split
      · next size hsize => rw [if_neg (Nat.not_le.2 (hroom size hsize))]
      · rfl
    · obtain ⟨size, hsize, hmax⟩ := hfull suffix (by omega)
      rw [hsize]
      dsimp only
      rw [if_pos hmax]
      exact ih (by omega) (by omega)

/-- Looking for room leads to a file of the series and changes nothing. -/
theorem exists_run_roomFrom (j : Journal) (date : String) (files : Files) (fuel suffix : Nat) :
    ∃ k, (j.roomFrom date fuel suffix : StateM Files String).run files =
      (j.path date k, files) := by
  induction fuel generalizing suffix with
  | zero => exact ⟨suffix, rfl⟩
  | succ fuel ih =>
    rw [run_roomFrom_succ]
    split
    · split
      · exact ih (suffix + 1)
      · exact ⟨suffix, rfl⟩
    · exact ⟨suffix, rfl⟩

/-! ### Recording -/

theorem liftM_eq_lift {α : Type} (x : StateM Files α) :
    (liftM x : ExceptT Trouble (StateM Files) α) = ExceptT.lift x :=
  rfl

/-- The line goes behind the file where room was found, and a fault leaves all as it was. -/
theorem run_record {e : Entry} {now : Moment} {id path : String}
    (hroom : (j.roomFrom now.date maxFiles 0 : StateM Files String).run files = (path, files)) :
    (j.record e now id : ExceptT Trouble (StateM Files) String).run.run files =
      match files.append path (e.bytes now.stamp id j.session) with
      | .ok next => (.ok id, next)
      | .error fault =>
        (.error ((Trouble.of (.file fault)).during (.openJournal path)), files) := by
  replace hroom : (j.roomFrom now.date maxFiles 0 : StateM Files String).run files =
      pure (path, files) := hroom
  unfold record
  -- the search is kept closed, it has too much fuel to be run
  generalize (j.roomFrom now.date maxFiles 0 : StateM Files String) = room at hroom ⊢
  generalize e.bytes now.stamp id j.session = bytes
  have happend : (Disk.append path bytes : StateM Files (Except FileFault Unit)).run files = pure (
      match files.append path bytes with
      | .ok next => (.ok (), next)
      | .error fault => (.error fault, files)) := rfl
  simp only [liftM_eq_lift, Disk.within, ExceptT.run_bind_lift, StateT.run_bind, bind_assoc,
    pure_bind, hroom, happend]
  cases files.append path bytes <;> rfl

/-- The line goes into a new file if all files are full, and the place for the next one is free. -/
theorem run_record_fresh {e : Entry} {now : Moment} {id : String} {k : Nat} {place : Location}
    (hfull : ∀ suffix < k, ∃ size,
      files.size? (j.path now.date suffix) = some size ∧ j.maxBytes ≤ size)
    (hk : k < maxFiles) (hlocate : files.locate (j.path now.date k) = .ok place)
    (hname : Path.endsInSlash (j.path now.date k) = false) (hnone : files.node? place = none) :
    (j.record e now id : ExceptT Trouble (StateM Files) String).run.run files =
      (.ok id, files.put place (.file (e.bytes now.stamp id j.session))) := by
  have hsize : files.size? (j.path now.date k) = none := by
    rw [Files.size?, Files.look, hlocate]
    dsimp only
    rw [hnone]
  have hroom : (j.roomFrom now.date maxFiles 0 : StateM Files String).run files =
      (j.path now.date k, files) := by
    refine run_roomFrom hfull ?_ (Nat.zero_le _) (by omega)
    intro size hsome
    cases hsize.symm.trans hsome
  rw [run_record hroom, Files.append_eq_put hlocate hname hnone]

/-- A call that succeeds has put the line behind the file where room was found. -/
theorem append_of_run_record {e : Entry} {now : Moment} {id path mark : String} {next : Files}
    (hroom : (j.roomFrom now.date maxFiles 0 : StateM Files String).run files = (path, files))
    (h : (j.record e now id : ExceptT Trouble (StateM Files) String).run.run files =
      (.ok mark, next)) :
    files.append path (e.bytes now.stamp id j.session) = .ok next := by
  rw [run_record hroom] at h
  cases happend : files.append path (e.bytes now.stamp id j.session) with
  | error fault =>
    rw [happend] at h
    cases h
  | ok after =>
    rw [happend] at h
    exact congrArg Except.ok (congrArg Prod.snd h)

end Journal

end LiveAudit
