import LiveAudit.Cli.Commands
import LiveAudit.Cli.World
import LiveAudit.Proofs.Normalizing
import LiveAudit.Proofs.Stored

/-!
# What an initialisation leaves

A command that initialises the settings writes them normalised, and the commands that come after it
load them through one normalisation more, or two. They find what was written unless its address ends
in a blank. Main statement: `Cli.lasts_after_configInit`.

Programs on disks do in a world what they do on its files (`World.OnFiles`).
-/

namespace LiveAudit

namespace Journal

/-- No file of the day is at the path. -/
def Apart (j : Journal) (date path : String) (files : Files) : Prop :=
  ∀ suffix place, files.locate path = .ok place → files.locate (j.path date suffix) ≠ .ok place

/-- A path that leads to no file of the day finds what it found before an entry was recorded. -/
theorem look_of_run_record {j : Journal} {e : Entry} {now : Moment} {id mark path : String}
    {files next : Files}
    (h : (j.record e now id : ExceptT Trouble (StateM Files) String).run.run files =
      (.ok mark, next))
    (hapart : j.Apart now.date path next) :
    (next.look path).toOption = (files.look path).toOption := by
  obtain ⟨k, hroom⟩ := exists_run_roomFrom j now.date files maxFiles 0
  obtain ⟨place, happended⟩ := Files.appended_of_append (append_of_run_record hroom h)
  have hfolder : ∀ place, files.node? place = some .folder → next.node? place = some .folder :=
    fun place => (happended.grown.folder place).2
  refine happended.toOption_look_of_ne fun hplace => ?_
  exact hapart k place (Files.locate_of_folders hfolder hplace)
    (Files.locate_of_folders hfolder happended.locate)

end Journal

namespace Cli

namespace World

/-- In a world, the program does what the other does on its files. -/
def OnFiles {α : Type} (x : ExceptT Trouble (StateM World) α)
    (y : ExceptT Trouble (StateM Files) α) : Prop :=
  ∀ w : World, x.run.run w =
    ((y.run.run w.files).1, { w with files := (y.run.run w.files).2 })

section

variable {α β : Type} {x : ExceptT Trouble (StateM World) α}
  {y : ExceptT Trouble (StateM Files) α}

theorem OnFiles.bind {f : α → ExceptT Trouble (StateM World) β}
    {g : α → ExceptT Trouble (StateM Files) β} (hx : OnFiles x y) (hf : ∀ a, OnFiles (f a) (g a)) :
    OnFiles (x >>= f) (y >>= g) := by
  intro w
  rw [run_bind, run_bind, hx w]
  obtain ⟨e | a, next⟩ := y.run.run w.files
  · rfl
  · exact hf a { w with files := next }

/-- A program that is on files succeeds as the one on the files does. -/
theorem OnFiles.run_eq_ok (h : OnFiles x y) {w next : World} {a : α} :
    x.run.run w = (.ok a, next) ↔
      ∃ files, y.run.run w.files = (.ok a, files) ∧ next = { w with files := files } := by
  rw [h w]
  constructor
  · intro hrun
    obtain ⟨hresult, hnext⟩ := Prod.mk.inj hrun
    exact ⟨_, Prod.ext hresult rfl, hnext.symm⟩
  · rintro ⟨files, hrun, rfl⟩
    rw [hrun]

theorem onFiles_lift (operation : StateM Files α) :
    OnFiles (liftM (onFiles operation)) (liftM operation) :=
  fun _ => rfl

theorem onFiles_within (activity : Trouble.Activity)
    (operation : StateM Files (Except FileFault α)) :
    OnFiles (Disk.within activity (onFiles operation)) (Disk.within activity operation) := by
  intro w
  have hon : (onFiles operation).run w =
      ((operation.run w.files).1, { w with files := (operation.run w.files).2 }) := rfl
  rw [run_within, run_within, hon]
  obtain ⟨fault | a, next⟩ := operation.run w.files <;> rfl

theorem onFiles_pure (a : α) : OnFiles (pure a) (pure a) :=
  fun _ => rfl

theorem onFiles_except (result : Except Trouble α) : OnFiles (liftM result) (liftM result) := by
  cases result <;> exact fun _ => rfl

end

/-- Settings are loaded from the files of a world. -/
theorem onFiles_load (path : String) : OnFiles (Settings.load path) (Settings.load path) := by
  unfold Settings.load
  refine .bind (onFiles_lift (Disk.isThere path)) fun there => ?_
  cases there with
  | false => exact onFiles_pure _
  | true => exact .bind (onFiles_within .readSettings (Disk.read path)) fun _ => onFiles_except _

theorem onFiles_save (s : Settings) (path : String) : OnFiles (s.save path) (s.save path) := by
  have hwrite : OnFiles (Disk.within .writeSettings (Disk.write path (Text.utf8 s.fileText)))
      (Disk.within .writeSettings (Disk.write path (Text.utf8 s.fileText))) :=
    onFiles_within .writeSettings (Disk.write path (Text.utf8 s.fileText))
  unfold Settings.save
  cases Path.parent? path with
  | none => exact hwrite
  | some folder =>
    exact .bind (onFiles_within .makeSettingsFolder (Disk.makeFolders folder)) fun _ => hwrite

theorem onFiles_bind {α β : Type} (x : StateM Files α) (f : α → StateM Files β) :
    onFiles (x >>= f) = onFiles x >>= fun a => onFiles (f a) :=
  rfl

theorem onFiles_roomFrom (j : Journal) (date : String) (fuel suffix : Nat) :
    (j.roomFrom date fuel suffix : StateM World String) =
      onFiles (j.roomFrom date fuel suffix : StateM Files String) := by
  induction fuel generalizing suffix with
  | zero => rfl
  | succ fuel ih =>
    have hsize (path : String) : (Disk.size? path : StateM World (Option Nat)) =
        onFiles (Disk.size? path) := rfl
    rw [Journal.roomFrom, Journal.roomFrom, onFiles_bind, hsize]
    congr 1
    funext size
    cases size with
    | none => rfl
    | some size =>
      dsimp only
      split
      · exact ih (suffix + 1)
      · rfl

theorem onFiles_record (j : Journal) (e : Entry) (now : Moment) (id : String) :
    OnFiles (j.record e now id) (j.record e now id) := by
  unfold Journal.record
  rw [onFiles_roomFrom]
  refine .bind (onFiles_lift _) fun path => ?_
  exact .bind (onFiles_within (.openJournal path) (Disk.append path _)) fun _ => onFiles_pure id

end World

open World

/-! ### What the commands do -/

section

variable {path : String} {baseUrl : Option String} {limit timeout : Option UInt64} {j : Journal}
  {w next last : World}

theorem run_except_eq_ok {α : Type} {result : Except Trouble α} {a : α} :
    (liftM result : ExceptT Trouble (StateM World) α).run.run w = (.ok a, next) ↔
      result = .ok a ∧ next = w := by
  have hrun : (liftM result : ExceptT Trouble (StateM World) α).run.run w = (result, w) := rfl
  rw [hrun, Prod.mk.injEq, eq_comm (a := w)]

theorem run_print_eq_ok {line : String} :
    (print line : ExceptT Trouble (StateM World) Unit).run.run w = (.ok (), next) ↔
      next = { w with printed := line :: w.printed } := by
  have hrun : (print line : ExceptT Trouble (StateM World) Unit).run.run w =
      (.ok (), { w with printed := line :: w.printed }) := rfl
  rw [hrun, Prod.mk.injEq, and_iff_right rfl, eq_comm]

theorem run_load (path : String) (w : World) :
    (Settings.load path : ExceptT Trouble (StateM World) Settings).run.run w =
      (Settings.found w.files path, w) := by
  rw [onFiles_load path w, Settings.run_load]

/-- The settings that hold for a command are normalised a second time. -/
theorem run_effective {s : Settings} (h : Settings.found w.files path = .ok s) :
    (Settings.effective path none : ExceptT Trouble (StateM World) Settings).run.run w =
      (.ok s.normalized, w) := by
  unfold Settings.effective
  rw [run_bind, run_adapt, run_load, h]
  rfl

/-- Settings are written exactly if there is an address, if those that are there can be loaded, if
the address is still one when it is normalised, and if the file can be written. -/
theorem run_writeSettings_eq_ok :
    (writeSettings path baseUrl limit timeout : ExceptT Trouble (StateM World) Unit).run.run w =
        (.ok (), next) ↔
      ∃ url held u files, baseUrl = some url ∧ Settings.found w.files path = .ok held ∧
        (initialised held url limit timeout).requireBaseUrl = .ok u ∧
        ((initialised held url limit timeout).save path :
          ExceptT Trouble (StateM Files) Unit).run.run w.files = (.ok (), files) ∧
        next = { w with files := files, printed := ("Config saved to " ++ path) :: w.printed } := by
  unfold writeSettings
  cases baseUrl with
  | none =>
    constructor
    · intro h
      cases h
    · rintro ⟨url, held, u, files, hurl, -⟩
      cases hurl
  | some url =>
    dsimp only
    simp only [run_bind_eq_ok, run_load, run_except_eq_ok, (onFiles_save _ path).run_eq_ok,
      run_print_eq_ok]
    constructor
    · rintro ⟨held, _, hfound, u, _, ⟨hu, rfl⟩, ⟨⟩, _, ⟨files, hsave, rfl⟩, rfl⟩
      obtain ⟨hheld, rfl⟩ := Prod.mk.inj hfound
      exact ⟨url, held, u, files, rfl, hheld, hu, hsave, rfl⟩
    · rintro ⟨_, held, u, files, ⟨⟩, hheld, hu, hsave, rfl⟩
      exact ⟨held, w, Prod.ext hheld rfl, u, w, ⟨hu, rfl⟩, (), _, ⟨files, hsave, rfl⟩, rfl⟩

theorem run_note_eq_ok {e : Entry} {id : String} :
    (note j e : ExceptT Trouble (StateM World) String).run.run w = (.ok id, next) ↔
      ∃ files, (j.record e w.moment (mark w.marks) :
          ExceptT Trouble (StateM Files) String).run.run w.files = (.ok id, files) ∧
        next = { w with marks := w.marks + 1, files := files } := by
  unfold note
  rw [run_bind, run_lift]
  dsimp only
  rw [run_bind, run_lift]
  exact (onFiles_record j e w.moment (mark w.marks)).run_eq_ok

/-- An initialisation succeeds exactly if the settings are written and that is noted in the
journal. -/
theorem run_configInit_eq_ok :
    (configInit path baseUrl limit timeout j : ExceptT Trouble (StateM World) Unit).run.run w =
        (.ok (), last) ↔
      ∃ mid id noted, (writeSettings path baseUrl limit timeout :
          ExceptT Trouble (StateM World) Unit).run.run w = (.ok (), mid) ∧
        (note j (.ofEvent "config.init" .ok none) :
          ExceptT Trouble (StateM World) String).run.run mid = (.ok id, noted) ∧
        last = { noted with printed := ("Journal ID: " ++ id) :: noted.printed } := by
  have hfirst : (ExceptT.lift (writeSettings path baseUrl limit timeout :
      ExceptT Trouble (StateM World) Unit).run : ExceptT Trouble (StateM World) _).run.run w =
    (.ok ((writeSettings path baseUrl limit timeout :
        ExceptT Trouble (StateM World) Unit).run.run w).1,
      ((writeSettings path baseUrl limit timeout :
        ExceptT Trouble (StateM World) Unit).run.run w).2) := run_lift _ w
  unfold configInit
  rw [run_bind, hfirst]
  generalize (writeSettings path baseUrl limit timeout :
    ExceptT Trouble (StateM World) Unit).run.run w = written
  obtain ⟨t | ⟨⟩, mid⟩ := written
  · constructor
    · intro h
      obtain ⟨_, next, -, hthrow⟩ := run_bind_eq_ok.1 h
      cases hthrow
    · rintro ⟨mid, id, noted, h, -⟩
      cases h
  · dsimp only
    simp only [run_bind_eq_ok, run_print_eq_ok]
    constructor
    · rintro ⟨id, noted, hnote, rfl⟩
      exact ⟨mid, id, noted, rfl, hnote, rfl⟩
    · rintro ⟨_, id, noted, h, hnote, rfl⟩
      obtain rfl := congrArg Prod.snd h
      exact ⟨id, noted, hnote, rfl⟩

/-- An initialisation that succeeds saves the settings and records that it did, and it does so
whenever both can be done. -/
theorem exists_configInit_iff {after : Files} :
    (∃ last, (configInit path baseUrl limit timeout j :
        ExceptT Trouble (StateM World) Unit).run.run w = (.ok (), last) ∧ last.files = after) ↔
      ∃ url held u files id, baseUrl = some url ∧ Settings.found w.files path = .ok held ∧
        (initialised held url limit timeout).requireBaseUrl = .ok u ∧
        ((initialised held url limit timeout).save path :
          ExceptT Trouble (StateM Files) Unit).run.run w.files = (.ok (), files) ∧
        (j.record (.ofEvent "config.init" .ok none) w.moment (mark w.marks) :
          ExceptT Trouble (StateM Files) String).run.run files = (.ok id, after) := by
  simp only [run_configInit_eq_ok, run_writeSettings_eq_ok, run_note_eq_ok]
  constructor
  · rintro ⟨_, ⟨_, id, _, ⟨url, held, u, files, hurl, hheld, hu, hsave, rfl⟩,
      ⟨after, hrecord, rfl⟩, rfl⟩, rfl⟩
    exact ⟨url, held, u, files, id, hurl, hheld, hu, hsave, hrecord⟩
  · rintro ⟨url, held, u, files, id, hurl, hheld, hu, hsave, hrecord⟩
    exact ⟨_, ⟨_, id, _, ⟨url, held, u, files, hurl, hheld, hu, hsave, rfl⟩,
      ⟨after, hrecord, rfl⟩, rfl⟩, rfl⟩

end

/-! ### What later commands find -/

/-- A command finds the settings at the path as they are, with an address. -/
structure Lasts (s : Settings) (path : String) (w : World) : Prop where
  loaded : (Settings.load path : ExceptT Trouble (StateM World) Settings).run.run w = (.ok s, w)
  effective :
    (Settings.effective path none : ExceptT Trouble (StateM World) Settings).run.run w = (.ok s, w)
  address : ∃ u, s.requireBaseUrl = .ok u

section

variable {path : String} {baseUrl : Option String} {limit timeout : Option UInt64} {j : Journal}
  {w last : World}

/-- After an initialisation the file of the settings holds those that were there, changed and
normalised. -/
theorem look_after_configInit
    (hinit : (configInit path baseUrl limit timeout j :
      ExceptT Trouble (StateM World) Unit).run.run w = (.ok (), last))
    (hapart : j.Apart w.moment.date path last.files) :
    ∃ held url u, Settings.found w.files path = .ok held ∧ baseUrl = some url ∧
      (initialised held url limit timeout).requireBaseUrl = .ok u ∧
      last.files.look path =
        .ok (.file (Text.utf8 (initialised held url limit timeout).fileText)) := by
  obtain ⟨url, held, u, files, id, rfl, hheld, hu, hsave, hrecord⟩ :=
    exists_configInit_iff.1 ⟨last, hinit, rfl⟩
  refine ⟨held, url, u, hheld, rfl, hu, ?_⟩
  obtain ⟨made, -, hwrite⟩ := Settings.save_eq_ok.1 hsave
  have hkept := Journal.look_of_run_record hrecord hapart
  rw [Files.look_of_write hwrite] at hkept
  exact Json.toOption_eq_some.1 hkept

/-- Normalised settings last in their file exactly if their address does not end in a blank. -/
theorem lasts_iff {t : Settings} {u : String}
    (hfound : Settings.found w.files path = .ok t.normalized.normalized)
    (haddress : t.normalized.requireBaseUrl = .ok u) :
    Lasts t.normalized path w ↔ ¬t.normalized.EndsBlank := by
  rw [← Settings.normalized_normalized_iff]
  constructor
  · intro h
    have hloaded := h.loaded
    rw [run_load, hfound] at hloaded
    exact Except.ok.inj (congrArg Prod.fst hloaded)
  · intro h
    refine ⟨?_, ?_, u, haddress⟩
    · rw [run_load, hfound, h]
    · rw [run_effective hfound, h, h]

end

/-- Settings are the same after a second normalisation, and after a third one, exactly if the first
one leaves no blank at the end of their address. So an initialisation that succeeds has written the
settings that were there, changed and normalised, and as long as their file stays as it is every
command loads them normalised once more, or twice: it finds what was written exactly if the address
does not end in a blank. -/
theorem lasts_after_configInit (path : String) (baseUrl : Option String)
    (limit timeout : Option UInt64) (j : Journal) (w last : World) :
    (∀ s : Settings,
      (s.normalized.normalized = s.normalized ↔ ¬s.normalized.EndsBlank) ∧
      (s.normalized.normalized.normalized = s.normalized ↔ ¬s.normalized.EndsBlank)) ∧
    ((configInit path baseUrl limit timeout j : ExceptT Trouble (StateM World) Unit).run.run w =
        (.ok (), last) →
      j.Apart w.moment.date path last.files →
      ∃ held url,
        (Settings.load path : ExceptT Trouble (StateM World) Settings).run.run w = (.ok held, w) ∧
        baseUrl = some url ∧
        let s := initialised held url limit timeout
        last.files.look path = .ok (.file (Text.utf8 s.fileText)) ∧
        ∀ later : World, later.files.look path = last.files.look path →
          (Settings.load path : ExceptT Trouble (StateM World) Settings).run.run later =
            (.ok s.normalized, later) ∧
          (Settings.effective path none : ExceptT Trouble (StateM World) Settings).run.run later =
            (.ok s.normalized.normalized, later) ∧
          (Lasts s path later ↔ ¬s.EndsBlank)) := by
  constructor
  · intro s
    have honce := Settings.normalized_normalized_iff s
    exact ⟨honce, (Settings.normalized_twice_iff s).trans honce⟩
  · intro hinit hapart
    obtain ⟨held, url, u, hheld, hurl, hu, hlook⟩ := look_after_configInit hinit hapart
    refine ⟨held, url, by rw [run_load, hheld], hurl, hlook, fun later hlater => ?_⟩
    have hfound := Settings.found_of_look (hlater.trans hlook)
    exact ⟨by rw [run_load, hfound], run_effective hfound, lasts_iff hfound hu⟩

/-- World with a folder for the journal and nothing else. -/
def World.fresh : World :=
  World.start (Files.empty.put ["journal"] .folder) [] ⟨"19700101", "1970-01-01T00:00:00Z"⟩
    fun _ => none

theorem found_fresh : Settings.found World.fresh.files "c.json" = .ok .default := by
  have hname : Path.Plain "c.json" := ⟨by decide, by decide, by decide, by decide⟩
  rw [Settings.found, Files.look, Files.locate_plain hname (by decide) (by decide)]
  rfl

/-- An initialisation in a fresh world succeeds if the address that is given is still one when it is
normalised. -/
theorem exists_configInit_fresh (url u : String)
    (hu : (initialised .default url none none).requireBaseUrl = .ok u) :
    ∃ last, (configInit "c.json" (some url) none none ⟨"journal", 100, "s"⟩ :
        ExceptT Trouble (StateM World) Unit).run.run World.fresh = (.ok (), last) ∧
      Journal.Apart ⟨"journal", 100, "s"⟩ World.fresh.moment.date "c.json" last.files := by
  let j : Journal := ⟨"journal", 100, "s"⟩
  let s := initialised .default url none none
  let files := World.fresh.files.put ["c.json"] (.file (Text.utf8 s.fileText))
  have hname : Path.Plain "c.json" := ⟨by decide, by decide, by decide, by decide⟩
  have hfolder : Path.Plain "journal" := ⟨by decide, by decide, by decide, by decide⟩
  have hday (suffix : Nat) : Path.Plain (Journal.fileName World.fresh.moment.date suffix) :=
    Journal.plain_fileName (List.all_eq_true.1 (by decide)) suffix
  have hlocate (files : Files) : files.locate "c.json" = .ok ["c.json"] :=
    Files.locate_plain hname (by decide) (by decide) files
  have hsave : (s.save "c.json" : ExceptT Trouble (StateM Files) Unit).run.run World.fresh.files =
      (.ok (), files) := by
    refine Settings.save_eq_ok.2 ⟨World.fresh.files, ?_, ?_⟩
    · rw [Settings.housed, Path.parent?_plain hname]
      dsimp only
      rw [Files.makeFolders, Path.names_empty]
      rfl
    · exact Files.write_eq_ok.2 ⟨["c.json"], hlocate _, by decide, by decide, rfl⟩
  have hpath : j.path World.fresh.moment.date 0 =
      "journal" ++ "/" ++ Journal.fileName World.fresh.moment.date 0 :=
    Path.join_plain hfolder (hday 0)
  have hother : files.node? ["journal", Journal.fileName World.fresh.moment.date 0] = none := by
    rw [Files.node?_put_of_ne _ (by simp)]
    rfl
  have hplace : files.locate (j.path World.fresh.moment.date 0) =
      .ok ["journal", Journal.fileName World.fresh.moment.date 0] := by
    rw [hpath]
    refine Files.locate_slash hfolder (hday 0) (by decide) (by decide) (by decide) ?_
    rw [Files.node?_put_of_ne _ (by decide)]
    rfl
  have hslash : Path.endsInSlash (j.path World.fresh.moment.date 0) = false := by
    rw [hpath]
    exact (hday 0).endsInSlash_append _
  obtain ⟨last, hinit, hlast⟩ := exists_configInit_iff.2
    ⟨url, .default, u, files, _, rfl, found_fresh, hu, hsave, Journal.run_record_fresh
      (fun suffix hlt => absurd hlt (Nat.not_lt_zero suffix)) (by decide) hplace hslash hother⟩
  refine ⟨last, hinit, fun suffix place hplace hsame => ?_⟩
  rw [hlocate] at hplace
  obtain rfl := Except.ok.inj hplace
  have hend := Files.getLast?_of_locate_join (hday suffix) hsame
  have hhead := Journal.head?_fileName World.fresh.moment.date suffix
  rw [← Option.some.inj hend] at hhead
  exact absurd hhead (by decide)

theorem lasts_after_configInit_fresh :
    ∃ last, (configInit "c.json" (some " http://h/ ") none none ⟨"journal", 100, "s"⟩ :
        ExceptT Trouble (StateM World) Unit).run.run World.fresh = (.ok (), last) ∧
      Lasts ⟨some "http://h", 20, 30, 20⟩ "c.json" last := by
  obtain ⟨last, hinit, hapart⟩ := exists_configInit_fresh " http://h/ " "http://h" (by decide)
  obtain ⟨held, url, hheld, hurl, -, hlater⟩ :=
    (lasts_after_configInit "c.json" _ none none _ World.fresh last).2 hinit hapart
  obtain rfl : " http://h/ " = url := Option.some.inj hurl
  obtain rfl : held = .default := by
    rw [run_load, found_fresh] at hheld
    exact (Except.ok.inj (congrArg Prod.fst hheld)).symm
  have hend : ¬(initialised .default " http://h/ " none none).EndsBlank := by
    rintro ⟨url, hurl, c, hlast, hblank⟩
    obtain rfl := Option.some.inj hurl
    obtain rfl := Option.some.inj hlast
    exact absurd hblank (by decide)
  exact ⟨last, hinit, (hlater last rfl).2.2.2 hend⟩

/-- An address with a blank between slashes is written, but then none is loaded. -/
theorem address_lost_after_configInit :
    ∃ last, (configInit "c.json" (some "/ /") none none ⟨"journal", 100, "s"⟩ :
        ExceptT Trouble (StateM World) Unit).run.run World.fresh = (.ok (), last) ∧
      last.files.look "c.json" =
        .ok (.file (Text.utf8 (Settings.fileText ⟨some "/ ", 20, 30, 20⟩))) ∧
      (Settings.load "c.json" : ExceptT Trouble (StateM World) Settings).run.run last =
        (.ok ⟨none, 20, 30, 20⟩, last) := by
  obtain ⟨last, hinit, hapart⟩ := exists_configInit_fresh "/ /" "/ " (by decide)
  obtain ⟨held, url, u, hheld, hurl, -, hlook⟩ := look_after_configInit hinit hapart
  obtain rfl : "/ /" = url := Option.some.inj hurl
  obtain rfl : .default = held := Except.ok.inj (found_fresh.symm.trans hheld)
  have hnormal : (initialised .default "/ /" none none).normalized = ⟨none, 20, 30, 20⟩ := by decide
  exact ⟨last, hinit, hlook, by rw [run_load, Settings.found_of_look hlook, hnormal]⟩

end Cli

end LiveAudit
