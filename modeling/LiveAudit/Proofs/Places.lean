import LiveAudit.Files
import Mathlib.Data.String.Basic

/-!
# Where paths lead

A path into a folder leads to a place of its last name (`Files.getLast?_of_locate_join`), so two
names lead to two places. Which folders there are decides where a path leads, and a file that grows
changes no folder: what is there after bytes were put behind a file is told by `Files.append_eq_ok`,
and that all files only grow by `Files.Grown`.
-/

namespace LiveAudit

/-! ### Names of a path -/

namespace Path

open String (splitOnAux splitAux)
open String.Pos (Raw)

theorem unoffset_slash {s : String} {i : Raw} (h : i.get s = '/') :
    (i.next s).unoffsetBy (Raw.next "/" 0) = i := by
  have hsize : '/'.utf8Size = 1 := by decide
  have hnext : Raw.next "/" 0 = ⟨1⟩ := by decide
  rw [hnext, Raw.next, h]
  simp [Raw.unoffsetBy, hsize]

/-- A single slash is looked for as a character is. -/
theorem splitOnAux_slash (s : String) (b i : Raw) (r : List String) :
    splitOnAux s "/" b i 0 r = splitAux s (· == '/') b i r := by
  have hslash : Raw.get "/" 0 = '/' := by decide
  have hend : Raw.atEnd "/" (Raw.next "/" 0) = true := by decide
  induction b, i, r using String.splitAux.induct (s := s) (p := (· == '/')) with
  | case1 b i r hi => rw [String.splitOnAux.eq_1, String.splitAux.eq_1, if_pos hi, dif_pos hi]
  | case2 b i r hi _ hget _ ih =>
    rw [String.splitOnAux.eq_1, String.splitAux.eq_1, if_neg hi, dif_neg hi, hslash, if_pos hget,
      if_pos hget]
    dsimp only
    rw [if_pos hend, unoffset_slash (eq_of_beq hget), ih]
  | case3 b i r hi _ hget ih =>
    rw [String.splitOnAux.eq_1, String.splitAux.eq_1, if_neg hi, dif_neg hi, hslash, if_neg hget,
      if_neg hget]
    exact ih

theorem splitOn_slash (path : String) :
    path.splitOn "/" = (path.toList.splitOnP (· == '/')).map String.ofList := by
  rw [← String.splitToList_of_valid, String.splitOn, String.splitToList, if_neg (by decide),
    splitOnAux_slash]

/-- A name that a file in a folder can have. -/
structure Plain (name : String) : Prop where
  nonempty : name ≠ ""
  slashless : '/' ∉ name.toList
  ne_dot : name ≠ "."
  ne_dots : name ≠ ".."

variable {folder name : String}

theorem Plain.splitOnP (h : Plain name) :
    name.toList.splitOnP (· == '/') = [name.toList] := by
  apply List.splitOnP_eq_singleton
  intro c hc
  exact beq_eq_false_iff_ne.2 fun heq => h.slashless (heq ▸ hc)

theorem names_slash (h : Plain name) (front : String) :
    names (front ++ "/" ++ name) = names front ++ [name] := by
  have hsplit : (front ++ "/" ++ name).toList.splitOnP (· == '/') =
      front.toList.splitOnP (· == '/') ++ [name.toList] := by
    rw [String.toList_append, String.toList_append, List.append_assoc, ← h.splitOnP]
    exact List.splitOnP_append_cons _ _ (by decide)
  rw [names, splitOn_slash, hsplit]
  simp [names, splitOn_slash, h.nonempty]

theorem names_plain (h : Plain name) : names name = [name] := by
  simp [names, splitOn_slash, h.splitOnP, h.nonempty]

theorem names_empty : names "" = [] := by
  simp [names, splitOn_slash]

theorem Plain.head_ne (h : Plain name) : name.toList.head? ≠ some '/' :=
  fun hhead => h.slashless (List.mem_of_head? hhead)

/-- A path that ends in a name does not end in a slash. -/
theorem Plain.endsInSlash_append (h : Plain name) (front : String) :
    endsInSlash (front ++ name) = false := by
  have hlast : (front ++ name).toList.getLast? = name.toList.getLast? := by
    rw [String.toList_append]
    exact List.getLast?_append_of_ne_nil _ (by simpa using h.nonempty)
  unfold endsInSlash
  rw [hlast, decide_eq_false_iff_not]
  exact fun hslash => h.slashless (List.mem_of_getLast? hslash)

theorem join_plain (hfolder : Plain folder) (hname : Plain name) :
    join folder name = folder ++ "/" ++ name := by
  have hslash : endsInSlash folder = false := by
    have happend := hfolder.endsInSlash_append ""
    rwa [String.empty_append] at happend
  rw [join, if_neg hname.head_ne, if_neg]
  simp [hslash, hfolder.nonempty]

/-- A name in a folder of the working folder is in that folder. -/
theorem parent?_slash (hfolder : Plain folder) (hname : Plain name) :
    parent? (folder ++ "/" ++ name) = some folder := by
  have hnames : names (folder ++ "/" ++ name) = [folder, name] := by
    rw [names_slash hname, names_plain hfolder]
    rfl
  have hhead : (folder ++ "/" ++ name).toList.head? ≠ some '/' := by
    obtain ⟨c, cs, hcs⟩ : ∃ c cs, folder.toList = c :: cs :=
      List.exists_cons_of_ne_nil (by simpa using hfolder.nonempty)
    have hc := hfolder.head_ne
    rw [hcs] at hc
    simpa [hcs] using hc
  have hkept : ¬(folder = "." ∧ (folder ++ "/" ++ name).toList.head? = some '/') :=
    fun habsolute => hhead habsolute.2
  unfold parent?
  rw [hnames]
  simp only [if_neg hkept, if_neg hhead]
  simp [hname.ne_dot]

/-- A name alone is in the working folder. -/
theorem parent?_plain (h : Plain name) : parent? name = some "" := by
  unfold parent?
  rw [names_plain h]
  simp [h.ne_dot, h.head_ne]

/-- Text of a path that ends in a slash. -/
theorem exists_of_endsInSlash (h : endsInSlash folder) : ∃ front, folder = front ++ "/" := by
  have hlast : folder.toList.getLast? = some '/' := of_decide_eq_true h
  obtain ⟨front, hfront⟩ := List.getLast?_eq_some_iff.1 hlast
  exact ⟨String.ofList front, String.toList_inj.1 (by simp [hfront])⟩

/-- Behind the names of the folder stands the name in it. -/
theorem names_join (h : Plain name) (folder : String) :
    ∃ outer, names (join folder name) = outer ++ [name] := by
  unfold join
  rw [if_neg h.head_ne]
  split
  · next hfolder =>
    rcases hfolder with rfl | hslash
    · exact ⟨[], by rw [String.empty_append, names_plain h]; rfl⟩
    · obtain ⟨front, rfl⟩ := exists_of_endsInSlash hslash
      exact ⟨_, names_slash h front⟩
  · exact ⟨_, names_slash h folder⟩

end Path

/-! ### Places of files -/

namespace Files

variable {f g : Files} {path folder name : String} {place : Location}

/-- A path whose last name is that of a file leads to a place of this name. -/
theorem getLast?_of_follow {names : List String} {start : Location} (h : Path.Plain name)
    (hfollow : f.follow start (names ++ [name]) = .ok place) : place.getLast? = some name := by
  induction names generalizing start with
  | nil =>
    rw [List.nil_append, follow, if_neg h.ne_dot, if_neg h.ne_dots] at hfollow
    split at hfollow
    · cases hfollow
    · obtain rfl := Except.ok.inj hfollow
      exact List.getLast?_concat
  | cons first names ih =>
    rw [List.cons_append, follow] at hfollow
    split_ifs at hfollow
    · exact ih hfollow
    · exact ih hfollow
    · dsimp only at hfollow
      split at hfollow
      · next hnil => exact absurd hnil (by simp)
      · next hrest =>
        split at hfollow
        · cases hfollow
        · cases hfollow
        · rw [← hrest] at hfollow
          exact ih hfollow

/-- Two names in a folder are at two places. -/
theorem getLast?_of_locate_join (h : Path.Plain name)
    (hlocate : f.locate (Path.join folder name) = .ok place) : place.getLast? = some name := by
  obtain ⟨outer, hnames⟩ := Path.names_join h folder
  unfold locate at hlocate
  split_ifs at hlocate
  rw [hnames] at hlocate
  exact getLast?_of_follow h hlocate

/-- Where there are the same folders or more, a path leads to the same place. -/
theorem follow_of_folders {names : List String} {start : Location}
    (h : ∀ place, f.node? place = some .folder → g.node? place = some .folder)
    (hfollow : f.follow start names = .ok place) : g.follow start names = .ok place := by
  induction names generalizing start with
  | nil => exact hfollow
  | cons first names ih =>
    rw [follow] at hfollow ⊢
    split_ifs at hfollow ⊢
    · exact ih hfollow
    · exact ih hfollow
    · dsimp only at hfollow ⊢
      split at hfollow
      · exact hfollow
      · split at hfollow
        · cases hfollow
        · cases hfollow
        · next hfolder =>
          rw [h _ hfolder]
          exact ih hfollow

theorem locate_of_folders (h : ∀ place, f.node? place = some .folder → g.node? place = some .folder)
    (hlocate : f.locate path = .ok place) : g.locate path = .ok place := by
  unfold locate at hlocate ⊢
  split_ifs at hlocate ⊢
  exact follow_of_folders h hlocate

theorem look_of_locate (h : f.locate path = .ok place) (hslash : Path.endsInSlash path = false)
    {bytes : List UInt8} (hnode : f.node? place = some (.file bytes)) :
    f.look path = .ok (.file bytes) := by
  rw [look, h]
  dsimp only
  rw [hnode]
  dsimp only
  rw [hslash, if_neg Bool.false_ne_true]

/-- What is at a path depends on the folders and on what is at the place it leads to. -/
theorem toOption_look_congr
    (hfolder : ∀ place, g.node? place = some .folder ↔ f.node? place = some .folder)
    (hnode : ∀ place, f.locate path = .ok place → g.node? place = f.node? place) :
    (g.look path).toOption = (f.look path).toOption := by
  unfold look
  cases hf : f.locate path with
  | ok place =>
    rw [locate_of_folders (fun place => (hfolder place).2) hf]
    dsimp only
    rw [hnode place hf]
  | error e =>
    cases hg : g.locate path with
    | ok place =>
      have := locate_of_folders (fun place => (hfolder place).1) hg
      rw [hf] at this
      cases this
    | error e' => rfl

theorem isThere_eq_false (hlocate : f.locate path = .ok place) (hnone : f.node? place = none) :
    f.isThere path = false := by
  rw [isThere, look, hlocate]
  dsimp only
  rw [hnone]
  rfl

/-- A file is missing if there is nothing at any place of its name. -/
theorem isThere_join_eq_false (h : Path.Plain name)
    (hnone : ∀ place, place.getLast? = some name → f.node? place = none) :
    f.isThere (Path.join folder name) = false := by
  cases hplace : f.locate (Path.join folder name) with
  | error fault =>
    rw [isThere, look, hplace]
    rfl
  | ok place => exact isThere_eq_false hplace (hnone place (getLast?_of_locate_join h hplace))

/-- A name in the root is at the place of this name. -/
theorem locate_plain (h : Path.Plain name) (hlong : name.utf8ByteSize ≤ maxName)
    (husable : '\x00' ∉ name.toList) (f : Files) : f.locate name = .ok [name] := by
  have hsize : name.utf8ByteSize ≤ maxPath := Nat.le_trans hlong (by decide)
  unfold locate
  rw [if_neg (by simpa using husable), if_neg (Nat.not_lt.2 hsize), if_neg h.nonempty,
    Path.names_plain h, follow, if_neg h.ne_dot, if_neg h.ne_dots, if_neg (Nat.not_lt.2 hlong)]
  rfl

/-- A name in a folder of the root is at the place of the two names. -/
theorem locate_slash {outer : String} (houter : Path.Plain outer) (hname : Path.Plain name)
    (hlong : outer.utf8ByteSize ≤ maxName) (hlong' : name.utf8ByteSize ≤ maxName)
    (husable : '\x00' ∉ (outer ++ "/" ++ name).toList) (hfolder : f.node? [outer] = some .folder) :
    f.locate (outer ++ "/" ++ name) = .ok [outer, name] := by
  have hsize : (outer ++ "/" ++ name).utf8ByteSize ≤ maxPath := by
    have hslash : "/".utf8ByteSize = 1 := by decide
    simp only [String.utf8ByteSize_append]
    unfold maxName at hlong hlong'
    unfold maxPath
    omega
  have hnames : Path.names (outer ++ "/" ++ name) = [outer, name] := by
    rw [Path.names_slash hname, Path.names_plain houter]
    rfl
  have hempty : outer ++ "/" ++ name ≠ "" := by simp [hname.nonempty]
  unfold locate
  rw [if_neg (by simpa using husable), if_neg (Nat.not_lt.2 hsize), if_neg hempty, hnames,
    follow, if_neg houter.ne_dot, if_neg houter.ne_dots, if_neg (Nat.not_lt.2 hlong)]
  simp only [List.nil_append, hfolder]
  rw [follow, if_neg hname.ne_dot, if_neg hname.ne_dots, if_neg (Nat.not_lt.2 hlong')]
  rfl

/-- A folder can be made in the root if there is no file of its name. -/
theorem exists_makeFolders_plain (h : Path.Plain name) (hlong : name.utf8ByteSize ≤ maxName)
    (husable : '\x00' ∉ name.toList) (hfile : ∀ bytes, f.node? [name] ≠ some (.file bytes)) :
    ∃ g, f.makeFolders name = .ok g ∧ g.node? [name] = some .folder ∧
      ∀ place, place ≠ [name] → g.node? place = f.node? place := by
  have hlocate := locate_plain h hlong husable f
  have hpath : "" ++ "/".intercalate [name].reverse = name := by simp
  have hhave : f.makeFolders name = f.haveFolder name := by
    rw [makeFolders, if_neg h.head_ne, Path.names_plain h, List.reverse_singleton, makeFoldersFrom,
      hpath]
    dsimp only [makeFoldersFrom]
    split
    · next hmissing => exact hmissing.symm ▸ rfl
    · rfl
  cases hnode : f.node? [name] with
  | none =>
    refine ⟨f.put [name] .folder, ?_, node?_put_self _ (by simp), fun place hplace =>
      node?_put_of_ne _ hplace⟩
    rw [hhave, haveFolder, makeFolder, hlocate]
    dsimp only
    rw [hnode]
  | some node =>
    cases node with
    | file bytes => exact absurd hnode (hfile bytes)
    | folder =>
      refine ⟨f, ?_, hnode, fun _ _ => rfl⟩
      have hfolder : f.isFolder name = true := by
        rw [isFolder, look, hlocate]
        dsimp only
        rw [hnode]
      rw [hhave, haveFolder, makeFolder, hlocate]
      dsimp only
      rw [hnode]
      dsimp only
      rw [if_pos hfolder]

/-! ### Written files -/

/-- A file can be written where a path leads to no folder. -/
theorem write_eq_ok {bytes : List UInt8} :
    f.write path bytes = .ok g ↔ ∃ place, f.locate path = .ok place ∧
      Path.endsInSlash path = false ∧ f.node? place ≠ some .folder ∧
      g = f.put place (.file bytes) := by
  unfold write change
  cases hlocate : f.locate path with
  | error e => simp
  | ok place =>
    cases hslash : Path.endsInSlash path with
    | true => simp
    | false =>
      cases hnode : f.node? place with
      | none => simp [hnode, eq_comm]
      | some node => cases node <;> simp [hnode, eq_comm]

/-- What was written is found at the path. -/
theorem look_of_write {bytes : List UInt8} (h : f.write path bytes = .ok g) :
    g.look path = .ok (.file bytes) := by
  obtain ⟨place, hlocate, hslash, hnode, rfl⟩ := write_eq_ok.1 h
  have hroot : place ≠ [] := by
    rintro rfl
    exact hnode rfl
  have hfolders : ∀ q, f.node? q = some .folder →
      (f.put place (.file bytes)).node? q = some .folder := by
    intro q hq
    have hne : q ≠ place := by
      rintro rfl
      exact hnode hq
    rwa [node?_put_of_ne _ hne]
  exact look_of_locate (locate_of_folders hfolders hlocate) hslash (node?_put_self _ hroot)

/-! ### Growing files -/

/-- Folders are as they were, and what a file held is still the first that it holds. -/
structure Grown (f g : Files) : Prop where
  folder : ∀ place, g.node? place = some .folder ↔ f.node? place = some .folder
  file : ∀ place bytes, f.node? place = some (.file bytes) →
    ∃ more, g.node? place = some (.file (bytes ++ more))

theorem Grown.refl (f : Files) : Grown f f :=
  ⟨fun _ => Iff.rfl, fun _ bytes h => ⟨[], by rwa [List.append_nil]⟩⟩

theorem Grown.trans {h : Files} (hfg : Grown f g) (hgh : Grown g h) : Grown f h := by
  refine ⟨fun place => (hgh.folder place).trans (hfg.folder place), ?_⟩
  intro place bytes hbytes
  obtain ⟨more, hmore⟩ := hfg.file place bytes hbytes
  obtain ⟨evenMore, hlast⟩ := hgh.file place _ hmore
  exact ⟨more ++ evenMore, by rwa [← List.append_assoc]⟩

/-- Nothing that was there is gone. -/
theorem Grown.isThere (h : Grown f g) (hthere : f.isThere path = true) : g.isThere path = true := by
  unfold Files.isThere look at hthere ⊢
  cases hf : f.locate path with
  | error e =>
    rw [hf] at hthere
    cases hthere
  | ok place =>
    rw [hf] at hthere
    rw [locate_of_folders (fun place => (h.folder place).2) hf]
    dsimp only at hthere ⊢
    cases hnode : f.node? place with
    | none =>
      rw [hnode] at hthere
      cases hthere
    | some node =>
      rw [hnode] at hthere
      cases node with
      | folder => rw [(h.folder place).2 hnode]; rfl
      | file bytes =>
        obtain ⟨more, hmore⟩ := h.file place bytes hnode
        rw [hmore]
        dsimp only at hthere ⊢
        split at hthere
        · cases hthere
        · next hslash => rw [if_neg hslash]; rfl

/-- Bytes were put behind those of the file at a place, or into a new file there, and all other
places are as they were. -/
structure Appended (f : Files) (path : String) (place : Location) (bytes : List UInt8) (g : Files) :
    Prop where
  locate : f.locate path = .ok place
  endsInName : Path.endsInSlash path = false
  there : (f.node? place = none ∧ g.node? place = some (.file bytes)) ∨
    ∃ old, f.node? place = some (.file old) ∧ g.node? place = some (.file (old ++ bytes))
  elsewhere : ∀ other, other ≠ place → g.node? other = f.node? other

theorem appended_of_append {bytes : List UInt8} (h : f.append path bytes = .ok g) :
    ∃ place, Appended f path place bytes g := by
  unfold append change at h
  cases hlocate : f.locate path with
  | error e =>
    rw [hlocate] at h
    cases h
  | ok place =>
    have hroot : f.node? place ≠ some .folder → place ≠ [] := by
      rintro hnode rfl
      exact hnode rfl
    rw [hlocate] at h
    dsimp only at h
    split at h
    · cases h
    · next hslash =>
      have hname := Bool.eq_false_iff.2 hslash
      split at h
      · cases h
      · next old hold =>
        obtain rfl := Except.ok.inj h
        have hplace := hroot (by rw [hold]; nofun)
        exact ⟨place, hlocate, hname, .inr ⟨old, hold, node?_put_self _ hplace⟩,
          fun other hother => node?_put_of_ne _ hother⟩
      · next hnone =>
        obtain rfl := Except.ok.inj h
        have hplace := hroot (by rw [hnone]; nofun)
        exact ⟨place, hlocate, hname, .inl ⟨hnone, node?_put_self _ hplace⟩,
          fun other hother => node?_put_of_ne _ hother⟩

/-- Where nothing is, a new file is made. -/
theorem append_eq_put {bytes : List UInt8} (hlocate : f.locate path = .ok place)
    (hname : Path.endsInSlash path = false) (hnone : f.node? place = none) :
    f.append path bytes = .ok (f.put place (.file bytes)) := by
  rw [append, change, hlocate]
  dsimp only
  rw [hname, if_neg Bool.false_ne_true, hnone]
  rfl

namespace Appended

variable {bytes : List UInt8}

theorem grown (h : Appended f path place bytes g) : Grown f g := by
  constructor
  · intro other
    by_cases hother : other = place
    · subst hother
      rcases h.there with ⟨hf, hg⟩ | ⟨old, hf, hg⟩ <;> simp [hf, hg]
    · rw [h.elsewhere other hother]
  · intro other held hheld
    by_cases hother : other = place
    · subst hother
      rcases h.there with ⟨hf, _⟩ | ⟨old, hf, hg⟩
      · rw [hf] at hheld
        cases hheld
      · obtain rfl : old = held := by simpa [hf] using hheld
        exact ⟨bytes, hg⟩
    · exact ⟨[], by rw [h.elsewhere other hother, hheld, List.append_nil]⟩

/-- A path to another place finds there what it found before. -/
theorem toOption_look_of_ne (h : Appended f path place bytes g) {other : String}
    (hother : f.locate other ≠ .ok place) : (g.look other).toOption = (f.look other).toOption := by
  apply toOption_look_congr h.grown.folder
  intro q hq
  apply h.elsewhere q
  rintro rfl
  exact hother hq

/-- The bytes are found behind what was found at the path before. -/
theorem look_self (h : Appended f path place bytes g) :
    (f.look path).toOption = none ∧ g.look path = .ok (.file bytes) ∨
    ∃ old, f.look path = .ok (.file old) ∧ g.look path = .ok (.file (old ++ bytes)) := by
  have hg := locate_of_folders (fun place => (h.grown.folder place).2) h.locate
  rcases h.there with ⟨hnone, hnew⟩ | ⟨old, hold, hnew⟩
  · refine .inl ⟨?_, look_of_locate hg h.endsInName hnew⟩
    rw [look, h.locate]
    dsimp only
    rw [hnone]
    rfl
  · exact .inr ⟨old, look_of_locate h.locate h.endsInName hold, look_of_locate hg h.endsInName hnew⟩

end Appended

end Files

end LiveAudit
