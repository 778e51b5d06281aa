import LiveAudit.Http.Client
import LiveAudit.Proofs.Segments

/-!
# Where requests go

Every address that segments can be appended to has a path that is empty or begins with a slash
(`Url.rooted_read`): it is read behind a slash, and going up never leaves that. The path of a file
has one slash at its front and not more, and a request keeps it (`Url.Path.Single.extend`). So the
paths of requests are those of `Url.Path.segments_extend`, whatever the base of the client is.
-/

namespace LiveAudit

namespace Url

namespace Path

/-- What goes up from a rooted path, or stays, is rooted. -/
theorem head?_toLastSlash {path : List Char} (h : path.head? = some '/') :
    (toLastSlash path).head? = some '/' := by
  obtain ⟨rest, rfl⟩ := List.head?_eq_some_iff.1 h
  have hall : (['/'] : List Char).dropWhile (fun c => decide (c ≠ '/')) = ['/'] := by decide
  rw [toLastSlash, List.reverse_cons, List.dropWhile_append]
  split_ifs
  · rw [hall]
    rfl
  · rw [List.reverse_append]
    rfl

/-- A path that goes up is rooted as it was. -/
theorem head?_up {path : List Char} (h : path.head? = some '/') : (up path).head? = some '/' := by
  unfold up
  split_ifs with hup
  · refine head?_toLastSlash ?_
    obtain ⟨rest, rfl⟩ := List.head?_eq_some_iff.1 h
    cases rest with
    | nil => simp at hup
    | cons c rest => rfl
  · exact head?_toLastSlash h

/-- A segment leaves a path rooted. -/
theorem head?_close {path : List Char} (h : path.head? = some '/') (segment : List Char)
    (slash : Bool) : (close path segment slash).head? = some '/' := by
  have happend : ∀ s : List Char, (path ++ s).head? = some '/' := by
    intro s
    rw [List.head?_append, h]
    rfl
  unfold close
  split_ifs
  · exact head?_up h
  · exact h
  · exact happend ['/']
  · rw [List.append_assoc]
    exact happend _
  · rw [List.append_assoc]
    exact happend _

/-- A path that is read on stays rooted. -/
theorem head?_read (special : Bool) {path : List Char} (h : path.head? = some '/')
    (segment s : List Char) : (read special path segment s).1.head? = some '/' := by
  induction s generalizing path segment with
  | nil => exact head?_close h segment false
  | cons c rest ih =>
    unfold read
    split_ifs
    · exact ih (head?_close h segment true) []
    · exact head?_close h segment false
    · exact ih h _

end Path

/-- A path behind a host is empty or rooted. -/
theorem rooted_readPath (special : Bool) (s : List Char) :
    Path.Rooted (readPath special s).1 := by
  cases s with
  | nil => cases special <;> simp [readPath, Path.Rooted]
  | cons c rest =>
    simp only [readPath]
    split_ifs
    · exact .inr (Path.head?_read special rfl [] rest)
    · exact .inl rfl
    · exact .inr (Path.head?_read special rfl [] (c :: rest))

/-! ### One slash at the front -/

namespace Path

/-- A path with one slash at its front and not more. -/
def Single (path : List Char) : Prop :=
  ∃ rest, path = '/' :: rest ∧ rest.head? ≠ some '/'

/-- Such a path keeps its front without an empty segment at its end. -/
theorem Single.withoutEmptyEnd {path : List Char} (h : Single path) :
    Single (withoutEmptyEnd path) := by
  obtain ⟨rest, rfl, hrest⟩ := h
  unfold Path.withoutEmptyEnd
  split_ifs with hend
  · cases rest with
    | nil => simp at hend
    | cons c rest =>
      refine ⟨(c :: rest).dropLast, rfl, ?_⟩
      cases rest with
      | nil => simp
      | cons d rest => exact hrest
  · exact ⟨rest, rfl, hrest⟩

/-- It keeps it when it is opened. -/
theorem Single.opened {path : List Char} (h : Single path) : Single (opened path) := by
  obtain ⟨rest, rfl, hrest⟩ := h
  unfold Path.opened
  split_ifs with hroot
  · exact ⟨rest, rfl, hrest⟩
  · refine ⟨rest ++ ['/'], rfl, ?_⟩
    cases rest with
    | nil => simp at hroot
    | cons c rest => exact hrest

/-- It keeps it when a segment is put behind it that does not begin with a slash. -/
theorem Single.opened_append {path segment : List Char} (h : Single path)
    (hsegment : segment.head? ≠ some '/') : Single (Path.opened path ++ segment) := by
  obtain ⟨rest, rfl, hrest⟩ := h
  unfold Path.opened
  split_ifs with hroot
  · obtain rfl : rest = [] := by simpa using hroot
    exact ⟨segment, rfl, hsegment⟩
  · refine ⟨rest ++ ['/'] ++ segment, by simp, ?_⟩
    cases rest with
    | nil => simp at hroot
    | cons c rest => exact hrest

/-- The path of a request below such a path is such a path. -/
theorem Single.extend {path : List Char} (h : Single path) (special : Bool) (repo : String)
    {name : String} (hname : name ∈ names) :
    Single (extend special path ["repos", repo, name]) := by
  have hrooted : Rooted path := by
    obtain ⟨rest, rfl, -⟩ := h
    exact .inr rfl
  have hfront := h.withoutEmptyEnd
  have hnames : ∀ n ∈ names, n.toList.head? ≠ some '/' := by decide
  have hrepos : ∀ s : List Char,
      Single (Path.opened (Path.withoutEmptyEnd path) ++ ("repos".toList ++ s)) :=
    fun s => hfront.opened_append (by simp)
  rw [extend_eq special hrooted repo hname]
  split_ifs
  · rw [List.append_assoc]
    exact hrepos _
  · exact hfront.opened.opened_append (hnames name hname)
  · rw [List.append_assoc]
    exact hrepos _
  · rw [List.append_assoc, List.append_assoc]
    exact hrepos _

/-- Slashes at the front of such a path are one. -/
theorem Single.dropWhile {path : List Char} (h : Single path) :
    '/' :: path.dropWhile (· = '/') = path := by
  obtain ⟨rest, rfl, hrest⟩ := h
  cases rest with
  | nil => rfl
  | cons c rest =>
    have hc : c ≠ '/' := fun h => hrest (congrArg some h)
    simp [hc]

end Path

/-- An address whose path is empty or rooted. That of a file has one slash at its front and not
more. -/
structure Rooted (u : Url) : Prop where
  path : Path.Rooted u.path
  file : u.scheme = "file" → Path.Single u.path

/-- The address of a file is rooted. -/
theorem rooted_file (authority : Option Authority) (s : List Char) :
    (build "file" authority (readFilePath s)).Rooted := by
  have hpath : (build "file" authority (readFilePath s)).path =
      '/' :: (readPath true s).1.dropWhile (· = '/') := rfl
  refine ⟨.inr (by rw [hpath]; rfl), fun _ => ⟨_, hpath, ?_⟩⟩
  intro h
  have hnot := List.head?_dropWhile_not (fun c => decide (c = '/')) (readPath true s).1
  rw [h] at hnot
  simp at hnot

/-- A file's address, however it is written, has a path that was read as one of files. -/
theorem rooted_readFile {s : List Char} {u : Url} (h : readFile s = .ok u) : u.Rooted := by
  unfold readFile at h
  split at h
  · rename_i a b rest
    split_ifs at h with hslashes
    · dsimp only at h
      split_ifs at h with hdrive hempty
      · obtain rfl := Except.ok.inj h
        exact rooted_file _ _
      · obtain rfl := Except.ok.inj h
        exact rooted_file _ _
      · cases hhost : readHost (rest.takeWhile fun c => !(isSlash c || c == '?' || c == '#')) with
        | error f => 
          rw [hhost] at h
          cases h
        | ok host =>
          rw [hhost] at h
          obtain rfl := Except.ok.inj h
          exact rooted_file _ _
    · obtain rfl := Except.ok.inj h
      exact rooted_file _ _
  · obtain rfl := Except.ok.inj h
    exact rooted_file _ _

/-- A built address is rooted if its path is and it is no file's. -/
theorem rooted_build {scheme : String} {authority : Option Authority}
    {path : List Char × List Char} (hpath : Path.Rooted path.1)
    (hscheme : scheme ≠ "file") : (build scheme authority path).Rooted :=
  ⟨hpath, fun h => absurd h hscheme⟩

/-- An address of a scheme that is not special is rooted if segments can be appended to its path. -/
theorem rooted_readFree {scheme : String} (hscheme : scheme ≠ "file") {s : List Char} {u : Url}
    (h : readFree scheme s = .ok u) (happends : u.isOpaque = false) : u.Rooted := by
  unfold readFree at h
  split at h
  · rename_i rest
    cases hread : readAuthority scheme rest with
    | error f =>
      rw [hread] at h
      cases h
    | ok found =>
      rw [hread] at h
      obtain rfl := Except.ok.inj h
      exact rooted_build (rooted_readPath false _) hscheme
  · obtain rfl := Except.ok.inj h
    exact rooted_build (rooted_readPath false _) hscheme
  · obtain rfl := Except.ok.inj h
    refine rooted_build (.inr ?_) hscheme
    simpa [isOpaque, build] using happends

/-- An address that is read is rooted if segments can be appended to its path. -/
theorem rooted_read {text : String} {u : Url} (h : read text = .ok u)
    (happends : u.isOpaque = false) : u.Rooted := by
  unfold read at h
  dsimp only at h
  split at h
  · cases h
  · rename_i scheme rest hscheme
    split_ifs at h with hfile hspecial
    · exact rooted_readFile h
    · cases hread : readAuthority scheme (rest.dropWhile isSlash) with
      | error f =>
        rw [hread] at h
        cases h
      | ok found =>
        rw [hread] at h
        obtain rfl := Except.ok.inj h
        exact rooted_build (rooted_readPath true _) hfile
    · exact rooted_readFree hfile h happends

/-- The path of a request is that of its base with segments behind it. -/
theorem Rooted.path_extend {u : Url} (h : u.Rooted) (repo : String) {name : String}
    (hname : name ∈ Path.names) :
    (u.extend ["repos", repo, name]).path =
      Path.extend (isSpecial u.scheme) u.path ["repos", repo, name] := by
  unfold Url.extend
  dsimp only
  split_ifs with hfile
  · exact ((h.file hfile).extend _ repo hname).dropWhile
  · rfl

end Url

namespace Http

/-- The base of a client was read from its settings, and segments can be appended to its path. -/
theorem Client.exists_read {settings : Settings} {client : Client}
    (h : Client.ofSettings settings = .ok client) :
    ∃ given, Url.read given = .ok client.base ∧ client.base.isOpaque = false := by
  simp only [Client.ofSettings, bind, Except.bind] at h
  split at h
  · cases h
  · rename_i given hgiven
    split at h
    · cases h
    · rename_i base hread
      split_ifs at h with happends
      obtain rfl := Except.ok.inj h
      exact ⟨given, hread, Bool.eq_false_iff.2 happends⟩

/-- Requests are made below a rooted address. -/
theorem Client.rooted {settings : Settings} {client : Client}
    (h : Client.ofSettings settings = .ok client) : client.base.Rooted := by
  obtain ⟨given, hread, happends⟩ := Client.exists_read h
  exact Url.rooted_read hread happends

/-- A parameter comes last in the query of an address. -/
theorem query_withParameter (u : Url) (name : String) (n : UInt64) :
    ∃ front, (u.withParameter name n).query =
        some (front ++ name.toList ++ '=' :: Text.decimal n.toNat) ∧
      (front = [] ∨ front.getLast? = some '&') := by
  unfold Url.withParameter
  dsimp only
  split
  · exact ⟨[], rfl, .inl rfl⟩
  · exact ⟨[], rfl, .inl rfl⟩
  · rename_i query _ _
    refine ⟨query ++ ['&'], ?_, .inr List.getLast?_concat⟩
    simp

/-- It is kept apart by a sign from what is there already. -/
theorem query_withParameter_of_ne_nil {u : Url} {query : List Char} (h : u.query = some query)
    (hne : query ≠ []) (name : String) (n : UInt64) :
    (u.withParameter name n).query =
      some (query ++ '&' :: name.toList ++ '=' :: Text.decimal n.toNat) := by
  obtain ⟨c, rest, rfl⟩ := List.exists_cons_of_ne_nil hne
  unfold Url.withParameter
  dsimp only
  rw [h]
  simp

/-- The query of a request for a page ends with its limit and its offset. -/
theorem query_auditsCall (base : Url) (repo : Ident) (limit offset : UInt64) :
    ∃ front, (auditsCall base repo limit offset).url.query =
        some (front ++ "limit=".toList ++ Text.decimal limit.toNat ++ "&offset=".toList ++
          Text.decimal offset.toNat) ∧
      (front = [] ∨ front.getLast? = some '&') := by
  obtain ⟨front, hlimit, hfront⟩ :=
    query_withParameter (base.extend ["repos", repo, "audits"]) "limit" limit
  have hoffset := query_withParameter_of_ne_nil hlimit (by simp) "offset" offset
  refine ⟨front, hoffset.trans ?_, hfront⟩
  simp

/-- Whether the path of a call has the segments of a base, `repos`, one that reads back as a
repository, and a name. -/
def Call.IsFor (base : Url) (repo : Ident) (name : String) (c : Call) : Prop :=
  Url.Path.IsBelow (Url.Path.named base.path) repo name (Url.Path.segments c.url.path)

/-- A call below a base is for a repository exactly if base and identifier are as they must be. -/
theorem isFor_iff {base : Url} (h : base.Rooted) (repo : Ident) {name : String}
    (hname : name ∈ Url.Path.names) {c : Call}
    (hpath : c.url.path = (base.extend ["repos", repo, name]).path) :
    c.IsFor base repo name ↔ Url.Path.Keeps base.path repo := by
  rw [Call.IsFor, hpath, h.path_extend repo hname]
  exact Url.Path.isBelow_iff _ h.path repo hname

/-- So it is with the call for a page. -/
theorem auditsCall_isFor {base : Url} (h : base.Rooted) (repo : Ident) (limit offset : UInt64) :
    (auditsCall base repo limit offset).IsFor base repo "audits" ↔
      Url.Path.Keeps base.path repo :=
  isFor_iff h repo (by decide) rfl

/-- So it is with the call for a synchronisation. -/
theorem syncCall_isFor {base : Url} (h : base.Rooted) (repo : Ident) :
    (syncCall base repo).IsFor base repo "sync" ↔ Url.Path.Keeps base.path repo :=
  isFor_iff h repo (by decide) rfl

/-- Calls with one path that are for repositories are for the same. -/
theorem eq_of_isFor {base : Url} {repo repo' : Ident} {name : String} {c c' : Call}
    (h : c.IsFor base repo name) (h' : c'.IsFor base repo' name)
    (hpath : c.url.path = c'.url.path) : repo = repo' := by
  obtain ⟨s, hs, hread⟩ := h
  obtain ⟨s', hs', hread'⟩ := h'
  rw [hpath, hs'] at hs
  have htail := List.append_cancel_left hs
  obtain rfl : s' = s := by simpa using htail
  exact Option.some.inj (hread.symm.trans hread')

/-- The path of a request is that of the base with `repos`, the identifier of the repository and
the name of what is asked behind it, exactly if the path of the base is not two slashes and the
identifier is not one or two dots and has no tab or line end. Identifiers of which this is true
never share a path. The query ends with limit and offset in any case. -/
theorem asked_iff {settings : Settings} {client : Client}
    (h : Client.ofSettings settings = .ok client) (repo : Ident) (limit offset : UInt64) :
    let audits := auditsCall client.base repo limit offset
    let sync := syncCall client.base repo
    (audits.IsFor client.base repo "audits" ↔ Url.Path.Keeps client.base.path repo) ∧
      (sync.IsFor client.base repo "sync" ↔ Url.Path.Keeps client.base.path repo) ∧
      (∀ repo', Url.Path.Keeps client.base.path repo → Url.Path.Keeps client.base.path repo' →
        (audits.url.path = (auditsCall client.base repo' limit offset).url.path ∨
          sync.url.path = (syncCall client.base repo').url.path) → repo = repo') ∧
      ∃ front first second, audits.url.query =
          some (front ++ "limit=".toList ++ first ++ "&offset=".toList ++ second) ∧
        (front = [] ∨ front.getLast? = some '&') ∧
        Url.numberIn? 10 first = some limit.toNat ∧
        Url.numberIn? 10 second = some offset.toNat := by
  intro audits sync
  have hrooted : client.base.Rooted := Client.rooted h
  have haudits := auditsCall_isFor hrooted
  have hsync := syncCall_isFor hrooted
  obtain ⟨front, hquery, hfront⟩ := query_auditsCall client.base repo limit offset
  refine ⟨haudits repo limit offset, hsync repo, ?_, front, _, _, hquery, hfront,
    Url.numberIn?_decimal _, Url.numberIn?_decimal _⟩
  rintro repo' hrepo hrepo' (hpath | hpath)
  · exact eq_of_isFor ((haudits repo limit offset).2 hrepo) ((haudits repo' limit offset).2 hrepo')
      hpath
  · exact eq_of_isFor ((hsync repo).2 hrepo) ((hsync repo').2 hrepo') hpath

/-- An identifier of a slash, a percent sign and a letter beyond ASCII, below a base with a slash at
its end: the identifier stays one segment and reads back as it is. -/
theorem asked_iff_escaped :
    let settings : Settings := { Settings.default with baseUrl := some "http://h/api/?k=1" }
    ∃ client, Client.ofSettings settings = .ok client ∧
      (auditsCall client.base "../%é" 20 40).line =
        "GET /api/repos/..%2F%25%C3%A9/audits?k=1&limit=20&offset=40" ∧
      (auditsCall client.base "../%é" 20 40).IsFor client.base "../%é" "audits" := by
  intro settings
  let base : Url :=
    ⟨"http", some ⟨.name ['h'], none⟩, "/api/".toList, some "k=1".toList, none⟩
  let client : Client := ⟨base, settings.requestTimeout⟩
  have hclient : Client.ofSettings settings = .ok client := by decide +kernel
  have hkeeps : Url.Path.Keeps client.base.path "../%é" :=
    ⟨by decide, by decide, by decide, Url.Path.kept_eq_iff.1 (by decide)⟩
  have hline : (auditsCall client.base "../%é" 20 40).line =
      "GET /api/repos/..%2F%25%C3%A9/audits?k=1&limit=20&offset=40" := by decide +kernel
  obtain ⟨haudits, -⟩ := asked_iff hclient "../%é" 20 40
  exact ⟨client, hclient, hline, haudits.2 hkeeps⟩

/-- Two dots are left out, so that no repository is named; with a tab between them they lead out of
`repos`. Identifiers that differ by a tab share a path. -/
theorem asked_without_repository :
    let settings : Settings := { Settings.default with baseUrl := some "http://h/api" }
    ∃ client, Client.ofSettings settings = .ok client ∧
      ¬(auditsCall client.base ".." 20 0).IsFor client.base ".." "audits" ∧
      (auditsCall client.base ".." 20 0).line = "GET /api/repos/audits?limit=20&offset=0" ∧
      (auditsCall client.base ".\t." 20 0).line = "GET /api//audits?limit=20&offset=0" ∧
      (syncCall client.base "a\tb").line = (syncCall client.base "ab").line := by
  intro settings
  let base : Url := ⟨"http", some ⟨.name ['h'], none⟩, "/api".toList, none, none⟩
  let client : Client := ⟨base, settings.requestTimeout⟩
  have hclient : Client.ofSettings settings = .ok client := by decide +kernel
  have hrooted : client.base.Rooted := Client.rooted hclient
  have hnot : ¬(auditsCall client.base ".." 20 0).IsFor client.base ".." "audits" := by
    rw [auditsCall_isFor hrooted]
    exact fun hkeeps => hkeeps.dots rfl
  have hdots : (auditsCall client.base ".." 20 0).line =
      "GET /api/repos/audits?limit=20&offset=0" := by decide +kernel
  have htab : (auditsCall client.base ".\t." 20 0).line =
      "GET /api//audits?limit=20&offset=0" := by decide +kernel
  have hshared : (syncCall client.base "a\tb").line = (syncCall client.base "ab").line := by
    decide +kernel
  exact ⟨client, hclient, hnot, hdots, htab, hshared⟩

end Http
end LiveAudit
