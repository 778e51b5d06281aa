import Mathlib.Data.List.Basic
import LiveAudit.Proofs.Percent

/-!
# Segments of paths

A path is kept as it is written; here it is taken apart at its slashes (`Path.segments`). What is
put behind a path comes last among its segments and stays a single one, since slashes are escaped.

Below a base, a request has the segments `repos`, the identifier of a repository and a name
(`Path.segments_extend`). An identifier of one or two dots is left out. Tabs and line ends are
passed over, so an identifier that is dots but for these is taken as a step: one dot leaves an empty
segment behind, and two lead out of `repos`. In all other cases the segment reads back as what is
kept of the identifier, so that it is the repository that is asked for exactly if nothing is passed
over (`Path.isBelow_iff`).
-/

namespace LiveAudit.Url

open Text

/-! ### Segments -/

/-- Without the separator a text has one part. -/
theorem splitAt_of_not_mem {separator : Char} {s : List Char} (h : separator ∉ s) :
    splitAt separator s = [s] := by
  induction s with
  | nil => rfl
  | cons c s ih =>
    rw [List.mem_cons, not_or] at h
    rw [splitAt, ih h.2]
    exact if_neg (Ne.symm h.1)

/-- A text has at least one part. -/
theorem splitAt_ne_nil (separator : Char) (s : List Char) : splitAt separator s ≠ [] := by
  cases s with
  | nil => simp [splitAt]
  | cons c s =>
    simp only [splitAt]
    split
    · simp
    · split_ifs <;> simp

/-- The parts of a text with a separator in it are those before it and those behind it. -/
theorem splitAt_append (separator : Char) (s rest : List Char) :
    splitAt separator (s ++ separator :: rest) =
      splitAt separator s ++ splitAt separator rest := by
  induction s with
  | nil =>
    cases hrest : splitAt separator rest with
    | nil => exact absurd hrest (splitAt_ne_nil separator rest)
    | cons part parts => simp [splitAt, hrest]
  | cons c s ih =>
    rw [List.cons_append, splitAt, ih, splitAt]
    cases hs : splitAt separator s with
    | nil => exact absurd hs (splitAt_ne_nil separator s)
    | cons part parts =>
      simp only [List.cons_append]
      split_ifs <;> rfl

/-- The last part of a text ends as the text does, if that is not in a separator. -/
theorem exists_splitAt_concat {separator c : Char} (hc : c ≠ separator) (s : List Char) :
    ∃ parts part, splitAt separator (s ++ [c]) = parts ++ [part ++ [c]] := by
  induction s with
  | nil => exact ⟨[], [], if_neg hc⟩
  | cons d s ih =>
    obtain ⟨parts, part, h⟩ := ih
    rw [List.cons_append, splitAt, h]
    cases parts with
    | nil =>
      by_cases hd : d = separator
      · exact ⟨[[]], part, if_pos hd⟩
      · exact ⟨[], d :: part, if_neg hd⟩
    | cons first parts =>
      by_cases hd : d = separator
      · exact ⟨[] :: first :: parts, part, if_pos hd⟩
      · exact ⟨(d :: first) :: parts, part, if_neg hd⟩

namespace Path

/-- A path that is empty or begins with a slash. -/
def Rooted (path : List Char) : Prop :=
  path = [] ∨ path.head? = some '/'

/-- Segments of a path, the parts between its slashes. -/
def segments : List Char → List (List Char)
  | [] => []
  | _ :: rest => splitAt '/' rest

/-- Segments of a path, without an empty one at the end. -/
def named (path : List Char) : List (List Char) :=
  if (segments path).getLast? = some [] then (segments path).dropLast else segments path

/-- A segment that is put behind a path comes last. -/
theorem segments_append {segment : List Char} (h : '/' ∉ segment) (path : List Char) :
    segments (path ++ '/' :: segment) = segments path ++ [segment] := by
  cases path with
  | nil => exact splitAt_of_not_mem h
  | cons c rest =>
    change splitAt '/' (rest ++ '/' :: segment) = _
    rw [splitAt_append, splitAt_of_not_mem h]
    rfl

/-- What is in front of the next segment: the path with a slash behind it, unless it is the root. -/
def opened (path : List Char) : List Char :=
  if path.length = 1 then path else path ++ ['/']

/-- Segments of a path that another one is to follow. -/
def stem (path : List Char) : List (List Char) :=
  if path.length = 1 then [] else segments path

/-- Segments of a path that was opened for another segment. -/
theorem segments_opened {segment : List Char} (h : '/' ∉ segment) (path : List Char) :
    segments (opened path ++ segment) = stem path ++ [segment] := by
  unfold opened stem
  split_ifs with hroot
  · obtain ⟨c, rfl⟩ := List.length_eq_one_iff.1 hroot
    exact splitAt_of_not_mem h
  · rw [List.append_assoc]
    exact segments_append h path

/-- A slash at the end of a path, if it is not the root, is left out. -/
theorem withoutEmptyEnd_concat {path : List Char} (h : path ≠ []) (c : Char) :
    withoutEmptyEnd (path ++ [c]) = if c = '/' then path else path ++ [c] := by
  unfold withoutEmptyEnd endsInSlash
  rw [List.getLast?_concat, List.dropLast_concat]
  by_cases hc : c = '/' <;> simp [h, hc]

/-- The segments of a base are those of its path without an empty one at the end, but a path of two
slashes loses its empty name, too. -/
theorem named_eq_stem {path : List Char} (h : Rooted path) :
    named path = if path = ['/', '/'] then [[]] else stem (withoutEmptyEnd path) := by
  rcases h with rfl | h
  · rfl
  · obtain ⟨rest, rfl⟩ := List.head?_eq_some_iff.1 h
    rcases List.eq_nil_or_concat' rest with rfl | ⟨init, c, rfl⟩
    · rfl
    · have hopen := withoutEmptyEnd_concat (List.cons_ne_nil '/' init) c
      rw [List.cons_append] at hopen
      rw [hopen]
      by_cases hc : c = '/'
      · subst hc
        have hsegments : segments ('/' :: (init ++ ['/'])) = splitAt '/' init ++ [[]] :=
          splitAt_append '/' init []
        rw [if_pos rfl, named, hsegments, List.getLast?_concat, if_pos rfl, List.dropLast_concat]
        cases init with
        | nil => rfl
        | cons d init => simp [stem, segments]
      · obtain ⟨parts, part, hparts⟩ := exists_splitAt_concat hc init
        have hsegments : segments ('/' :: (init ++ [c])) = parts ++ [part ++ [c]] := hparts
        have hlength : ('/' :: (init ++ [c])).length ≠ 1 := by simp
        have hnot : '/' :: (init ++ [c]) ≠ ['/', '/'] := by
          intro heq
          have hlast := congrArg List.getLast? heq
          rw [← List.cons_append, List.getLast?_concat] at hlast
          exact hc (Option.some.inj hlast)
        rw [if_neg hc, if_neg hnot, stem, if_neg hlength, named, hsegments, List.getLast?_concat,
          if_neg (by simp)]

/-! ### Steps -/

/-- What is kept of the text of a segment. -/
def kept (segment : String) : List Char :=
  segment.toList.filter fun c => !isPassedOver c

/-- The text of a segment as it stands in a path. -/
def segmentText (special : Bool) (segment : String) : List Char :=
  escape (escapedInSegment special) (kept segment)

/-- A segment stays single. -/
theorem slash_not_mem_segmentText (special : Bool) (segment : String) :
    '/' ∉ segmentText special segment :=
  slash_not_mem_escape (by cases special <;> rfl) _

/-- What is put behind a path is a dot only if that is all that is kept. -/
theorem isSingleDot_segmentText {special : Bool} {segment : String} :
    isSingleDot (segmentText special segment) ↔ kept segment = ['.'] := by
  constructor
  · intro h
    refine encode_injective ?_
    rw [← unescape_segment special, ← unescape_of_isSingleDot h, segmentText]
  · intro h
    rw [segmentText, h]
    cases special <;> rfl

/-- It is two dots only if these are all that is kept. -/
theorem isDoubleDot_segmentText {special : Bool} {segment : String} :
    isDoubleDot (segmentText special segment) ↔ kept segment = ['.', '.'] := by
  constructor
  · intro h
    refine encode_injective ?_
    rw [← unescape_segment special, ← unescape_of_isDoubleDot h, segmentText]
  · intro h
    rw [segmentText, h]
    cases special <;> rfl

/-- A segment is put behind a path unless it is one or two dots. -/
theorem push_eq (special : Bool) (path : List Char) {segment : String}
    (h : ¬(segment = "." ∨ segment = "..")) :
    push special path segment = close (opened path) (segmentText special segment) false :=
  if_neg h

/-- A segment that is a name is put behind a path as it is. -/
theorem close_of_name {segment : List Char} (hdouble : isDoubleDot segment = false)
    (hsingle : isSingleDot segment = false) (path : List Char) :
    close path segment false = path ++ segment := by
  simp [close, hdouble, hsingle]

/-- A name has no slash, seen from behind either. -/
theorem ne_slash_of_mem_reverse {name : List Char} (hname : '/' ∉ name) :
    ∀ c ∈ name.reverse, decide (c ≠ '/') = true := by
  intro c hc
  refine decide_eq_true fun h => hname ?_
  exact h ▸ List.mem_reverse.1 hc

/-- Names are left out of a path up to the slash in front of them. -/
theorem toLastSlash_append {front name : List Char} (hfront : front.getLast? = some '/')
    (hname : '/' ∉ name) : toLastSlash (front ++ name) = front := by
  obtain ⟨init, rfl⟩ := List.getLast?_eq_some_iff.1 hfront
  rw [toLastSlash, List.reverse_append,
    List.dropWhile_append_of_pos (ne_slash_of_mem_reverse hname)]
  simp

/-- The last name of a path that has a slash behind it. -/
theorem lastName_append {front name : List Char} (hfront : front.getLast? = some '/')
    (hname : '/' ∉ name) : lastName (front ++ name ++ ['/']) = name := by
  obtain ⟨init, rfl⟩ := List.getLast?_eq_some_iff.1 hfront
  rw [lastName, List.dropLast_concat, List.reverse_append,
    List.takeWhile_append_of_pos (ne_slash_of_mem_reverse hname)]
  simp

/-- A path goes up from a name, that of a drive apart, to the slash in front of it. -/
theorem up_append {front name : List Char} (hfront : front.getLast? = some '/')
    (hname : '/' ∉ name) (hdrive : isDrive name = false) :
    up (front ++ name ++ ['/']) = front := by
  have hslash : '/' ∈ front := List.mem_of_getLast? hfront
  rw [up, lastName_append hfront hname, hdrive, List.dropLast_concat,
    toLastSlash_append hfront hname]
  simp [endsInSlash, hslash]

/-- A path with something behind it that is not the root is opened by a slash. -/
theorem opened_append {path segment : List Char} (h : path ≠ []) (h' : segment ≠ []) :
    opened (path ++ segment) = path ++ segment ++ ['/'] := by
  have hpath := List.length_pos_iff.2 h
  have hsegment := List.length_pos_iff.2 h'
  refine if_neg ?_
  rw [List.length_append]
  omega

/-- An opened path ends in a slash. -/
theorem getLast?_opened {path : List Char} (h : Rooted path) :
    (opened path).getLast? = some '/' := by
  unfold opened
  split_ifs with hroot
  · obtain ⟨c, rfl⟩ := List.length_eq_one_iff.1 hroot
    simpa [Rooted] using h
  · exact List.getLast?_concat

/-- A path that is rooted stays so without an empty segment at its end. -/
theorem rooted_withoutEmptyEnd {path : List Char} (h : Rooted path) :
    Rooted (withoutEmptyEnd path) := by
  rcases h with rfl | h
  · exact .inl rfl
  · obtain ⟨rest, rfl⟩ := List.head?_eq_some_iff.1 h
    right
    unfold withoutEmptyEnd
    split_ifs with hend
    · cases rest with
      | nil => simp at hend
      | cons c rest => rfl
    · rfl

/-- The names that stand in the paths of requests. -/
def names : List String := ["repos", "audits", "sync", "projects"]

/-- A name of a request is put behind a path as it is. -/
theorem push_name (special : Bool) (path : List Char) {name : String} (h : name ∈ names) :
    push special path name = opened path ++ name.toList := by
  have hplain : ∀ n ∈ names, ¬(n = "." ∨ n = "..") ∧ segmentText special n = n.toList ∧
      isDoubleDot n.toList = false ∧ isSingleDot n.toList = false := by
    cases special <;> decide
  obtain ⟨hdots, htext, hdouble, hsingle⟩ := hplain name h
  rw [push_eq special path hdots, htext, close_of_name hdouble hsingle]

/-- The path of a request for a repository. Its identifier is left out if it is one or two dots; if
only these are kept of it, they are steps. -/
theorem extend_eq (special : Bool) {path : List Char} (hpath : Rooted path)
    (repo : String) {name : String} (hname : name ∈ names) :
    extend special path ["repos", repo, name] =
      if repo = "." ∨ repo = ".." then
        opened (withoutEmptyEnd path) ++ "repos".toList ++ '/' :: name.toList
      else if kept repo = ['.', '.'] then
        opened (opened (withoutEmptyEnd path)) ++ name.toList
      else if kept repo = ['.'] then
        opened (withoutEmptyEnd path) ++ "repos".toList ++ '/' :: '/' :: name.toList
      else
        opened (withoutEmptyEnd path) ++ "repos".toList ++ '/' :: segmentText special repo ++
          '/' :: name.toList := by
  let front := opened (withoutEmptyEnd path)
  have hfront : front.getLast? = some '/' := getLast?_opened (rooted_withoutEmptyEnd hpath)
  have hne : front ≠ [] := by
    intro h
    rw [h] at hfront
    cases hfront
  have hrepos : push special (withoutEmptyEnd path) "repos" = front ++ "repos".toList :=
    push_name special _ (by decide)
  have hopened : opened (front ++ "repos".toList) = front ++ "repos".toList ++ ['/'] :=
    opened_append hne (by decide)
  have hlist : extend special path ["repos", repo, name] =
      push special (push special (front ++ "repos".toList) repo) name := by
    rw [← hrepos]
    rfl
  change _ = if repo = "." ∨ repo = ".." then front ++ "repos".toList ++ '/' :: name.toList
    else if kept repo = ['.', '.'] then opened front ++ name.toList
    else if kept repo = ['.'] then front ++ "repos".toList ++ '/' :: '/' :: name.toList
    else front ++ "repos".toList ++ '/' :: segmentText special repo ++ '/' :: name.toList
  rw [hlist]
  split_ifs with hdots hdouble hsingle
  · have hskip : push special (front ++ "repos".toList) repo = front ++ "repos".toList :=
      if_pos hdots
    rw [hskip, push_name special _ hname, hopened, List.append_assoc]
    rfl
  · rw [push_eq special _ hdots, hopened, close, if_pos (isDoubleDot_segmentText.2 hdouble),
      up_append hfront (by decide) (by decide), push_name special _ hname]
  · have hnot : ¬isDoubleDot (segmentText special repo) = true :=
      mt isDoubleDot_segmentText.1 hdouble
    have hend : endsInSlash (front ++ "repos".toList ++ ['/']) = true := by simp [endsInSlash]
    rw [push_eq special _ hdots, hopened, close, if_neg hnot,
      if_pos (isSingleDot_segmentText.2 hsingle), if_pos hend, push_name special _ hname,
      opened_append (List.append_ne_nil_of_left_ne_nil hne _) (by decide)]
    simp
  · rw [push_eq special _ hdots, hopened,
      close_of_name (Bool.eq_false_iff.2 (mt isDoubleDot_segmentText.1 hdouble))
        (Bool.eq_false_iff.2 (mt isSingleDot_segmentText.1 hsingle)),
      push_name special _ hname]
    have hlong : opened (front ++ "repos".toList ++ ['/'] ++ segmentText special repo) =
        front ++ "repos".toList ++ ['/'] ++ segmentText special repo ++ ['/'] := by
      refine if_neg ?_
      simp only [List.length_append, List.length_singleton]
      have hname : "repos".toList.length = 5 := rfl
      omega
    rw [hlong]
    simp

/-- Opening a path once more puts an empty segment behind it, unless it has none. -/
theorem stem_opened (path : List Char) :
    stem (opened path) = if stem path = [] then [] else stem path ++ [[]] := by
  by_cases hroot : path.length = 1
  · have hstem : stem path = [] := if_pos hroot
    have hopened : opened path = path := if_pos hroot
    rw [hopened, hstem, if_pos rfl]
  · have hopened : opened path = path ++ ['/'] := if_neg hroot
    have hstem : stem path = segments path := if_neg hroot
    rw [hopened, hstem]
    cases path with
    | nil => rfl
    | cons c rest =>
      have hlength : ((c :: rest) ++ ['/']).length ≠ 1 := by simp
      have hne : segments (c :: rest) ≠ [] := splitAt_ne_nil '/' rest
      rw [stem, if_neg hlength, if_neg hne]
      exact segments_append List.not_mem_nil (c :: rest)

/-- Segments of the path of a request. -/
theorem segments_extend (special : Bool) {path : List Char}
    (hpath : Rooted path) (repo : String) {name : String}
    (hname : name ∈ names) :
    let base := stem (withoutEmptyEnd path)
    segments (extend special path ["repos", repo, name]) =
      if repo = "." ∨ repo = ".." then base ++ ["repos".toList, name.toList]
      else if kept repo = ['.', '.'] then
        if base = [] then [name.toList] else base ++ [[], name.toList]
      else if kept repo = ['.'] then base ++ ["repos".toList, [], name.toList]
      else base ++ ["repos".toList, segmentText special repo, name.toList] := by
  intro base
  have hrepos : '/' ∉ "repos".toList := by decide
  have hslash : ∀ n ∈ names, '/' ∉ n.toList := by decide
  rw [extend_eq special hpath repo hname]
  split_ifs with hdots hdouble hbase hsingle
  · rw [segments_append (hslash name hname), segments_opened hrepos]
    simp [base]
  · rw [segments_opened (hslash name hname), stem_opened, if_pos hbase]
    rfl
  · rw [segments_opened (hslash name hname), stem_opened, if_neg hbase]
    simp [base]
  · have hempty : opened (withoutEmptyEnd path) ++ "repos".toList ++ '/' :: '/' :: name.toList =
        opened (withoutEmptyEnd path) ++ "repos".toList ++ '/' :: [] ++ '/' :: name.toList := by
      simp
    rw [hempty, segments_append (hslash name hname), segments_append List.not_mem_nil,
      segments_opened hrepos]
    simp [base]
  · rw [segments_append (hslash name hname),
      segments_append (slash_not_mem_segmentText special repo), segments_opened hrepos]
    simp [base]

/-- Whether segments are those of a base with three behind them: `repos`, one that reads back as a
repository, and a name. -/
def IsBelow (base : List (List Char)) (repo name : String) (segments : List (List Char)) : Prop :=
  ∃ s, segments = base ++ ["repos".toList, s, name.toList] ∧
    ofUtf8? (unescape (encode s)) = some repo

/-- What a base and an identifier must be for a request to ask for that repository below that base:
the path of the base is not two slashes, and the identifier is not one or two dots and has none of
the characters that are passed over. -/
structure Keeps (path : List Char) (repo : String) : Prop where
  root : path ≠ ['/', '/']
  dot : repo ≠ "."
  dots : repo ≠ ".."
  whole : ∀ c ∈ repo.toList, c ≠ '\t' ∧ c ≠ '\n' ∧ c ≠ '\r'

/-- An identifier is kept if none of its characters is passed over. -/
theorem kept_eq_iff {repo : String} :
    kept repo = repo.toList ↔ ∀ c ∈ repo.toList, c ≠ '\t' ∧ c ≠ '\n' ∧ c ≠ '\r' := by
  simp [kept, isPassedOver, and_assoc]

/-- The path of a request has the segments of the base, `repos`, one that reads back as the
repository, and a name, exactly if base and identifier are as they must be. -/
theorem isBelow_iff (special : Bool) {path : List Char}
    (hpath : Rooted path) (repo : String) {name : String}
    (hname : name ∈ names) :
    IsBelow (named path) repo name (segments (extend special path ["repos", repo, name])) ↔
      Keeps path repo := by
  let base := stem (withoutEmptyEnd path)
  have hsegments := segments_extend special hpath repo hname
  have hnamed : named path = if path = ['/', '/'] then [[]] else base := named_eq_stem hpath
  constructor
  · rintro ⟨s, hs, hread⟩
    rw [hsegments, hnamed] at hs
    have hlength := congrArg List.length hs
    by_cases hroot : path = ['/', '/']
    · -- the base has an empty name that the path of the request has not
      have hbase : stem (withoutEmptyEnd path) = [] := by
        rw [hroot]
        rfl
      rw [if_pos hroot, hbase] at hlength
      split_ifs at hlength <;> simp at hlength
    · rw [if_neg hroot] at hs hlength
      split_ifs at hs hlength with hdots hdouble hbase hsingle
      · simp [base] at hlength
      · simp [base] at hlength
      · simp [base] at hlength
      · -- the dot that is kept is a step, and leaves an empty segment
        have hs' := List.append_cancel_left hs
        obtain rfl : [] = s := by simpa using hs'
        obtain rfl : "" = repo := Option.some.inj hread
        cases hsingle
      · have hs' := List.append_cancel_left hs
        obtain rfl : segmentText special repo = s := by simpa using hs'
        rw [segmentText, ofUtf8?_segment] at hread
        have hkept := congrArg String.toList (Option.some.inj hread)
        rw [String.toList_ofList] at hkept
        exact ⟨hroot, fun h => hdots (.inl h), fun h => hdots (.inr h), kept_eq_iff.1 hkept⟩
  · rintro ⟨hroot, hdot, hdots, hwhole⟩
    have hkept := kept_eq_iff.2 hwhole
    have hlist : ∀ {r : String} {s : List Char}, r.toList = s → repo ≠ r → kept repo ≠ s := by
      rintro r s rfl hr h
      exact hr (String.toList_inj.1 (hkept.symm.trans h))
    have hdouble : kept repo ≠ ['.', '.'] := hlist rfl hdots
    have hsingle : kept repo ≠ ['.'] := hlist rfl hdot
    refine ⟨segmentText special repo, ?_, ?_⟩
    · rw [hsegments, hnamed, if_neg hroot, if_neg (not_or.2 ⟨hdot, hdots⟩), if_neg hdouble,
        if_neg hsingle]
    · rw [segmentText, ofUtf8?_segment, hkept, String.ofList_toList]

end Path

end LiveAudit.Url
