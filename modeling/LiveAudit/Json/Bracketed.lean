import LiveAudit.Json.Skip

/-!
# Lists and objects

What is common to all values between brackets: the steps from one element to the next, the closing
step, and the readers of lists and of objects whose members are all kept.

A fault without a place gets one here. The closing step is made from where the fault arose, whether
it succeeds or not, and the fault is placed where that step ends.
-/

namespace LiveAudit.Json

/-- Text in front of the next item of a list; `none` at its closing bracket. -/
def nextItem (first : Bool) (s : List UInt8) :
    Except Fault (Option { t : List UInt8 // t.length ≤ s.length }) :=
  match h : skipSpace s with
  | [] => .error (.here .endInList [])
  | b :: rest =>
    if b = Bracket.list.closing then .ok none
    else if first then .ok (some ⟨s, length_self_le s⟩)
    else if b = byte ',' then
      match skipSpace rest with
      | [] => .error (.here .endInValue [])
      | c :: after =>
        if c = Bracket.list.closing then .error (.onByte .trailingComma (c :: after))
        else .ok (some ⟨rest, length_le_of_skipSpace h⟩)
    else .error (.onByte .expectedListEnd (b :: rest))

/-- Text behind the opening quote of the next key of an object; `none` at its closing bracket. -/
def nextKey (first : Bool) (s : List UInt8) :
    Except Fault (Option { t : List UInt8 // t.length < s.length }) :=
  match h : skipSpace s with
  | [] => .error (.here .endInObject [])
  | b :: rest =>
    have shorter : rest.length < s.length := length_lt_of_skipSpace h
    if b = Bracket.object.closing then .ok none
    else if first then
      if b = byte '"' then .ok (some ⟨rest, shorter⟩)
      else .error (.onByte .keyNotString (b :: rest))
    else if b = byte ',' then
      match h' : skipSpace rest with
      | [] => .error (.here .endInValue [])
      | c :: after =>
        if c = byte '"' then .ok (some ⟨after, Nat.lt_trans (length_lt_of_skipSpace h') shorter⟩)
        else .error (.onByte
          (if c = Bracket.object.closing then .trailingComma else .keyNotString) (c :: after))
    else .error (.onByte .expectedObjectEnd (b :: rest))

/-! ### The closing step -/

/-- Closing bracket behind a value that is complete. -/
def Bracket.close (b : Bracket) : Reader Unit :=
  afterSpace fun s => match s with
    | [] => .error (.here b.unfinished [])
    | c :: rest =>
      if c = b.closing then .ok (.ofHead () c rest)
      else if c = byte ',' then
        match b with
        | .object => .error (.onByte .trailingComma (c :: rest))
        | .list =>
          let after := skipSpace rest
          .error (.onByte
            (if after.head? = some b.closing then .trailingComma else .trailingCharacters) after)
      else .error (.onByte .trailingCharacters (c :: rest))

/-- Where the closing step ends, whether it succeeds or not. -/
def Bracket.leave (b : Bracket) (s : List UInt8) : List UInt8 :=
  match skipSpace s with
  | [] => []
  | c :: rest =>
    if c = b.closing then rest
    else if c = byte ',' ∧ b = .list then skipSpace rest
    else c :: rest

/-- Places a fault that has no place yet. -/
def Bracket.place (b : Bracket) : Fault → Fault
  | .unplaced c rest => .here c (b.leave rest)
  | f => f

/-- Reads the inside of a bracket by `body` and closes it; begins behind the opening bracket. -/
def Bracket.enclose {α : Type} (b : Bracket)
    (body : (s : List UInt8) → Except Fault (Within α s)) : Reader α := fun s =>
  match body s with
  | .error f => .error (b.place f)
  | .ok p =>
    match b.close p.rest with
    | .error f => .error f
    | .ok q => .ok ⟨p.value, q.rest, Nat.lt_of_lt_of_le q.shorter p.within⟩

/-! ### Loops -/

/-- Items of a list up to its closing bracket; `held` are those before, in reverse. -/
def listItems {α : Type} {whole : List UInt8} (item : Reader α) (first : Bool) (held : List α)
    (s : List UInt8) (h : s.length ≤ whole.length) : Except Fault (Within (List α) whole) :=
  match nextItem first s with
  | .error f => .error f
  | .ok none => .ok ⟨held.reverse, s, h⟩
  | .ok (some t) =>
    match item t.1 with
    | .error f => .error f
    | .ok p =>
      listItems item false (p.value :: held) p.rest
        (by have := p.shorter; have := t.2; omega)
termination_by s.length
decreasing_by have := p.shorter; have := t.2; omega

/-- List from behind its opening bracket. -/
def listTail {α : Type} (item : Reader α) : Reader (List α) :=
  Bracket.list.enclose fun s => listItems item true [] s (length_self_le s)

/-- Members of an object up to its closing bracket; `held` are those before, in reverse. -/
def objectMembers {α : Type} {whole : List UInt8} (item : Reader α) (first : Bool)
    (held : List (String × α)) (s : List UInt8) (h : s.length ≤ whole.length) :
    Except Fault (Within (List (String × α)) whole) :=
  match nextKey first s with
  | .error f => .error f
  | .ok none => .ok ⟨held.reverse, s, h⟩
  | .ok (some t) =>
    match stringTail t.1 with
    | .error f => .error f
    | .ok key =>
      match colon key.rest with
      | .error f => .error f
      | .ok c =>
        match item c.rest with
        | .error f => .error f
        | .ok p =>
          objectMembers item false ((key.value, p.value) :: held) p.rest (by
            have := p.shorter; have := c.shorter; have := key.shorter; have := t.2; omega)
termination_by s.length
decreasing_by have := p.shorter; have := c.shorter; have := key.shorter; have := t.2; omega

/-- Object from behind its opening bracket. -/
def objectTail {α : Type} (item : Reader α) : Reader (List (String × α)) :=
  Bracket.object.enclose fun s => objectMembers item true [] s (length_self_le s)

end LiveAudit.Json
