import LiveAudit.Json.Format

/-!
# Records

The format of a type with named fields. A record is written as an object, its keys in any order and
unknown ones skipped, or as the list of its fields in their own order.

Fields are read into a draft that holds what has been found so far. A key that finds its place taken
is a duplicate; what is still empty at the end is filled by the field's rule or is missing.
-/

namespace LiveAudit.Json

structure Field (α : Type) where
  label : String
  /-- Further keys of the field. -/
  aliases : List String
  form : Format α
  /-- Value when an object has none. -/
  absent : Option α
  /-- Value when a list ends before the field. -/
  cut : Option α

namespace Field

variable {α : Type}

def required (label : String) (form : Format α) : Field α :=
  ⟨label, [], form, none, none⟩

def optional (label : String) (form : Format α) (default : α) : Field α :=
  ⟨label, [], form, some default, some default⟩

/-- A field that an object may lack but a list may not. -/
def nullable (label : String) (form : Format α) : Field (Option α) :=
  ⟨label, [], form.option, some none, none⟩

def withAliases (names : List String) (f : Field α) : Field α :=
  { f with aliases := names }

def answers (f : Field α) (key : String) : Bool :=
  key == f.label || f.aliases.contains key

end Field

/-- Fields of a record, with the product of their types. -/
inductive Fields : Type → Type 1 where
  | done : Fields Unit
  | cons {α ρ : Type} (field : Field α) (more : Fields ρ) : Fields (α × ρ)

/-- What an object's key asks for: nothing, a place that is taken, or a value to be put into the
draft. -/
inductive Slot (δ : Type) where
  | unknown
  | taken (label : String)
  | vacant (form : Format δ)

def Slot.map {δ ε : Type} (f : δ → ε) : Slot δ → Slot ε
  | .unknown => .unknown
  | .taken label => .taken label
  | .vacant form => .vacant (form.map f)

namespace Fields

/-- What has been found of each field. -/
def Draft : {ρ : Type} → Fields ρ → Type
  | _, .done => Unit
  | _, @cons α _ _ more => Option α × more.Draft

def blank : {ρ : Type} → (fs : Fields ρ) → fs.Draft
  | _, .done => ()
  | _, .cons _ more => (none, more.blank)

def count : {ρ : Type} → Fields ρ → Nat
  | _, .done => 0
  | _, .cons _ more => more.count + 1

def slot : {ρ : Type} → (fs : Fields ρ) → fs.Draft → String → Slot fs.Draft
  | _, .done, _, _ => .unknown
  | _, @cons α _ f more, draft, key =>
    let place : Option α × more.Draft := draft
    if f.answers key then
      match place.1 with
      | some _ => .taken f.label
      | none => .vacant (f.form.map fun a => (some a, place.2))
    else (more.slot place.2 key).map fun rest => (place.1, rest)

/-- Values of all fields, or the first one missing. -/
def finish : {ρ : Type} → (fs : Fields ρ) → fs.Draft → Except Cause ρ
  | _, .done, _ => .ok ()
  | _, @cons α _ f more, draft =>
    let place : Option α × more.Draft := draft
    match place.1 <|> f.absent with
    | none => .error (.missingField f.label)
    | some a => (more.finish place.2).map fun r => (a, r)

/-! ### From a text -/

/-- Members of an object put into the draft, up to the closing bracket. -/
def objectLoop {ρ : Type} (fs : Fields ρ) (depth : Nat) {whole : List UInt8} (first : Bool)
    (draft : fs.Draft) (s : List UInt8) (h : s.length ≤ whole.length) :
    Except Fault (Within fs.Draft whole) :=
  match nextKey first s with
  | .error f => .error f
  | .ok none => .ok ⟨draft, s, h⟩
  | .ok (some t) =>
    match stringTail t.1 with
    | .error f => .error f
    | .ok key =>
      let value (δ : Type) (read : Reader δ) : Except Fault (Step δ key.rest) := do
        let c ← colon key.rest
        let p ← read c.rest
        return c.followedBy p
      match fs.slot draft key.value with
      | .taken label => .error (.unplaced (.duplicateField label) key.rest)
      | .unknown =>
        match value Unit skipValue with
        | .error f => .error f
        | .ok p =>
          objectLoop fs depth false draft p.rest
            (by have := p.shorter; have := key.shorter; have := t.2; omega)
      | .vacant form =>
        match value fs.Draft (form.read depth) with
        | .error f => .error f
        | .ok p =>
          objectLoop fs depth false p.value p.rest
            (by have := p.shorter; have := key.shorter; have := t.2; omega)
termination_by s.length
decreasing_by all_goals have := p.shorter; have := key.shorter; have := t.2; omega

def objectBody {ρ : Type} (fs : Fields ρ) (depth : Nat) (s : List UInt8) :
    Except Fault (Within ρ s) :=
  match fs.objectLoop depth true fs.blank s (length_self_le s) with
  | .error f => .error f
  | .ok p =>
    match fs.finish p.value with
    | .error c => .error (.unplaced c p.rest)
    | .ok r => .ok ⟨r, p.rest, p.within⟩

/-- Fields given in their order, up to the closing bracket or to the last of them. -/
def listBody : {ρ : Type} → (fs : Fields ρ) → (depth : Nat) → (expected : String) →
    (index : Nat) → (first : Bool) → (s : List UInt8) → Except Fault (Within ρ s)
  | _, .done, _, _, _, _, s => .ok (.start () s)
  | _, .cons f more, depth, expected, index, first, s =>
    match nextItem first s with
    | .error fault => .error fault
    | .ok none =>
      match f.cut with
      | none => .error (.unplaced (.wrongLength index expected) s)
      | some a =>
        (more.listBody depth expected (index + 1) first s).map fun p =>
          ⟨(a, p.value), p.rest, p.within⟩
    | .ok (some t) =>
      match f.form.read depth t.1 with
      | .error fault => .error fault
      | .ok p =>
        (more.listBody depth expected (index + 1) false p.rest).map fun q =>
          ⟨(p.value, q.value), q.rest, by
            have := p.shorter; have := q.within; have := t.2; omega⟩

/-! ### From a value -/

/-- Members of an object put into the draft. -/
def ofMembers {ρ : Type} (fs : Fields ρ) :
    fs.Draft → List (String × Value) → Except Cause fs.Draft
  | draft, [] => .ok draft
  | draft, (key, v) :: rest =>
    match fs.slot draft key with
    | .taken label => .error (.duplicateField label)
    | .unknown => fs.ofMembers draft rest
    | .vacant form =>
      match form.ofValue v with
      | .error c => .error c
      | .ok draft => fs.ofMembers draft rest

/-- Fields given in their order, with the items left over. -/
def ofItems : {ρ : Type} → (fs : Fields ρ) → (expected : String) → (index : Nat) →
    List Value → Except Cause (ρ × List Value)
  | _, .done, _, _, items => .ok ((), items)
  | _, .cons f more, expected, index, [] =>
    match f.cut with
    | none => .error (.wrongLength index expected)
    | some a => (more.ofItems expected (index + 1) []).map fun r => ((a, r.1), r.2)
  | _, .cons f more, expected, index, v :: rest =>
    match f.form.ofValue v with
    | .error c => .error c
    | .ok a => (more.ofItems expected (index + 1) rest).map fun r => ((a, r.1), r.2)

def ofObject {ρ : Type} (fs : Fields ρ) (members : List (String × Value)) : Except Cause ρ := do
  fs.finish (← fs.ofMembers fs.blank members)

/-- Name of a record with its number of fields. -/
def described {ρ : Type} (fs : Fields ρ) (type : String) : String :=
  "struct " ++ type ++ " with " ++ toString fs.count ++
    (if fs.count = 1 then " element" else " elements")

/-- Format of a record of the named type. -/
def format {ρ : Type} (fs : Fields ρ) (type : String) : Format ρ where
  read depth := afterSpace fun s => match s with
    | [] => .error (.here .endInValue [])
    | b :: rest =>
      if b = Bracket.list.opening ∨ b = Bracket.object.opening then
        match depth with
        | 0 => .error (.onByte .tooDeep (b :: rest))
        | depth + 1 =>
          let body : Reader ρ :=
            if b = Bracket.list.opening then
              Bracket.list.enclose (fs.listBody depth (fs.described type) 0 true)
            else Bracket.object.enclose (fs.objectBody depth)
          (body rest).map (Step.behind b)
      else .error (Format.mismatch ("struct " ++ type) (b :: rest))
  ofValue
    | .object members => fs.ofObject members
    | .array items =>
      match fs.ofItems (fs.described type) 0 items with
      | .error c => .error c
      | .ok (r, []) => .ok r
      | .ok (_, _ :: _) =>
        .error (.wrongLength items.length "fewer elements in array")
    | v => .error (.wrongKind (.ofValue v) ("struct " ++ type))

end Fields

end LiveAudit.Json
