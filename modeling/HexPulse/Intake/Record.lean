import HexPulse.Data.Inline
import HexPulse.Intake.Issue

/-!
# HexPulse — Intake — Record

Records and lists from data.  A record is read field by field; fields that nobody asks for are
refused.
-/

namespace HexPulse.Intake

variable {α β : Type}

/-- A single value as an intake, with a value that stands in. -/
def ofScalar (standIn : β) : Except IssueKind β → Intake β
  | .ok x => pure x
  | .error kind => complain standIn kind

/-- The intake of a field that may be left out. -/
def optionalWith (fields : List (String × Data α)) (name : String) (default : β)
    (read : Data α → Intake β) : Intake β :=
  match Data.field? fields name with
  | none => pure default
  | some d => (read d).inside name

/-- A single value in a field that may be left out. -/
def optional (fields : List (String × Data α)) (name : String) (default : β)
    (read : Data α → Except IssueKind β) : Intake β :=
  optionalWith fields name default fun d => ofScalar default (read d)

/-- A single value in a field that has to be there. -/
def required (fields : List (String × Data α)) (name : String) (standIn : β)
    (read : Data α → Except IssueKind β) : Intake β :=
  match Data.field? fields name with
  | none => (complain standIn .missing).inside name
  | some d => (ofScalar standIn (read d)).inside name

/-- Complaints about the fields that are not known. -/
def unknownFields (known : List String) (fields : List (String × Data α)) : Intake Unit :=
  ⟨(), (fields.filter fun f => !known.contains f.1).map fun f => ⟨[f.1], .extra⟩⟩

/-- The name of the field holds half a character. -/
def isMisnamed (f : String × Data α) : Bool :=
  match f.2 with
  | .misnamed _ => true
  | _ => false

/-- A record with known fields.  A name with half a character in it is complained about alone. -/
def record (known : List String) (read : List (String × Data α) → Intake β) (d : Data α) :
    Intake β :=
  match d with
  | .record fields =>
    if fields.any isMisnamed then complain (read []).value .halfCharacter
    else do
      let x ← read fields
      unknownFields known fields
      return x
  | _ => complain (read []).value .recordType

/-- The members of a list, the first of them at a given place. -/
def itemsFrom (place : Nat) (read : Data α → Intake β) : List (Data α) → Intake (List β)
  | [] => pure []
  | d :: ds => do
    let x ← (read d).inside (toString place)
    let xs ← itemsFrom (place + 1) read ds
    return x :: xs

/-- A list. -/
def list (read : Data α → Intake β) : Data α → Intake (List β)
  | .list items => itemsFrom 0 read items
  | _ => complain [] .listType

/-- The place of an entry in a map; of a truth value, that of the integer that it counts as. -/
def placeOf [Scalar α] : Key α → String
  | .bool b => if b then "1" else "0"
  | key => key.inline id

/-- A map from names to texts, in the order of the data.  A key that is no text is refused. -/
def textMap [Scalar α] (read : Data α → Except IssueKind String) :
    Data α → Intake (List (String × String))
  | .record fields => entries (fields.map fun f => (.text f.1, f.2))
  | .map fields => entries fields
  | _ => complain [] .mapType
where
  /-- The text under a key. -/
  value (d : Data α) : Intake String :=
    match d with
    | .misnamed d => ofScalar "" (read d)
    | d => ofScalar "" (read d)
  /-- The entries of a map. -/
  entries : List (Key α × Data α) → Intake (List (String × String))
    | [] => pure []
    | (key, d) :: rest => do
      let place := placeOf key
      let name ← match key with
        | .text s => pure s
        | _ => ((complain place .textType).inside "[key]").inside place
      let s ← (value d).inside place
      let more ← entries rest
      return (name, s) :: more

/-- A pair of values. -/
def pair (standIn : β) (read : Data α → Except IssueKind β) : Data α → Intake (β × β)
  | .list [] => do
    let x ← (complain standIn .missing).inside "0"
    let y ← (complain standIn .missing).inside "1"
    return (x, y)
  | .list [d] => do
    let x ← (ofScalar standIn (read d)).inside "0"
    let y ← (complain standIn .missing).inside "1"
    return (x, y)
  | .list [d, e] => do
    let x ← (ofScalar standIn (read d)).inside "0"
    let y ← (ofScalar standIn (read e)).inside "1"
    return (x, y)
  | .list _ => complain (standIn, standIn) .tooLong
  | _ => complain (standIn, standIn) .pairType

end HexPulse.Intake
