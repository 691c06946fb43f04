import HexPulse.Intake.Record
import HexPulse.Intake.Scalars
import HexPulse.Scenario.Flaw

/-!
# HexPulse — Scenario — Intake

Scenarios from data.  The board is checked once all fields are well-formed.
-/

namespace HexPulse

variable {α : Type} [Scalar α]

open Intake

/-- A complaint as it is shown, with texts made of some alphabet. -/
def Issue.shown (alphabet : Text.Alphabet) (i : Issue) : Issue where
  location := i.location.map alphabet.shown
  kind :=
    match i.kind with
    | .refused reason => .refused (alphabet.shown reason)
    | kind => kind

/-- The cell in the fields of a record. -/
def Hex.read (fields : List (String × Data α)) : Intake Hex := do
  let q ← required fields "q" 0 integer
  let r ← required fields "r" 0 integer
  return ⟨q, r⟩

/-- A record that holds a cell and nothing else. -/
def Hex.ofRecord : Data α → Intake Hex := record ["q", "r"] Hex.read

/-- The id of a node, without blanks around it. -/
def nodeId (d : Data α) : Except IssueKind String :=
  match text d with
  | .error kind => .error kind
  | .ok s =>
    if Text.trim s = "" then .error (.refused "node id cannot be empty") else .ok (Text.trim s)

/-- A constant: nothing, a number or a text. -/
def nodeConstant : Data α → Intake (Option (Value α))
  | .null => pure none
  | .text s => pure (some (.text s))
  | .halved s => pure (some (.text s))
  | d =>
    match number d with
    | .ok x => pure (some (.number x))
    | .error _ => do
      (complain () .numberType).inside "float"
      (complain () .textType).inside "str"
      return none

def NodeSpec.read : Data α → Intake (NodeSpec α) :=
  record ["q", "r", "id", "kind", "wiring", "constant"] fun fields => do
    let cell ← Hex.read fields
    let id ← required fields "id" "" nodeId
    let kind ← required fields "kind" "" text
    let wiring ← optionalWith fields "wiring" [] (textMap text)
    let constant ← optionalWith fields "constant" none nodeConstant
    return ⟨cell, id, kind, .ofList wiring, constant⟩

/-- A health that may be left open. -/
def openHealth : Data α → Except IssueKind (Option α)
  | .null => .ok none
  | d => (number d).map some

def TargetSpec.read : Data α → Intake (TargetSpec α) :=
  record ["q", "r", "health", "path"] fun fields => do
    let cell ← Hex.read fields
    let health ← optional fields "health" none openHealth
    let path ← optionalWith fields "path" [] (list (pair 0 integer))
    return ⟨cell, health, path.map fun c => ⟨c.1, c.2⟩⟩

namespace Scenario

/-- A scenario from data, its board not checked. -/
def readData : Data α → Intake (Scenario α) :=
  record ["name", "nodes", "hearts", "targets", "terrain"] fun fields => do
    let name ← optional fields "name" (Scenario.blank : Scenario α).name text
    let nodes ← optionalWith fields "nodes" [] (list NodeSpec.read)
    let hearts ← optionalWith fields "hearts" [] (list Hex.ofRecord)
    let targets ← optionalWith fields "targets" [] (list TargetSpec.read)
    let terrain ← optionalWith fields "terrain" [] (list Hex.ofRecord)
    return ⟨name, nodes, hearts, targets, terrain⟩

/-- Accepts a scenario without flaws. -/
def check (rules : Rules) (alphabet : Text.Alphabet) (s : Scenario α) :
    Except (List Issue) (Scenario α) :=
  let flaws := s.flaws rules alphabet
  if flaws.isEmpty then .ok s
  else .error [⟨[], .refused ("; ".intercalate (flaws.map Flaw.message))⟩]

/-- A scenario from data that is a board by the rules; the texts of the data are made of some
alphabet. -/
def read (rules : Rules) (alphabet : Text.Alphabet) (d : Data α) :
    Except (List Issue) (Scenario α) :=
  let s := (readData d).result >>= check rules alphabet
  s.mapError (·.map (Issue.shown alphabet))

end Scenario

end HexPulse
