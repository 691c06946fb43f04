import HexPulse.Catalogue
import HexPulse.Scenario
import HexPulse.Text.Unit

/-!
# HexPulse — Scenario — Flaw

What keeps a well-formed scenario from being a board: cells that are taken twice or lie outside,
kinds and ports that do not exist, bindings that clash.  Every entry is checked by itself, so that
no flaw hides another.
-/

namespace HexPulse

/-- What stands on a cell of a scenario. -/
inductive Occupant where
  | node (id : String)
  | heart (index : Nat)
  | terrain (index : Nat)
  deriving DecidableEq, Repr

/-- The text that an occupant is called by. -/
def Occupant.label : Occupant → String
  | .node id => s!"node '{id}'"
  | .heart index => s!"heart #{index}"
  | .terrain index => s!"terrain #{index}"

/-- A reason why a scenario is not a board. -/
inductive Flaw where
  | duplicateIds (ids : List String)
  | outOfBounds (occupant : Occupant) (cell : Hex) (radius : Int)
  | overlap (occupant : Occupant) (cell : Hex) (earlier : Occupant)
  | targetOutOfBounds (index : Nat) (cell : Hex)
  | unknownKind (id kind : String)
  | unknownDirection (id direction : String)
  | unknownPort (id port kind : String)
  | portTwice (id port first second : String)
  | noConstant (id kind : String)
  deriving DecidableEq, Repr

/-- The text shown for a flaw. -/
def Flaw.message : Flaw → String
  | .duplicateIds ids => "duplicate node ids: " ++ ", ".intercalate ids
  | .outOfBounds occupant cell radius =>
    s!"{occupant.label} at {cell.text} is out of bounds (radius {radius})"
  | .overlap occupant cell earlier => s!"{occupant.label} at {cell.text} overlaps {earlier.label}"
  | .targetOutOfBounds index cell => s!"target #{index} at {cell.text} is out of bounds"
  | .unknownKind id kind => s!"node '{id}' has unknown kind '{kind}'"
  | .unknownDirection id direction => s!"node '{id}' unknown direction '{direction}'"
  | .unknownPort id port kind => s!"node '{id}' unknown input port '{port}' on kind '{kind}'"
  | .portTwice id port first second =>
    s!"node '{id}' port '{port}' bound to both '{first}' and '{second}'"
  | .noConstant id kind => s!"node '{id}' kind '{kind}' does not take a constant"

/-- What a scenario is checked against: the contracts of the kinds and the radius of the board.
Without contracts any kind will do, and with radius zero any cell. -/
structure Rules where
  contracts : Table String Contract
  radius : Int
  deriving Repr

namespace Rules

/-- Rules that leave kinds and cells unchecked. -/
def none : Rules := ⟨.empty, 0⟩

/-- The cell is farther out than the rules allow. -/
def excludes (rules : Rules) (cell : Hex) : Bool :=
  rules.radius ≠ 0 && rules.radius < cell.distance .origin

end Rules

namespace Scenario

variable {α : Type}

/-- The members of a list with their places. -/
def numbered {β : Type} (xs : List β) : List (Nat × β) := (List.range xs.length).zip xs

/-- The ids that stand at several nodes, each once, in the order of an alphabet. -/
def duplicateIds (alphabet : Text.Alphabet) (s : Scenario α) : List String :=
  let ids := s.nodes.map (·.id)
  ((ids.filter fun id => 1 < ids.count id).eraseDups).mergeSort alphabet.le

/-- What stands on the cells: nodes, hearts, terrain. -/
def placements (s : Scenario α) : List (Occupant × Hex) :=
  s.nodes.map (fun n => (.node n.id, n.cell))
    ++ (numbered s.hearts).map (fun h => (.heart h.1, h.2))
    ++ (numbered s.terrain).map (fun t => (.terrain t.1, t.2))

/-- The flaws of one placement; the occupant that had the cell first is given, if there is one. -/
def placementFlaws (rules : Rules) (earlier : Option Occupant) (p : Occupant × Hex) : List Flaw :=
  (if rules.excludes p.2 then [.outOfBounds p.1 p.2 rules.radius] else [])
    ++ earlier.toList.map (.overlap p.1 p.2)

/-- The flaws of placements behind others that hold their cells already. -/
def placementFlawsFrom (rules : Rules) : List (Occupant × Hex) → List (Occupant × Hex) → List Flaw
  | _, [] => []
  | before, p :: ps =>
    placementFlaws rules ((before.find? fun e => e.2 = p.2).map (·.1)) p
      ++ placementFlawsFrom rules (before ++ [p]) ps

/-- The flaws of the targets. -/
def targetFlaws (rules : Rules) (s : Scenario α) : List Flaw :=
  (numbered s.targets).filterMap fun t =>
    if rules.excludes t.2.cell then some (.targetOutOfBounds t.1 t.2.cell) else none

/-- The flaws of bindings, given the ports that are bound already and their directions. -/
def bindingFlaws (id kind : String) (contract : Option Contract) :
    Table String String → List (String × String) → List Flaw
  | _, [] => []
  | seen, (direction, port) :: rest =>
    if (Direction.ofName? direction).isNone then
      .unknownDirection id direction :: bindingFlaws id kind contract seen rest
    else if contract.any fun c => !c.inputs.contains port then
      .unknownPort id port kind :: bindingFlaws id kind contract seen rest
    else
      match seen.get? port with
      | some first => .portTwice id port first direction :: bindingFlaws id kind contract seen rest
      | none => bindingFlaws id kind contract (seen.insert port direction) rest

/-- The flaws of a node apart from its cell. -/
def nodeFlaws (rules : Rules) (n : NodeSpec α) : List Flaw :=
  let contract := rules.contracts.get? n.kind
  if contract.isNone && rules.contracts.size ≠ 0 then [.unknownKind n.id n.kind]
  else
    bindingFlaws n.id n.kind contract .empty n.wiring.entries
      ++ (if n.constant.isSome && contract.any (fun c => !c.constant) then [.noConstant n.id n.kind]
        else [])

/-- All flaws of a scenario whose ids are sorted by an alphabet. -/
def flaws (rules : Rules) (alphabet : Text.Alphabet) (s : Scenario α) : List Flaw :=
  let duplicates := s.duplicateIds alphabet
  (if duplicates.isEmpty then [] else [.duplicateIds duplicates])
    ++ placementFlawsFrom rules [] s.placements
    ++ s.targetFlaws rules
    ++ s.nodes.flatMap (nodeFlaws rules)

end Scenario

end HexPulse
