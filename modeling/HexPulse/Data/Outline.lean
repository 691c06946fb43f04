import HexPulse.Data.Json

/-!
# HexPulse — Data — Outline

Records laid out by indentation, one field a line, fields in the order of their names.
-/

namespace HexPulse.Data

variable {α : Type} [Scalar α]

/-- A number in an outline.  It always has a point, also in front of a power of ten. -/
def outlineNumber (x : α) : String :=
  if Scalar.isFinite x then
    let cs := (Scalar.text x).toList
    let power := cs.dropWhile (· ≠ 'e')
    let point := if cs.contains '.' || power.isEmpty then [] else ['.', '0']
    String.ofList (cs.takeWhile (· ≠ 'e') ++ point ++ power)
  else if (0.0 : α) < x then ".inf"
  else if x < (0.0 : α) then "-.inf"
  else ".nan"

/-- Lines that are moved to the right by two blanks. -/
def indented (lines : List String) : List String := lines.map ("  " ++ ·)

/-- A line in front of lines that belong to it. -/
def headed (name : String) : List String → List String
  | [] => [name ++ ": \x7b\x7d"]
  | lines => (name ++ ":") :: indented lines

/-- Fields by name, the names in alphabetical order. -/
def byName (fields : List (String × List String)) : List String :=
  (fields.mergeSort fun f g => decide (f.1 ≤ g.1)).flatMap (·.2)

mutual

/-- The lines of a field. -/
def outlineField (name : String) : Data α → List String
  | .record fields => headed name (byName (outlineFields fields))
  | .number x => [name ++ ": " ++ outlineNumber x]
  | d => [name ++ ": " ++ d.json]

def outlineFields : List (String × Data α) → List (String × List String)
  | [] => []
  | (name, d) :: fs => (name, outlineField name d) :: outlineFields fs

end

/-- The outline of a record; other data is written as JSON. -/
def outline : Data α → String
  | .record fields => String.join ((byName (outlineFields fields)).map (· ++ "\n"))
  | d => d.json ++ "\n"

end HexPulse.Data
