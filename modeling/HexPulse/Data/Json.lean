import HexPulse.Data
import HexPulse.Text.Quoted

/-!
# HexPulse — Data — Json

Data written as JSON text, on one line or indented by two blanks.  Characters beyond ASCII are
escaped by their 16-bit units; numbers that are not finite are written by name.
-/

namespace HexPulse.Data

/-- One character of a JSON text. -/
def jsonChar (c : Char) : String :=
  if c = '"' then "\\\""
  else if c = '\\' then "\\\\"
  else if c = '\n' then "\\n"
  else if c = '\r' then "\\r"
  else if c = '\t' then "\\t"
  else if c.toNat = 8 then "\\b"
  else if c.toNat = 12 then "\\f"
  else if 0x20 ≤ c.toNat ∧ c.toNat < 0x7F then String.singleton c
  else String.join ((Text.units c).map Text.escapedUnit)

/-- A text in double quotes. -/
def jsonText (s : String) : String := "\"" ++ String.join (s.toList.map jsonChar) ++ "\""

variable {α : Type} [Scalar α]

/-- A number in JSON text. -/
def jsonNumber (x : α) : String :=
  if Scalar.isFinite x then Scalar.text x
  else if (0.0 : α) < x then "Infinity"
  else if x < (0.0 : α) then "-Infinity"
  else "NaN"

/-- The name that a key has in JSON, where all keys are texts. -/
def jsonName : Key α → String
  | .null => "null"
  | .bool b => if b then "true" else "false"
  | .int n => toString n
  | .number x => jsonNumber x
  | .text s => s

/-- How the parts of a container are laid out: on one line, or each on a line of its own at a
depth. -/
inductive JsonLayout where
  | line
  | indented

/-- The parts of a container between its brackets, at a depth. -/
def jsonBlock (layout : JsonLayout) (depth : Nat) (opening closing : String)
    (parts : List String) : String :=
  match layout, parts with
  | _, [] => opening ++ closing
  | .line, _ => opening ++ ", ".intercalate parts ++ closing
  | .indented, _ =>
    let inner := "\n" ++ "".pushn ' ' (2 * depth + 2)
    let outer := "\n" ++ "".pushn ' ' (2 * depth)
    opening ++ inner ++ ("," ++ inner).intercalate parts ++ outer ++ closing

mutual

/-- Data as JSON text, starting at a depth. -/
def jsonAt (layout : JsonLayout) (depth : Nat) : Data α → String
  | .null => "null"
  | .bool b => if b then "true" else "false"
  | .int n => toString n
  | .number x => jsonNumber x
  | .text s => jsonText s
  | .halved s => jsonText s
  | .list items => jsonBlock layout depth "[" "]" (jsonItems layout (depth + 1) items)
  | .tuple items => jsonBlock layout depth "[" "]" (jsonItems layout (depth + 1) items)
  | .record fields => jsonBlock layout depth "\x7b" "\x7d" (jsonFields layout (depth + 1) fields)
  | .misnamed d => jsonAt layout depth d
  | .map entries =>
    jsonBlock layout depth "\x7b" "\x7d" (jsonEntries layout (depth + 1) entries)

def jsonItems (layout : JsonLayout) (depth : Nat) : List (Data α) → List String
  | [] => []
  | d :: ds => jsonAt layout depth d :: jsonItems layout depth ds

def jsonFields (layout : JsonLayout) (depth : Nat) : List (String × Data α) → List String
  | [] => []
  | (name, d) :: fs =>
    (jsonText name ++ ": " ++ jsonAt layout depth d) :: jsonFields layout depth fs

def jsonEntries (layout : JsonLayout) (depth : Nat) : List (Key α × Data α) → List String
  | [] => []
  | (key, d) :: es =>
    (jsonText (jsonName key) ++ ": " ++ jsonAt layout depth d) :: jsonEntries layout depth es

end

/-- Data as JSON on one line. -/
def json (d : Data α) : String := jsonAt .line 0 d

/-- Data as JSON with each part on a line of its own. -/
def jsonIndented (d : Data α) : String := jsonAt .indented 0 d

end HexPulse.Data
