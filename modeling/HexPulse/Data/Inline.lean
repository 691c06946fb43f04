import HexPulse.Data
import HexPulse.Text.Quoted

/-!
# HexPulse — Data — Inline

Data on one line of a log: texts inside containers are quoted, a tuple of one element keeps its
comma.  How texts are quoted is a parameter.
-/

namespace HexPulse

variable {α : Type} [Scalar α]

/-- A key as it stands in a map. -/
def Key.inline (quote : String → String) : Key α → String
  | .null => "None"
  | .bool b => if b then "True" else "False"
  | .int n => toString n
  | .number x => Scalar.text x
  | .text s => quote s

namespace Data

mutual

/-- Data as it stands inside a container. -/
def inline (quote : String → String) : Data α → String
  | .null => "None"
  | .bool b => if b then "True" else "False"
  | .int n => toString n
  | .number x => Scalar.text x
  | .text s => quote s
  | .halved s => quote s
  | .list items => "[" ++ ", ".intercalate (inlineItems quote items) ++ "]"
  | .tuple items =>
    match inlineItems quote items with
    | [single] => "(" ++ single ++ ",)"
    | texts => "(" ++ ", ".intercalate texts ++ ")"
  | .record fields => "\x7b" ++ ", ".intercalate (inlineFields quote fields) ++ "\x7d"
  | .misnamed d => inline quote d
  | .map entries => "\x7b" ++ ", ".intercalate (inlineEntries quote entries) ++ "\x7d"

def inlineItems (quote : String → String) : List (Data α) → List String
  | [] => []
  | d :: ds => inline quote d :: inlineItems quote ds

def inlineFields (quote : String → String) : List (String × Data α) → List String
  | [] => []
  | (name, d) :: fs => (quote name ++ ": " ++ inline quote d) :: inlineFields quote fs

def inlineEntries (quote : String → String) : List (Key α × Data α) → List String
  | [] => []
  | (key, d) :: es => (key.inline quote ++ ": " ++ inline quote d) :: inlineEntries quote es

end

/-- Data as it stands on a line of its own right: a text is bare. -/
def display (quote : String → String) : Data α → String
  | .text s => s
  | .halved s => s
  | d => d.inline quote

end Data

end HexPulse
