import HexPulse.Decimal.Numeral
import HexPulse.Document.Flow

/-!
# HexPulse — Document — Json

Data in JSON, read strictly: no comments, no comma before a bracket, no word but the known ones.
Numbers that are not finite have names.  The depth of recursion is bounded by the length of the
text.
-/

namespace HexPulse.Document

variable {α : Type} [Scalar α]

/-- The character behind a backslash in JSON, where two halves of a character are joined. -/
def jsonEscaped? : List Char → Option Escape
  | 'u' :: cs => escapedUnits? true cs
  | c :: cs =>
    if ['"', '\\', '/', 'n', 'r', 't', 'b', 'f'].contains c then escaped? (c :: cs) else none
  | [] => none

/-- The rest of a JSON text, behind its first quote. -/
def jsonQuoted (cs : List Char) : Option (Quoted × List Char) :=
  doubleQuoted jsonEscaped? (fun c => c.toNat < 0x20) (cs.length + 1) cs

/-- A number in JSON starts with a digit, has no zero in front of another digit, and has digits
behind its point. -/
def jsonNumber? (cs : List Char) : Option (Data α) := do
  let n ← Numeral.scan cs
  let zeroFirst := n.whole.head? = some '0' ∧ 1 < n.whole.length
  if cs.head? = some '+' ∨ n.whole.isEmpty ∨ zeroFirst ∨ n.fraction = some [] then none
  else if !n.isWhole then some (.number n.toNumber)
  else if n.whole.length ≤ Numeral.longestInteger then some (.int n.toInt)
  else none

/-- What a word of JSON stands for. -/
def jsonWord? (cs : List Char) : Option (Data α) :=
  let infinity : α := 1.0 / 0.0
  match String.ofList cs with
  | "null" => some .null
  | "true" => some (.bool true)
  | "false" => some (.bool false)
  | "NaN" => some (.number (0.0 / 0.0))
  | "Infinity" => some (.number infinity)
  | "-Infinity" => some (.number (-infinity))
  | _ => jsonNumber? cs

/-- The character ends a word of JSON. -/
def endsJsonWord (c : Char) : Bool :=
  [',', ':', '[', ']', '\x7b', '\x7d', '"', ' ', '\n', '\r', '\t'].contains c

mutual

/-- One value, and the text behind it. -/
def jsonValue : Nat → List Char → Option (Data α × List Char)
  | 0, _ => none
  | fuel + 1, cs =>
    match skipSpace cs with
    | '[' :: cs =>
      match skipSpace cs with
      | ']' :: cs => some (.list [], cs)
      | cs => (jsonItems fuel cs).map fun (items, cs) => (.list items, cs)
    | '\x7b' :: cs =>
      match skipSpace cs with
      | '\x7d' :: cs => some (.record [], cs)
      | cs =>
        (jsonFields fuel cs).map fun (fields, cs) => (.record (Table.ofList fields).entries, cs)
    | '"' :: cs => (jsonQuoted cs).map fun (q, cs) => (q.toData, cs)
    | cs =>
      (jsonWord? (cs.takeWhile (!endsJsonWord ·))).map (·, cs.dropWhile (!endsJsonWord ·))

/-- The items of a list up to its bracket, at least one. -/
def jsonItems : Nat → List Char → Option (List (Data α) × List Char)
  | 0, _ => none
  | fuel + 1, cs => do
    let (item, cs) ← jsonValue fuel cs
    match skipSpace cs with
    | ',' :: cs =>
      let (items, cs) ← jsonItems fuel cs
      return (item :: items, cs)
    | ']' :: cs => return ([item], cs)
    | _ => none

/-- The fields of a record up to its bracket, at least one. -/
def jsonFields : Nat → List Char → Option (List (String × Data α) × List Char)
  | 0, _ => none
  | fuel + 1, cs =>
    match skipSpace cs with
    | '"' :: cs => do
      let (name, cs) ← jsonQuoted cs
      match skipSpace cs with
      | ':' :: cs =>
        let (value, cs) ← jsonValue fuel cs
        match skipSpace cs with
        | ',' :: cs =>
          let (fields, cs) ← jsonFields fuel cs
          return (name.field value :: fields, cs)
        | '\x7d' :: cs => return ([name.field value], cs)
        | _ => none
      | _ => none
    | _ => none

end

/-- The data that a JSON text holds; nothing if it is not well-formed. -/
def readJson (text : String) : Option (Data α) :=
  let cs := text.toList
  match jsonValue (2 * cs.length + 2) cs with
  | some (value, rest) => if (skipSpace rest).isEmpty then some value else none
  | none => none

end HexPulse.Document
