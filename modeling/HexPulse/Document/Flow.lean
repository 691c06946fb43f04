import HexPulse.Data
import HexPulse.Table

/-!
# HexPulse — Document — Flow

Data between brackets and in quotes.  What an unquoted word stands for is a parameter.  The depth
of recursion is bounded by the length of the text.

A character may be escaped as one or two 16-bit units.  Where the two are not joined, or one of
them is missing, the text is not whole (`Quoted`).
-/

namespace HexPulse.Document

variable {α : Type}

/-- The text without the white space at its front. -/
def skipSpace (cs : List Char) : List Char :=
  cs.dropWhile fun c => c = ' ' || c = '\n' || c = '\r' || c = '\t'

/-- A number of given length in base sixteen. -/
def hexDigits? (n : Nat) (cs : List Char) : Option (Nat × List Char) :=
  let digit? (c : Char) : Option Nat :=
    if c.isDigit then some (c.toNat - 48)
    else if 'a' ≤ c ∧ c ≤ 'f' then some (c.toNat - 87)
    else if 'A' ≤ c ∧ c ≤ 'F' then some (c.toNat - 55)
    else none
  let ds := (cs.take n).filterMap digit?
  if ds.length = n then some (ds.foldl (fun m d => 16 * m + d) 0, cs.drop n) else none

/-- The unit is the first half of a character. -/
def isFirstHalf (unit : Nat) : Bool := 0xD800 ≤ unit && unit < 0xDC00

/-- The unit is the second half of a character. -/
def isSecondHalf (unit : Nat) : Bool := 0xDC00 ≤ unit && unit < 0xE000

/-- A character behind a backslash, and the text behind it. -/
structure Escape where
  char : Char
  rest : List Char
  /-- no half of a character is left alone -/
  whole : Bool

/-- The character of an escaped 16-bit unit, or of two units that form one.  A half that stands
alone is replaced; two halves are whole only if they are to be joined. -/
def escapedUnits? (joining : Bool) (cs : List Char) : Option Escape := do
  let (unit, cs) ← hexDigits? 4 cs
  let second := match cs with
    | '\\' :: 'u' :: rest => hexDigits? 4 rest
    | _ => none
  let half := isFirstHalf unit || isSecondHalf unit
  let alone : Escape := ⟨if half then '\uFFFD' else Char.ofNat unit, cs, !half⟩
  match second with
  | some (low, rest) =>
    if isFirstHalf unit && isSecondHalf low then
      return ⟨Char.ofNat (0x10000 + (unit - 0xD800) * 0x400 + (low - 0xDC00)), rest, joining⟩
    else return alone
  | none => return alone

/-- The character behind a backslash. -/
def escaped? : List Char → Option Escape
  | '"' :: cs => some ⟨'"', cs, true⟩
  | '\\' :: cs => some ⟨'\\', cs, true⟩
  | '/' :: cs => some ⟨'/', cs, true⟩
  | ' ' :: cs => some ⟨' ', cs, true⟩
  | 'n' :: cs => some ⟨'\n', cs, true⟩
  | 'r' :: cs => some ⟨'\r', cs, true⟩
  | 't' :: cs => some ⟨'\t', cs, true⟩
  | 'b' :: cs => some ⟨Char.ofNat 8, cs, true⟩
  | 'f' :: cs => some ⟨Char.ofNat 12, cs, true⟩
  | '0' :: cs => some ⟨Char.ofNat 0, cs, true⟩
  | 'a' :: cs => some ⟨Char.ofNat 7, cs, true⟩
  | 'v' :: cs => some ⟨Char.ofNat 11, cs, true⟩
  | 'e' :: cs => some ⟨Char.ofNat 27, cs, true⟩
  | 'x' :: cs => (hexDigits? 2 cs).map fun (n, cs) => ⟨Char.ofNat n, cs, true⟩
  | 'U' :: cs => (hexDigits? 8 cs).map fun (n, cs) => ⟨Char.ofNat n, cs, true⟩
  | 'u' :: cs => escapedUnits? false cs
  | _ => none

/-- The characters of a text in quotes. -/
structure Quoted where
  chars : List Char
  /-- no half of a character is left alone -/
  whole : Bool

namespace Quoted

/-- A character in front. -/
def cons (c : Char) (whole : Bool) (q : Quoted) : Quoted := ⟨c :: q.chars, whole && q.whole⟩

def toString (q : Quoted) : String := String.ofList q.chars

/-- The text as data. -/
def toData (q : Quoted) : Data α := if q.whole then .text q.toString else .halved q.toString

/-- What stands under the text as a name. -/
def field (q : Quoted) (d : Data α) : String × Data α :=
  (q.toString, if q.whole then d else .misnamed d)

end Quoted

/-- The rest of a text in double quotes, with the escapes that are known.  A character that may
not stand in it spoils it. -/
def doubleQuoted (escape : List Char → Option Escape) (bad : Char → Bool) :
    Nat → List Char → Option (Quoted × List Char)
  | 0, _ => none
  | fuel + 1, cs =>
    match cs with
    | [] => none
    | '"' :: cs => some (⟨[], true⟩, cs)
    | '\\' :: cs => do
      let e ← escape cs
      let (q, cs) ← doubleQuoted escape bad fuel e.rest
      return (q.cons e.char e.whole, cs)
    | c :: cs => do
      if bad c then none
      else
        let (q, cs) ← doubleQuoted escape bad fuel cs
        return (q.cons c true, cs)

/-- The rest of a text in single quotes; a quote inside is written twice. -/
def singleQuoted : List Char → Option (List Char × List Char)
  | [] => none
  | '\'' :: '\'' :: cs => (singleQuoted cs).map fun (text, cs) => ('\'' :: text, cs)
  | '\'' :: cs => some ([], cs)
  | c :: cs => (singleQuoted cs).map fun (text, cs) => (c :: text, cs)

/-- A text in quotes at the front. -/
def quotedText? : List Char → Option (Quoted × List Char)
  | '"' :: cs => doubleQuoted escaped? (fun _ => false) (cs.length + 1) cs
  | '\'' :: cs => (singleQuoted cs).map fun (text, cs) => (⟨text, true⟩, cs)
  | _ => none

/-- An unquoted word ends before punctuation and line ends. -/
def flowWord (cs : List Char) : String × List Char :=
  let stops (c : Char) : Bool := [',', '[', ']', '\x7b', '\x7d', ':', '\n'].contains c
  let word := cs.takeWhile fun c => !stops c
  (String.ofList (word.reverse.dropWhile (· = ' ')).reverse, cs.dropWhile fun c => !stops c)

/-- The most characters from the start of a name to its colon. -/
def longestName : Nat := 1024

/-- The name of a field, with its colon. -/
def fieldName? (cs : List Char) : Option (Quoted × List Char) :=
  let (name, rest) := (quotedText? cs).getD (let (s, rest) := flowWord cs; (⟨s.toList, true⟩, rest))
  match skipSpace rest with
  | ':' :: rest => if cs.length ≤ rest.length + 1 + longestName then some (name, rest) else none
  | _ => none

mutual

/-- One value, and the text behind it. -/
def flowValue (word : String → Data α) : Nat → List Char → Option (Data α × List Char)
  | 0, _ => none
  | fuel + 1, cs =>
    match skipSpace cs with
    | '[' :: cs => (flowItems word fuel cs).map fun (items, cs) => (.list items, cs)
    | '\x7b' :: cs =>
      (flowFields word fuel cs).map fun (fields, cs) => (.record (Table.ofList fields).entries, cs)
    | '"' :: cs => (quotedText? ('"' :: cs)).map fun (q, cs) => (q.toData, cs)
    | '\'' :: cs => (quotedText? ('\'' :: cs)).map fun (q, cs) => (q.toData, cs)
    | cs => let (s, cs) := flowWord cs; some (word s, cs)

/-- The items of a list up to its bracket. -/
def flowItems (word : String → Data α) : Nat → List Char → Option (List (Data α) × List Char)
  | 0, _ => none
  | fuel + 1, cs =>
    match skipSpace cs with
    | ']' :: cs => some ([], cs)
    | cs => do
      let (item, cs) ← flowValue word fuel cs
      match skipSpace cs with
      | ',' :: cs =>
        let (items, cs) ← flowItems word fuel cs
        return (item :: items, cs)
      | ']' :: cs => return ([item], cs)
      | _ => none

/-- The fields of a record up to its bracket. -/
def flowFields (word : String → Data α) :
    Nat → List Char → Option (List (String × Data α) × List Char)
  | 0, _ => none
  | fuel + 1, cs =>
    match skipSpace cs with
    | '\x7d' :: cs => some ([], cs)
    | cs => do
      let (name, cs) ← fieldName? cs
      let (value, cs) ← flowValue word fuel cs
      match skipSpace cs with
      | ',' :: cs =>
        let (fields, cs) ← flowFields word fuel cs
        return (name.field value :: fields, cs)
      | '\x7d' :: cs => return ([name.field value], cs)
      | _ => none

end

/-- The value that a whole text stands for. -/
def readFlow (word : String → Data α) (cs : List Char) : Option (Data α) :=
  match flowValue word (2 * cs.length + 2) cs with
  | some (value, rest) => if (skipSpace rest).isEmpty then some value else none
  | none => none

end HexPulse.Document
