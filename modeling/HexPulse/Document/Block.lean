import HexPulse.Document.Flow

/-!
# HexPulse — Document — Block

Data laid out by indentation: lists with dashes, records with a name and a colon on each line.
Every step takes at least one line or one nesting off the text, which bounds the recursion.
-/

namespace HexPulse.Document

variable {α : Type}

/-- A line of a document: how far it is indented, and what stands on it. -/
structure Line where
  indent : Nat
  text : List Char
  deriving DecidableEq, Repr

/-- The text up to a comment.  A comment starts at the front or behind a blank, outside quotes. -/
def stripComment : Option Char → Bool → List Char → List Char
  | _, _, [] => []
  | some quote, _, c :: cs => c :: stripComment (if c = quote then none else some quote) false cs
  | none, free, c :: cs =>
    if c = '#' ∧ free then []
    else if (c = '"' ∨ c = '\'') ∧ free then c :: stripComment (some c) false cs
    else c :: stripComment none (c = ' ' || c = '\t') cs

/-- The lines on which something stands. -/
def lines (cs : List Char) : List Line :=
  ((String.ofList cs).splitOn "\n").filterMap fun s =>
    let shown := stripComment none true s.toList
    let text := (shown.reverse.dropWhile fun c => c = ' ' || c = '\r').reverse
    let content := text.dropWhile (· = ' ')
    if content.isEmpty then none else some ⟨text.length - content.length, content⟩

/-- What stands behind a dash, with its own indentation. -/
def Line.item? (l : Line) : Option Line :=
  match l.text with
  | ['-'] => some ⟨l.indent + 1, []⟩
  | '-' :: ' ' :: cs =>
    let content := cs.dropWhile (· = ' ')
    some ⟨l.indent + 2 + (cs.length - content.length), content⟩
  | _ => none

/-- The name at the front of a line, and what stands behind its colon. -/
def Line.field? (l : Line) : Option (Quoted × List Char) :=
  if l.text.head?.any fun c => c = '\x7b' || c = '[' then none
  else
    match fieldName? l.text with
    | some (name, []) => some (name, [])
    | some (name, ' ' :: cs) => some (name, cs.dropWhile (· = ' '))
    | _ => none

/-- A value on a line of its own: between brackets, in quotes, or the words up to the end. -/
def inlineValue (word : String → Data α) (cs : List Char) : Option (Data α) :=
  if cs.head?.any fun c => c = '\x7b' || c = '[' || c = '"' || c = '\'' then readFlow word cs
  else some (word (String.ofList cs))

mutual

/-- The value that starts on the first line. -/
def blockValue (word : String → Data α) : Nat → List Line → Option (Data α × List Line)
  | 0, _ => none
  | _, [] => some (word "", [])
  | fuel + 1, l :: ls =>
    if l.item?.isSome then
      (blockItems word fuel l.indent (l :: ls)).map fun (items, ls) => (.list items, ls)
    else if l.field?.isSome then
      (blockFields word fuel l.indent (l :: ls)).map fun (fields, ls) => (.record fields, ls)
    else (inlineValue word l.text).map (·, ls)

/-- The items whose dashes stand at one indentation. -/
def blockItems (word : String → Data α) : Nat → Nat → List Line → Option (List (Data α) × List Line)
  | 0, _, _ => none
  | _, _, [] => some ([], [])
  | fuel + 1, indent, l :: ls =>
    match if l.indent = indent then l.item? else none with
    | none => some ([], l :: ls)
    | some item => do
      let inner := if item.text.isEmpty then ls else item :: ls
      let empty := item.text.isEmpty && ls.all fun next => next.indent ≤ indent
      let (value, ls) ← if empty then some (word "", ls) else blockValue word fuel inner
      let (items, ls) ← blockItems word fuel indent ls
      return (value :: items, ls)

/-- The fields whose names stand at one indentation. -/
def blockFields (word : String → Data α) :
    Nat → Nat → List Line → Option (List (String × Data α) × List Line)
  | 0, _, _ => none
  | _, _, [] => some ([], [])
  | fuel + 1, indent, l :: ls =>
    match if l.indent = indent then l.field? else none with
    | none => some ([], l :: ls)
    | some (name, rest) => do
      let nested := ls.head?.any fun next =>
        indent < next.indent || (next.indent = indent && next.item?.isSome)
      let (value, ls) ←
        if rest.isEmpty then (if nested then blockValue word fuel ls else some (word "", ls))
        else (inlineValue word rest).map (·, ls)
      let (fields, ls) ← blockFields word fuel indent ls
      return (name.field value :: fields, ls)

end

/-- The value that a whole text stands for. -/
def readBlock (word : String → Data α) (cs : List Char) : Option (Data α) :=
  let ls := lines cs
  match blockValue word (2 * cs.length + 2) ls with
  | some (value, []) => some value
  | _ => none

end HexPulse.Document
