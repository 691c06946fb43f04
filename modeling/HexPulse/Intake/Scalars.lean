import HexPulse.Data
import HexPulse.Decimal.Numeral
import HexPulse.Intake.Issue
import HexPulse.Text.Blank

/-!
# HexPulse — Intake — Scalars

Single values from data.  Readers are generous: a number may be written as a text, a truth value
counts as one or zero, and an integer may come as a number without a fraction.  A text with half a
character stays a text, but nothing else is read from it.
-/

namespace HexPulse.Intake

variable {α : Type} [Scalar α]

/-- The characters without the single underscores between them. -/
def ungrouped : List Char → Option (List Char)
  | [] => some []
  | '_' :: _ => none
  | c :: '_' :: d :: cs => if d = '_' then none else (ungrouped (d :: cs)).map (c :: ·)
  | c :: cs => (ungrouped cs).map (c :: ·)

/-! ### Integers -/

/-- The text without the zeros at its front and the underscores among them; a zero stays where no
other digit follows.  What is left starts with a digit or a minus sign. -/
def withoutLeadingZeros (cs : List Char) : Option (List Char) :=
  match cs with
  | '0' :: cs =>
    let zeros := cs.takeWhile fun c => c = '0' || c = '_'
    match cs.drop zeros.length with
    | c :: rest =>
      if c = '.' then if zeros.getLast? = some '_' then none else some ('0' :: c :: rest)
      else if c = '-' || c.isDigit then some (c :: rest)
      else none
    | [] => if zeros.getLast? = some '_' then none else some ['0']
  | c :: _ => if c = '-' || c.isDigit then some cs else none
  | [] => none

/-- The text in front of a point with nothing but zeros, and at least one, behind it; the whole
text where there is no point. -/
def withoutZeroFraction (cs : List Char) : Option (List Char) :=
  match cs.dropWhile (· ≠ '.') with
  | [] => some cs
  | _ :: zeros =>
    if !zeros.isEmpty && zeros.all (· = '0') then some (cs.takeWhile (· ≠ '.')) else none

/-- An integer in its plain form: digits behind at most a minus sign, no zero in front of another
digit.  A run of too many digits is refused for its length, whatever stands behind it. -/
def plainInteger (cs : List Char) : Except IssueKind Int :=
  let (negative, cs) := match cs with
    | '-' :: cs => (true, cs)
    | cs => (false, cs)
  let digits := cs.takeWhile Char.isDigit
  if digits.head? = some '0' && 1 < digits.length then .error .integerParsing
  else if Numeral.longestInteger < digits.length then .error .integerSize
  else if digits.isEmpty || digits.length < cs.length then .error .integerParsing
  else
    let n : Int := Numeral.digitsToNat digits
    .ok (if negative then -n else n)

/-- The text of an integer brought near its plain form: no plus sign, no zeros at the front, no
zero fraction, no single underscores.  A minus sign may stand in front of the zeros or behind
them, and is the last thing that zeros are taken away from. -/
def tidiedInteger (cs : List Char) : Option (List Char) := do
  let cs ← match cs with
    | '+' :: '-' :: _ => none
    | '+' :: cs => withoutLeadingZeros cs
    | '-' :: cs => (withoutLeadingZeros cs).map ('-' :: ·)
    | cs => withoutLeadingZeros cs
  let cs ← withoutZeroFraction cs
  ungrouped cs

/-- An integer that is written out, with blanks around it.  What is too long in its plain form is
refused for its length; all else that has no plain form is refused as no integer. -/
def integerOfText (s : String) : Except IssueKind Int :=
  let cs := Text.trimWhile Text.isSpace s.toList
  match plainInteger cs with
  | .ok n => .ok n
  | .error .integerSize => .error .integerSize
  | .error _ =>
    match ((tidiedInteger cs).map plainInteger).getD (.error .integerParsing) with
    | .ok n => .ok n
    | .error _ => .error .integerParsing

/-! ### Numbers -/

/-- A number that is written out, or named. -/
def plainNumber? (cs : List Char) : Option α :=
  match Numeral.scan cs with
  | some n => some n.toNumber
  | none =>
    let (sign, word) := Numeral.scanSign cs
    let infinity : α := 1.0 / 0.0
    let word := (String.ofList word).map Char.toLower
    if word = "inf" ∨ word = "infinity" then some (if sign = some '-' then -infinity else infinity)
    else if word = "nan" then some (0.0 / 0.0)
    else none

/-- A number with blanks around it, or with underscores between its characters. -/
def numberOfText? (s : String) : Option α :=
  match plainNumber? (Text.trimWhile Text.isSpace s.toList) with
  | some x => some x
  | none => (ungrouped s.toList).bind plainNumber?

/-- The bound below which a number may stand for an integer. -/
def widestNumber : Nat := 0x8000000000000000

/-- The integer that a number is. -/
def integerOfNumber (x : α) : Except IssueKind Int :=
  match Scalar.round x with
  | .error _ => .error .finiteNumber
  | .ok n =>
    if (Scalar.ofInt n : α) == x then
      if n.natAbs < widestNumber then .ok n else .error .integerSize
    else .error .integerFromNumber

def integer : Data α → Except IssueKind Int
  | .int n => .ok n
  | .bool b => .ok (if b then 1 else 0)
  | .number x => integerOfNumber x
  | .text s => integerOfText s
  | .halved _ => .error .halfCharacter
  | _ => .error .integerType

def number : Data α → Except IssueKind α
  | .number x => .ok x
  | .int n => (Scalar.convert n).mapError fun _ => .numberType
  | .bool b => .ok (if b then 1.0 else 0.0)
  | .text s =>
    match numberOfText? s with
    | some x => .ok x
    | none => .error .numberParsing
  | .halved _ => .error .halfCharacter
  | _ => .error .numberType

/-! ### Truth values and texts -/

/-- The truth value that an integer counts as; one of more than 64 bits is no candidate. -/
def boolOfInteger (n : Int) : Except IssueKind Bool :=
  if n = 0 then .ok false
  else if n = 1 then .ok true
  else if n < -widestNumber ∨ widestNumber ≤ n then .error .boolType
  else .error .boolParsing

def bool : Data α → Except IssueKind Bool
  | .bool b => .ok b
  | .int n => boolOfInteger n
  | .number x =>
    match integerOfNumber x with
    | .ok n => boolOfInteger n
    | .error _ => .error .boolType
  | .text s =>
    let word := s.map Char.toLower
    if ["1", "true", "t", "yes", "y", "on"].contains word then .ok true
    else if ["0", "false", "f", "no", "n", "off"].contains word then .ok false
    else .error .boolParsing
  | .halved _ => .error .halfCharacter
  | _ => .error .boolType

/-- A text, whole or not. -/
def text : Data α → Except IssueKind String
  | .text s => .ok s
  | .halved s => .ok s
  | _ => .error .textType

/-! ### Bounds

What cannot be compared with a bound is refused by it. -/

/-- A reader that refuses some of what it reads. -/
def refusing {β : Type} (bad : β → Bool) (kind : IssueKind) (read : Data α → Except IssueKind β)
    (d : Data α) : Except IssueKind β :=
  match read d with
  | .ok x => if bad x then .error kind else .ok x
  | .error k => .error k

/-- An integer that is not below a bound. -/
def integerFrom (low : Int) : Data α → Except IssueKind Int :=
  refusing (fun n => decide (n < low)) .greaterThanEqual integer

/-- A number above zero. -/
def positive : Data α → Except IssueKind α :=
  refusing (fun x => !decide ((0.0 : α) < x)) .greaterThan number

/-- A number from zero on. -/
def nonNegative : Data α → Except IssueKind α :=
  refusing (fun x => !decide ((0.0 : α) ≤ x)) .greaterThanEqual number

/-- A number from zero up to one. -/
def fraction : Data α → Except IssueKind α :=
  refusing (fun x => !decide ((0.0 : α) ≤ x)) .greaterThanEqual
    (refusing (fun x => !decide (x ≤ (1.0 : α))) .lessThanEqual number)

end HexPulse.Intake
