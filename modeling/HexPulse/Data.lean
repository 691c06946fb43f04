import HexPulse.Scalar

/-!
# HexPulse — Data

Plain data: what settings and scenarios are read from, and what events are written as.  Records
keep the order of their fields; a map keeps that of its entries, and need not have texts for keys
(`Key`).  A tuple differs from a list, and an integer from a number, only in how they are written.

A document is written in 16-bit units, and may leave one half of a character without the other.
A text with such a half is kept apart from other texts (`Data.halved`), and so is what stands
under a name with one (`Data.misnamed`).
-/

namespace HexPulse

/-- A key of a map. -/
inductive Key (α : Type) where
  | null
  | bool (b : Bool)
  | int (n : Int)
  | number (x : α)
  | text (s : String)
  deriving Repr, Inhabited

/-- Plain data over numbers `α`. -/
inductive Data (α : Type) where
  | null
  | bool (b : Bool)
  | int (n : Int)
  | number (x : α)
  | text (s : String)
  /-- a text with half a character in it -/
  | halved (s : String)
  | list (items : List (Data α))
  | tuple (items : List (Data α))
  | record (fields : List (String × Data α))
  /-- what stands under a name with half a character in it -/
  | misnamed (d : Data α)
  | map (entries : List (Key α × Data α))
  deriving Repr, Inhabited

namespace Key

variable {α : Type} [Scalar α]

/-- The integer that a key counts as. -/
def integer? : Key α → Option Int
  | .bool b => some (if b then 1 else 0)
  | .int n => some n
  | .number x =>
    match Scalar.round x with
    | .ok n => if (Scalar.ofInt n : α) == x then some n else none
    | .error _ => none
  | _ => none

/-- Two keys lead to the same entry.  Numbers are compared by value, whatever their kind. -/
def same (a b : Key α) : Bool :=
  match a, b with
  | .null, .null => true
  | .text s, .text t => s = t
  | a, b =>
    match a.integer?, b.integer? with
    | some m, some n => m = n
    | none, none =>
      match a, b with
      | .number x, .number y => x == y
      | _, _ => false
    | _, _ => false

/-- The key that data makes; a list or a record makes none. -/
def ofData? : Data α → Option (Key α)
  | .null => some .null
  | .bool b => some (.bool b)
  | .int n => some (.int n)
  | .number x => some (.number x)
  | .text s => some (.text s)
  | _ => none

/-- The text of a key that is one. -/
def text? : Key α → Option String
  | .text s => some s
  | _ => none

end Key

namespace Data

variable {α : Type}

/-- The field of a record; the last one of a name counts. -/
def field? (fields : List (String × Data α)) (name : String) : Option (Data α) :=
  (fields.reverse.find? fun f => f.1 = name).map (·.2)

/-- Data that says nothing: zero, no, and what is empty. -/
def isVoid [Scalar α] : Data α → Bool
  | .null => true
  | .bool b => !b
  | .int n => n == 0
  | .number x => x == (0.0 : α)
  | .text s => s.isEmpty
  | .halved _ => false
  | .list items => items.isEmpty
  | .tuple items => items.isEmpty
  | .record fields => fields.isEmpty
  | .misnamed d => d.isVoid
  | .map entries => entries.isEmpty

/-- An entry written to a map: in place if its key is there, else at the end. -/
def enter [Scalar α] (entries : List (Key α × Data α)) (e : Key α × Data α) :
    List (Key α × Data α) :=
  if entries.any fun f => f.1.same e.1 then
    entries.map fun f => if f.1.same e.1 then (f.1, e.2) else f
  else entries ++ [e]

/-- The map that arises from writing entries in order; a record if all its keys are texts. -/
def ofEntries [Scalar α] (entries : List (Key α × Data α)) : Data α :=
  let written := entries.foldl enter []
  match written.mapM fun e => e.1.text?.map (·, e.2) with
  | some fields => .record fields
  | none => .map written

/-- A cell as a list of its two coordinates. -/
def pair (q r : Int) : Data α := .list [.int q, .int r]

end Data

end HexPulse
