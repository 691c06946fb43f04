import HexPulse.Evaluation.Reading

/-!
# HexPulse — Evaluation — Computing

The nodes that compute a value from the values they read.  A node with slots uses what it can
read from them, in the order of the slots, and never fails.
-/

namespace HexPulse.Board

variable {α : Type} [Scalar α]

/-- The constant that a node was given. -/
def constantNumber (n : Node α) : Except Halt (Value α) :=
  match n.wiring.constant with
  | some v => .ok v
  | none => .error (.refused (.unconfigured "constant"))

def vectorCreate (b : Board α) (n : Node α) : Except Halt (Value α) := do
  let x ← Halt.ofReading (b.readNumber n "x")
  let y ← Halt.ofReading (b.readNumber n "y")
  return .vector x y

def vectorNegate (b : Board α) (n : Node α) : Except Halt (Value α) := do
  let (x, y) ← Halt.ofReading (b.readVector n "vector")
  return .vector (-x) (-y)

def vectorLength (b : Board α) (n : Node α) : Except Halt (Value α) := do
  let (x, y) ← Halt.ofReading (b.readVector n "vector")
  return .number (Vector2.length x y)

/-- The left fold of a list that starts with its first member; a given value for the empty list. -/
def foldFirst {β : Type} (op : β → β → β) (none : β) : List β → β
  | [] => none
  | x :: xs => xs.foldl op x

/-- The product of vectors, component by component. -/
def vectorMultiply (b : Board α) (n : Node α) : Value α :=
  let (x, y) := foldFirst (fun v w => (v.1 * w.1, v.2 * w.2)) (0.0, 0.0)
    (b.readPresent readVector n Catalogue.slots)
  .vector x y

/-- The product of numbers. -/
def numberMultiply (b : Board α) (n : Node α) : Value α :=
  .number (foldFirst (· * ·) 0.0 (b.readPresent readNumber n Catalogue.slots))

/-- The first number less all others. -/
def numberSubtract (b : Board α) (n : Node α) : Value α :=
  .number (foldFirst (· - ·) 0.0 (b.readPresent readNumber n Catalogue.slots))

/-- What a value contributes to a list: a list its items, nothing if it is empty. -/
def contribution : Value α → List (Value α)
  | .list items => items
  | .empty => []
  | v => [v]

def listConstruct (b : Board α) (n : Node α) : Value α :=
  .list ((b.readPresent read n Catalogue.slots).flatMap contribution)

def listLength (b : Board α) (n : Node α) : Except Halt (Value α) := do
  let items ← Halt.ofReading (b.readList n "list")
  return .number (Scalar.ofInt items.length)

/-- The slot that a number selects; the slots repeat in both directions. -/
def selected (slot : Int) : String :=
  Catalogue.storeSlots.getD (slot % Catalogue.storeSlots.length).toNat "0"

/-- The value behind the slot that is selected, the first one where none is. -/
def storage (b : Board α) (n : Node α) : Except Halt (Value α) := do
  let slot ← Halt.ofReading (readOptional readFiniteNumber b n "slot")
  let index ← match slot with
    | none => pure 0
    | some x => Halt.ofArithmetic (Scalar.round x)
  Halt.ofReading (b.read n (selected index))

end HexPulse.Board
