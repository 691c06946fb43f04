import HexPulse.Data

/-!
# HexPulse — Value

The values that flow between nodes, and the types that ports declare for them.
-/

namespace HexPulse

/-- The type that a port declares for what it carries. -/
inductive ValueType where
  | empty
  | any
  | entity
  | vector
  | number
  | text
  | list
  deriving DecidableEq, Repr

namespace ValueType

def all : List ValueType := [.empty, .any, .entity, .vector, .number, .text, .list]

def name : ValueType → String
  | .empty => "Empty"
  | .any => "Any"
  | .entity => "Entity"
  | .vector => "Vector"
  | .number => "Number"
  | .text => "Text"
  | .list => "List"

/-- The type of a name. -/
def ofName? (s : String) : Option ValueType := all.find? fun t => t.name = s

end ValueType

/-- A value.  An entity is named by the id of a target. -/
inductive Value (α : Type) where
  | empty
  | entity (id : Int)
  | vector (x y : α)
  | number (x : α)
  | text (s : String)
  | list (items : List (Value α))
  deriving Repr, Inhabited

namespace Value

variable {α : Type}

/-- The type that a value has; no value has the type `any`. -/
def type : Value α → ValueType
  | .empty => .empty
  | .entity _ => .entity
  | .vector .. => .vector
  | .number _ => .number
  | .text _ => .text
  | .list _ => .list

/-- The value may be read where a type is declared. -/
def matches? (v : Value α) (expected : ValueType) : Bool := expected = .any || v.type = expected

/-- The number that a value is. -/
def number? : Value α → Option α
  | .number x => some x
  | _ => none

/-- The components of a value that is a vector. -/
def vector? : Value α → Option (α × α)
  | .vector x y => some (x, y)
  | _ => none

/-- The id of a value that is an entity. -/
def entity? : Value α → Option Int
  | .entity id => some id
  | _ => none

/-- The items of a value that is a list. -/
def list? : Value α → Option (List (Value α))
  | .list items => some items
  | _ => none

mutual

/-- The value as plain data. -/
def toData : Value α → Data α
  | .empty => .null
  | .entity id => .record [("entity", .int id)]
  | .vector x y => .list [.number x, .number y]
  | .number x => .number x
  | .text s => .text s
  | .list items => .list (itemsToData items)

def itemsToData : List (Value α) → List (Data α)
  | [] => []
  | v :: vs => v.toData :: itemsToData vs

end

mutual

/-- Equality of values; numbers are compared as numbers. -/
def beq [BEq α] : Value α → Value α → Bool
  | .empty, .empty => true
  | .entity a, .entity b => a = b
  | .vector a b, .vector c d => a == c && b == d
  | .number a, .number b => a == b
  | .text a, .text b => a = b
  | .list as, .list bs => itemsBeq as bs
  | _, _ => false

def itemsBeq [BEq α] : List (Value α) → List (Value α) → Bool
  | [], [] => true
  | a :: as, b :: bs => beq a b && itemsBeq as bs
  | _, _ => false

end

instance [BEq α] : BEq (Value α) := ⟨beq⟩

theorem itemsToData_eq_map (vs : List (Value α)) : itemsToData vs = vs.map toData := by
  induction vs with
  | nil => rfl
  | cons v vs ih => simp [itemsToData, ih]

end Value

namespace Vector2

variable {α : Type} [Scalar α]

/-- The length of a vector. -/
def length (x y : α) : α := Scalar.hypot x y

/-- A length that has a direction: neither zero nor infinite nor incomparable. -/
def hasDirection (length : α) : Bool := !(length == 0.0) && Scalar.isFinite length

/-- The vector of length one in the same direction; the zero vector where there is none. -/
def normalize (x y : α) : α × α :=
  let size := length x y
  if hasDirection size then (x / size, y / size) else (0.0, 0.0)

end Vector2

end HexPulse
