import HexPulse.Hex
import HexPulse.Kind
import HexPulse.Text.Quoted
import HexPulse.Value

/-!
# HexPulse — Named

Directions, kinds and types by their names, with a refusal for names that none of them has.
-/

namespace HexPulse

/-- A name that nothing of a kind of things has. -/
structure UnknownName where
  name : String
  noun : String
  deriving DecidableEq, Repr

/-- The text shown for an unknown name. -/
def UnknownName.message (e : UnknownName) : String :=
  Text.quoted e.name ++ " is not a valid " ++ e.noun

/-- The thing of a name, or a refusal. -/
def UnknownName.orElse {β : Type} (name noun : String) : Option β → Except UnknownName β
  | some x => .ok x
  | none => .error ⟨name, noun⟩

/-- The direction of a name. -/
def Direction.named (name : String) : Except UnknownName Direction :=
  UnknownName.orElse name "Direction" (Direction.ofName? name)

/-- The kind of a name. -/
def Kind.named (name : String) : Except UnknownName Kind :=
  UnknownName.orElse name "NodeKind" (Kind.ofName? name)

/-- The type of a name. -/
def ValueType.named (name : String) : Except UnknownName ValueType :=
  UnknownName.orElse name "ValType" (ValueType.ofName? name)

end HexPulse
