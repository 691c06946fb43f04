import HexPulse.Text.Quoted
import HexPulse.PortError

/-!
# HexPulse — PortError — Named

Port errors by the names of their kinds.  Some kinds are made from a port and what is to be said
about it; the others take any number of texts and show them.
-/

namespace HexPulse

/-- A number of arguments that a kind of error is not made from. -/
structure WrongArguments where
  kind : String
  /-- the names of its arguments -/
  parameters : List String
  /-- how many of them have to be given -/
  required : Nat
  given : Nat
  deriving DecidableEq, Repr

namespace WrongArguments

/-- Names in an enumeration. -/
def enumeration : List String → String
  | [] => ""
  | [a] => a
  | [a, b] => a ++ " and " ++ b
  | [a, b, c] => a ++ ", " ++ b ++ ", and " ++ c
  | a :: rest => a ++ ", " ++ enumeration rest

/-- The text shown for a wrong number of arguments.  The error itself counts as one of them. -/
def message (e : WrongArguments) : String :=
  if e.given < e.required then
    let missing := (e.parameters.take e.required).drop e.given
    let names := enumeration (missing.map fun name => "'" ++ name ++ "'")
    let plural := if missing.length = 1 then "" else "s"
    s!"missing {missing.length} required positional argument{plural}: {names}"
  else
    let most := e.parameters.length + 1
    let taken := if e.required + 1 = most then s!"{most}" else s!"from {e.required + 1} to {most}"
    s!"takes {taken} positional arguments but {e.given + 1} were given"

end WrongArguments

namespace PortError

/-- The name of the kind of an error. -/
def kind : PortError → String
  | .unconfigured _ => "UnconfiguredPort"
  | .unresolved .. => "UnresolvedNeighbor"
  | .notReady _ => "NotReady"
  | .mismatch .. => "TypeMismatch"
  | .vanished _ => "TargetVanished"
  | .occupied _ => "OccupiedDestination"
  | .outside _ => "OutOfBounds"
  | .miswired _ => "WiringError"
  | .misplaced _ => "BoardError"
  | .failed _ => "PortError"

/-- The text of any number of arguments: one is shown as it is, several in brackets. -/
def freeText : List String → String
  | [] => ""
  | [text] => text
  | texts => "(" ++ ", ".intercalate (texts.map Text.quoted) ++ ")"

/-- The error of a kind that is made from some arguments. -/
def named (kind : String) (arguments : List String) : Except WrongArguments PortError :=
  let wrong (parameters : List String) (required : Nat) : Except WrongArguments PortError :=
    .error ⟨kind, parameters, required, arguments.length⟩
  let reason := freeText arguments
  match kind, arguments with
  | "UnconfiguredPort", [port] => .ok (.unconfigured port)
  | "UnconfiguredPort", _ => wrong ["port"] 1
  | "UnresolvedNeighbor", [port] => .ok (.noNode port)
  | "UnresolvedNeighbor", [port, detail] => .ok (.unresolved port detail)
  | "UnresolvedNeighbor", _ => wrong ["port", "detail"] 1
  | "NotReady", [port] => .ok (.notReady port)
  | "NotReady", _ => wrong ["port"] 1
  | "TypeMismatch", [port, expected, got] => .ok (.mismatch port expected got)
  | "TypeMismatch", _ => wrong ["port", "expected", "got"] 3
  | "TargetVanished", _ => .ok (.vanished reason)
  | "OccupiedDestination", _ => .ok (.occupied reason)
  | "OutOfBounds", _ => .ok (.outside reason)
  | "WiringError", _ => .ok (.miswired reason)
  | "BoardError", _ => .ok (.misplaced reason)
  | _, _ => .ok (.failed reason)

end PortError

end HexPulse
