import HexPulse.PortError
import HexPulse.Value

/-!
# HexPulse — NodeState

Where a node is between two pulses.  A node that was cut off from the hearts is disabled; a
pulse asks every other node to fire; a node that fired holds a value or an error.
-/

namespace HexPulse

/-- The phases as they are counted and shown. -/
inductive Phase where
  | idle
  | requested
  | triggered
  | done
  | disabled
  deriving DecidableEq, Repr

/-- The name that a phase is shown by. -/
def Phase.name : Phase → String
  | .idle => "Idle"
  | .requested => "ActivationRequest"
  | .triggered => "Triggered"
  | .done => "Done"
  | .disabled => "Disabled"

/-- The state of a node.  `blank` is a node that is done and recorded neither value nor error. -/
inductive NodeState (α : Type) where
  | idle
  | requested
  | triggered
  | disabled
  | ok (value : Value α)
  | err (error : PortError)
  | blank
  deriving Repr, Inhabited

namespace NodeState

variable {α : Type}

def phase : NodeState α → Phase
  | .idle => .idle
  | .requested => .requested
  | .triggered => .triggered
  | .disabled => .disabled
  | .ok _ => .done
  | .err _ => .done
  | .blank => .done

def isDone (s : NodeState α) : Bool := s.phase = .done

/-- The value that a node holds. -/
def value? : NodeState α → Option (Value α)
  | .ok v => some v
  | _ => none

/-- The error that a node holds. -/
def error? : NodeState α → Option PortError
  | .err e => some e
  | _ => none

def isOk (s : NodeState α) : Bool := s.value?.isSome

def isErr (s : NodeState α) : Bool := s.error?.isSome

/-- The state as plain data. -/
def toData (s : NodeState α) : Data α :=
  .record (("phase", .text s.phase.name) ::
    match s with
    | .ok v => [("value", v.toData)]
    | .err e => [("error", .text e.message)]
    | _ => [])

end NodeState

end HexPulse
