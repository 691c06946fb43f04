/-!
# HexPulse — PortError

Why a node produced no value.  A port error is recorded as the node's result, unlike a fault.
-/

namespace HexPulse

/-- The causes for which a node ends without a value. -/
inductive PortError where
  /-- no direction is bound to the port -/
  | unconfigured (port : String)
  /-- the bound direction leads to no node -/
  | unresolved (port : String) (detail : String)
  /-- the node in the bound direction holds no value -/
  | notReady (port : String)
  /-- the value read is not of the kind that is asked for -/
  | mismatch (port expected got : String)
  /-- a target that the node needs is gone -/
  | vanished (reason : String)
  /-- the cell aimed at is taken -/
  | occupied (reason : String)
  /-- the cell aimed at is not on the board -/
  | outside (reason : String)
  /-- a wiring that was refused -/
  | miswired (reason : String)
  /-- a change of the board that was refused -/
  | misplaced (reason : String)
  /-- any other cause -/
  | failed (reason : String)
  deriving DecidableEq, Repr

namespace PortError

/-- The bound direction leads to no node. -/
def noNode (port : String) : PortError := .unresolved port "no node in bound direction"

/-- The text shown for a port error. -/
def message : PortError → String
  | .unconfigured port => s!"port '{port}' not configured"
  | .unresolved port detail => s!"port '{port}': {detail}"
  | .notReady port => s!"port '{port}': upstream node has no successful result"
  | .mismatch port expected got => s!"port '{port}' expected {expected}, got {got}"
  | .vanished reason => reason
  | .occupied reason => reason
  | .outside reason => reason
  | .miswired reason => reason
  | .misplaced reason => reason
  | .failed reason => reason

/-- The port that the error is about. -/
def port? : PortError → Option String
  | .unconfigured port => some port
  | .unresolved port _ => some port
  | .notReady port => some port
  | .mismatch port _ _ => some port
  | _ => none

end PortError

end HexPulse
