import HexPulse.Board

/-!
# HexPulse — Evaluation — Reading

How a node reads its input ports.  A port is read from the neighbour in the direction it is bound
to, and that neighbour has to hold a value of the kind that is asked for.
-/

namespace HexPulse

/-- Why an evaluation ends without a value: for a cause that is the node's result, or for a
fault. -/
inductive Halt where
  | refused (error : PortError)
  | fault (fault : Fault)
  deriving DecidableEq, Repr

namespace Halt

variable {β : Type}

/-- A reading inside an evaluation. -/
def ofReading : Except PortError β → Except Halt β
  | .ok x => .ok x
  | .error e => .error (.refused e)

/-- Arithmetic inside an evaluation. -/
def ofArithmetic : Except Fault β → Except Halt β
  | .ok x => .ok x
  | .error f => .error (.fault f)

end Halt

namespace Board

variable {α β : Type}

/-- The value behind a port. -/
def read (b : Board α) (n : Node α) (port : String) : Except PortError (Value α) :=
  match n.wiring.directionOf? port with
  | none => .error (.unconfigured port)
  | some d =>
    match b.nodeAt? (n.position.neighbor d) with
    | none => .error (.noNode port)
    | some source =>
      match source.state.value? with
      | none => .error (.notReady port)
      | some v => .ok v

/-- The value behind a port, taken as what is expected there. -/
def readAs (pick : Value α → Option β) (expected : ValueType) (b : Board α) (n : Node α)
    (port : String) : Except PortError β :=
  match b.read n port with
  | .error e => .error e
  | .ok v =>
    match pick v with
    | some x => .ok x
    | none => .error (.mismatch port expected.name v.type.name)

def readNumber (b : Board α) (n : Node α) (port : String) : Except PortError α :=
  b.readAs Value.number? .number n port

def readVector (b : Board α) (n : Node α) (port : String) : Except PortError (α × α) :=
  b.readAs Value.vector? .vector n port

def readEntity (b : Board α) (n : Node α) (port : String) : Except PortError Int :=
  b.readAs Value.entity? .entity n port

def readList (b : Board α) (n : Node α) (port : String) : Except PortError (List (Value α)) :=
  b.readAs Value.list? .list n port

/-- A reading that may be left out: nothing for a port that is not bound. -/
def readOptional (read : Board α → Node α → String → Except PortError β) (b : Board α)
    (n : Node α) (port : String) : Except PortError (Option β) :=
  match n.wiring.directionOf? port with
  | none => .ok none
  | some _ => (read b n port).map some

/-- What can be read from some ports, in their order; the others are skipped. -/
def readPresent (read : Board α → Node α → String → Except PortError β) (b : Board α)
    (n : Node α) (ports : List String) : List β :=
  ports.filterMap fun port => (read b n port).toOption

/-- The cause of a refusal where a finite value is needed. -/
def notFinite (port : String) (expected : ValueType) : PortError :=
  .mismatch port ("finite " ++ expected.name) ("non-finite " ++ expected.name)

/-- A number that is going to be rounded. -/
def readFiniteNumber [Scalar α] (b : Board α) (n : Node α) (port : String) : Except PortError α :=
  match b.readNumber n port with
  | .error e => .error e
  | .ok x => if Scalar.isFinite x then .ok x else .error (notFinite port .number)

/-- A vector that is going to be rounded. -/
def readFiniteVector [Scalar α] (b : Board α) (n : Node α) (port : String) :
    Except PortError (α × α) :=
  match b.readVector n port with
  | .error e => .error e
  | .ok v =>
    if Scalar.isFinite v.1 && Scalar.isFinite v.2 then .ok v else .error (notFinite port .vector)

end Board

end HexPulse
