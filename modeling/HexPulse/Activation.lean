import HexPulse.Evaluation

/-!
# HexPulse — Activation

A pulse asks all nodes that take part to fire.  In each pass those fire whose neighbours all hold
values; which these are is decided before the first of them fires, so that no node fires in the
same pass as one it reads from.
-/

namespace HexPulse

variable {α : Type} [Scalar α]

namespace Board

/-- Asks a node to fire, unless it is disabled. -/
def requestNode (n : Node α) : Node α :=
  match n.state with
  | .disabled => n
  | _ => { n with state := .requested }

/-- Asks every node that takes part to fire, whatever it held before. -/
def request (b : Board α) : Board α := { b with nodes := b.nodes.mapValues requestNode }

/-- How many nodes a request reaches. -/
def requestCount (b : Board α) : Nat := b.nodes.values.countP fun n => n.state.phase ≠ .disabled

/-- The nodes that were asked to fire and have not fired yet. -/
def stalled (b : Board α) : List Int :=
  (b.nodes.values.filter fun n => n.state.phase = .requested).map (·.id)

/-- All neighbours that a node is bound to hold values. -/
def isReady (b : Board α) (n : Node α) : Bool :=
  n.wiring.directions.all fun d =>
    match b.nodeAt? (n.position.neighbor d) with
    | some source => source.state.isOk
    | none => false

/-- The nodes that fire in the next pass. -/
def ready (b : Board α) : List (Node α) :=
  b.nodes.values.filter fun n => n.state.phase = .requested && b.isReady n

end Board

/-- A pass so far: the board, all effects that were asked for and not carried out yet, and the
nodes that fired. -/
structure Pass (α : Type) where
  board : Board α
  sink : List (Effect α)
  fired : List Int

namespace Pass

/-- Fires one node.  A fault leaves it triggered. -/
def fire (p : Pass α) (id : Int) : Progress (Pass α) :=
  match p.board.nodes.get? id with
  | none => .done p
  | some n =>
    let e := p.board.evaluate n
    let sink := p.sink ++ e.effects
    let board (s : NodeState α) :=
      p.board.updateNode id fun n => { n with state := s, charge := e.charge }
    match e.result with
    | .ok v => .done ⟨board (.ok v), sink, p.fired ++ [id]⟩
    | .error (.refused error) => .done ⟨board (.err error), sink, p.fired ++ [id]⟩
    | .error (.fault f) => .halt ⟨board .triggered, sink, p.fired⟩ f

/-- One pass over the board. -/
def run (b : Board α) (sink : List (Effect α)) : Progress (Pass α) :=
  Progress.fold fire (b.ready.map (·.id)) ⟨b, sink, []⟩

end Pass

end HexPulse
