import HexPulse.Activation
import HexPulse.Board.Reach
import HexPulse.Effect.InFlight
import HexPulse.Event
import HexPulse.Spawning

/-!
# HexPulse — World

A board in time.  A frame goes through the same stages every time: what died is cleared, hearts
beat and ask the nodes to fire, ready nodes fire, the effects they asked for are carried out,
what is in flight moves, and the targets walk.  Every stage writes what happened to the journal.
A fault stops the frame where it is.
-/

namespace HexPulse

/-- A board with everything that moves, and what was reported about it. -/
structure World (α : Type) where
  board : Board α
  /-- effects that were asked for and not carried out yet -/
  sink : List (Effect α)
  inFlight : InFlight α
  regeneration : Regeneration α
  draws : Draws α
  frame : Int
  time : α
  gameOver : Bool
  /-- the nodes that fired in the current frame -/
  fired : List Int
  firedTotal : Nat
  kills : Nat
  damageDealt : α
  journal : List (Entry α)
  deriving Repr

/-- The totals of a run, with a rounded time and damage. -/
structure Summary (α : Type) where
  frames : Int
  time : α
  nodesFired : Nat
  kills : Nat
  damageDealt : α
  heartsLeft : Nat
  gameOver : Bool
  deriving Repr

/-- A summary as plain data. -/
def Summary.toData {α : Type} (s : Summary α) : Data α := .record [
  ("frames", .int s.frames),
  ("time", .number s.time),
  ("nodes_fired", .int s.nodesFired),
  ("kills", .int s.kills),
  ("damage_dealt", .number s.damageDealt),
  ("hearts_left", .int s.heartsLeft),
  ("game_over", .bool s.gameOver)]

namespace World

variable {α : Type} [Scalar α]

/-- A world around an empty board, before its first frame. -/
def new (catalogue : Catalogue) (settings : Settings α) (draws : Draws α) : World α where
  board := .new catalogue settings
  sink := []
  inFlight := .empty
  regeneration := .start
  draws := draws
  frame := 0
  time := 0.0
  gameOver := false
  fired := []
  firedTotal := 0
  kills := 0
  damageDealt := 0.0
  journal := []

def settings (w : World α) : Settings α := w.board.settings

/-- The same world with other targets. -/
def withTargets (w : World α) (ts : Targets α) : World α :=
  { w with board := { w.board with targets := ts } }

/-- Adds a target to the board, with the health and the speed of the settings where none is
given. -/
def addTarget (w : World α) (cell : Hex) (health : Option α) (path : List Hex) :
    Except Fault (Target α × World α) := do
  let spawn := w.settings.spawn
  let (target, ts) ← w.board.targets.addAt w.board.layout cell (health.getD spawn.targetHealth) path
    spawn.targetSpeed
  return (target, w.withTargets ts)

/-! ### Reports -/

/-- Writes an event to the journal. -/
def emit (w : World α) (e : Event α) : World α := { w with journal := w.journal ++ [⟨w.frame, e⟩] }

/-- Writes events to the journal. -/
def emitAll (w : World α) (es : List (Event α)) : World α := es.foldl emit w

/-- How many nodes are in each phase. -/
def phases (w : World α) : Table Phase Nat :=
  w.board.nodes.values.foldl
    (fun t n => t.insert n.state.phase ((t.get? n.state.phase).getD 0 + 1)) .empty

def status (w : World α) : Status α where
  frame := w.frame
  time := Scalar.roundTo 6 w.time
  nodes := w.board.nodes.size
  phases := w.phases
  hearts := w.board.hearts.values.map fun h => (h.id, Scalar.roundTo 3 h.health)
  targets := w.board.targets.live.length
  activeEffects := w.inFlight.count
  gameOver := w.gameOver

def summary (w : World α) : Summary α where
  frames := w.frame
  time := Scalar.roundTo 6 w.time
  nodesFired := w.firedTotal
  kills := w.kills
  damageDealt := Scalar.roundTo 3 w.damageDealt
  heartsLeft := w.board.hearts.size
  gameOver := w.gameOver

/-! ### The stages of a frame -/

/-- Clears what died on the board.  The game is over when the last heart went. -/
def reap (w : World α) : World α :=
  let r := w.board.reapDead
  let lost := !r.hearts.isEmpty && r.board.hearts.size == 0
  let lostHearts := r.hearts.map fun (h : Heart α) => Event.heartDestroyed h.id h.position
  let w := { w with board := r.board }.emitAll lostHearts
  { w with gameOver := w.gameOver || lost }

/-- Prunes the board if something was placed or removed. -/
def prune (w : World α) : World α :=
  if w.board.topologyDirty then { w with board := w.board.prune.board } else w

/-- Reports the beat of a heart and rolls for a target around it. -/
def pulse (requested : Nat) (w : World α) (h : Heart α) : Progress (World α) :=
  let w := w.emit (.heartbeat h.id h.beats h.period h.health requested)
  (w.settings.spawn.roll w.board.layout w.board.inBounds h.position w.board.targets w.draws).map
    fun roll => { w.withTargets roll.targets with draws := roll.draws }

/-- Lets the hearts beat; if any does, all nodes that take part are asked to fire. -/
def beat (w : World α) (dt : α) : Progress (World α) :=
  let advanced := w.board.hearts.mapValues (Heart.advance w.settings.heart dt)
  let beating := (advanced.values.filter (·.2)).map (·.1)
  let w := { w with board := { w.board with hearts := advanced.mapValues (·.1) } }
  if beating.isEmpty then .done w
  else
    let stalled := w.board.stalled
    let w := if stalled.isEmpty then w else w.emit (.nodesStalled stalled)
    let requested := w.board.requestCount
    Progress.fold (pulse requested) beating { w with board := w.board.request }

/-- The report on a node that fired. -/
def nodeDone (b : Board α) (id : Int) : Option (Event α) :=
  (b.nodes.get? id).map fun n => .nodeDone id n.kind n.state

/-- Fires the nodes that are ready. -/
def activate (w : World α) : Progress (World α) :=
  let p := Pass.run w.board w.sink
  let w := { w with board := p.state.board, sink := p.state.sink }
  match p.fault with
  | some f => .halt w f
  | none =>
    let fired := p.state.fired
    let w := { w with fired := fired, firedTotal := w.firedTotal + fired.length }
    .done (w.emitAll (fired.filterMap (nodeDone w.board)))

/-- Projects terrain onto a cell, unless it is taken or off the board by now. -/
def project (w : World α) (cell : Hex) (source : Int) : World α :=
  match w.board.placeTerrain cell none with
  | .error _ => w
  | .ok (terrain, board) => { w with board := board }.emit (.terrainPlaced terrain.id source cell)

/-- Carries out one effect. -/
def apply (w : World α) (e : Effect α) : Progress (World α) :=
  let w := w.emit (.effect e)
  match e with
  | .damage target amount =>
    match w.board.targets.get? target with
    | none => .done w
    | some _ =>
      let w := w.withTargets (w.board.targets.damage target amount)
      .done { w with damageDealt := w.damageDealt + amount }
  | .terrain cell source => .done (w.project cell source)
  | .log .. => .done w
  | e =>
    .ofExcept w ((w.inFlight.accept w.settings.weapons w.board.layout e).map fun inFlight =>
      { w with inFlight := inFlight })

/-- Carries out all effects that were asked for.  Those behind a fault are lost. -/
def applyAll (w : World α) : Progress (World α) := Progress.fold apply w.sink { w with sink := [] }

/-- Moves what is in flight and counts the damage it dealt. -/
def fly (w : World α) (dt : α) : Progress (World α) :=
  let p := w.inFlight.advance w.settings.weapons dt w.board.targets
  let moved := { w.withTargets p.state.targets with inFlight := p.state.rest }
  match p.fault with
  | some f => .halt moved f
  | none => .done { moved with damageDealt := moved.damageDealt + p.state.dealt }

/-- A heart after contact with the targets on its cell and next to it. -/
def touch (b : Board α) (contact : α) (h : Heart α) : Except Fault (Heart α) := do
  let cells ← b.targets.live.mapM fun t => b.layout.cellAt t.position
  let touching := cells.countP fun c => h.position.distance c ≤ 1
  if touching = 0 then return h
  else return { h with health := h.health - contact * Scalar.ofInt touching }

/-- Lets the targets hurt the hearts that they touch. -/
def contact (w : World α) (dt : α) : Progress (World α) :=
  let harm := w.settings.heart.contactDamage * dt
  (Progress.each (fun e => .ofExcept e ((touch w.board harm e.2).map (e.1, ·)))
    w.board.hearts.entries).map
    fun hearts => { w with board := { w.board with hearts := ⟨hearts⟩ } }

/-- Lets the hearts regenerate. -/
def regenerate (w : World α) (dt : α) : World α :=
  let (regeneration, heals) := w.regeneration.advance w.settings.heart dt
  let w := { w with regeneration := regeneration }
  if heals then
    let hearts := w.board.hearts.mapValues fun h => h.heal w.settings.heart.healAmount
    { w with board := { w.board with hearts := hearts } }
  else w

/-- Drops the targets that died and counts them. -/
def bury (w : World α) : World α :=
  let dead := w.board.targets.dead
  let w := (w.withTargets w.board.targets.reap).emitAll (dead.map fun t => Event.targetKilled t.id)
  { w with kills := w.kills + dead.length }

/-- Lets the targets walk, hurt hearts, and die. -/
def moveTargets (w : World α) (dt : α) : Progress (World α) :=
  ((w.board.targets.follow w.board.layout dt).map w.withTargets).andThen fun w =>
    (w.contact dt).andThen fun w => .done (w.regenerate dt).bury

/-- The clock at the start of a frame. -/
def tick (w : World α) (dt : α) : World α :=
  { w with frame := w.frame + 1, time := w.time + dt, fired := [] }

/-- One frame. -/
def step (w : World α) (dt : α) : Progress (World α) :=
  ((w.tick dt).reap.prune.beat dt).andThen fun w =>
    w.activate.andThen fun w =>
      w.applyAll.andThen fun w =>
        (w.fly dt).andThen fun w =>
          (w.moveTargets dt).andThen fun w => .done (w.emit (.frame w.status))

/-- Some frames, until the game is over. -/
def run (dt : α) : Nat → World α → Progress (World α)
  | 0, w => .done w
  | n + 1, w => if w.gameOver then .done w else (w.step dt).andThen (run dt n)

end World

end HexPulse
