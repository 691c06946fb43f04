import HexPulse.Effect
import HexPulse.Settings
import HexPulse.Target

/-!
# HexPulse — Effect — InFlight

Effects that take time: rockets, orbital strikes on their way, plasma zones, and the beams and
bolts that are only seen.  Each frame advances them in this order; what they harm is taken from
the targets at once, and the sum is reported.
-/

namespace HexPulse

variable {α : Type} [Scalar α]

structure Rocket (α : Type) where
  position : Point α
  direction : α × α
  deriving Repr

/-- A strike that lands when the remaining time is over. -/
structure Strike (α : Type) where
  center : Point α
  remaining : α
  deriving Repr

/-- A zone that harms at intervals while time remains. -/
structure Zone (α : Type) where
  center : Point α
  remaining : α
  /-- the time since the last interval was full -/
  sinceTick : α
  deriving Repr

/-- What is only seen: bolts for some time, a beam until it arrives at its target. -/
inductive Visual (α : Type) where
  | bolts (remaining : α) (targets : List Int)
  | beam (position : Point α) (target : Int)
  deriving Repr

/-- What is left after something in flight was advanced: itself, unless it is over, the targets,
and the damage it counted. -/
structure Outcome (α β : Type) where
  rest : β
  targets : Targets α
  dealt : α

/-- Harms every live target that overlaps a circle. -/
def Targets.hit (w : WeaponSettings α) (ts : Targets α) (center : Point α) (radius amount : α) :
    Targets α × α :=
  let struck := ts.within center (radius + w.targetRadius)
  (struck.foldl (fun ts t => ts.damage t.id amount) ts,
    struck.foldl (fun dealt _ => dealt + amount) 0.0)

/-- Advances the members of a list one after the other. -/
def Outcome.collect {β : Type} (step : β → Targets α → Outcome α (Option β)) :
    List β → Targets α → α → Outcome α (List β)
  | [], ts, dealt => ⟨[], ts, dealt⟩
  | x :: xs, ts, dealt =>
    let o := step x ts
    let later := collect step xs o.targets (dealt + o.dealt)
    { later with rest := o.rest.toList ++ later.rest }

/-- A rocket harms what it is close to; one that harmed, or is far from the origin, is spent. -/
def Rocket.advance (w : WeaponSettings α) (dt : α) (r : Rocket α) (ts : Targets α) :
    Outcome α (Option (Rocket α)) :=
  let (ts, dealt) := ts.hit w r.position w.rocketRadius w.rocketDamage
  if (!(dealt == 0.0)) ∨ w.rocketMaxDistance ≤ Scalar.hypot r.position.x r.position.y then
    ⟨none, ts, dealt⟩
  else
    let x := r.position.x + r.direction.1 * w.rocketSpeed * dt
    let y := r.position.y + r.direction.2 * w.rocketSpeed * dt
    ⟨some { r with position := ⟨x, y⟩ }, ts, dealt⟩

/-- A strike lands once its time is over. -/
def Strike.advance (w : WeaponSettings α) (dt : α) (s : Strike α) (ts : Targets α) :
    Outcome α (Option (Strike α)) :=
  let remaining := s.remaining - dt
  if (0.0 : α) < remaining then ⟨some { s with remaining := remaining }, ts, 0.0⟩
  else
    let (ts, dealt) := ts.hit w s.center w.orbitalRadius w.orbitalDamage
    ⟨none, ts, dealt⟩

/-- A zone harms at every full interval, in proportion to the time that remains. -/
def Zone.advance (w : WeaponSettings α) (dt : α) (z : Zone α) (ts : Targets α) :
    Outcome α (Option (Zone α)) :=
  let remaining := z.remaining - dt
  let elapsed := z.sinceTick + dt
  let rest (sinceTick : α) : Option (Zone α) :=
    if (0.0 : α) < remaining then some ⟨z.center, remaining, sinceTick⟩ else none
  if w.plasmaDamageInterval ≤ elapsed then
    let amount := Scalar.greater 0.0 remaining * w.plasmaDamageScale
    let (ts, dealt) := ts.hit w z.center w.plasmaRadius amount
    ⟨rest (elapsed - w.plasmaDamageInterval), ts, dealt⟩
  else ⟨rest elapsed, ts, 0.0⟩

namespace Visual

/-- The visual after a step, and whether it goes on. -/
def advance (w : WeaponSettings α) (dt : α) (ts : Targets α) :
    Visual α → Except Fault (Visual α × Bool)
  | .bolts remaining targets =>
    let remaining := remaining - dt
    .ok (.bolts remaining targets, (0.0 : α) < remaining)
  | .beam position target =>
    match ts.get? target with
    | none => .ok (.beam position target, false)
    | some t =>
      let distance := position.distance t.position
      if distance ≤ w.beamArrivalRadius then .ok (.beam position target, false)
      else do
        let step := Scalar.lesser distance (w.beamSpeed * dt)
        let dx ← Scalar.divide (t.position.x - position.x) distance
        let dy ← Scalar.divide (t.position.y - position.y) distance
        return (.beam ⟨position.x + dx * step, position.y + dy * step⟩ target, true)

/-- Advances visuals one after the other and drops those that are over.  A fault keeps them all,
the earlier ones advanced. -/
def advanceAll (w : WeaponSettings α) (dt : α) (ts : Targets α) (visuals : List (Visual α)) :
    Progress (List (Visual α)) :=
  let p := Progress.each (fun e => Progress.ofExcept e (e.1.advance w dt ts))
    (visuals.map fun v => (v, true))
  match p.fault with
  | none => .done ((p.state.filter (·.2)).map (·.1))
  | some f => .halt (p.state.map (·.1)) f

end Visual

/-- Everything that is in flight, in the order of acceptance. -/
structure InFlight (α : Type) where
  rockets : List (Rocket α)
  strikes : List (Strike α)
  zones : List (Zone α)
  visuals : List (Visual α)
  deriving Repr

namespace InFlight

def empty : InFlight α := ⟨[], [], [], []⟩

/-- Takes up an effect that takes time; other effects change nothing here. -/
def accept (w : WeaponSettings α) (l : Layout α) (f : InFlight α) :
    Effect α → Except Fault (InFlight α)
  | .rocket origin direction => do
    let position ← l.centre origin
    return { f with rockets := f.rockets ++ [⟨position, direction⟩] }
  | .strike cell delay => do
    let center ← l.centre cell
    return { f with strikes := f.strikes ++ [⟨center, delay⟩] }
  | .plasma center charge => do
    let charge : α ← Scalar.convert charge
    return { f with zones := f.zones ++ [⟨center, charge / 2.0, 0.0⟩] }
  | .shock _ targets => .ok { f with visuals := f.visuals ++ [.bolts w.shockLinkSeconds targets] }
  | .beam origin target => do
    let position ← l.centre origin
    return { f with visuals := f.visuals ++ [.beam position target] }
  | _ => .ok f

/-- How many things are in flight. -/
def count (f : InFlight α) : Nat :=
  f.rockets.length + f.strikes.length + f.zones.length + f.visuals.length

/-- Advances everything in flight: rockets, strikes, zones, visuals. -/
def advance (w : WeaponSettings α) (dt : α) (f : InFlight α) (ts : Targets α) :
    Progress (Outcome α (InFlight α)) :=
  let rockets := Outcome.collect (Rocket.advance w dt) f.rockets ts 0.0
  let strikes := Outcome.collect (Strike.advance w dt) f.strikes rockets.targets 0.0
  let zones := Outcome.collect (Zone.advance w dt) f.zones strikes.targets 0.0
  let dealt := rockets.dealt + strikes.dealt + zones.dealt
  (Visual.advanceAll w dt zones.targets f.visuals).map fun visuals =>
    ⟨⟨rockets.rest, strikes.rest, zones.rest, visuals⟩, zones.targets, dealt⟩

end InFlight

end HexPulse
