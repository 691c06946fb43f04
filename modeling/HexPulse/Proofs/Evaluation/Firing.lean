import HexPulse.Evaluation
import HexPulse.Proofs.Board.Agreement
import HexPulse.Proofs.Script

/-!
# HexPulse — Proofs — Evaluation — Firing

Evaluations, write after write.  An `Evaluation` names all effects at its end, and so it cannot
tell in which order a node read its ports, asked for effects and changed its charge.  Here a node
fires once more on a board and a sink that keep what was written to them (`Firing`).

* `Firing.of_apply`: both ways come to the same.
* `Evaluation.Atomic.evaluate`: an evaluation that is refused a value names nothing; any other
  names effects and a charge as the kind of the node may.
-/

namespace HexPulse

variable {α : Type}

/-- A part of the firing of a node: it reads the board, and writes to the board and the sink. -/
abbrev Firing (α β : Type) : Type := Script Halt (Board α × List (Effect α)) β

namespace Firing

open Script

variable {β : Type}

/-- Reads something from the board. -/
def reading (f : Board α → Except PortError β) : Firing α β := ask fun s => Halt.ofReading (f s.1)

def computing (r : Except Fault β) : Firing α β := ask fun _ => Halt.ofArithmetic r

/-- Asks for an effect. -/
def emit (e : Effect α) : Firing α Unit := write fun s => (s.1, s.2 ++ [e])

def setCharge (id charge : Int) : Firing α Unit :=
  write fun s => (s.1.updateNode id fun n => { n with charge := charge }, s.2)

variable [Scalar α]

def lazor (n : Node α) : Firing α (Value α) := do
  let id ← reading fun b => b.readEntity n "target"
  let t ← reading fun b => b.liveTarget id
  emit (.damage t.id (← current).1.settings.weapons.lazorDamage)
  emit (.beam n.position t.id)
  return .empty

def rocketLauncher (n : Node α) : Firing α (Value α) := do
  let (x, y) ← reading fun b => b.readVector n "direction"
  let length := Vector2.length x y
  if Vector2.hasDirection length then
    emit (.rocket n.position (Vector2.normalize x y))
    return .empty
  else
    let got := "Vector of length " ++ Scalar.text length
    stop (.refused (.mismatch "direction" "non-zero finite Vector" got))

def orbital (n : Node α) : Firing α (Value α) := do
  let (q, r) ← reading fun b => b.readFiniteVector n "target"
  let cell ← computing (Hex.nearest q r)
  emit (.strike cell (← current).1.settings.weapons.orbitalDelay)
  return .empty

/-- The charge is counted up before it is known whether the node shoots, and taken back before the
shot is asked for. -/
def plasma (n : Node α) : Firing α (Value α) := do
  let greatest := (← current).1.settings.weapons.plasmaMaxThreshold
  let aim ← reading fun b => b.readFiniteVector n "target"
  let threshold ← reading fun b => Board.readOptional Board.readNumber b n "threshold"
  let charge := n.charge + 1
  setCharge n.id charge
  if Scalar.intLt charge (Board.plasmaLimit greatest threshold) then return .number 0.0
  else
    setCharge n.id 0
    let center ← computing (Hex.nearest aim.1 aim.2 >>= (← current).1.layout.centre)
    emit (.plasma center charge)
    let power ← computing (Scalar.convert charge)
    return .number power

/-- Damages the live targets of a list, one by one, and tells which ones they are. -/
def hit : List (Value α) → Firing α (List Int)
  | [] => return []
  | item :: items => do
    let b := (← current).1
    match item.entity?.filter fun id => (b.targets.get? id).isSome with
    | none => hit items
    | some id =>
      emit (.damage id b.settings.weapons.shockDamage)
      let hits ← hit items
      return id :: hits

def shock (n : Node α) : Firing α (Value α) := do
  let items ← reading fun b => b.readList n "targets"
  let hits ← hit items
  if hits.isEmpty then pure () else emit (.shock n.position hits)
  return .number (Scalar.ofInt hits.length)

def projectTile (n : Node α) : Firing α (Value α) := do
  let (q, r) ← reading fun b => b.readFiniteVector n "target"
  let cell ← computing (Hex.nearest q r)
  match (← current).1.tile? cell with
  | none => stop (.refused (.outside s!"cell {cell.text} is outside the board"))
  | some .unoccupied =>
    emit (.terrain cell n.id)
    return .empty
  | some tile => stop (.refused (.occupied s!"cell {cell.text} holds {tile.name}"))

def debug (n : Node α) : Firing α (Value α) := do
  let values := (← current).1.readPresent Board.read n Catalogue.slots
  emit (.log n.id (values.map Value.toData))
  return .empty

/-- A node fires.  The other kinds only read. -/
def of (n : Node α) : Firing α (Value α) :=
  match n.kind with
  | .lazor => lazor n
  | .rocketLauncher => rocketLauncher n
  | .orbital => orbital n
  | .plasma => plasma n
  | .shock => shock n
  | .projectTile => projectTile n
  | .debug => debug n
  | _ => ask fun s => (s.1.evaluate n).result

/-! ### Both ways come to the same -/

omit [Scalar α] in
/-- A reading that is refused ends the firing where it stands. -/
theorem reading_bind (f : Board α → Except PortError β) (next : β → Firing α (Value α))
    (b : Board α) (sink : List (Effect α)) : (reading f >>= next) (b, sink) =
      match f b with
      | .ok x => next x (b, sink)
      | .error e => (.error (.refused e), b, sink) := by
  rw [bind_apply, reading, ask]
  cases f b with
  | ok x => rfl
  | error e => rfl

omit [Scalar α] in
/-- A fault ends the firing where it stands. -/
theorem computing_bind (r : Except Fault β) (next : β → Firing α (Value α)) (b : Board α)
    (sink : List (Effect α)) : (computing r >>= next) (b, sink) =
      match r with
      | .ok x => next x (b, sink)
      | .error f => (.error (.fault f), b, sink) := by
  rw [bind_apply, computing, ask]
  cases r with
  | ok x => rfl
  | error e => rfl

/-- What is left behind by a node that asks for its effects at the end. -/
def acted (b : Board α) (sink : List (Effect α)) :
    Except Halt (Value α × List (Effect α)) → Except Halt (Value α) × Board α × List (Effect α)
  | .ok (v, effects) => (.ok v, b, sink ++ effects)
  | .error h => (.error h, b, sink)

omit [Scalar α] in
theorem acted_reading (b : Board α) (sink : List (Effect α)) (r : Except PortError β)
    (next : β → Except Halt (Value α × List (Effect α))) :
    acted b sink (Halt.ofReading r >>= next) =
      match r with
      | .ok x => acted b sink (next x)
      | .error e => (.error (.refused e), b, sink) := by
  cases r with
  | ok x => rfl
  | error e => rfl

omit [Scalar α] in
theorem acted_computing (b : Board α) (sink : List (Effect α)) (r : Except Fault β)
    (next : β → Except Halt (Value α × List (Effect α))) :
    acted b sink (Halt.ofArithmetic r >>= next) =
      match r with
      | .ok x => acted b sink (next x)
      | .error f => (.error (.fault f), b, sink) := by
  cases r with
  | ok x => rfl
  | error e => rfl

variable (b : Board α) (n : Node α) (sink : List (Effect α))

/-- A lazor knows that its target lives before it asks for the blow and the beam. -/
theorem lazor_apply : lazor n (b, sink) = acted b sink (b.lazor n) := by
  rw [lazor, Board.lazor, reading_bind, acted_reading]
  cases b.readEntity n "target" with
  | error e => rfl
  | ok id =>
    dsimp only
    rw [reading_bind, acted_reading]
    cases b.liveTarget id with
    | error e => rfl
    | ok t => exact congrArg (fun es => (Except.ok Value.empty, b, es)) (List.append_assoc _ _ _)

/-- A rocket launcher looks at its direction before it asks for the rocket. -/
theorem rocketLauncher_apply : rocketLauncher n (b, sink) = acted b sink (b.rocketLauncher n) := by
  rw [rocketLauncher, Board.rocketLauncher, reading_bind, acted_reading]
  cases b.readVector n "direction" with
  | error e => rfl
  | ok v =>
    dsimp only
    split
    · rfl
    · rfl

/-- A strike is asked for once its cell is known. -/
theorem orbital_apply : orbital n (b, sink) = acted b sink (b.orbital n) := by
  rw [orbital, Board.orbital, reading_bind, acted_reading]
  cases b.readFiniteVector n "target" with
  | error e => rfl
  | ok v =>
    dsimp only
    rw [computing_bind, acted_computing]
    cases Hex.nearest v.1 v.2 with
    | error f => rfl
    | ok cell => rfl

/-- Terrain is asked for once its cell is known to be free. -/
theorem projectTile_apply : projectTile n (b, sink) = acted b sink (b.projectTile n) := by
  rw [projectTile, Board.projectTile, reading_bind, acted_reading]
  cases b.readFiniteVector n "target" with
  | error e => rfl
  | ok v =>
    dsimp only
    rw [computing_bind, acted_computing]
    cases Hex.nearest v.1 v.2 with
    | error f => rfl
    | ok cell =>
      dsimp only
      rw [bind_apply, current]
      dsimp only
      cases b.tile? cell with
      | none => rfl
      | some t => cases t <;> rfl

/-- The loop over a list asks for one blow for each live target of the list. -/
theorem hit_apply (items : List (Value α)) : hit items (b, sink) =
    let hits := (items.filterMap Value.entity?).filter fun id => (b.targets.get? id).isSome
    (.ok hits, b, sink ++ hits.map fun id => .damage id b.settings.weapons.shockDamage) := by
  induction items generalizing sink with
  | nil => exact congrArg (fun es => (Except.ok [], b, es)) (List.append_nil sink).symm
  | cons item items ih =>
    rw [hit, bind_apply, current]
    dsimp only
    cases hid : item.entity? with
    | none =>
      rw [List.filterMap_cons_none hid]
      exact ih sink
    | some id =>
      rw [List.filterMap_cons_some hid]
      cases hlive : (b.targets.get? id).isSome with
      | false =>
        rw [Option.filter_some_neg (by simp [hlive]), List.filter_cons_of_neg (by simp [hlive])]
        exact ih sink
      | true =>
        rw [Option.filter_some_pos (by simp [hlive]), List.filter_cons_of_pos (by simp [hlive])]
        dsimp only
        rw [bind_apply, emit, write]
        dsimp only
        rw [bind_apply, ih]
        exact congrArg (fun es => (Except.ok _, b, es)) (List.append_assoc _ _ _)

/-- A shock asks for its blows one by one, and then for the wave if one of them hit. -/
theorem shock_apply : shock n (b, sink) = acted b sink (b.shock n) := by
  rw [shock, Board.shock, reading_bind, acted_reading]
  cases b.readList n "targets" with
  | error e => rfl
  | ok items =>
    dsimp only
    rw [bind_apply, hit_apply]
    dsimp only
    generalize (items.filterMap Value.entity?).filter _ = hits
    cases hits with
    | nil => rfl
    | cons id hits => exact congrArg (fun es => (Except.ok _, b, es)) (List.append_assoc _ _ _)

/-- What an evaluation comes to on a board and a sink. -/
def settled (b : Board α) (n : Node α) (sink : List (Effect α)) (e : Evaluation α) :
    Except Halt (Value α) × Board α × List (Effect α) :=
  (e.result, b.updateNode n.id fun m => { m with charge := e.charge }, sink ++ e.effects)

section Node

variable {b n} (hb : b.nodes.Keyed Node.id) (hn : n ∈ b.nodes.values)

include hb hn

omit [Scalar α] in
/-- An evaluation that only reads comes to its result. -/
theorem settled_quiet (r : Except Halt (Value α)) :
    settled b n sink (.quiet n r) = (r, b, sink) := by
  rw [settled, Evaluation.quiet, Board.updateNode_eq_self hb hn rfl, List.append_nil]

omit [Scalar α] in
/-- An evaluation that asks for effects comes to its result and them. -/
theorem settled_acting (r : Except Halt (Value α × List (Effect α))) :
    settled b n sink (.acting n r) = acted b sink r := by
  cases r with
  | error h => exact settled_quiet sink hb hn (.error h)
  | ok r => rw [settled, Evaluation.acting, Board.updateNode_eq_self hb hn rfl, acted]

/-- A plasma node writes its charge once or twice, and only behind its checks. -/
theorem plasma_apply : plasma n (b, sink) = settled b n sink (b.plasma n) := by
  rw [plasma, Board.plasma, bind_apply, current]
  dsimp only
  rw [reading_bind]
  cases haim : b.readFiniteVector n "target" with
  | error e =>
    rw [show b.plasmaOrder n = .error e by rw [Board.plasmaOrder, haim]; rfl]
    exact (settled_quiet sink hb hn _).symm
  | ok aim =>
    dsimp only
    rw [reading_bind]
    cases hthreshold : Board.readOptional Board.readNumber b n "threshold" with
    | error e =>
      rw [show b.plasmaOrder n = .error e by rw [Board.plasmaOrder, haim, hthreshold]; rfl]
      exact (settled_quiet sink hb hn _).symm
    | ok threshold =>
      let limit := Board.plasmaLimit b.settings.weapons.plasmaMaxThreshold threshold
      rw [show b.plasmaOrder n = .ok (aim, limit) by
        rw [Board.plasmaOrder, haim, hthreshold]; rfl]
      dsimp only
      rw [bind_apply, setCharge, write]
      dsimp only
      by_cases hcharge : Scalar.intLt (n.charge + 1) limit = true
      · rw [if_pos hcharge, if_pos hcharge, settled, List.append_nil]
        rfl
      · rw [if_neg hcharge, if_neg hcharge, bind_apply, setCharge, write]
        dsimp only
        rw [Board.updateNode_updateNode, bind_apply, current]
        dsimp only
        rw [computing_bind, Board.plasmaShot, show (b.updateNode n.id _).layout = b.layout from rfl]
        cases Hex.nearest aim.1 aim.2 >>= b.layout.centre with
        | error f =>
          rw [settled, List.append_nil]
        | ok center =>
          dsimp only
          rw [bind_apply, emit, write]
          dsimp only
          rw [computing_bind, settled]
          cases Scalar.convert (α := α) (n.charge + 1) with
          | error f => rfl
          | ok power => rfl

/-- **A node that fires write after write leaves behind what its evaluation names.** -/
theorem of_apply : of n (b, sink) = settled b n sink (b.evaluate n) := by
  have hquiet (r : Except Halt (Value α)) (h : b.evaluate n = .quiet n r) :
      (Script.ask fun s : Board α × List (Effect α) => (s.1.evaluate n).result) (b, sink) =
        settled b n sink (b.evaluate n) := by
    rw [h, settled_quiet sink hb hn, ask, h]
    rfl
  rw [of]
  cases hkind : n.kind with
  | lazor =>
    rw [Board.evaluate, hkind, settled_acting sink hb hn]
    exact lazor_apply b n sink
  | rocketLauncher =>
    rw [Board.evaluate, hkind, settled_acting sink hb hn]
    exact rocketLauncher_apply b n sink
  | orbital =>
    rw [Board.evaluate, hkind, settled_acting sink hb hn]
    exact orbital_apply b n sink
  | plasma =>
    rw [Board.evaluate, hkind]
    exact plasma_apply sink hb hn
  | shock =>
    rw [Board.evaluate, hkind, settled_acting sink hb hn]
    exact shock_apply b n sink
  | projectTile =>
    rw [Board.evaluate, hkind, settled_acting sink hb hn]
    exact projectTile_apply b n sink
  | debug =>
    rw [Board.evaluate, hkind, settled_acting sink hb hn]
    rfl
  | constantNumber => exact hquiet _ (by rw [Board.evaluate, hkind])
  | closestEntity => exact hquiet _ (by rw [Board.evaluate, hkind])
  | nearbyEntities => exact hquiet _ (by rw [Board.evaluate, hkind])
  | entityPosition => exact hquiet _ (by rw [Board.evaluate, hkind])
  | entityDirection => exact hquiet _ (by rw [Board.evaluate, hkind])
  | vectorCreate => exact hquiet _ (by rw [Board.evaluate, hkind])
  | vectorNegate => exact hquiet _ (by rw [Board.evaluate, hkind])
  | vectorLength => exact hquiet _ (by rw [Board.evaluate, hkind])
  | vectorMultiply => exact hquiet _ (by rw [Board.evaluate, hkind])
  | numberMultiply => exact hquiet _ (by rw [Board.evaluate, hkind])
  | numberSubtract => exact hquiet _ (by rw [Board.evaluate, hkind])
  | listConstruct => exact hquiet _ (by rw [Board.evaluate, hkind])
  | listLength => exact hquiet _ (by rw [Board.evaluate, hkind])
  | storage => exact hquiet _ (by rw [Board.evaluate, hkind])

end Node

end Firing

/-! ### What an evaluation may name -/

/-- The kinds that ask the world for something. -/
def Kind.acting : List Kind :=
  [.lazor, .rocketLauncher, .orbital, .plasma, .shock, .projectTile, .debug]

/-- An evaluation of a node that names nothing unless it has a value, and then only what the kind of
the node may name. -/
structure Evaluation.Atomic (n : Node α) (e : Evaluation α) : Prop where
  refused : ∀ error, e.result = .error (.refused error) → e.effects = [] ∧ e.charge = n.charge
  charge : e.charge ≠ n.charge → n.kind = .plasma
  effects : e.effects ≠ [] → n.kind ∈ Kind.acting

namespace Evaluation.Atomic

variable {n : Node α}

/-- Who asks for nothing leaves nothing behind. -/
theorem quiet (r : Except Halt (Value α)) : (Evaluation.quiet n r).Atomic n :=
  ⟨fun _ _ => ⟨rfl, rfl⟩, fun h => absurd rfl h, fun h => absurd rfl h⟩

/-- Effects come with a value, or not at all. -/
theorem acting (r : Except Halt (Value α × List (Effect α))) (h : n.kind ∈ Kind.acting) :
    (Evaluation.acting n r).Atomic n := by
  cases r with
  | error e => exact ⟨fun _ _ => ⟨rfl, rfl⟩, fun h => absurd rfl h, fun h => absurd rfl h⟩
  | ok r => exact ⟨nofun, fun h => absurd rfl h, fun _ => h⟩

variable [Scalar α]

/-- A plasma node that has its aim and its limit is not refused any more. -/
theorem plasma (b : Board α) (h : n.kind = .plasma) : (b.plasma n).Atomic n := by
  have hacting : n.kind ∈ Kind.acting := by
    rw [h]
    decide
  rw [Board.plasma]
  split
  · exact .quiet _
  · dsimp only
    split
    · exact ⟨nofun, fun _ => h, fun _ => hacting⟩
    · refine ⟨fun error hr => ?_, fun _ => h, fun _ => hacting⟩
      rw [Board.plasmaShot] at hr
      split at hr
      · cases hr
      · cases hpower : Scalar.convert (α := α) (n.charge + 1) with
        | error f =>
          rw [hpower] at hr
          cases hr
        | ok power =>
          rw [hpower] at hr
          cases hr

/-- **Every evaluation is like this.** -/
theorem evaluate (b : Board α) (n : Node α) : (b.evaluate n).Atomic n := by
  have hacting (h : n.kind ∈ Kind.acting) (r : Except Halt (Value α × List (Effect α))) :
      (Evaluation.acting n r).Atomic n := .acting r h
  rw [Board.evaluate]
  cases hkind : n.kind with
  | lazor => exact hacting (by rw [hkind]; decide) _
  | rocketLauncher => exact hacting (by rw [hkind]; decide) _
  | orbital => exact hacting (by rw [hkind]; decide) _
  | plasma => exact .plasma b hkind
  | shock => exact hacting (by rw [hkind]; decide) _
  | projectTile => exact hacting (by rw [hkind]; decide) _
  | debug => exact hacting (by rw [hkind]; decide) _
  | constantNumber => exact .quiet _
  | closestEntity => exact .quiet _
  | nearbyEntities => exact .quiet _
  | entityPosition => exact .quiet _
  | entityDirection => exact .quiet _
  | vectorCreate => exact .quiet _
  | vectorNegate => exact .quiet _
  | vectorLength => exact .quiet _
  | vectorMultiply => exact .quiet _
  | numberMultiply => exact .quiet _
  | numberSubtract => exact .quiet _
  | listConstruct => exact .quiet _
  | listLength => exact .quiet _
  | storage => exact .quiet _

end Evaluation.Atomic

end HexPulse
