import HexPulse.Settings
import HexPulse.Target

/-!
# HexPulse — Spawning

New targets appear on a ring around a heart that beats, by chance.  The random numbers are given
in advance, or come from a generator; when there are none left, nothing appears any more.
-/

namespace HexPulse

variable {α : Type} [Scalar α]

/-- The random numbers that are still to come: first those that are given, then those of a
generator. -/
structure Draws (α : Type) where
  /-- numbers between zero and one -/
  chances : List α
  choices : List Int
  generator : Option StdGen := none
  deriving Repr

namespace Draws

/-- No random numbers. -/
def none : Draws α := ⟨[], [], .none⟩

/-- Random numbers from a seed, without end. -/
def ofSeed (seed : Nat) : Draws α := ⟨[], [], some (mkStdGen seed)⟩

/-- The share of its range that lies below a number of the generator. -/
def share (n : Nat) : α :=
  Scalar.ofInt ((n : Int) - stdRange.1) / Scalar.ofInt ((stdRange.2 : Int) - stdRange.1 + 1)

/-- The next chance; certainty that nothing happens when there is none. -/
def chance (d : Draws α) : α × Draws α :=
  match d.chances, d.generator with
  | x :: xs, _ => (x, { d with chances := xs })
  | [], some g => (share (stdNext g).1, { d with generator := some (stdNext g).2 })
  | [], .none => (1.0, d)

/-- The next choice among `n` things; the first one when there is none. -/
def choice (d : Draws α) (n : Nat) : Nat × Draws α :=
  match d.choices, d.generator with
  | x :: xs, _ => ((x % n).toNat, { d with choices := xs })
  | [], some g => ((stdNext g).1 % n, { d with generator := some (stdNext g).2 })
  | [], .none => (0, d)

end Draws

/-- The targets and the random numbers after a roll, and the target that appeared. -/
structure Roll (α : Type) where
  targets : Targets α
  draws : Draws α
  spawned : Option (Target α)

/-- Rolls for a target around a heart.  It appears on a cell of the ring that is on the board and
walks straight to the heart. -/
def SpawnSettings.roll (s : SpawnSettings α) (l : Layout α) (inBounds : Hex → Bool) (heart : Hex)
    (ts : Targets α) (draws : Draws α) : Progress (Roll α) :=
  if s.enabled then
    let (chance, draws) := draws.chance
    if s.spawnChance ≤ chance then .done ⟨ts, draws, none⟩
    else
      let ring := (heart.ring s.spawnRing).filter inBounds
      if ring.isEmpty then .done ⟨ts, draws, none⟩
      else
        let (index, draws) := draws.choice ring.length
        let cell := ring.getD index heart
        .ofExcept ⟨ts, draws, none⟩ do
          let path ← Hex.line α cell heart
          let (target, ts) ← ts.addAt l cell s.targetHealth path s.targetSpeed
          return ⟨ts, draws, some target⟩
  else .done ⟨ts, draws, none⟩

end HexPulse
