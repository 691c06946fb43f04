import HexPulse.Hex
import HexPulse.Settings

/-!
# HexPulse — Heart

Hearts beat at a period that shortens with their health.  A heart beats at most once per frame,
however long the frame was.  All hearts regenerate together, on one timer.
-/

namespace HexPulse

variable {α : Type} [Scalar α]

structure Heart (α : Type) where
  id : Int
  position : Hex
  health : α
  period : α
  /-- the time since the last beat -/
  elapsed : α
  beats : Int
  deriving Repr

namespace Heart

def alive (h : Heart α) : Bool := (0.0 : α) < h.health

/-- The heart after a beat that came due with some time elapsed.  The next period goes by the
health, and at most one whole period is carried over. -/
def beat (s : HeartSettings α) (h : Heart α) (elapsed : α) : Heart α :=
  let period := s.periodBase / h.health
  { h with
    beats := h.beats + 1
    period := period
    elapsed := Scalar.lesser (elapsed - h.period) period }

/-- The heart after some time, and whether it beats. -/
def advance (s : HeartSettings α) (dt : α) (h : Heart α) : Heart α × Bool :=
  if h.alive then
    let elapsed := h.elapsed + dt
    if elapsed < h.period then ({ h with elapsed := elapsed }, false) else (h.beat s elapsed, true)
  else (h, false)

/-- The heart with some more health, if it is alive. -/
def heal (h : Heart α) (amount : α) : Heart α :=
  if h.alive then { h with health := h.health + amount } else h

end Heart

/-- The timer on which all hearts regenerate. -/
structure Regeneration (α : Type) where
  elapsed : α
  deriving Repr

namespace Regeneration

/-- The timer at its start. -/
def start : Regeneration α := ⟨0.0⟩

/-- The timer after some time, and whether it heals. -/
def advance (s : HeartSettings α) (dt : α) (r : Regeneration α) : Regeneration α × Bool :=
  let elapsed := r.elapsed + dt
  if elapsed < s.healInterval then (⟨elapsed⟩, false) else (⟨elapsed - s.healInterval⟩, true)

end Regeneration

end HexPulse
