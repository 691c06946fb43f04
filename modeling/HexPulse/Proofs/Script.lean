/-!
# HexPulse — Proofs — Script

Computations told write after write.  A function that returns a new state, or else an error and no
state, cannot tell whether something was written before the error.  A script works on a state that
keeps what was written to it, also where the script stops.
-/

namespace HexPulse

/-- A computation on a state; where it stops, whatever it wrote before remains written. -/
def Script (ε σ β : Type) : Type := σ → Except ε β × σ

namespace Script

variable {ε σ β γ : Type}

instance : Monad (Script ε σ) where
  pure x := fun s => (.ok x, s)
  bind x next := fun s =>
    match x s with
    | (.ok y, t) => next y t
    | (.error e, t) => (.error e, t)

/-- The state as it was written so far. -/
def current : Script ε σ σ := fun s => (.ok s, s)

/-- Writes to the state. -/
def write (f : σ → σ) : Script ε σ Unit := fun s => (.ok (), f s)

def stop (e : ε) : Script ε σ β := fun s => (.error e, s)

/-- A question to the state. -/
def ask (f : σ → Except ε β) : Script ε σ β := fun s => (f s, s)

/-- The end of a script that stops before it writes anything, or else writes a new state. -/
def ending (s : σ) : Except ε (β × σ) → Except ε β × σ
  | .ok (x, t) => (.ok x, t)
  | .error e => (.error e, s)

/-- A script that goes on goes on with what is written so far; one that stops leaves it. -/
theorem bind_apply (x : Script ε σ β) (next : β → Script ε σ γ) (s : σ) :
    (x >>= next) s =
      match x s with
      | (.ok y, t) => next y t
      | (.error e, t) => (.error e, t) := rfl

end Script

end HexPulse
