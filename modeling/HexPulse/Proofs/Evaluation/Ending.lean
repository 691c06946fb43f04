import HexPulse.Evaluation

/-!
# HexPulse — Proofs — Evaluation — Ending

How an evaluation may end.  `Ends Q E x` says both at once: if `x` has a value, it is one of `Q`,
and if it halts, it halts for a cause of `E`.
-/

namespace HexPulse

variable {α β γ : Type}

/-- The computation ends with a value of `Q`, or halts for a cause of `E`. -/
def Ends (Q : β → Prop) (E : Halt → Prop) : Except Halt β → Prop
  | .ok v => Q v
  | .error h => E h

namespace Ends

variable {Q R : β → Prop} {E F : Halt → Prop} {x : Except Halt β}

theorem of_ok {v : β} (h : Ends Q E x) (hx : x = .ok v) : Q v := by
  rw [hx] at h
  exact h

theorem of_error {halt : Halt} (h : Ends Q E x) (hx : x = .error halt) : E halt := by
  rw [hx] at h
  exact h

/-- What ends as promised keeps every weaker promise. -/
theorem mono (h : Ends Q E x) (hQ : ∀ v, Q v → R v) (hE : ∀ halt, E halt → F halt) :
    Ends R F x := by
  cases x with
  | ok v => exact hQ v h
  | error halt => exact hE halt h

/-- A chain ends as promised if each link does. -/
theorem bind {S : γ → Prop} {f : β → Except Halt γ} (h : Ends Q E x)
    (hf : ∀ v, Q v → Ends S E (f v)) : Ends S E (x >>= f) := by
  cases x with
  | ok v => exact hf v h
  | error halt => exact h

theorem reading {r : Except PortError β} (h : ∀ e, r = .error e → E (.refused e)) :
    Ends (fun v => r = .ok v) E (Halt.ofReading r) := by
  cases r with
  | ok v => rfl
  | error e => exact h e rfl

theorem arithmetic {r : Except Fault β} (h : ∀ f, r = .error f → E (.fault f)) :
    Ends (fun v => r = .ok v) E (Halt.ofArithmetic r) := by
  cases r with
  | ok v => rfl
  | error f => exact h f rfl

/-- A node that acts ends in the value beside its effects. -/
theorem acting {Q : Value α → Prop} {n : Node α} {x : Except Halt (Value α × List (Effect α))}
    (h : Ends (fun r => Q r.1) E x) : Ends Q E (Evaluation.acting n x).result := by
  cases x with
  | ok r => exact h
  | error halt => exact h

end Ends

end HexPulse
