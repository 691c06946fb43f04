/-!
# HexPulse — Fault

The arithmetic faults.  A fault stops the computation that met it; it is never recorded as a
node's result.  `Progress` is how far a computation on a state came: the state it reached is
kept also where a fault stopped it.
-/

namespace HexPulse

/-- What can go wrong in arithmetic. -/
inductive Fault where
  | nanToInteger
  | infinityToInteger
  | integerTooLarge
  | divisionByZero
  | indexOutOfRange
  | indexTooWide
  deriving DecidableEq, Repr

/-- The text shown for a fault. -/
def Fault.message : Fault → String
  | .nanToInteger => "cannot convert float NaN to integer"
  | .infinityToInteger => "cannot convert float infinity to integer"
  | .integerTooLarge => "int too large to convert to float"
  | .divisionByZero => "float division by zero"
  | .indexOutOfRange => "list index out of range"
  | .indexTooWide => "cannot fit 'int' into an index-sized integer"

/-- The bound of the places that can be asked for. -/
def widestIndex : Int := 0x8000000000000000

/-- The member at a place of a list; a negative place counts from the end. -/
def memberAt {β : Type} (xs : List β) (place : Int) : Except Fault β :=
  if place < -widestIndex ∨ widestIndex ≤ place then .error .indexTooWide
  else
    let index := if place < 0 then place + xs.length else place
    match if index < 0 then none else xs[index.toNat]? with
    | some x => .ok x
    | none => .error .indexOutOfRange

/-- The state a computation reached, and the fault that stopped it there, if one did. -/
structure Progress (σ : Type) where
  state : σ
  fault : Option Fault

namespace Progress

variable {σ τ β : Type}

/-- A computation that met no fault. -/
def done (s : σ) : Progress σ := ⟨s, none⟩

/-- A computation that a fault stopped in state `s`. -/
def halt (s : σ) (f : Fault) : Progress σ := ⟨s, some f⟩

/-- Goes on from the state reached, unless a fault stopped the computation there. -/
def andThen (p : Progress σ) (next : σ → Progress σ) : Progress σ :=
  match p.fault with
  | none => next p.state
  | some _ => p

/-- The same progress, seen as a part of a larger state. -/
def map (f : σ → τ) (p : Progress σ) : Progress τ := ⟨f p.state, p.fault⟩

/-- One step per element, in order, up to the first fault. -/
def fold (step : σ → β → Progress σ) : List β → σ → Progress σ
  | [], s => done s
  | x :: xs, s => (step s x).andThen (fold step xs)

/-- Changes the elements of a list one after the other, up to the first fault; the elements
behind it stay as they are. -/
def each (f : β → Progress β) : List β → Progress (List β)
  | [] => done []
  | x :: xs =>
    let p := f x
    match p.fault with
    | none => (each f xs).map (p.state :: ·)
    | some e => halt (p.state :: xs) e

/-- A computation that keeps no part of the state where it fails. -/
def ofExcept (s : σ) : Except Fault σ → Progress σ
  | .ok t => done t
  | .error f => halt s f

@[simp] theorem done_fault (s : σ) : (done s).fault = none := rfl
@[simp] theorem done_state (s : σ) : (done s).state = s := rfl
@[simp] theorem andThen_done (s : σ) (next : σ → Progress σ) : (done s).andThen next = next s := rfl
@[simp] theorem andThen_halt (s : σ) (f : Fault) (next : σ → Progress σ) :
    (halt s f).andThen next = halt s f := rfl

theorem andThen_fault_eq_none {p : Progress σ} {next : σ → Progress σ}
    (h : (p.andThen next).fault = none) : p.fault = none ∧ p.andThen next = next p.state := by
  unfold andThen at h ⊢
  split at h <;> simp_all

end Progress

end HexPulse
