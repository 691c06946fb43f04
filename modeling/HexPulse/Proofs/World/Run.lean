import HexPulse.Proofs.World.Stages
import HexPulse.Scalar.Double

/-!
# HexPulse — Proofs — World — Run

Runs of a world.  Between its frames a world takes requests of any kind, in any order; a request
that is refused changes nothing (`World.perform`).  A run keeps its inputs and its frames, the last
ones first, and only frames without a fault (`Run`).

* `Run.consistent`: on every board of a run tiles and tables agree.
-/

namespace HexPulse

variable {α : Type}

/-! ### Requests -/

/-- What can be asked of a world between two frames. -/
inductive Request (α : Type) where
  | placeNode (cell : Hex) (kind : String)
  | removeNode (id : Int)
  | clearCell (cell : Hex)
  | placeHeart (cell : Hex)
  | placeTerrain (cell : Hex) (health : Option α)
  | bind (id : Int) (direction port : String)
  | unbind (id : Int) (direction : String)
  | setConstant (id : Int) (value : Option (Value α))
  | addTarget (cell : Hex) (health : Option α) (path : List Hex)

namespace World

open Board

/-- The world with an edited board; the same world if the edit was refused. -/
def edited {ε : Type} (w : World α) : Except ε (Board α) → World α
  | .ok b => { w with board := b }
  | .error _ => w

/-- An edit is one change of the board, or it is refused. -/
theorem aside_edited {ε : Type} {w : World α} {e : Except ε (Board α)}
    (h : ∀ b, e = .ok b → Change w.board b) : Aside w (w.edited e) := by
  cases e with
  | error _ => exact .refl w
  | ok b => exact .one (h b rfl) rfl

theorem aside_edited_map {ε β : Type} {w : World α} {e : Except ε (β × Board α)}
    (h : ∀ x b, e = .ok (x, b) → Change w.board b) : Aside w (w.edited (e.map (·.2))) := by
  cases e with
  | error _ => exact .refl w
  | ok p => exact .one (h p.1 p.2 rfl) rfl

variable [Scalar α]

/-- The world after a request. -/
def perform (w : World α) : Request α → World α
  | .placeNode cell kind => w.edited ((w.board.placeNode cell kind).map (·.2))
  | .removeNode id => w.edited ((w.board.removeNode id).map (·.2))
  | .clearCell cell => w.edited ((w.board.clearCell cell).map (·.2))
  | .placeHeart cell => w.edited ((w.board.placeHeart cell).map (·.2))
  | .placeTerrain cell health => w.edited ((w.board.placeTerrain cell health).map (·.2))
  | .bind id direction port => w.edited (w.board.bind id direction port)
  | .unbind id direction => w.edited (w.board.unbind id direction)
  | .setConstant id value => w.edited (w.board.setConstant id value)
  | .addTarget cell health path =>
    match w.addTarget cell health path with
    | .ok (_, w') => w'
    | .error _ => w

/-- A request changes the board, and asks nothing of its nodes. -/
theorem aside_perform (w : World α) (r : Request α) : Aside w (w.perform r) := by
  cases r with
  | placeNode cell kind => exact aside_edited_map fun _ _ h => .placeNode h
  | removeNode id => exact aside_edited_map fun _ _ h => .removeNode h
  | clearCell cell => exact aside_edited_map fun _ _ h => .clearCell h
  | placeHeart cell => exact aside_edited_map fun _ _ h => .placeHeart h
  | placeTerrain cell health => exact aside_edited_map fun _ _ h => .placeTerrain h
  | bind id direction port => exact aside_edited fun _ h => .bind h
  | unbind id direction => exact aside_edited fun _ h => .unbind h
  | setConstant id value => exact aside_edited fun _ h => .setConstant h
  | addTarget cell health path =>
    rw [perform]
    split
    · next h =>
      obtain ⟨_, -, h⟩ := exists_of_bind_eq_ok h
      obtain ⟨-, rfl⟩ := Prod.mk.inj (Except.ok.inj h)
      exact w.aside_withTargets _
    · exact .refl w

end World

/-! ### Runs -/

/-- What a world is given: a request, or the time of a frame. -/
inductive Input (α : Type) where
  | request (r : Request α)
  | frame (dt : α)

variable [Scalar α]

/-- A run of a world: its inputs and its frames, the last ones first, and the world at its end.
The frames are those of `step`, none of which meets a fault. -/
inductive Run (step : World α → α → Progress (World α)) (w₀ : World α) :
    List (Input α) → List (Frame α) → World α → Prop where
  | start : Run step w₀ [] [] w₀
  | request {inputs : List (Input α)} {frames : List (Frame α)} {w : World α}
      (h : Run step w₀ inputs frames w) (r : Request α) :
      Run step w₀ (.request r :: inputs) frames (w.perform r)
  | frame {inputs : List (Input α)} {frames : List (Frame α)} {w : World α} {dt : α}
      (h : Run step w₀ inputs frames w) (faultless : (step w dt).fault = none) :
      Run step w₀ (.frame dt :: inputs) (⟨w, dt⟩ :: frames) (step w dt).state

namespace Run

variable {w₀ w : World α} {inputs : List (Input α)} {frames : List (Frame α)}

/-- A run goes through each of its frames. -/
theorem split {step : World α → α → Progress (World α)} {later past : List (Frame α)} {f : Frame α}
    (h : Run step w₀ inputs frames w) (hf : frames = later ++ f :: past) :
    (∃ inputs', Run step w₀ inputs' past f.world) ∧ (step f.world f.dt).fault = none := by
  induction h generalizing later with
  | start => cases later <;> cases hf
  | request _ r ih => exact ih hf
  | frame h faultless ih =>
    cases later with
    | nil =>
      obtain ⟨rfl, rfl⟩ := List.cons.inj hf
      exact ⟨⟨_, h⟩, faultless⟩
    | cons g later => exact ih (List.cons.inj hf).2

/-- Tiles and tables agree all the time. -/
theorem consistent (h₀ : w₀.board.Consistent) (h : Run World.step w₀ inputs frames w) :
    w.board.Consistent := by
  induction h with
  | start => exact h₀
  | request _ r ih => exact (World.aside_perform _ r).board.consistent ih
  | @frame _ _ w dt _ faultless ih =>
    exact (Frame.stages (f := ⟨w, dt⟩) faultless).ended_consistent ih

/-- One more frame. -/
theorem snoc {f : Frame α} (h : Run World.step w₀ inputs frames f.world)
    (faultless : (f.world.step f.dt).fault = none) :
    Run World.step w₀ (.frame f.dt :: inputs) (f :: frames) f.ended :=
  h.frame faultless

/-- Requests one after the other. -/
theorem requests {step : World α → α → Progress (World α)} (h : Run step w₀ inputs frames w)
    (rs : List (Request α)) :
    Run step w₀ (rs.reverse.map .request ++ inputs) frames (rs.foldl World.perform w) := by
  induction rs generalizing inputs w with
  | nil => exact h
  | cons r rs ih =>
    rw [List.reverse_cons, List.map_append, List.append_assoc]
    exact ih (h.request r)

end Run

/-! ### A small run -/

namespace Beacon

/-- The settings for a small board. -/
def settings : Settings Float :=
  { Settings.standard with grid := { GridSettings.standard with radius := 2 } }

/-- A heart, a constant beside it, and a product that reads the constant. -/
def requests : List (Request Float) := [
  .placeHeart ⟨0, 0⟩,
  .placeNode ⟨1, 0⟩ "ConstantNumber",
  .setConstant 2 (some (.number 2.0)),
  .placeNode ⟨2, 0⟩ "NumberMultiply",
  .bind 3 "north_west" "a"]

/-- The world after these requests. -/
@[irreducible] def world : World Float := requests.foldl World.perform (.new .builtin settings .none)

/-- The frame in which the heart beats. -/
def pulse : Frame Float := ⟨world, 10.0⟩

/-- The frame behind it. -/
def echo : Frame Float := ⟨pulse.ended, 0.5⟩

/-- The beacon runs its two frames, and meets no fault. -/
theorem run_echo : ∃ inputs,
    Run World.step (.new .builtin settings .none) inputs [echo, pulse] echo.ended := by
  have hworld : Run World.step (.new .builtin settings .none) (requests.reverse.map .request ++ [])
      [] world := by
    unfold world
    exact Run.requests .start requests
  have hpulse := Run.snoc (f := pulse) hworld (by decide +kernel)
  exact ⟨_, Run.snoc (f := echo) hpulse (by decide +kernel)⟩

end Beacon

end HexPulse
