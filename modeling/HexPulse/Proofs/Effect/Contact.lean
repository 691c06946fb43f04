import HexPulse.Proofs.Effect.Blast
import HexPulse.Proofs.Scalar.Sign
import HexPulse.Settings.Intake

/-!
# HexPulse — Proofs — Effect — Contact

What becomes of a rocket.  In a step the rockets take their turns (`Rocket.turns`), each against the
targets as the earlier ones left them.  A rocket is spent by what it dealt, not by what it touched,
and the two come apart for one amount only: doubles of one sign do not add up to zero, so what was
dealt is zero only if nothing was touched, or if the rockets do zero damage (`Rocket.dealt_hit`).

* `Rocket.rest_advance`: when a rocket is spent, and where it flies on.
* `InFlight.turn_of_rocket`: the turn of any rocket in a step.
-/

namespace HexPulse

variable {α : Type} [Scalar α]

open Blast

/-! ### Turns -/

namespace Outcome

variable {β : Type} (step : β → Targets α → Outcome α (Option β))

/-- What was dealt before is not looked at. -/
theorem rest_collect_dealt (xs : List β) (ts : Targets α) (dealt dealt' : α) :
    (collect step xs ts dealt).rest = (collect step xs ts dealt').rest := by
  induction xs generalizing ts dealt dealt' with
  | nil => rfl
  | cons x xs ih => exact congrArg ((step x ts).rest.toList ++ ·) (ih _ _ _)

theorem rest_collect_cons (x : β) (xs : List β) (ts : Targets α) (dealt dealt' : α) :
    (collect step (x :: xs) ts dealt).rest =
      (step x ts).rest.toList ++ (collect step xs (step x ts).targets dealt').rest :=
  congrArg ((step x ts).rest.toList ++ ·) (rest_collect_dealt step xs _ _ _)

/-- The second part of a list is advanced against the targets that the first leaves behind. -/
theorem rest_collect_append (xs ys : List β) (ts : Targets α) (dealt dealt' : α) :
    (collect step (xs ++ ys) ts dealt).rest = (collect step xs ts dealt).rest ++
      (collect step ys (collect step xs ts dealt).targets dealt').rest := by
  induction xs generalizing ts dealt with
  | nil => exact rest_collect_dealt step ys ts dealt dealt'
  | cons x xs ih =>
    have hstep := congrArg ((step x ts).rest.toList ++ ·)
      (ih (step x ts).targets (dealt + (step x ts).dealt))
    exact hstep.trans (List.append_assoc _ _ _).symm

end Outcome

namespace Rocket

variable (w : WeaponSettings α) (dt : α) (r : Rocket α) (ts : Targets α)

/-- Rockets that take their turns one after the other. -/
def turns (rs : List (Rocket α)) : Outcome α (List (Rocket α)) :=
  Outcome.collect (advance w dt) rs ts 0.0

/-- The rocket is close to a target that is alive. -/
def Touches : Prop := ∃ t ∈ ts.table.values, (r.blast w).Reaches w t

instance : Decidable (r.Touches w ts) := List.decidableBEx _ _

/-- The rocket has come as far from the origin as rockets get. -/
def Far : Prop := w.rocketMaxDistance ≤ Scalar.hypot r.position.x r.position.y

instance : Decidable (r.Far w) := Scalar.decLe _ _

/-- The rocket where its direction takes it. -/
def moved : Rocket α :=
  { r with position := ⟨r.position.x + r.direction.1 * w.rocketSpeed * dt,
    r.position.y + r.direction.2 * w.rocketSpeed * dt⟩ }

/-- A hit finds nobody exactly if the rocket touches nobody. -/
theorem within_eq_nil_iff {w : WeaponSettings α} {r : Rocket α} {ts : Targets α} :
    ts.within r.position (w.rocketRadius + w.targetRadius) = [] ↔ ¬ r.Touches w ts := by
  rw [List.eq_nil_iff_forall_not_mem, Touches, not_exists]
  exact forall_congr' fun t => not_congr (mem_within_iff (b := r.blast w))

/-- A rocket that touches nothing harms nothing. -/
theorem on_of_not_touches {w : WeaponSettings α} {r : Rocket α} {ts : Targets α}
    (h : ¬ r.Touches w ts) : (r.blast w).on w ts = ts :=
  congrArg (List.foldl (fun (ts : Targets α) (t : Target α) => ts.damage t.id w.rocketDamage) ts)
    (within_eq_nil_iff.mpr h)

/-- Among others a rocket takes its turn against the targets that those before it leave behind. -/
theorem rest_turns_append (before after : List (Rocket α)) :
    (turns w dt ts (before ++ r :: after)).rest = (turns w dt ts before).rest ++
      (r.advance w dt (turns w dt ts before).targets).rest.toList ++
        (turns w dt (r.advance w dt (turns w dt ts before).targets).targets after).rest := by
  rw [turns, Outcome.rest_collect_append _ before (r :: after) ts 0.0 0.0,
    Outcome.rest_collect_cons _ r after _ 0.0 0.0, List.append_assoc]
  rfl

end Rocket

theorem Targets.sound_turns {w : WeaponSettings α} {ts : Targets α} (hs : ts.Sound) (dt : α)
    (rs : List (Rocket α)) : (Rocket.turns w dt ts rs).targets.Sound := by
  have hturns := InFlight.targets_rockets w dt ⟨rs, [], [], []⟩ ts
  rw [Rocket.turns, hturns]
  exact sound_play hs _

/-! ### Rockets over doubles -/

namespace Rocket

variable (w : WeaponSettings Float) (dt : Float) (r : Rocket Float) (ts : Targets Float)

/-- Nothing is dealt by a rocket that touches nothing, and by one that does zero damage. -/
theorem dealt_hit : ((ts.hit w r.position w.rocketRadius w.rocketDamage).2 == 0.0) = true ↔
    (r.Touches w ts → (w.rocketDamage == 0.0) = true) := by
  by_cases h : r.Touches w ts
  · have hne : ts.within r.position (w.rocketRadius + w.targetRadius) ≠ [] :=
      fun hnil => within_eq_nil_iff.mp hnil h
    rw [Targets.hit, Double.beq_zero_foldl_add hne]
    exact ⟨fun hzero _ => hzero, fun hzero => hzero h⟩
  · have hzero : ((0.0 : Float) == 0.0) = true := by decide +kernel
    rw [Targets.hit, within_eq_nil_iff.mpr h]
    exact ⟨fun _ htouch => absurd htouch h, fun _ => hzero⟩

/-- **A rocket is spent when it touches a target**, unless it does zero damage, and when it has come
far from the origin.  Otherwise it flies on. -/
theorem rest_advance : (r.advance w dt ts).rest =
    if (r.Touches w ts ∧ ¬ (w.rocketDamage == 0.0) = true) ∨ r.Far w then none
    else some (r.moved w dt) := by
  have hspent : (!((ts.hit w r.position w.rocketRadius w.rocketDamage).2 == 0.0)) = true ∨
      w.rocketMaxDistance ≤ Scalar.hypot r.position.x r.position.y ↔
        (r.Touches w ts ∧ ¬ (w.rocketDamage == 0.0) = true) ∨ r.Far w := by
    refine or_congr_left ?_
    rw [Bool.not_eq_true', ← Bool.not_eq_true, dealt_hit, Classical.not_imp]
  rw [advance]
  dsimp only
  by_cases h : (r.Touches w ts ∧ ¬ (w.rocketDamage == 0.0) = true) ∨ r.Far w
  · rw [if_pos (hspent.mpr h), if_pos h]
  · rw [if_neg (mt hspent.mp h), if_neg h]
    rfl

end Rocket

open Rocket

/-- **The turn of a rocket.**  When a rocket has its turn, every live target that is close enough
loses the damage of rockets once, and no other target changes.  The rocket is left out afterwards if
there was such a target and the damage is not zero.  Where there was none it harms nothing, and it
is left out only if it is far from the origin. -/
theorem InFlight.turn_of_rocket {w : WeaponSettings Float} (dt : Float) {f : InFlight Float}
    {ts : Targets Float} (hs : ts.Sound) {before after : List (Rocket Float)} {r : Rocket Float}
    (hf : f.rockets = before ++ r :: after) :
    let now := (turns w dt ts before).targets
    let turn := r.advance w dt now
    (f.advance w dt ts).state.rest.rockets =
        (turns w dt ts before).rest ++ turn.rest.toList ++ (turns w dt turn.targets after).rest ∧
      turn.targets = ⟨now.table.mapValues ((r.blast w).strike w), now.nextId⟩ ∧
      (r.Touches w now → ¬ (w.rocketDamage == 0.0) = true → turn.rest = none) ∧
      (¬ r.Touches w now → turn.targets = now) ∧
      (¬ r.Touches w now ∨ (w.rocketDamage == 0.0) = true →
        turn.rest = if r.Far w then none else some (r.moved w dt)) := by
  intro now turn
  refine ⟨?_, ?_, fun htouch hdamage => ?_, fun htouch => ?_, fun hharmless => ?_⟩
  · have hrockets : (f.advance w dt ts).state.rest.rockets = (turns w dt ts f.rockets).rest := rfl
    rw [hrockets, hf]
    exact rest_turns_append w dt r ts before after
  · exact (r.targets_advance w dt now).trans (on_eq (Targets.sound_turns hs dt before))
  · exact (r.rest_advance w dt now).trans (if_pos (.inl ⟨htouch, hdamage⟩))
  · exact (r.targets_advance w dt now).trans (on_of_not_touches htouch)
  · -- a rocket without damage is not spent by a touch, so that only the distance can end it
    have hunspent : ¬ (r.Touches w now ∧ ¬ (w.rocketDamage == 0.0) = true) := by
      rwa [not_and_or, not_not]
    exact (r.rest_advance w dt now).trans (if_congr (or_iff_right hunspent) rfl rfl)

/-- A target at the origin. -/
def lone : Targets Float := (Targets.empty.add ⟨0.0, 0.0⟩ 30.0 [] 0.0).2

/-- A rocket at the origin. -/
def launched : Rocket Float := ⟨⟨0.0, 0.0⟩, (1.0, 0.0)⟩

/-- Two rockets at the origin. -/
def salvo : InFlight Float := ⟨[launched, launched], [], [], []⟩

/-- The first of two rockets is spent on the target, which does not live to stop the second. -/
theorem InFlight.turn_of_rocket_salvo :
    let w : WeaponSettings Float := .standard
    lone.Sound ∧ salvo.rockets = [] ++ launched :: [launched] ∧
      salvo.rockets = [launched] ++ launched :: [] ∧ launched.Touches w lone ∧
      ¬ (w.rocketDamage == 0.0) = true ∧
      ¬ launched.Touches w (turns w 0.1 lone [launched]).targets ∧
      (salvo.advance w 0.1 lone).state.rest.rockets = [launched.moved w 0.1] := by
  intro w
  have hs : lone.Sound := Targets.Sound.empty.add ..
  have htouch : launched.Touches w lone := by decide +kernel
  have hdamage : ¬ (w.rocketDamage == 0.0) = true := by decide +kernel
  have hmiss : ¬ launched.Touches w (turns w 0.1 lone [launched]).targets := by decide +kernel
  have hnear : ¬ launched.Far w := by decide +kernel
  have hfirst : salvo.rockets = [] ++ launched :: [launched] := rfl
  have hsecond : salvo.rockets = [launched] ++ launched :: [] := rfl
  obtain ⟨-, -, hspent, -⟩ := turn_of_rocket (w := w) 0.1 hs hfirst
  obtain ⟨hrockets, -, -, -, hflies⟩ := turn_of_rocket (w := w) 0.1 hs hsecond
  have hgone : (turns w 0.1 lone [launched]).rest = [] :=
    congrArg (fun rest : Option (Rocket Float) => rest.toList ++ []) (hspent htouch hdamage)
  refine ⟨hs, hfirst, hsecond, htouch, hdamage, hmiss, ?_⟩
  rw [hrockets, hgone, hflies (.inl hmiss), if_neg hnear]
  rfl

/-- Rockets that do zero damage. -/
def duds : WeaponSettings Float := { WeaponSettings.standard with rocketDamage := 0.0 }

/-- Settings may ask for zero damage, and the rocket that touches a target then flies on. -/
theorem InFlight.rocket_survives_contact :
    WeaponSettings.read (.record [("rocket_damage", .int 0)]) = pure duds ∧ lone.Sound ∧
      launched.Touches duds lone ∧
      ((⟨[launched], [], [], []⟩ : InFlight Float).advance duds 0.1 lone).state.rest.rockets =
        [launched.moved duds 0.1] := by
  have hfate : (launched.advance duds 0.1 lone).rest = some (launched.moved duds 0.1) := by
    rw [Rocket.rest_advance]
    exact if_neg (by decide +kernel)
  refine ⟨rfl, Targets.Sound.empty.add .., by decide +kernel, ?_⟩
  exact congrArg (fun rest : Option (Rocket Float) => rest.toList ++ []) hfate

end HexPulse
