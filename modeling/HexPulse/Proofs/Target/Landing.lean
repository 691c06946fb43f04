import HexPulse.Proofs.Scalar.Continuum
import HexPulse.Proofs.Scalar.Ordered
import HexPulse.Proofs.Target.Rounds
import Mathlib.Algebra.BigOperators.Group.List.Basic

/-!
# HexPulse — Proofs — Target — Landing

Walks come to an end where moves over the full distance land (`Walker.SureFooted`), as they do
where arithmetic is that of the real numbers (`sureFooted_of_real`).  A waypoint then takes two
rounds at most: a move that lands on it, and one in which it is passed; a move that falls short uses
up the budget (`SureFooted.move`).

* `Target.follow_ends_within`: how many rounds a walk takes, what they do, and how it ends.
* `Target.gone_eq`: a target that does not get to the end of its path goes as far as its speed takes
  it, where arithmetic is exact.
-/

namespace HexPulse

variable {α : Type} [Scalar α]

namespace Walker

variable {l : Layout α} {w v : Walker α} {leg : Leg α} {legs : List (Leg α)}

/-- A move over the full distance lands on the point. -/
def Lands (p goal : Point α) : Prop :=
  let d := p.distance goal
  (0.0 : α) < d → p.x + (goal.x - p.x) / d * d = goal.x ∧ p.y + (goal.y - p.y) / d * d = goal.y

instance [DecidableEq α] (p goal : Point α) : Decidable (Lands p goal) :=
  inferInstanceAs (Decidable (_ → _ ∧ _))

/-- What is asked of arithmetic where a walker stands: a move over the full distance lands on the
point that it goes to, this point is at no distance from itself, and of the budget nothing is left
when it is taken away. -/
structure SureFooted (l : Layout α) (w : Walker α) : Prop where
  lands : ∀ goal, w.goal l = .ok goal → Lands w.target.position goal
  same : ∀ goal, w.goal l = .ok goal → goal.distance goal = 0.0
  spent : ¬ (0.0 : α) < w.budget - w.budget

/-- Doubles are only asked to land on points that are finite. -/
theorem sureFooted_of_lands {l : Layout Float} {w : Walker Float}
    (h : ∀ goal, w.goal l = .ok goal → Double.isFinite goal.x = true ∧
      Double.isFinite goal.y = true ∧ Lands w.target.position goal) : w.SureFooted l where
  lands goal hgoal := (h goal hgoal).2.2
  same goal hgoal := Double.distance_same (h goal hgoal).1 (h goal hgoal).2.1
  spent := Double.not_pos_sub_same w.budget

open scoped Continuum in
/-- Nothing is asked of real numbers. -/
theorem sureFooted_of_real (l : Layout ℝ) (w : Walker ℝ) : w.SureFooted l where
  lands goal _ hpos := by
    have hne : w.target.position.distance goal ≠ 0 := ne_of_gt ((Scalar.Faithful.pos_iff _).mp hpos)
    rw [div_mul_cancel₀ _ hne, div_mul_cancel₀ _ hne]
    exact ⟨add_sub_cancel _ _, add_sub_cancel _ _⟩
  same goal _ := by
    have hsame : goal.distance goal =
        √((goal.x - goal.x) * (goal.x - goal.x) + (goal.y - goal.y) * (goal.y - goal.y)) := rfl
    rw [hsame, sub_self, sub_self, mul_zero, add_zero, Real.sqrt_zero]
    exact (Scalar.Faithful.real_zero (α := ℝ)).symm
  spent := by
    rw [sub_self, Scalar.Faithful.pos_iff]
    exact lt_irrefl _

/-! ### The number of rounds -/

/-- Passing leaves one waypoint less ahead. -/
theorem ahead_pass (h : w.Going) : w.pass.target.ahead + 1 = w.target.ahead := by
  obtain ⟨-, hplace⟩ := h
  change (w.target.path.length - (w.target.waypoint + 1) : Int).toNat + 1 =
    (w.target.path.length - w.target.waypoint : Int).toNat
  omega

theorem ahead_move (w : Walker α) (goal : Point α) : (w.move goal).target.ahead = w.target.ahead :=
  rfl

theorem ahead_pos (h : w.Going) : 0 < w.target.ahead := by
  have := ahead_pass h
  omega

/-- A walk that does not go on has no rounds. -/
theorem Rounds.eq_nil_of_not_going (h : Rounds l w legs v) (hstop : ¬ w.Going) : legs = [] := by
  cases h with
  | refl => rfl
  | more hround => exact absurd (round_cases hround).1 hstop

section Ordered

variable [Scalar.Ordered α]

/-- **A move leads to the waypoint, or uses up the budget.** -/
theorem SureFooted.move (hw : w.SureFooted l) {goal : Point α} (hgoal : w.goal l = .ok goal)
    (hfar : ¬ w.target.position.distance goal < Target.arrival) :
    ¬ (w.move goal).Going ∨ (w.move goal).Beside l := by
  by_cases hreach : w.target.position.distance goal < w.budget
  · -- the stride is the full distance, which can be compared and so is positive
    have hstride : w.stride goal = w.target.position.distance goal := if_pos hreach
    have hpos := Scalar.Ordered.pos_of_not_lt Scalar.Ordered.tenth_pos hfar hreach
    obtain ⟨hx, hy⟩ := hw.lands goal hgoal hpos
    have hposition : (w.move goal).target.position = goal := by
      rw [Walker.move, hstride, Target.moved]
      dsimp only
      rw [hx, hy]
    refine .inr ⟨goal, hgoal, ?_⟩
    rw [hposition, hw.same goal hgoal]
    exact Scalar.Ordered.tenth_pos
  · -- the stride is the whole budget
    have hstride : w.stride goal = w.budget := if_neg hreach
    have hrest : (w.move goal).budget = w.budget - w.budget := congrArg (w.budget - ·) hstride
    exact .inl fun hgoing => hw.spent (hrest ▸ hgoing.1)

/-- A waypoint takes two rounds at most, and one where the walker is close to it. -/
theorem Rounds.length_le (hsure : ∀ past u, Rounds l w past u → u.SureFooted l)
    (h : Rounds l w legs v) : legs.length ≤ 2 * w.target.ahead ∧
      (w.Beside l → legs.length ≤ 2 * w.target.ahead - 1) := by
  -- a waypoint costs at most a move that lands on it and a round that passes it; the move is saved
  -- where the walk starts beside the waypoint
  induction h with
  | refl => exact ⟨Nat.zero_le _, fun _ => Nat.zero_le _⟩
  | more hround rest ih =>
    obtain ⟨hgoing, goal, hgoal, hleg⟩ := round_cases hround
    obtain ⟨hlength, hbeside⟩ := ih fun past u hpast => hsure _ u (.more hround hpast)
    have hpos := ahead_pos hgoing
    rw [List.length_cons]
    obtain ⟨-, rfl, rfl⟩ | ⟨hfar, rfl, rfl⟩ := hleg
    · have hahead := ahead_pass hgoing
      exact ⟨by omega, fun _ => by omega⟩
    · refine ⟨?_, fun ⟨goal', hgoal', hnear⟩ => ?_⟩
      · rcases (hsure [] _ (.refl _)).move hgoal hfar with hstop | hlanded
        · rw [rest.eq_nil_of_not_going hstop, List.length_nil]
          omega
        · have hlanded := hbeside hlanded
          rw [ahead_move] at hlanded
          omega
      · obtain rfl := Except.ok.inj (hgoal.symm.trans hgoal')
        exact absurd hnear hfar

end Ordered

/-! ### The way that is gone -/

section Faithful

open Scalar Faithful

variable [Faithful α]

/-- How far the moves lead. -/
noncomputable def gone (legs : List (Leg α)) : ℝ := ((legs.filterMap Leg.length?).map real).sum

theorem gone_move (length : α) (legs : List (Leg α)) :
    gone (.move length :: legs) = real length + gone legs := List.sum_cons

/-- What is not gone is left, and no more is gone than there was. -/
theorem Rounds.gone_add_budget (h : Rounds l w legs v) (hbudget : 0 ≤ real w.budget) :
    gone legs + real v.budget = real w.budget ∧ 0 ≤ real v.budget := by
  induction h with
  | refl w => exact ⟨zero_add _, hbudget⟩
  | @more w _ _ _ _ hround _ ih =>
    obtain ⟨-, goal, -, ⟨-, rfl, rfl⟩ | ⟨-, rfl, rfl⟩⟩ := round_cases hround
    · exact ih hbudget
    · have hstride : real (w.stride goal) ≤ real w.budget := by
        rw [stride, real_lesser]
        exact min_le_left _ _
      have hrest : real (w.move goal).budget = real w.budget - real (w.stride goal) :=
        real_sub _ _
      obtain ⟨hgone, hleft⟩ := ih (by rw [hrest]; exact sub_nonneg.mpr hstride)
      refine ⟨?_, hleft⟩
      rw [gone_move, add_assoc, hgone, hrest]
      ring

end Faithful

/-! ### Tests along a walk -/

/-- The walk has an end within some rounds, and all the way to it a test holds. -/
def Throughout (P : Walker α → Prop) (l : Layout α) : Nat → Walker α → Prop
  | 0, w => P w ∧ (w.round l).isNone
  | n + 1, w => P w ∧ ∀ r ∈ w.round l, Throughout P l n r.2

instance decidableThroughout (P : Walker α → Prop) [DecidablePred P] (l : Layout α) :
    ∀ (n : Nat) (w : Walker α), Decidable (Throughout P l n w)
  | 0, w => inferInstanceAs (Decidable (P w ∧ (w.round l).isNone))
  | n + 1, w =>
    have := decidableThroughout P l n
    inferInstanceAs (Decidable (P w ∧ ∀ r ∈ w.round l, Throughout P l n r.2))

/-- A test that holds throughout holds after any number of rounds. -/
theorem Throughout.holds {P : Walker α → Prop} {n : Nat} (hall : Throughout P l n w)
    (h : Rounds l w legs v) : P v := by
  induction h generalizing n with
  | refl =>
    cases n with
    | zero => exact hall.1
    | succ n => exact hall.1
  | more hround _ ih =>
    cases n with
    | zero =>
      have hnone := hall.2
      rw [hround] at hnone
      cases hnone
    | succ n => exact ih (hall.2 _ hround)

end Walker

/-! ### Walks -/

open Walker

section Walk

variable (l : Layout α) (dt : α) (t : Target α)

open Scalar Faithful in
/-- **A target goes as far as its speed takes it**, where arithmetic is exact, unless it gets to the
end of its path. -/
theorem Target.gone_eq [Faithful α] (htime : 0 ≤ real t.speed * real dt)
    {legs : List (Leg α)} {w : Walker α} (h : Rounds l (t.setOut dt) legs w)
    (hend : w.Ends l (t.follow l dt)) (hfault : (t.follow l dt).fault = none)
    (hshort : (t.follow l dt).state.waypoint < t.path.length) :
    gone legs = real t.speed * real dt := by
  have hbudget : real (t.setOut dt).budget = real t.speed * real dt := real_mul _ _
  have hpath : w.target.path = t.path := h.path
  obtain ⟨hgone, hleft⟩ := h.gone_add_budget (htime.trans_eq hbudget.symm)
  have hspent := hend.not_pos hfault (hpath ▸ hshort)
  rw [not_pos_iff] at hspent
  rw [← hbudget, ← hgone, le_antisymm hspent hleft, add_zero]

/-- **Walks come to an end.**  Let moves over the full distance land, as far as a walk makes any.
Then it takes at most two rounds for each waypoint ahead, and one more in which nothing is left to do.
Whatever rounds it has made, it has passed waypoints one by one, and no more than there are, so the
target has somewhere to go to unless it has no path.  The walk that is made is one to the end, and
no number of rounds above that bound changes it.  If it ends before the last waypoint is passed, then
the moves have used up the budget.  And all targets start on their paths. -/
theorem Target.follow_ends_within [Scalar.Ordered α]
    (hsure : ∀ legs w, Rounds l (t.setOut dt) legs w → w.SureFooted l) :
    (∀ legs w, Rounds l (t.setOut dt) legs w →
      legs.length ≤ 2 * t.ahead + 1 ∧ Course l (t.setOut dt) legs w) ∧
    (∃ legs w, Rounds l (t.setOut dt) legs w ∧ w.Ends l (t.follow l dt) ∧
      (∀ n, 2 * t.ahead + 1 ≤ n → t.walk l n (t.speed * dt) = t.follow l dt) ∧
      ((t.follow l dt).fault = none → (t.follow l dt).state.waypoint < t.path.length →
        ¬ (0.0 : α) < Leg.rest (t.speed * dt) legs)) ∧
    ∀ ts : Targets α, ts.Handled l → ∀ u ∈ ts.table.values, u.OnPath := by
  have hlength {legs w} (h : Rounds l (t.setOut dt) legs w) : legs.length ≤ 2 * t.ahead :=
    (h.length_le hsure).1
  -- a walk with that many rounds is at its end
  have hend (n : Nat) (hn : 2 * t.ahead + 1 ≤ n) : ∃ legs w, Rounds l (t.setOut dt) legs w ∧
      w.Ends l (t.walk l n (t.speed * dt)) := by
    obtain ⟨legs, w, h, -, hfull | hend⟩ := rounds_walk l n (t.setOut dt)
    · have := hlength h
      omega
    · exact ⟨legs, w, h, hend⟩
  obtain ⟨legs, w, h, hfollow⟩ := hend t.roundsFor (by rw [roundsFor, ahead]; omega)
  refine ⟨fun legs w h => ⟨(hlength h).trans (Nat.le_succ _), h.course⟩,
    ⟨legs, w, h, hfollow, fun n hn => ?_, fun hfault hshort => ?_⟩, fun ts hts => hts.onPath⟩
  · obtain ⟨legs', w', h', hend'⟩ := hend n hn
    exact h'.end_unique hend' h hfollow
  · have hpath : w.target.path = t.path := h.path
    have hbudget : w.budget = Leg.rest (t.speed * dt) legs := h.budget
    exact hbudget ▸ hfollow.not_pos hfault (hpath ▸ hshort)

end Walk

/-- A board with cells of size 35. -/
def Layout.plain : Layout Float := ⟨35.0⟩

/-- A target at the first of four cells, with a speed that takes it to the third and some way on. -/
def Target.marcher : Target Float :=
  ⟨1, ⟨0.0, 121.2435565298214⟩, 5.0, [⟨0, 2⟩, ⟨1, 1⟩, ⟨1, 0⟩, ⟨0, 0⟩], 0, 170.0⟩

theorem Target.follow_ends_within_marcher :
    (∀ legs w, Rounds .plain (marcher.setOut 1.0) legs w → w.SureFooted .plain) ∧
    (∀ legs w, Rounds .plain (marcher.setOut 1.0) legs w → legs.length ≤ 9) ∧
    (marcher.follow .plain 1.0).state.waypoint = 3 ∧
    ∃ legs w, Rounds .plain (marcher.setOut 1.0) legs w ∧ w.Ends .plain (marcher.follow .plain 1.0) ∧
      ¬ (0.0 : Float) < Leg.rest (170.0 * 1.0) legs := by
  have hall : Throughout (fun w => ∀ goal, w.goal .plain = .ok goal →
      Double.isFinite goal.x = true ∧ Double.isFinite goal.y = true ∧
        Lands w.target.position goal) .plain 9 (marcher.setOut 1.0) := by decide +kernel
  have hsure (legs w) (h : Rounds .plain (marcher.setOut 1.0) legs w) : w.SureFooted .plain :=
    sureFooted_of_lands (hall.holds h)
  have hplace : (marcher.follow .plain 1.0).state.waypoint = 3 := by decide +kernel
  have hfault : (marcher.follow .plain 1.0).fault = none := by decide +kernel
  obtain ⟨hlength, ⟨legs, w, h, hend, -, hspent⟩, -⟩ :=
    Target.follow_ends_within .plain 1.0 marcher hsure
  refine ⟨hsure, fun legs w h => (hlength legs w h).1, hplace, legs, w, h, hend, hspent hfault ?_⟩
  rw [hplace]
  decide

end HexPulse
