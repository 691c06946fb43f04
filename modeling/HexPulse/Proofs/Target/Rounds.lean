import HexPulse.Proofs.Target.Turnover

/-!
# HexPulse — Proofs — Target — Rounds

A walk, round by round.  A `Walker` is a target with what is left of the distance that it may go;
`Walker.round` is one round of its walk, and `Rounds l w legs v` says that the rounds from `w` to `v`
did what `legs` tells.  `Target.walk` makes as many rounds as it may, or comes to an end
(`Walker.rounds_walk`), and there is only one end that it can come to (`Rounds.end_unique`).

Nothing is asked of arithmetic here.  However numbers behave, waypoints are passed one by one, each
from nearby (`Rounds.passed`), so targets stay on their paths (`Target.OnPath`), whatever happens to
the targets of a board (`Targets.Handled.onPath`).
-/

namespace HexPulse

variable {α : Type}

/-! ### Paths -/

namespace Target

/-- How many waypoints are ahead. -/
def ahead (t : Target α) : Nat := (t.path.length - t.waypoint).toNat

/-- The waypoint is one of the path, or just behind its end. -/
structure OnPath (t : Target α) : Prop where
  nonneg : 0 ≤ t.waypoint
  le : t.waypoint ≤ t.path.length

/-- The target walks to a cell of its path, if it has one: the place that is looked up is among those
of the path, and the cell is found, as far as places can be looked up at all. -/
def Headed (t : Target α) : Prop :=
  t.path ≠ [] → ∃ (i : Nat) (hi : i < t.path.length), (i : Int) = min t.waypoint (t.path.length - 1) ∧
    (t.path.length ≤ 2 ^ 63 → t.nextWaypoint = .ok (some t.path[i]))

/-- A target on its path is headed for a cell of it. -/
theorem OnPath.headed {t : Target α} (h : t.OnPath) : t.Headed := by
  intro hpath
  have hpos := List.length_pos_iff.mpr hpath
  obtain ⟨hnonneg, hle⟩ := h
  obtain ⟨i, hi⟩ := Int.eq_ofNat_of_zero_le
    (show 0 ≤ min t.waypoint (t.path.length - 1) by omega)
  refine ⟨i, by omega, hi.symm, fun hshort => ?_⟩
  have hcell : t.cellOnPath i = .ok t.path[i] := by
    rw [cellOnPath, memberAt, widestIndex, if_neg (by omega)]
    dsimp only
    rw [if_neg (by omega), if_neg (by omega), Int.toNat_natCast, List.getElem?_eq_getElem]
  rw [nextWaypoint, if_neg (by simp [hpath]), hi]
  exact congrArg (Except.map some) hcell

end Target

/-! ### Walkers -/

/-- A target on its way, with the distance that it may still go. -/
structure Walker (α : Type) where
  budget : α
  target : Target α

/-- What a round does: a waypoint is passed, or the target moves by some length. -/
inductive Leg (α : Type) where
  | pass
  | move (length : α)

namespace Leg

def isPass : Leg α → Bool
  | .pass => true
  | .move _ => false

def length? : Leg α → Option α
  | .pass => none
  | .move length => some length

/-- What the moves leave of a budget, each of them taken from what the one before it left. -/
def rest [Sub α] (budget : α) (legs : List (Leg α)) : α :=
  (legs.filterMap length?).foldl (· - ·) budget

end Leg

variable [Scalar α]

/-- The target sets out for some time. -/
def Target.setOut (t : Target α) (dt : α) : Walker α := ⟨t.speed * dt, t⟩

namespace Walker

/-- There is something left to go, and somewhere to go to. -/
def Going (w : Walker α) : Prop :=
  (0.0 : α) < w.budget ∧ w.target.waypoint < w.target.path.length

instance (w : Walker α) : Decidable w.Going := inferInstanceAs (Decidable (_ ∧ _))

/-- The point that the walker goes to. -/
def goal (l : Layout α) (w : Walker α) : Except Fault (Point α) :=
  w.target.cellOnPath w.target.waypoint >>= l.centre

/-- The walker is close to where it goes. -/
def Beside (l : Layout α) (w : Walker α) : Prop :=
  ∃ goal, w.goal l = .ok goal ∧ w.target.position.distance goal < Target.arrival

/-- The walker behind its waypoint. -/
def pass (w : Walker α) : Walker α :=
  { w with target := { w.target with waypoint := w.target.waypoint + 1 } }

/-- How far the walker comes towards a point: there, or as far as it may go. -/
def stride (w : Walker α) (goal : Point α) : α :=
  Scalar.lesser w.budget (w.target.position.distance goal)

/-- The walker after a stride towards a point. -/
def move (w : Walker α) (goal : Point α) : Walker α :=
  ⟨w.budget - w.stride goal,
    w.target.moved goal (w.target.position.distance goal) (w.stride goal)⟩

/-- The next round, if there is one, and the walker after it. -/
def round (l : Layout α) (w : Walker α) : Option (Leg α × Walker α) :=
  if w.Going then
    match w.goal l with
    | .error _ => none
    | .ok goal =>
      if w.target.position.distance goal < Target.arrival then some (.pass, w.pass)
      else some (.move (w.stride goal), w.move goal)
  else none

/-- The rounds from one walker to another, with what each of them does. -/
inductive Rounds (l : Layout α) : Walker α → List (Leg α) → Walker α → Prop
  | refl (w : Walker α) : Rounds l w [] w
  | more {w v u : Walker α} {leg : Leg α} {legs : List (Leg α)} (h : w.round l = some (leg, v))
      (rest : Rounds l v legs u) : Rounds l w (leg :: legs) u

/-- The walk is at its end: there is no going on, or a fault stops it. -/
inductive Ends (l : Layout α) (w : Walker α) : Progress (Target α) → Prop
  | rest (h : ¬ w.Going) : Ends l w (.done w.target)
  | halt (h : w.Going) {f : Fault} (fault : w.goal l = .error f) : Ends l w (.halt w.target f)

variable {l : Layout α} {w v u : Walker α} {leg : Leg α} {legs : List (Leg α)}
  {p : Progress (Target α)}

/-! ### One round -/

/-- All that a round can do. -/
theorem round_cases (h : w.round l = some (leg, v)) : w.Going ∧ ∃ goal, w.goal l = .ok goal ∧
    (w.target.position.distance goal < Target.arrival ∧ leg = .pass ∧ v = w.pass ∨
      ¬ w.target.position.distance goal < Target.arrival ∧ leg = .move (w.stride goal) ∧
        v = w.move goal) := by
  rw [round] at h
  split at h
  · next hgoing =>
    refine ⟨hgoing, ?_⟩
    split at h
    · cases h
    · next goal hgoal =>
      refine ⟨goal, hgoal, ?_⟩
      split at h
      · next hnear =>
        cases h
        exact .inl ⟨hnear, rfl, rfl⟩
      · next hfar =>
        cases h
        exact .inr ⟨hfar, rfl, rfl⟩
  · cases h

/-- A walk goes on with one round, or is at its end. -/
theorem round_or_ends (l : Layout α) (w : Walker α) :
    (∃ leg v, w.round l = some (leg, v)) ∨ ∃ p, w.Ends l p := by
  by_cases hgoing : w.Going
  · cases hgoal : w.goal l with
    | error f => exact .inr ⟨_, .halt hgoing hgoal⟩
    | ok goal =>
      refine .inl ?_
      by_cases hnear : w.target.position.distance goal < Target.arrival
      · exact ⟨.pass, w.pass, by simp [round, hgoing, hgoal, hnear]⟩
      · exact ⟨.move (w.stride goal), w.move goal, by simp [round, hgoing, hgoal, hnear]⟩
  · exact .inr ⟨_, .rest hgoing⟩

theorem Ends.round_eq_none (h : w.Ends l p) : w.round l = none := by
  cases h with
  | rest h => simp [round, h]
  | halt h fault => simp [round, h, fault]

theorem Ends.unique {q : Progress (Target α)} (h : w.Ends l p) (h' : w.Ends l q) : p = q := by
  cases h with
  | rest h =>
    cases h' with
    | rest => rfl
    | halt h' => exact absurd h' h
  | halt h fault =>
    cases h' with
    | rest h' => exact absurd h h'
    | halt _ fault' =>
      obtain rfl := Except.error.inj (fault.symm.trans fault')
      rfl

/-- An end without a fault is one in which the walk does not go on. -/
theorem Ends.not_going (h : w.Ends l p) (hfault : p.fault = none) : p.state = w.target ∧ ¬ w.Going := by
  cases h with
  | rest h => exact ⟨rfl, h⟩
  | halt => cases hfault

/-- **The budget is used up** where a walk ends before the last waypoint is passed. -/
theorem Ends.not_pos (h : w.Ends l p) (hfault : p.fault = none)
    (hshort : p.state.waypoint < w.target.path.length) : ¬ (0.0 : α) < w.budget := by
  obtain ⟨hstate, hstop⟩ := h.not_going hfault
  rw [hstate] at hshort
  exact fun hbudget => hstop ⟨hbudget, hshort⟩

theorem still_round (h : w.round l = some (leg, v)) : v.target.still = w.target.still := by
  obtain ⟨-, goal, -, ⟨-, -, rfl⟩ | ⟨-, -, rfl⟩⟩ := round_cases h
  · rfl
  · rfl

theorem path_round (h : w.round l = some (leg, v)) : v.target.path = w.target.path :=
  congrArg (·.1.2.1) (still_round h)

/-- A round passes a waypoint, or none. -/
theorem waypoint_round (h : w.round l = some (leg, v)) :
    v.target.waypoint = w.target.waypoint + if leg.isPass then 1 else 0 := by
  obtain ⟨-, goal, -, ⟨-, rfl, rfl⟩ | ⟨-, rfl, rfl⟩⟩ := round_cases h
  · rfl
  · exact (Int.add_zero _).symm

/-- A round takes the length of its move from the budget. -/
theorem budget_round (h : w.round l = some (leg, v)) : v.budget = Leg.rest w.budget [leg] := by
  obtain ⟨-, goal, -, ⟨-, rfl, rfl⟩ | ⟨-, rfl, rfl⟩⟩ := round_cases h
  · rfl
  · rfl

/-- A waypoint is passed from nearby. -/
theorem beside_of_pass (h : w.round l = some (leg, v)) (hleg : leg.isPass = true) : w.Beside l := by
  obtain ⟨-, goal, hgoal, ⟨hnear, -, -⟩ | ⟨-, rfl, -⟩⟩ := round_cases h
  · exact ⟨goal, hgoal, hnear⟩
  · cases hleg

/-! ### The walk -/

/-- The rounds of a walk are those of its walker. -/
theorem walk_succ (l : Layout α) (n : Nat) (w : Walker α) :
    w.target.walk l (n + 1) w.budget =
      if w.Going then
        match w.goal l with
        | .error f => .halt w.target f
        | .ok goal =>
          if w.target.position.distance goal < Target.arrival then
            w.pass.target.walk l n w.pass.budget
          else (w.move goal).target.walk l n (w.move goal).budget
      else .done w.target := rfl

/-- A walk goes on from where its first round leads. -/
theorem walk_of_round (h : w.round l = some (leg, v)) (n : Nat) :
    w.target.walk l (n + 1) w.budget = v.target.walk l n v.budget := by
  obtain ⟨hgoing, goal, hgoal, ⟨hnear, -, rfl⟩ | ⟨hfar, -, rfl⟩⟩ := round_cases h
  · simp only [walk_succ, if_pos hgoing, hgoal, if_pos hnear]
  · simp only [walk_succ, if_pos hgoing, hgoal, if_neg hfar]

/-- A walk that ends here returns what it ends with. -/
theorem Ends.walk_eq (h : w.Ends l p) (n : Nat) : w.target.walk l (n + 1) w.budget = p := by
  cases h with
  | rest h => rw [walk_succ, if_neg h]
  | halt h fault => rw [walk_succ, if_pos h, fault]

/-- **A walk makes as many rounds as it may, or comes to an end.** -/
theorem rounds_walk (l : Layout α) (n : Nat) (w : Walker α) : ∃ legs v, Rounds l w legs v ∧
    (w.target.walk l n w.budget).state = v.target ∧
    (legs.length = n ∨ v.Ends l (w.target.walk l n w.budget)) := by
  induction n generalizing w with
  | zero => exact ⟨[], w, .refl w, rfl, .inl rfl⟩
  | succ n ih =>
    obtain ⟨leg, v, hround⟩ | ⟨p, hend⟩ := round_or_ends l w
    · obtain ⟨legs, u, hrounds, hstate, hlength⟩ := ih v
      rw [walk_of_round hround]
      refine ⟨leg :: legs, u, .more hround hrounds, hstate, ?_⟩
      exact hlength.imp_left fun h => congrArg (· + 1) h
    · refine ⟨[], w, .refl w, ?_, .inr ?_⟩
      · rw [hend.walk_eq]
        cases hend <;> rfl
      · rw [hend.walk_eq]
        exact hend

namespace Rounds

/-- A walk has one end. -/
theorem end_unique {legs' : List (Leg α)} {v' : Walker α} {q : Progress (Target α)}
    (h : Rounds l w legs v) (hend : v.Ends l p) (h' : Rounds l w legs' v') (hend' : v'.Ends l q) :
    p = q := by
  induction h generalizing legs' with
  | refl w =>
    cases h' with
    | refl => exact hend.unique hend'
    | more hround => rw [hend.round_eq_none] at hround; cases hround
  | more hround _ ih =>
    cases h' with
    | refl => rw [hend'.round_eq_none] at hround; cases hround
    | more hround' rest =>
      obtain ⟨rfl, rfl⟩ := Prod.mk.inj (Option.some.inj (hround.symm.trans hround'))
      exact ih hend rest

/-- A walk changes neither the path nor the health of its target. -/
theorem still (h : Rounds l w legs v) : v.target.still = w.target.still := by
  induction h with
  | refl => rfl
  | more hround _ ih => exact ih.trans (still_round hround)

theorem path (h : Rounds l w legs v) : v.target.path = w.target.path := congrArg (·.1.2.1) h.still

/-- As many waypoints are behind as were passed. -/
theorem waypoint (h : Rounds l w legs v) :
    v.target.waypoint = w.target.waypoint + legs.countP Leg.isPass := by
  induction h with
  | refl => exact (Int.add_zero _).symm
  | more hround _ ih =>
    rw [ih, waypoint_round hround, List.countP_cons]
    split <;> push_cast <;> omega

/-- What is left of the budget is what the moves have not used. -/
theorem budget (h : Rounds l w legs v) : v.budget = Leg.rest w.budget legs := by
  induction h with
  | refl => rfl
  | @more w v u leg legs hround _ ih =>
    rw [ih, budget_round hround]
    cases leg <;> rfl

/-- No walk leads past the end of the path. -/
theorem waypoint_le (h : Rounds l w legs v) :
    v.target.waypoint ≤ max w.target.waypoint w.target.path.length := by
  induction h with
  | refl => exact le_max_left _ _
  | more hround _ ih =>
    obtain ⟨⟨-, hplace⟩, -⟩ := round_cases hround
    have hwaypoint := waypoint_round hround
    rw [path_round hround] at ih
    split at hwaypoint <;> omega

/-- **Waypoints are passed one by one**, each of them from nearby. -/
theorem passed (h : Rounds l w legs v) {place : Int} (hlow : w.target.waypoint ≤ place)
    (hhigh : place < v.target.waypoint) : ∃ past u, past <+: legs ∧ Rounds l w past u ∧
      u.target.waypoint = place ∧ u.Beside l := by
  induction h with
  | refl => omega
  | @more w v u leg legs hround _ ih =>
    have hwaypoint := waypoint_round hround
    by_cases hnext : v.target.waypoint ≤ place
    · obtain ⟨past, u, hprefix, hrounds, hplace, hbeside⟩ := ih hnext hhigh
      exact ⟨leg :: past, u, List.cons_prefix_cons.mpr ⟨rfl, hprefix⟩, .more hround hrounds, hplace,
        hbeside⟩
    · -- the first of the rounds passes the place
      split at hwaypoint
      · next hleg =>
        exact ⟨[], w, List.nil_prefix, .refl w, by omega, beside_of_pass hround hleg⟩
      · omega

/-- A walk leads off no path. -/
theorem onPath (h : Rounds l w legs v) (hw : w.target.OnPath) : v.target.OnPath := by
  have hwaypoint := h.waypoint
  have hmax := h.waypoint_le
  obtain ⟨hnonneg, hle⟩ := hw
  rw [← h.path] at hmax hle
  exact ⟨by omega, by omega⟩

end Rounds

/-- What the rounds that lead from a walker to another one have done. -/
structure Course (l : Layout α) (w : Walker α) (legs : List (Leg α)) (v : Walker α) : Prop where
  /-- the target is who it was, and has its path and its health -/
  still : v.target.still = w.target.still
  /-- as many waypoints are behind as were passed, each as the next one and from nearby -/
  waypoint : v.target.waypoint = w.target.waypoint + legs.countP Leg.isPass
  passed : ∀ place, w.target.waypoint ≤ place → place < v.target.waypoint →
    ∃ past u, past <+: legs ∧ Rounds l w past u ∧ u.target.waypoint = place ∧ u.Beside l
  /-- one more round does not lead back, nor past two of them -/
  next : ∀ leg u, v.round l = some (leg, u) →
    v.target.waypoint ≤ u.target.waypoint ∧ u.target.waypoint ≤ v.target.waypoint + 1
  /-- the path has an end, and the target goes to a cell of it -/
  waypoint_le : v.target.waypoint ≤ max w.target.waypoint w.target.path.length
  onPath : w.target.OnPath → v.target.OnPath ∧ v.target.Headed
  /-- all moves are at the expense of the budget -/
  budget : v.budget = Leg.rest w.budget legs

/-- **What walks do to targets**, however numbers behave. -/
theorem Rounds.course (h : Rounds l w legs v) : Course l w legs v where
  still := h.still
  waypoint := h.waypoint
  passed _ hlow hhigh := h.passed hlow hhigh
  next leg u hround := by
    have hwaypoint := waypoint_round hround
    split at hwaypoint <;> omega
  waypoint_le := h.waypoint_le
  onPath hw := ⟨h.onPath hw, (h.onPath hw).headed⟩
  budget := h.budget

end Walker

/-! ### The targets of a board -/

/-- A target stays on its path. -/
theorem Target.OnPath.follow {t : Target α} (h : t.OnPath) (l : Layout α) (dt : α) :
    (t.follow l dt).state.OnPath := by
  obtain ⟨legs, v, hrounds, hstate, -⟩ := Walker.rounds_walk l t.roundsFor (t.setOut dt)
  exact hstate ▸ hrounds.onPath h

namespace Targets

/-- Targets to which nothing happened but what is done to the targets of a board. -/
inductive Handled (l : Layout α) : Targets α → Prop
  | empty : Handled l .empty
  | add {ts : Targets α} (h : Handled l ts) (position : Point α) (health : α) (path : List Hex)
      (speed : α) : Handled l (ts.add position health path speed).2
  | damage {ts : Targets α} (h : Handled l ts) (id : Int) (amount : α) :
      Handled l (ts.damage id amount)
  | remove {ts : Targets α} (h : Handled l ts) (id : Int) : Handled l (ts.remove id)
  | reap {ts : Targets α} (h : Handled l ts) : Handled l ts.reap
  | follow {ts : Targets α} (h : Handled l ts) (dt : α) : Handled l (ts.follow l dt).state

/-- **All targets are on their paths**, whatever was done to them. -/
theorem Handled.onPath {l : Layout α} {ts : Targets α} (h : ts.Handled l) :
    ∀ t ∈ ts.table.values, t.OnPath := by
  induction h with
  | empty => exact fun t ht => absurd ht List.not_mem_nil
  | add _ position health path speed ih =>
    intro t ht
    rcases Table.mem_values_insert ht with rfl | ht
    · exact ⟨le_rfl, Int.natCast_nonneg _⟩
    · exact ih t ht
  | damage _ id amount ih =>
    intro t ht
    rcases Table.mem_values_modify ht with ht | ⟨u, hu, rfl⟩
    · exact ih t ht
    · obtain ⟨hnonneg, hle⟩ := ih u hu
      split
      · exact ⟨hnonneg, hle⟩
      · exact ⟨hnonneg, hle⟩
  | remove _ id ih => exact fun t ht => ih t (Table.mem_values_of_mem_erase ht)
  | reap _ ih =>
    intro t ht
    rw [values_reap] at ht
    exact ih t (List.mem_of_mem_filter ht)
  | follow _ dt ih =>
    intro t ht
    rw [Targets.follow, Progress.map] at ht
    obtain ⟨e, he, rfl⟩ := List.mem_map.mp ht
    -- each target walks by itself, and those behind a fault stay where they were
    refine Progress.each_rec (P := fun e : Int × Target α => e.2.OnPath)
      (fun e he => ih e.2 (List.mem_map_of_mem he)) (fun e he => ?_) e he
    split
    · exact he.follow l dt
    · exact he

end Targets

end HexPulse
