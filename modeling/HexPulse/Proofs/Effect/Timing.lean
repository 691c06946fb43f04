import HexPulse.Proofs.Effect.Course
import HexPulse.Proofs.Scalar.Faithful
import Mathlib.Algebra.BigOperators.Group.List.Basic
import Mathlib.Algebra.Order.Archimedean.Real.Basic
import Mathlib.Algebra.Order.BigOperators.Group.List

/-!
# HexPulse — Proofs — Effect — Timing

When strikes land and zones go off, where arithmetic is exact.  A step may have any length, so a
time is over in the first step in which the lengths add up to it (`Due`).  What else is in flight
makes no difference: a run with a strike, or with a zone, is compared with the run without it
(`InFlight.StrikePunctual`, `InFlight.ZonePunctual`).

* `Countdown.course_of_not_due`, `Countdown.course_of_due`: what goes on as long as time is left.
* `Zone.length_bursts`: how often a zone has gone off.
* `InFlight.punctual`: strikes land once, when their delay has passed, and zones go off once for
  each interval of their life.
-/

namespace HexPulse

variable {α : Type} [Scalar α]

/-! ### Times that run down -/

open Scalar Faithful

section Countdown

/-- Time passes in every step. -/
def Forward (times : List α) : Prop := ∀ dt ∈ times, (0.0 : α) < dt

theorem Forward.snoc {times : List α} (h : Forward times) {dt : α} (hdt : (0.0 : α) < dt) :
    Forward (times ++ [dt]) :=
  List.forall_mem_append.mpr ⟨h, List.forall_mem_singleton.mpr hdt⟩

variable [Faithful α] {β : Type}

/-- The time that steps take together. -/
noncomputable def elapsed (times : List α) : ℝ := (times.map real).sum

/-- A step was taken, and by now a time has passed. -/
def Due (life : ℝ) (times : List α) : Prop := times ≠ [] ∧ life ≤ elapsed times

@[simp] theorem elapsed_nil : elapsed ([] : List α) = 0 := rfl

@[simp] theorem elapsed_cons (dt : α) (times : List α) :
    elapsed (dt :: times) = real dt + elapsed times := List.sum_cons

theorem elapsed_nonneg {times : List α} (h : Forward times) : 0 ≤ elapsed times := by
  refine List.sum_nonneg fun x hx => ?_
  obtain ⟨dt, hdt, rfl⟩ := List.mem_map.mp hx
  exact ((pos_iff dt).mp (h dt hdt)).le

/-- If a time is not over in the first step, it is due when the rest of it is. -/
theorem due_cons_iff {life : ℝ} {dt : α} {times : List α} (h : 0 < life - real dt) :
    Due life (dt :: times) ↔ Due (life - real dt) times := by
  rw [Due, Due, elapsed_cons, sub_le_iff_le_add']
  refine ⟨fun hdue => ⟨?_, hdue.2⟩, fun hdue => ⟨List.cons_ne_nil _ _, hdue.2⟩⟩
  rintro rfl
  rw [elapsed_nil, add_zero] at hdue
  linarith [hdue.2]

/-- A time that is over in the first step is due ever after. -/
theorem due_cons_of_le {life : ℝ} {dt : α} {times : List α} (hpos : Forward (dt :: times))
    (h : life - real dt ≤ 0) : Due life (dt :: times) := by
  have hrest := elapsed_nonneg (List.forall_mem_cons.mp hpos).2
  refine ⟨List.cons_ne_nil _ _, ?_⟩
  rw [elapsed_cons]
  linarith

/-- Members that go on as long as time is left, each at its place. -/
structure Countdown (next : α → β → Option β) (left : β → ℝ) (place : β → Point α) : Prop where
  goes : ∀ dt x, 0 < left x - real dt →
    ∃ y, next dt x = some y ∧ left y = left x - real dt ∧ place y = place x
  stops : ∀ dt x, left x - real dt ≤ 0 → next dt x = none

namespace Countdown

variable {next : α → β → Option β} {left : β → ℝ} {place : β → Point α}

/-- Until its time has passed, a member goes on. -/
theorem course_of_not_due (h : Countdown next left place) {times : List α} (hpos : Forward times)
    {x : β} (hdue : ¬ Due (left x) times) : ∃ y, course next times [x] = [y] ∧
      left y = left x - elapsed times ∧ place y = place x := by
  induction times generalizing x with
  | nil => exact ⟨x, rfl, by rw [elapsed_nil, sub_zero], rfl⟩
  | cons dt times ih =>
    obtain hleft | hover := lt_or_ge 0 (left x - real dt)
    · obtain ⟨y, hy, hlefty, hplace⟩ := h.goes dt x hleft
      rw [due_cons_iff hleft, ← hlefty] at hdue
      obtain ⟨z, hz, hleftz, hplacez⟩ := ih (List.forall_mem_cons.mp hpos).2 hdue
      refine ⟨z, ?_, ?_, hplacez.trans hplace⟩
      · rw [course, List.foldl_cons, filterMap_one, hy]
        exact hz
      · rw [hleftz, hlefty, elapsed_cons, sub_sub]
    · exact absurd (due_cons_of_le hpos hover) hdue

/-- Once its time has passed, a member is gone. -/
theorem course_of_due (h : Countdown next left place) {times : List α} (hpos : Forward times)
    {x : β} (hdue : Due (left x) times) : course next times [x] = [] := by
  induction times generalizing x with
  | nil => exact absurd rfl hdue.1
  | cons dt times ih =>
    obtain hleft | hover := lt_or_ge 0 (left x - real dt)
    · obtain ⟨y, hy, hlefty, -⟩ := h.goes dt x hleft
      rw [due_cons_iff hleft, ← hlefty] at hdue
      rw [course, List.foldl_cons, filterMap_one, hy]
      exact ih (List.forall_mem_cons.mp hpos).2 hdue
    · rw [course, List.foldl_cons, filterMap_one, h.stops dt x hover]
      exact course_nil times

end Countdown

/-- The time of a strike runs down where it is. -/
theorem Strike.countdown :
    Countdown (α := α) Strike.next (fun s => real s.remaining) Strike.center where
  goes dt s h := by
    rw [← real_sub, ← pos_iff] at h
    exact ⟨{ s with remaining := s.remaining - dt }, if_pos h, real_sub _ _, rfl⟩
  stops dt s h := by
    rw [← real_sub, ← not_pos_iff] at h
    exact if_neg h

/-- The time of a zone runs down where it is. -/
theorem Zone.countdown (w : WeaponSettings α) :
    Countdown (α := α) (Zone.next w) (fun z => real z.remaining) Zone.center where
  goes dt z h := by
    rw [← real_sub, ← pos_iff] at h
    exact ⟨⟨z.center, z.remaining - dt, z.since w dt⟩, if_pos h, real_sub _ _, rfl⟩
  stops dt z h := by
    rw [← real_sub, ← not_pos_iff] at h
    exact if_neg h

/-! ### Strikes that land -/

/-- What a strike sets off where it lands. -/
def Strike.landing (w : WeaponSettings α) (center : Point α) : Blast α :=
  ⟨center, w.orbitalRadius, w.orbitalDamage⟩

/-- Before its time has passed, a strike sets off nothing. -/
theorem Strike.bursts_of_not_due (w : WeaponSettings α) {times : List α} (hpos : Forward times)
    {s : Strike α} (hdue : ¬ Due (real s.remaining) times) :
    bursts Strike.next (Strike.blast? w) times [s] = [] := by
  induction times generalizing s with
  | nil => rfl
  | cons dt times ih =>
    obtain hleft | hover := lt_or_ge 0 (real s.remaining - real dt)
    · rw [due_cons_iff hleft, ← real_sub] at hdue
      rw [← real_sub, ← pos_iff] at hleft
      have hblast : s.blast? w dt = none := if_pos hleft
      have hnext : s.next dt = some { s with remaining := s.remaining - dt } := if_pos hleft
      rw [bursts, filterMap_one, filterMap_one, hblast, hnext]
      exact ih (List.forall_mem_cons.mp hpos).2 hdue
    · exact absurd (due_cons_of_le hpos hover) hdue

/-- Once its time has passed, it has landed, and only once. -/
theorem Strike.bursts_of_due (w : WeaponSettings α) {times : List α} (hpos : Forward times)
    {s : Strike α} (hdue : Due (real s.remaining) times) :
    bursts Strike.next (Strike.blast? w) times [s] = [Strike.landing w s.center] := by
  induction times generalizing s with
  | nil => exact absurd rfl hdue.1
  | cons dt times ih =>
    obtain hleft | hover := lt_or_ge 0 (real s.remaining - real dt)
    · rw [due_cons_iff hleft, ← real_sub] at hdue
      rw [← real_sub, ← pos_iff] at hleft
      have hblast : s.blast? w dt = none := if_pos hleft
      have hnext : s.next dt = some { s with remaining := s.remaining - dt } := if_pos hleft
      rw [bursts, filterMap_one, filterMap_one, hblast, hnext]
      exact ih (List.forall_mem_cons.mp hpos).2 hdue
    · rw [← real_sub, ← not_pos_iff] at hover
      have hblast : s.blast? w dt = some (Strike.landing w s.center) := if_neg hover
      have hnext : s.next dt = none := if_neg hover
      rw [bursts, filterMap_one, filterMap_one, hblast, hnext, Option.toList_none, bursts_nil]
      rfl

/-! ### Zones that go off -/

/-- What a step counts, of the intervals that are full by the end of a run. -/
theorem Zone.floor_step (w : WeaponSettings α) {z : Zone α} {dt : α} {rest : ℝ}
    (hdt : 0 < real dt) (hle : real dt ≤ real w.plasmaDamageInterval) (hrest : 0 ≤ rest)
    (hsince : 0 ≤ real z.sinceTick) (hless : real z.sinceTick < real w.plasmaDamageInterval) :
    0 ≤ real (z.since w dt) ∧ real (z.since w dt) < real w.plasmaDamageInterval ∧
      ⌊(real z.sinceTick + (real dt + rest)) / real w.plasmaDamageInterval⌋₊ =
        (z.blast? w dt).toList.length +
          ⌊(real (z.since w dt) + rest) / real w.plasmaDamageInterval⌋₊ := by
  have hinterval : 0 < real w.plasmaDamageInterval := hsince.trans_lt hless
  by_cases hfull : w.plasmaDamageInterval ≤ z.sinceTick + dt
  · have hreal := (le_iff _ _).mp hfull
    rw [real_add] at hreal
    rw [since, blast?, if_pos hfull, if_pos hfull, real_sub, real_add]
    refine ⟨by linarith, by linarith, ?_⟩
    rw [Option.toList_some, List.length_singleton, add_comm 1,
      ← Nat.floor_add_one (div_nonneg (by linarith) hinterval.le), div_add_one hinterval.ne']
    congr 2
    ring
  · have hreal := mt (le_iff _ _).mpr hfull
    rw [real_add, not_le] at hreal
    rw [since, blast?, if_neg hfull, if_neg hfull, real_add]
    refine ⟨by linarith, hreal, ?_⟩
    rw [Option.toList_none, List.length_nil, zero_add, add_assoc]

/-- **How often a zone has gone off** in steps no longer than the interval, the last of which it saw
the beginning of: as many times as intervals have passed. -/
theorem Zone.length_bursts (w : WeaponSettings α) {times : List α} (hpos : Forward times)
    (hshort : ∀ dt ∈ times, dt ≤ w.plasmaDamageInterval) {z : Zone α}
    (hsince : 0 ≤ real z.sinceTick) (hless : real z.sinceTick < real w.plasmaDamageInterval)
    (hdue : ¬ Due (real z.remaining) times.dropLast) :
    (bursts (Zone.next w) (Zone.blast? w) times [z]).length =
      ⌊(real z.sinceTick + elapsed times) / real w.plasmaDamageInterval⌋₊ := by
  have hinterval : 0 < real w.plasmaDamageInterval := hsince.trans_lt hless
  induction times generalizing z with
  | nil =>
    rw [elapsed_nil, add_zero, eq_comm]
    exact Nat.floor_eq_zero.mpr ((div_lt_one hinterval).mpr hless)
  | cons dt times ih =>
    obtain ⟨hdt, hpos'⟩ := List.forall_mem_cons.mp hpos
    obtain ⟨hle, hshort⟩ := List.forall_mem_cons.mp hshort
    obtain ⟨hsince', hless', hfloor⟩ := Zone.floor_step w ((pos_iff dt).mp hdt)
      ((le_iff _ _).mp hle) (elapsed_nonneg hpos') hsince hless
    rw [bursts, List.length_append, filterMap_one, filterMap_one,
      elapsed_cons, hfloor]
    refine congrArg ((z.blast? w dt).toList.length + ·) ?_
    obtain hleft | hover := lt_or_ge 0 (real z.remaining - real dt)
    · have hnext : Zone.next w dt z = some ⟨z.center, z.remaining - dt, z.since w dt⟩ := by
        rw [← real_sub, ← pos_iff] at hleft
        exact if_pos hleft
      rw [hnext]
      refine ih hpos' hshort hsince' hless' ?_
      cases times with
      | nil => exact fun h => h.1 rfl
      | cons dt' times =>
        rw [List.dropLast_cons_cons, due_cons_iff hleft] at hdue
        rwa [real_sub]
    · -- the zone ends with this step, so it is the last one
      have hlast : times = [] := by
        cases times with
        | nil => rfl
        | cons dt' times =>
          rw [List.dropLast_cons_cons] at hdue
          refine absurd (due_cons_of_le (List.forall_mem_cons.mpr ⟨hdt, fun x hx => ?_⟩) hover) hdue
          exact hpos' x (List.dropLast_subset _ hx)
      subst hlast
      rw [elapsed_nil, add_zero, Nat.floor_eq_zero.mpr ((div_lt_one hinterval).mpr hless'),
        (Zone.countdown w).stops dt z hover]
      rfl

/-! ### Runs with and without -/

theorem elapsed_snoc (times : List α) (dt : α) :
    elapsed (times ++ [dt]) = elapsed times + real dt := by
  rw [elapsed, List.map_append, List.sum_append]
  exact congrArg (elapsed times + ·) List.sum_singleton

/-- A time is due behind one more step if it is over by then. -/
theorem due_snoc_iff {life : ℝ} {times : List α} {dt : α} :
    Due life (times ++ [dt]) ↔ life ≤ elapsed times + real dt := by
  rw [Due, elapsed_snoc]
  exact and_iff_right (List.concat_ne_nil dt times)

/-- What is due stays due. -/
theorem Due.of_dropLast {life : ℝ} {times : List α} (hpos : Forward times)
    (h : Due life times.dropLast) : Due life times := by
  rcases times.eq_nil_or_concat' with rfl | ⟨times, dt, rfl⟩
  · exact h
  · rw [List.dropLast_concat] at h
    have hdt := (pos_iff dt).mp (hpos dt (by simp))
    exact due_snoc_iff.mpr (by linarith [h.2])

end Countdown

namespace InFlight

variable [Faithful α]

/-- The run of calls with a strike at a place, beside the same run without it: the strike is there
until its delay has passed, lands in the step in which it passes and in no other, and all else is as
it is without it. -/
structure StrikePunctual (w : WeaponSettings α) (l : Layout α) (center : Point α) (delay : ℝ)
    (f g : InFlight α) (calls : List (Call α)) : Prop where
  rockets : (g.after w l calls).rockets = (f.after w l calls).rockets
  zones : (g.after w l calls).zones = (f.after w l calls).zones
  pending : ¬ Due delay (times calls) → ∃ s : Strike α,
    Adds [s] (g.after w l calls).strikes (f.after w l calls).strikes ∧
      s.center = center ∧ real s.remaining = delay - elapsed (times calls)
  gone : Due delay (times calls) → (g.after w l calls).strikes = (f.after w l calls).strikes
  lands : ∀ dt : α, ¬ Due delay (times calls) → Due delay (times calls ++ [dt]) →
    Adds [Strike.landing w center] ((g.after w l calls).blasts w dt) ((f.after w l calls).blasts w dt)
  silent : ∀ dt : α, Due delay (times calls) ∨ ¬ Due delay (times calls ++ [dt]) →
    (g.after w l calls).blasts w dt = (f.after w l calls).blasts w dt
  once : Due delay (times calls) →
    (blastsAlong w l calls g).Perm (Strike.landing w center :: blastsAlong w l calls f)
  never : ¬ Due delay (times calls) → (blastsAlong w l calls g).Perm (blastsAlong w l calls f)

/-- The run of calls with a zone at a place, beside the same run without it: the zone is there until
its life has passed, goes off with what is left of its life, and in steps no longer than the
interval as many times as intervals have passed; all else is as it is without it. -/
structure ZonePunctual (w : WeaponSettings α) (l : Layout α) (center : Point α) (life : ℝ)
    (f g : InFlight α) (calls : List (Call α)) : Prop where
  rockets : (g.after w l calls).rockets = (f.after w l calls).rockets
  strikes : (g.after w l calls).strikes = (f.after w l calls).strikes
  active : ¬ Due life (times calls) → ∃ z : Zone α,
    Adds [z] (g.after w l calls).zones (f.after w l calls).zones ∧
      z.center = center ∧ real z.remaining = life - elapsed (times calls)
  gone : Due life (times calls) → (g.after w l calls).zones = (f.after w l calls).zones
  ticks : ∀ dt : α, (0.0 : α) < dt → ¬ Due life (times calls) → ∃ b? : Option (Blast α),
    Adds b?.toList ((g.after w l calls).blasts w dt) ((f.after w l calls).blasts w dt) ∧
      (∀ b ∈ b?, b.center = center ∧ b.radius = w.plasmaRadius ∧ real b.amount =
        max 0 (life - elapsed (times calls ++ [dt])) * real w.plasmaDamageScale) ∧
      ((∀ dt' ∈ times calls ++ [dt], dt' ≤ w.plasmaDamageInterval) →
        ⌊elapsed (times calls ++ [dt]) / real w.plasmaDamageInterval⌋₊ =
          ⌊elapsed (times calls) / real w.plasmaDamageInterval⌋₊ + b?.toList.length)
  silent : ∀ dt : α, Due life (times calls) →
    (g.after w l calls).blasts w dt = (f.after w l calls).blasts w dt
  count : (∀ dt ∈ times calls, dt ≤ w.plasmaDamageInterval) → ¬ Due life (times calls).dropLast →
    ∃ mine : List (Blast α), (blastsAlong w l calls g).Perm (mine ++ blastsAlong w l calls f) ∧
      mine.length = ⌊elapsed (times calls) / real w.plasmaDamageInterval⌋₊ ∧
      ∀ b ∈ mine, b.center = center ∧ b.radius = w.plasmaRadius

variable {w : WeaponSettings α} {l : Layout α} {f g : InFlight α}

/-- **One more strike lands once, when its time is over**, and changes nothing else. -/
theorem Extra.strikePunctual {s : Strike α} (h : Extra [s] [] g f) {calls : List (Call α)}
    (hpos : Forward (times calls)) :
    StrikePunctual w l s.center (real s.remaining) f g calls := by
  have hafter := h.after (w := w) (l := l) calls
  have halong := h.perm_blastsAlong (w := w) (l := l) calls
  rw [course_nil] at hafter
  rw [bursts_nil, List.append_nil] at halong
  -- what the run with the strike has beside the other is the course of the strike alone
  have hstays (hdue : ¬ Due (real s.remaining) (times calls)) :=
    Strike.countdown.course_of_not_due hpos hdue
  have hgone (hdue : Due (real s.remaining) (times calls)) :=
    Strike.countdown.course_of_due hpos hdue
  constructor
  case rockets => exact hafter.rockets
  case zones => exact Adds.nil_iff.mp hafter.zones
  case pending =>
    intro hdue
    obtain ⟨s', hs', hleft, hplace⟩ := hstays hdue
    exact ⟨s', hs' ▸ hafter.strikes, hplace, hleft⟩
  case gone => exact fun hdue => Adds.nil_iff.mp (hgone hdue ▸ hafter.strikes)
  case lands =>
    intro dt hdue hover
    obtain ⟨s', hs', hleft, hplace⟩ := hstays hdue
    have hadds := hafter.adds_strikes (w := w) dt
    have hblast : s'.blast? w dt = some (Strike.landing w s'.center) := by
      refine if_neg ((not_pos_iff _).mpr ?_)
      rw [due_snoc_iff] at hover
      rw [real_sub, hleft]
      linarith
    rw [hs', filterMap_one, hblast, hplace] at hadds
    exact hadds
  case silent =>
    intro dt hdue
    have hadds := hafter.adds_strikes (w := w) dt
    by_cases hnow : Due (real s.remaining) (times calls)
    · rw [hgone hnow] at hadds
      exact Adds.nil_iff.mp hadds
    · have hover := hdue.resolve_left hnow
      obtain ⟨s', hs', hleft, -⟩ := hstays hnow
      have hblast : s'.blast? w dt = none := by
        refine if_pos ((pos_iff _).mpr ?_)
        rw [due_snoc_iff, not_le] at hover
        rw [real_sub, hleft]
        linarith
      rw [hs', filterMap_one, hblast] at hadds
      exact Adds.nil_iff.mp hadds
  case once =>
    intro hdue
    rwa [Strike.bursts_of_due w hpos hdue] at halong
  case never =>
    intro hdue
    rwa [Strike.bursts_of_not_due w hpos hdue] at halong

/-- A zone that has just been accepted goes off as many times as intervals have passed. -/
theorem length_bursts_of_new (w : WeaponSettings α) {times : List α} (hpos : Forward times)
    (hshort : ∀ dt ∈ times, dt ≤ w.plasmaDamageInterval) {z : Zone α} (hnew : z.sinceTick = 0.0)
    (hdue : ¬ Due (real z.remaining) times.dropLast) :
    (bursts (Zone.next w) (Zone.blast? w) times [z]).length =
      ⌊elapsed times / real w.plasmaDamageInterval⌋₊ := by
  have hzero : real z.sinceTick = 0 := hnew ▸ real_zero
  cases times with
  | nil => rw [elapsed_nil, zero_div, Nat.floor_zero]; rfl
  | cons dt times =>
    have hdt := (pos_iff dt).mp (hpos dt List.mem_cons_self)
    have hle := (le_iff _ _).mp (hshort dt List.mem_cons_self)
    rw [Zone.length_bursts w hpos hshort hzero.ge (by linarith) hdue, hzero, zero_add]

/-- **One more zone strikes once in each interval of its time**, and changes nothing else. -/
theorem Extra.zonePunctual {z : Zone α} (h : Extra [] [z] g f) (hnew : z.sinceTick = 0.0)
    {calls : List (Call α)} (hpos : Forward (times calls)) :
    ZonePunctual w l z.center (real z.remaining) f g calls := by
  have hafter := h.after (w := w) (l := l) calls
  have halong := h.perm_blastsAlong (w := w) (l := l) calls
  rw [course_nil] at hafter
  rw [bursts_nil, List.nil_append] at halong
  -- what the run with the zone has beside the other is the course of the zone alone
  have hstays (hdue : ¬ Due (real z.remaining) (times calls)) :=
    (Zone.countdown w).course_of_not_due hpos hdue
  have hgone (hdue : Due (real z.remaining) (times calls)) :=
    (Zone.countdown w).course_of_due hpos hdue
  constructor
  case rockets => exact hafter.rockets
  case strikes => exact Adds.nil_iff.mp hafter.strikes
  case active =>
    intro hdue
    obtain ⟨z', hz', hleft, hplace⟩ := hstays hdue
    exact ⟨z', hz' ▸ hafter.zones, hplace, hleft⟩
  case gone => exact fun hdue => Adds.nil_iff.mp (hgone hdue ▸ hafter.zones)
  case ticks =>
    intro dt hdt hdue
    obtain ⟨z', hz', hleft, hplace⟩ := hstays hdue
    have hadds := hafter.adds_zones (w := w) dt
    rw [hz', filterMap_one] at hadds
    refine ⟨z'.blast? w dt, hadds, fun b hb => ?_, fun hshort => ?_⟩
    · rw [Zone.blast?] at hb
      split at hb
      · cases hb
        refine ⟨hplace, rfl, ?_⟩
        rw [real_mul, real_greater, real_zero, real_sub, hleft, elapsed_snoc, sub_sub]
      · cases hb
    · -- the bursts before the step and behind it are both counted, and the step makes the difference
      have hbefore := length_bursts_of_new w hpos
        (fun dt' hdt' => hshort dt' (List.mem_append_left _ hdt')) hnew
        (mt (Due.of_dropLast hpos) hdue)
      have hlast : ¬ Due (real z.remaining) (times calls ++ [dt]).dropLast := by
        rwa [List.dropLast_concat]
      have hbehind := length_bursts_of_new w (hpos.snoc hdt) hshort hnew hlast
      rw [← hbefore, ← hbehind, bursts_append, List.length_append, hz', bursts, bursts,
        List.append_nil, filterMap_one]
  case silent =>
    intro dt hdue
    have hadds := hafter.adds_zones (w := w) dt
    rw [hgone hdue] at hadds
    exact Adds.nil_iff.mp hadds
  case count =>
    intro hshort hdue
    exact ⟨_, halong, length_bursts_of_new w hpos hshort hnew hdue, fun b => Zone.mem_bursts⟩

/-- **Strikes and zones are punctual, whatever else is in flight.**  A strike that was accepted
lands once, in the first step in which the time since then reaches its delay; a zone of some charge
is there until that time reaches half the charge, and in steps no longer than the interval it goes
off as many times as intervals have passed, with what is left of its life.  A step does nothing to
the targets but to let what goes off strike, and that strikes the live targets close enough. -/
theorem punctual (w : WeaponSettings α) (l : Layout α) (f : InFlight α) :
    (∀ calls : List (Call α), Forward (times calls) →
      (∀ cell delay g, f.accept w l (.strike cell delay) = .ok g →
        ∃ center, l.centre cell = .ok center ∧
          StrikePunctual w l center (real delay) f g calls) ∧
      ∀ center charge g, f.accept w l (.plasma center charge) = .ok g →
        ZonePunctual w l center ((charge : ℝ) / 2) f g calls) ∧
    (∀ dt ts, (f.advance w dt ts).state.targets = Blast.play w (f.blasts w dt) ts) ∧
    ∀ (b : Blast α) (ts : Targets α), ts.Sound →
      b.on w ts = ⟨ts.table.mapValues (b.strike w), ts.nextId⟩ := by
  refine ⟨fun calls hpos => ⟨fun cell delay g hg => ?_, fun center charge g hg => ?_⟩,
    fun dt ts => f.targets_advance w dt ts, fun b ts hs => Blast.on_eq hs⟩
  · obtain ⟨center, hcenter, hg⟩ := exists_of_bind_eq_ok hg
    obtain rfl := Except.ok.inj hg
    have hextra : Extra [⟨center, delay⟩] [] { f with strikes := f.strikes ++ [⟨center, delay⟩] } f :=
      ⟨rfl, .snoc _ _, Adds.nil_iff.mpr rfl⟩
    exact ⟨center, hcenter, hextra.strikePunctual hpos⟩
  · obtain ⟨c, hc, hg⟩ := exists_of_bind_eq_ok hg
    obtain rfl := Except.ok.inj hg
    have hextra : Extra [] [⟨center, c / 2.0, 0.0⟩]
        { f with zones := f.zones ++ [⟨center, c / 2.0, 0.0⟩] } f :=
      ⟨rfl, Adds.nil_iff.mpr rfl, .snoc _ _⟩
    have hlife : real (c / 2.0) = (charge : ℝ) / 2 := by
      rw [Scalar.convert] at hc
      split at hc
      · rw [← Except.ok.inj hc, real_half, real_ofInt]
      · cases hc
    exact hlife ▸ hextra.zonePunctual rfl hpos

/-- Five steps of half a second against no targets. -/
def volley : List (Call ℚ) := List.replicate 5 (.advance 0.5 .empty)

/-- A strike that is two seconds away lands in these steps, and a zone with five half seconds to
live goes off five times. -/
theorem punctual_volley :
    let w : WeaponSettings ℚ := (Settings.standard : Settings ℚ).weapons
    Forward (times volley) ∧ (∀ dt ∈ times volley, dt ≤ w.plasmaDamageInterval) ∧
      (∃ g center, InFlight.empty.accept w ⟨1.0⟩ (.strike .origin 2.0) = .ok g ∧
        (blastsAlong w ⟨1.0⟩ volley g).Perm [Strike.landing w center]) ∧
      ∃ g mine, InFlight.empty.accept w ⟨1.0⟩ (.plasma ⟨0.0, 0.0⟩ 5) = .ok g ∧
        (blastsAlong w ⟨1.0⟩ volley g).Perm mine ∧ mine.length = 5 := by
  intro w
  have htimes : times volley = List.replicate 5 0.5 := rfl
  have hhalf : real (0.5 : ℚ) = 1 / 2 := by
    change ((0.5 : ℚ) : ℝ) = 1 / 2
    norm_num
  have hpos : Forward (times volley) := by
    intro dt hdt
    rw [htimes] at hdt
    rw [List.eq_of_mem_replicate hdt, pos_iff, hhalf]
    norm_num
  have hshort : ∀ dt ∈ times volley, dt ≤ w.plasmaDamageInterval := by
    intro dt hdt
    rw [htimes] at hdt
    exact (List.eq_of_mem_replicate hdt).le
  have helapsed (n : Nat) : elapsed (List.replicate n (0.5 : ℚ)) = n / 2 := by
    rw [elapsed, List.map_replicate, List.sum_replicate, hhalf, nsmul_eq_mul]
    ring
  obtain ⟨hstrike, hzone⟩ := (punctual w ⟨1.0⟩ .empty).1 volley hpos
  refine ⟨hpos, hshort, ?_, ?_⟩
  · obtain ⟨g, hg⟩ : ∃ g, InFlight.empty.accept w ⟨1.0⟩ (.strike .origin 2.0) = .ok g := ⟨_, rfl⟩
    obtain ⟨center, -, hpunctual⟩ := hstrike _ _ g hg
    refine ⟨g, center, hg, hpunctual.once ⟨by rw [htimes]; simp, ?_⟩⟩
    rw [htimes, helapsed, real_two]
    norm_num
  · obtain ⟨g, hg⟩ : ∃ g, InFlight.empty.accept w ⟨1.0⟩ (.plasma ⟨0.0, 0.0⟩ 5) = .ok g := ⟨_, rfl⟩
    have hdue : ¬ Due (((5 : Int) : ℝ) / 2) (times volley).dropLast := by
      intro h
      have hlast : (times volley).dropLast = List.replicate 4 0.5 := rfl
      rw [hlast] at h
      have := h.2
      rw [helapsed] at this
      norm_num at this
    obtain ⟨mine, hperm, hlength, -⟩ := (hzone _ _ g hg).count hshort hdue
    have hempty : blastsAlong w ⟨1.0⟩ volley InFlight.empty = [] := rfl
    rw [hempty, List.append_nil] at hperm
    have hinterval : real w.plasmaDamageInterval = 1 / 2 := hhalf
    refine ⟨g, mine, hg, hperm, hlength.trans ?_⟩
    rw [htimes, helapsed, hinterval]
    norm_num

end InFlight

end HexPulse
