import HexPulse.Heart
import HexPulse.Proofs.Scalar.Faithful
import Mathlib.Algebra.BigOperators.Group.List.Basic
import Mathlib.Algebra.Order.Archimedean.Real.Basic
import Mathlib.Algebra.Order.Floor.Ring

/-!
# HexPulse — Proofs — Heart

What a heart does while time passes in frames of any length and its health becomes anything in
between, where arithmetic is exact.  The timer carries over what a frame leaves behind a beat, so
nothing is lost between two frames (`Heart.Timed.happen`, `Heart.Steady.run`).

* `Heart.keeps_time`: the timer stays within the period, a heart beats at most once in a call and only
  while it is alive, and with the health it has from the start it has beaten once for every period
  that has passed.
-/

namespace HexPulse.Heart

open Scalar Faithful

variable {α : Type}

/-- What happens to a heart: its health becomes anything, or time passes. -/
inductive Happening (α : Type) where
  | health (health : α)
  | time (dt : α)

/-- A heart that is advanced by some time. -/
structure Call (α : Type) where
  heart : Heart α
  dt : α

section Run

variable [Scalar α]

/-- The heart after what happens to it. -/
def happen (s : HeartSettings α) (h : Heart α) : Happening α → Heart α
  | .health health => { h with health := health }
  | .time dt => (h.advance s dt).1

/-- The heart after all that happens to it. -/
def run (s : HeartSettings α) (h : Heart α) (run : List (Happening α)) : Heart α :=
  run.foldl (happen s) h

/-- The calls that advance the heart meanwhile. -/
def calls (s : HeartSettings α) : Heart α → List (Happening α) → List (Call α)
  | _, [] => []
  | h, .health health :: rest => calls s { h with health := health } rest
  | h, .time dt :: rest => ⟨h, dt⟩ :: calls s (h.advance s dt).1 rest

/-- The answer to a call is that the heart beats. -/
def Call.beats (s : HeartSettings α) (c : Call α) : Bool := (c.heart.advance s c.dt).2

/-- All that a call can do: a dead heart stays as it is, and a heart that is alive waits or beats. -/
theorem advance_cases (s : HeartSettings α) (dt : α) (h : Heart α) :
    (¬ (0.0 : α) < h.health ∧ h.advance s dt = (h, false)) ∨
    ((0.0 : α) < h.health ∧ h.elapsed + dt < h.period ∧
      h.advance s dt = ({ h with elapsed := h.elapsed + dt }, false)) ∨
    ((0.0 : α) < h.health ∧ ¬ h.elapsed + dt < h.period ∧
      h.advance s dt = (h.beat s (h.elapsed + dt), true)) := by
  by_cases halive : (0.0 : α) < h.health
  · by_cases hdue : h.elapsed + dt < h.period
    · exact .inr (.inl ⟨halive, hdue, by simp [advance, alive, halive, hdue]⟩)
    · exact .inr (.inr ⟨halive, hdue, by simp [advance, alive, halive, hdue]⟩)
  · exact .inl ⟨halive, by simp [advance, alive, halive]⟩

/-- A call counts one beat if it says so, and none otherwise. -/
theorem beats_advance (s : HeartSettings α) (dt : α) (h : Heart α) :
    (h.advance s dt).1.beats = h.beats + if (h.advance s dt).2 then 1 else 0 := by
  obtain ⟨-, ha⟩ | ⟨-, -, ha⟩ | ⟨-, -, ha⟩ := advance_cases s dt h
  · rw [ha]
    exact (add_zero _).symm
  · rw [ha]
    exact (add_zero _).symm
  · rw [ha]
    rfl

/-- A heart has beaten as often as its calls say. -/
theorem beats_run (s : HeartSettings α) (h : Heart α) (happenings : List (Happening α)) :
    (h.run s happenings).beats = h.beats + (h.calls s happenings).countP (Call.beats s) := by
  induction happenings generalizing h with
  | nil => exact (add_zero _).symm
  | cons a rest ih =>
    cases a with
    | health health => exact ih { h with health := health }
    | time dt =>
      have hrest := ih (h.advance s dt).1
      rw [beats_advance] at hrest
      rw [calls, List.countP_cons]
      refine hrest.trans ?_
      change h.beats + (if Call.beats s ⟨h, dt⟩ then 1 else 0) + _ = _
      split <;> push_cast <;> ring

/-- What a call says of the heart: one that beats is alive, so that its period is not divided by
zero, and counts one beat; one that does not is as it was, but for its timer. -/
structure Call.Sound [Faithful α] (s : HeartSettings α) (c : Call α) : Prop where
  alive : c.beats s → 0 < real c.heart.health
  beats : (c.heart.advance s c.dt).1.beats = c.heart.beats + if c.beats s then 1 else 0
  period : real (c.heart.advance s c.dt).1.period =
    if c.beats s then real s.periodBase / real c.heart.health else real c.heart.period
  health : (c.heart.advance s c.dt).1.health = c.heart.health

/-- **Every call says the truth of its heart.** -/
theorem Call.sound [Faithful α] (s : HeartSettings α) (c : Call α) : c.Sound s := by
  have hbeats := beats_advance s c.dt c.heart
  obtain ⟨-, ha⟩ | ⟨-, -, ha⟩ | ⟨halive, -, ha⟩ := advance_cases s c.dt c.heart
  · have hquiet : c.beats s = false := congrArg Prod.snd ha
    exact ⟨by simp [hquiet], hbeats, by simp [hquiet, ha], by rw [ha]⟩
  · have hquiet : c.beats s = false := congrArg Prod.snd ha
    exact ⟨by simp [hquiet], hbeats, by simp [hquiet, ha], by rw [ha]⟩
  · have hloud : c.beats s = true := congrArg Prod.snd ha
    rw [pos_iff] at halive
    refine ⟨fun _ => halive, hbeats, ?_, by rw [ha]; rfl⟩
    rw [ha, if_pos hloud]
    exact real_div s.periodBase c.heart.health halive.ne'

end Run

/-! ### The timer -/

section Timer

variable [Scalar α] [Faithful α] {s : HeartSettings α} {h : Heart α}

/-- The timer is within the period. -/
structure Timed (h : Heart α) : Prop where
  nonneg : 0 ≤ real h.elapsed
  le : real h.elapsed ≤ real h.period

/-- How long it takes to happen. -/
noncomputable def Happening.span : Happening α → ℝ
  | .health _ => 0
  | .time dt => real dt

/-- How long it takes until all of it has happened. -/
noncomputable def total (happenings : List (Happening α)) : ℝ := (happenings.map Happening.span).sum

@[simp] theorem total_nil : total ([] : List (Happening α)) = 0 := rfl

@[simp] theorem total_cons (a : Happening α) (rest : List (Happening α)) :
    total (a :: rest) = a.span + total rest := List.sum_cons

/-- A beat leaves the timer within the new period: what is too much is cut off. -/
theorem Timed.beat (hbase : 0 < real s.periodBase) (halive : 0 < real h.health) {elapsed : α}
    (hdue : real h.period ≤ real elapsed) : (h.beat s elapsed).Timed := by
  have hperiod : real (s.periodBase / h.health) = real s.periodBase / real h.health :=
    real_div _ _ halive.ne'
  have helapsed : real (h.beat s elapsed).elapsed =
      min (real elapsed - real h.period) (real s.periodBase / real h.health) := by
    rw [Heart.beat, real_lesser, real_sub, hperiod]
  constructor
  · rw [helapsed]
    exact le_min (sub_nonneg.mpr hdue) (div_pos hbase halive).le
  · rw [helapsed]
    exact (min_le_right _ _).trans hperiod.ge

/-- Time that passes leaves the timer within the period. -/
theorem Timed.advance (hbase : 0 < real s.periodBase) (ht : h.Timed) {dt : α}
    (hdt : 0 ≤ real dt) : (h.advance s dt).1.Timed := by
  obtain ⟨-, ha⟩ | ⟨-, hearly, ha⟩ | ⟨halive, hdue, ha⟩ := advance_cases s dt h
  · rw [ha]
    exact ht
  · rw [ha]
    rw [lt_iff, real_add] at hearly
    constructor
    · exact (add_nonneg ht.nonneg hdt).trans_eq (real_add _ _).symm
    · exact (real_add _ _).trans_le hearly.le
  · rw [ha]
    rw [lt_iff, not_lt] at hdue
    exact .beat hbase ((pos_iff _).mp halive) hdue

/-- Nothing that happens brings the timer out of the period. -/
theorem Timed.happen (hbase : 0 < real s.periodBase) (ht : h.Timed) {a : Happening α}
    (ha : 0 ≤ a.span) : (h.happen s a).Timed := by
  cases a with
  | health health => exact ⟨ht.nonneg, ht.le⟩
  | time dt => exact ht.advance hbase ha

/-- **The timer never leaves the period.** -/
theorem Timed.run (hbase : 0 < real s.periodBase) (ht : h.Timed) {happenings : List (Happening α)}
    (hspan : ∀ a ∈ happenings, 0 ≤ a.span) : (h.run s happenings).Timed := by
  induction happenings generalizing h with
  | nil => exact ht
  | cons a rest ih =>
    obtain ⟨ha, hrest⟩ := List.forall_mem_cons.mp hspan
    exact ih (ht.happen hbase ha) hrest

/-! ### A heart whose health stays -/

/-- The heart is alive, its period is the one that goes by its health, and its timer is short of
it. -/
structure Steady (s : HeartSettings α) (h : Heart α) : Prop where
  alive : 0 < real h.health
  period : real h.period = real s.periodBase / real h.health
  nonneg : 0 ≤ real h.elapsed
  lt : real h.elapsed < real h.period

/-- Nothing happens to the health, and no more than a period passes at once. -/
def Happening.Gentle (h : Heart α) : Happening α → Prop
  | .health v => real v = real h.health
  | .time dt => 0 ≤ real dt ∧ real dt ≤ real h.period

/-- What one heart leaves another after some time: as many beats as whole periods are missing from
its timer. -/
structure Kept (s : HeartSettings α) (time : ℝ) (h h' : Heart α) : Prop where
  steady : h'.Steady s
  health : real h'.health = real h.health
  period : real h'.period = real h.period
  elapsed : real h'.elapsed = real h.elapsed + time - (h'.beats - h.beats : Int) * real h.period

theorem Steady.period_pos (hs : h.Steady s) : 0 < real h.period := hs.nonneg.trans_lt hs.lt

/-- A frame in which a steady heart waits, or beats and carries the rest of the frame over. -/
theorem Steady.advance (hs : h.Steady s) {dt : α} (hdt : 0 ≤ real dt)
    (hshort : real dt ≤ real h.period) : Kept s (real dt) h (h.advance s dt).1 := by
  have halive : (0.0 : α) < h.health := (pos_iff _).mpr hs.alive
  have hlt := hs.lt
  obtain ⟨hdead, -⟩ | ⟨-, hearly, ha⟩ | ⟨-, hdue, ha⟩ := advance_cases s dt h
  · exact absurd halive hdead
  · rw [lt_iff, real_add] at hearly
    have helapsed : real (h.elapsed + dt) = real h.elapsed + real dt := real_add _ _
    rw [ha]
    refine ⟨⟨hs.alive, hs.period, ?_, ?_⟩, rfl, rfl, ?_⟩
    · exact (add_nonneg hs.nonneg hdt).trans_eq helapsed.symm
    · exact helapsed.trans_lt hearly
    · rw [sub_self, Int.cast_zero, zero_mul, sub_zero]
      exact helapsed
  · rw [lt_iff, real_add, not_lt] at hdue
    have hperiod : real (s.periodBase / h.health) = real h.period :=
      (real_div _ _ hs.alive.ne').trans hs.period.symm
    -- what is left of the frame is less than a period, so that nothing of it is cut off
    have hrest : real h.elapsed + real dt - real h.period < real h.period := by linarith
    have helapsed : real (h.beat s (h.elapsed + dt)).elapsed =
        real h.elapsed + real dt - real h.period := by
      rw [beat, real_lesser, real_sub, real_add, hperiod]
      exact min_eq_left hrest.le
    rw [ha]
    refine ⟨⟨hs.alive, real_div _ _ hs.alive.ne', ?_, ?_⟩, rfl, hperiod, ?_⟩
    · exact (sub_nonneg.mpr hdue).trans_eq helapsed.symm
    · exact (helapsed.trans_lt hrest).trans_eq hperiod.symm
    · rw [beat, add_sub_cancel_left, Int.cast_one, one_mul]
      exact helapsed

/-- Whatever gentle happens to a steady heart keeps it steady. -/
theorem Steady.happen (hs : h.Steady s) {a : Happening α} (ha : a.Gentle h) :
    Kept s a.span h (h.happen s a) := by
  cases a with
  | health v =>
    refine ⟨⟨hs.alive.trans_eq ha.symm, ?_, hs.nonneg, hs.lt⟩, ha, rfl, ?_⟩
    · exact hs.period.trans (congrArg (real s.periodBase / ·) ha.symm)
    · rw [Heart.happen, sub_self, Int.cast_zero, zero_mul, sub_zero]
      exact (add_zero _).symm
  | time dt => exact hs.advance ha.1 ha.2

theorem Kept.gentle {time : ℝ} {h' : Heart α} (hk : Kept s time h h') {a : Happening α}
    (ha : a.Gentle h) : a.Gentle h' := by
  cases a with
  | health v => exact Eq.trans ha hk.health.symm
  | time dt => exact ⟨ha.1, ha.2.trans_eq hk.period.symm⟩

/-- Time that passes in two parts adds up. -/
theorem Kept.trans {t t' : ℝ} {h' h'' : Heart α} (hk : Kept s t h h') (hk' : Kept s t' h' h'') :
    Kept s (t + t') h h'' := by
  refine ⟨hk'.steady, hk'.health.trans hk.health, hk'.period.trans hk.period, ?_⟩
  rw [hk'.elapsed, hk.elapsed, hk.period]
  push_cast
  ring

/-- **A steady heart keeps time**, however it is split into frames. -/
theorem Steady.run (hs : h.Steady s) {happenings : List (Happening α)}
    (hgentle : ∀ a ∈ happenings, a.Gentle h) :
    Kept s (total happenings) h (h.run s happenings) := by
  induction happenings generalizing h with
  | nil =>
    refine ⟨hs, rfl, rfl, ?_⟩
    rw [Heart.run, List.foldl_nil, sub_self, Int.cast_zero, zero_mul, sub_zero, total_nil, add_zero]
  | cons a rest ih =>
    obtain ⟨ha, hrest⟩ := List.forall_mem_cons.mp hgentle
    have hk := hs.happen ha
    rw [total_cons]
    exact hk.trans (ih hk.steady fun b hb => hk.gentle (hrest b hb))

/-- Time beats the same however it is split into frames: once for each period. -/
theorem Kept.beats_eq {time : ℝ} {h' : Heart α} (hs : h.Steady s) (hk : Kept s time h h') :
    h'.beats = h.beats + ⌊(real h.elapsed + time) / real h.period⌋ := by
  have hnonneg := hk.steady.nonneg
  have hlt := hk.steady.lt
  rw [hk.elapsed] at hnonneg hlt
  rw [hk.period] at hlt
  have hfloor : ⌊(real h.elapsed + time) / real h.period⌋ = h'.beats - h.beats := by
    rw [Int.floor_eq_iff, le_div_iff₀ hs.period_pos, div_lt_iff₀ hs.period_pos]
    constructor
    · linarith
    · linarith
  rw [hfloor]
  ring

/-- **Hearts are punctual.**  Where arithmetic is exact, let anything happen to a heart whose timer
stands at zero, whatever its health becomes and however long the frames are.  Its timer is within
the period all the time.  It has beaten as often as its calls say, at most once in each and never while
dead, so that no period is divided by zero.  If the health stays what it was, with the period that
goes by it, and no frame is longer than that, then the heart has beaten once for each whole period
that passed, and its timer shows the rest. -/
theorem keeps_time (s : HeartSettings α) (hbase : 0 < real s.periodBase) (h : Heart α)
    (hperiod : 0 ≤ real h.period) (hstart : real h.elapsed = 0) (happenings : List (Happening α))
    (hspan : ∀ a ∈ happenings, 0 ≤ a.span) :
    (∀ past, past <+: happenings → (h.run s past).Timed) ∧
      (∀ c ∈ h.calls s happenings, c.Sound s) ∧
      (h.run s happenings).beats = h.beats + (h.calls s happenings).countP (Call.beats s) ∧
      (real h.health ≠ 0 → real h.period = real s.periodBase / real h.health →
        (∀ v, .health v ∈ happenings → real v = real h.health) →
        (∀ dt, .time dt ∈ happenings → real dt ≤ real h.period) →
        let n := ⌊total happenings / real h.period⌋
        (h.run s happenings).beats = h.beats + n ∧
          real (h.run s happenings).elapsed = total happenings - real h.period * n) := by
  have htimed : h.Timed := ⟨hstart.ge, hstart.trans_le hperiod⟩
  refine ⟨fun past hpast => htimed.run hbase fun a ha => hspan a (hpast.subset ha),
    fun c _ => c.sound s, beats_run s h happenings, ?_⟩
  intro hhealth hrate hconstant hshort n
  -- the period is not negative, and no health but a positive one goes with that
  have halive : 0 < real h.health := by
    refine lt_of_le_of_ne (not_lt.mp fun hneg => ?_) hhealth.symm
    exact (div_neg_of_pos_of_neg hbase hneg).not_ge (hrate ▸ hperiod)
  have hpos : 0 < real h.period := hrate ▸ div_pos hbase halive
  have hs : h.Steady s := ⟨halive, hrate, hstart.ge, hstart.trans_lt hpos⟩
  have hk : Kept s (total happenings) h (h.run s happenings) := by
    refine hs.run fun a ha => ?_
    cases a with
    | health v => exact hconstant v ha
    | time dt => exact ⟨hspan _ ha, hshort dt ha⟩
  have hbeats := hk.beats_eq hs
  have helapsed := hk.elapsed
  rw [hstart, zero_add] at hbeats helapsed
  refine ⟨hbeats, ?_⟩
  rw [helapsed, hbeats, add_sub_cancel_left, mul_comm]

/-- A heart as it is placed. -/
def fresh : Heart ℚ := ⟨1, .origin, 10.0, 10.0, 0.0, 0⟩

/-- Seven frames of four seconds, which a healing by nothing interrupts. -/
def frames : List (Happening ℚ) :=
  List.replicate 3 (.time 4.0) ++ .health 10.0 :: List.replicate 4 (.time 4.0)

/-- In these twenty-eight seconds, the heart beats twice. -/
theorem keeps_time_frames :
    let s : HeartSettings ℚ := (Settings.standard : Settings ℚ).heart
    0 < real s.periodBase ∧ 0 ≤ real fresh.period ∧ real fresh.elapsed = 0 ∧
      real fresh.period = real s.periodBase / real fresh.health ∧ (fresh.run s frames).Timed ∧
      (fresh.run s frames).beats = 2 ∧ real (fresh.run s frames).elapsed = 8 := by
  intro s
  have hbase : real s.periodBase = 100 := by
    change ((100.0 : ℚ) : ℝ) = 100
    norm_num
  have hten : real (10.0 : ℚ) = 10 := by
    change ((10.0 : ℚ) : ℝ) = 10
    norm_num
  have hfour : real (4.0 : ℚ) = 4 := by
    change ((4.0 : ℚ) : ℝ) = 4
    norm_num
  have hperiod : real fresh.period = 10 := hten
  have hhealth : real fresh.health = 10 := hten
  have hstart : real fresh.elapsed = 0 := real_zero
  have hmem : ∀ a ∈ frames, a = .time 4.0 ∨ a = .health 10.0 := by
    intro a ha
    simp only [frames, List.mem_append, List.mem_cons, List.mem_replicate] at ha
    tauto
  have hspan : ∀ a ∈ frames, 0 ≤ a.span := by
    intro a ha
    obtain rfl | rfl := hmem a ha
    · exact (by norm_num : (0 : ℝ) ≤ 4).trans_eq hfour.symm
    · exact le_rfl
  -- seven frames of four each are two whole periods and eight more
  have htotal : total frames = 28 := by
    simp only [total, frames, List.map_append, List.map_cons, List.map_replicate, List.sum_append,
      List.sum_cons, List.sum_replicate, Happening.span, hfour]
    norm_num
  obtain ⟨htimed, -, -, hsteady⟩ := keeps_time s (by rw [hbase]; norm_num) fresh
    (by rw [hperiod]; norm_num) hstart frames hspan
  have hrate : real fresh.period = real s.periodBase / real fresh.health := by
    rw [hperiod, hbase, hhealth]
    norm_num
  obtain ⟨hbeats, helapsed⟩ := hsteady (by rw [hhealth]; norm_num) hrate
    (fun v hv => by
      obtain h | h := hmem _ hv
      · cases h
      · exact congrArg real (Happening.health.inj h))
    (fun dt hdt => by
      obtain h | h := hmem _ hdt
      · rw [Happening.time.inj h, hfour, hperiod]
        norm_num
      · cases h)
  have hfloor : ⌊total frames / real fresh.period⌋ = 2 := by
    rw [htotal, hperiod, Int.floor_eq_iff]
    norm_num
  rw [hfloor] at hbeats helapsed
  rw [htotal, hperiod] at helapsed
  refine ⟨by rw [hbase]; norm_num, by rw [hperiod]; norm_num, hstart, hrate,
    htimed frames List.prefix_rfl, hbeats, ?_⟩
  rw [helapsed]
  norm_num

end Timer

end HexPulse.Heart
