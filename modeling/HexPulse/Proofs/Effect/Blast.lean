import HexPulse.Proofs.Target.Harm

/-!
# HexPulse — Proofs — Effect — Blast

What the things in flight do to the targets, as blasts: a place, a radius, and an amount that is
taken from whoever is struck.  A rocket sets one off in every step, a strike when it lands, a zone
at every full interval (`InFlight.blasts`), and a step does nothing to the targets but to let the
blasts strike, one after the other (`InFlight.targets_advance`).

* `Blast.on_eq`: a blast takes its amount once from each target that is alive and close enough,
  and leaves all others alone.
-/

namespace HexPulse

variable {α : Type}

/-- A blow against whoever is near a place. -/
structure Blast (α : Type) where
  center : Point α
  radius : α
  amount : α

variable [Scalar α]

namespace Blast

/-- The targets after a blast. -/
def on (w : WeaponSettings α) (ts : Targets α) (b : Blast α) : Targets α :=
  (ts.hit w b.center b.radius b.amount).1

/-- The target is alive, and close enough to the place to be struck. -/
def Reaches (w : WeaponSettings α) (b : Blast α) (t : Target α) : Prop :=
  t.alive = true ∧ b.center.distance t.position ≤ b.radius + w.targetRadius

instance (w : WeaponSettings α) (b : Blast α) : DecidablePred (b.Reaches w) :=
  fun _ => instDecidableAnd

/-- What a blast makes of a target. -/
def strike (w : WeaponSettings α) (b : Blast α) (t : Target α) : Target α :=
  if b.Reaches w t then { t with health := t.health - b.amount } else t

variable {w : WeaponSettings α} {b : Blast α} {ts : Targets α}

/-- The targets that a hit finds are those that the blast reaches. -/
theorem mem_within_iff {t : Target α} : t ∈ ts.within b.center (b.radius + w.targetRadius) ↔
    t ∈ ts.table.values ∧ b.Reaches w t := by
  rw [Targets.within, Targets.live, List.mem_filter, List.mem_filter, and_assoc, Reaches,
    decide_eq_true_eq]

theorem id_strike (t : Target α) : (b.strike w t).id = t.id := by
  rw [strike]
  split <;> rfl

/-- Blows against different targets, each of them as the table has it. -/
theorem foldl_damage (hs : ts.Sound) (amount : α) {struck : List (Target α)}
    (hmem : ∀ t ∈ struck, t ∈ ts.table.values ∧ t.alive = true)
    (hnodup : (struck.map (·.id)).Nodup) :
    (struck.foldl (fun ts t => ts.damage t.id amount) ts).nextId = ts.nextId ∧
      (struck.foldl (fun ts t => ts.damage t.id amount) ts).table = ts.table.mapValues fun t =>
        if t.id ∈ struck.map (·.id) then { t with health := t.health - amount } else t := by
  induction struck generalizing ts with
  | nil => exact ⟨rfl, (Table.mapValues_eq_self fun t _ => if_neg List.not_mem_nil).symm⟩
  | cons u struck ih =>
    obtain ⟨hnot, hnodup⟩ := List.nodup_cons.mp hnodup
    obtain ⟨⟨hu, halive⟩, hmem⟩ := List.forall_mem_cons.mp hmem
    have hblow (t : Target α) (ht : t ∈ ts.table.values) : t.afterBlow u.id amount =
        if t.id = u.id then { t with health := t.health - amount } else t := by
      split
      · next hid =>
        obtain rfl := hs.keyed.eq_of_id_eq ht hu hid
        exact Target.afterBlow_of_alive halive amount
      · next hid => exact Target.afterBlow_of_ne hid amount
    -- a blow against one leaves the others as they were
    have hrest : ∀ t ∈ struck, t ∈ (ts.damage u.id amount).table.values ∧ t.alive = true := by
      intro t ht
      refine ⟨?_, (hmem t ht).2⟩
      rw [hs.values_damage]
      refine List.mem_map.mpr ⟨t, (hmem t ht).1, Target.afterBlow_of_ne (fun hid => ?_) amount⟩
      exact hnot (List.mem_map.mpr ⟨t, ht, hid⟩)
    obtain ⟨hnext, htable⟩ := ih (hs.damage u.id amount) hrest hnodup
    refine ⟨hnext, htable.trans ?_⟩
    rw [hs.table_damage, Table.mapValues_mapValues]
    refine Table.mapValues_congr fun t ht => ?_
    rw [Target.id_afterBlow, hblow t ht, List.map_cons]
    by_cases hid : t.id = u.id
    · have hnot : t.id ∉ struck.map (·.id) := hid ▸ hnot
      rw [if_neg hnot, if_pos hid, if_pos (hid ▸ List.mem_cons_self)]
    · rw [if_neg hid]
      simp only [List.mem_cons, hid, false_or]

/-- **A blast takes its amount once from each target that is alive and close enough**, and leaves
all others alone. -/
theorem on_eq (hs : ts.Sound) : b.on w ts = ⟨ts.table.mapValues (b.strike w), ts.nextId⟩ := by
  have hsub : (ts.within b.center (b.radius + w.targetRadius)).Sublist ts.table.values :=
    List.filter_sublist.trans List.filter_sublist
  have hnodup : (ts.table.values.map (·.id)).Nodup := hs.keyed.keys_eq ▸ hs.keyed.nodup
  obtain ⟨hnext, htable⟩ := foldl_damage hs b.amount
    (fun t ht => ⟨hsub.subset ht, (mem_within_iff.mp ht).2.1⟩) ((hsub.map _).nodup hnodup)
  refine congrArg₂ Targets.mk (htable.trans (Table.mapValues_congr fun t ht => ?_)) hnext
  have hmem : t.id ∈ (ts.within b.center (b.radius + w.targetRadius)).map (·.id) ↔
      b.Reaches w t := by
    rw [← and_iff_right (b := b.Reaches w t) ht, ← mem_within_iff]
    refine ⟨fun h => ?_, fun h => List.mem_map_of_mem h⟩
    obtain ⟨u, hu, hid⟩ := List.mem_map.mp h
    rwa [← hs.keyed.eq_of_id_eq (hsub.subset hu) ht hid]
  rw [strike]
  simp only [hmem]

theorem sound_on (hs : ts.Sound) : (b.on w ts).Sound := by
  rw [on_eq hs]
  refine ⟨hs.keyed.mapValues fun t _ => id_strike t, fun t ht => ?_⟩
  rw [Table.values_mapValues] at ht
  obtain ⟨u, hu, rfl⟩ := List.mem_map.mp ht
  rw [id_strike]
  exact hs.issued u hu

/-- The targets after blasts, one after the other. -/
def play (w : WeaponSettings α) (bs : List (Blast α)) (ts : Targets α) : Targets α :=
  bs.foldl (fun ts b => b.on w ts) ts

theorem play_append (bs bs' : List (Blast α)) (ts : Targets α) :
    play w (bs ++ bs') ts = play w bs' (play w bs ts) := List.foldl_append

theorem sound_play (hs : ts.Sound) (bs : List (Blast α)) : (play w bs ts).Sound := by
  induction bs generalizing ts with
  | nil => exact hs
  | cons b bs ih => exact ih (sound_on hs)

end Blast

open Blast

/-! ### Lists that are advanced -/

namespace Outcome

variable {β : Type} {step : β → Targets α → Outcome α (Option β)}

/-- What does not look at the targets goes on by itself. -/
theorem rest_collect {next : β → Option β} (h : ∀ x ts, (step x ts).rest = next x) (xs : List β)
    (ts : Targets α) (dealt : α) : (collect step xs ts dealt).rest = xs.filterMap next := by
  induction xs generalizing ts dealt with
  | nil => rfl
  | cons x xs ih =>
    rw [collect, ih, h]
    cases hx : next x with
    | none => exact (List.filterMap_cons_none hx).symm
    | some y => exact (List.filterMap_cons_some hx).symm

/-- What is advanced one after the other strikes one after the other. -/
theorem targets_collect {w : WeaponSettings α} {blast? : β → Option (Blast α)}
    (h : ∀ x ts, (step x ts).targets = play w (blast? x).toList ts) (xs : List β) (ts : Targets α)
    (dealt : α) : (collect step xs ts dealt).targets = play w (xs.filterMap blast?) ts := by
  induction xs generalizing ts dealt with
  | nil => rfl
  | cons x xs ih =>
    refine (ih _ _).trans ?_
    rw [h, ← play_append]
    cases hx : blast? x with
    | none => rw [List.filterMap_cons_none hx]; rfl
    | some b => rw [List.filterMap_cons_some hx]; rfl

end Outcome

/-- A rocket goes off in every step. -/
def Rocket.blast (w : WeaponSettings α) (r : Rocket α) : Blast α :=
  ⟨r.position, w.rocketRadius, w.rocketDamage⟩

/-- A rocket strikes where it is before it moves. -/
theorem Rocket.targets_advance (w : WeaponSettings α) (dt : α) (r : Rocket α) (ts : Targets α) :
    (r.advance w dt ts).targets = (r.blast w).on w ts := by
  rw [advance]
  dsimp only
  split <;> rfl

/-- What is left of a strike after a step. -/
def Strike.next (dt : α) (s : Strike α) : Option (Strike α) :=
  if (0.0 : α) < s.remaining - dt then some { s with remaining := s.remaining - dt } else none

/-- A strike that does not go on lands. -/
def Strike.blast? (w : WeaponSettings α) (dt : α) (s : Strike α) : Option (Blast α) :=
  if (0.0 : α) < s.remaining - dt then none else some ⟨s.center, w.orbitalRadius, w.orbitalDamage⟩

theorem Strike.rest_advance (w : WeaponSettings α) (dt : α) (s : Strike α) (ts : Targets α) :
    (s.advance w dt ts).rest = s.next dt := by
  rw [advance, next]
  dsimp only
  split <;> rfl

/-- A strike does nothing until it lands. -/
theorem Strike.targets_advance (w : WeaponSettings α) (dt : α) (s : Strike α) (ts : Targets α) :
    (s.advance w dt ts).targets = play w (s.blast? w dt).toList ts := by
  rw [advance, blast?]
  dsimp only
  split <;> rfl

/-- The time since the last full interval after a step. -/
def Zone.since (w : WeaponSettings α) (dt : α) (z : Zone α) : α :=
  if w.plasmaDamageInterval ≤ z.sinceTick + dt then z.sinceTick + dt - w.plasmaDamageInterval
  else z.sinceTick + dt

/-- What is left of a zone after a step. -/
def Zone.next (w : WeaponSettings α) (dt : α) (z : Zone α) : Option (Zone α) :=
  if (0.0 : α) < z.remaining - dt then some ⟨z.center, z.remaining - dt, z.since w dt⟩ else none

/-- A zone goes off when an interval is full. -/
def Zone.blast? (w : WeaponSettings α) (dt : α) (z : Zone α) : Option (Blast α) :=
  if w.plasmaDamageInterval ≤ z.sinceTick + dt then
    some ⟨z.center, w.plasmaRadius,
      Scalar.greater 0.0 (z.remaining - dt) * w.plasmaDamageScale⟩
  else none

theorem Zone.rest_advance (w : WeaponSettings α) (dt : α) (z : Zone α) (ts : Targets α) :
    (z.advance w dt ts).rest = z.next w dt := by
  rw [advance, next, since]
  dsimp only
  split <;> rfl

/-- A zone does nothing until an interval is full. -/
theorem Zone.targets_advance (w : WeaponSettings α) (dt : α) (z : Zone α) (ts : Targets α) :
    (z.advance w dt ts).targets = play w (z.blast? w dt).toList ts := by
  rw [advance, blast?]
  dsimp only
  split <;> rfl

namespace InFlight

variable (w : WeaponSettings α) (dt : α) (f : InFlight α) (ts : Targets α)

/-- What goes off in a step, in order. -/
def blasts : List (Blast α) :=
  f.rockets.map (Rocket.blast w) ++ f.strikes.filterMap (Strike.blast? w dt) ++
    f.zones.filterMap (Zone.blast? w dt)

theorem strikes_advance :
    (f.advance w dt ts).state.rest.strikes = f.strikes.filterMap (Strike.next dt) :=
  Outcome.rest_collect (Strike.rest_advance w dt) f.strikes _ 0.0

theorem zones_advance :
    (f.advance w dt ts).state.rest.zones = f.zones.filterMap (Zone.next w dt) :=
  Outcome.rest_collect (Zone.rest_advance w dt) f.zones _ 0.0

/-- The rockets strike first, each of them where it is. -/
theorem targets_rockets : (Outcome.collect (Rocket.advance w dt) f.rockets ts 0.0).targets =
    play w (f.rockets.map (Rocket.blast w)) ts := by
  have hstep (r : Rocket α) (ts : Targets α) :
      (r.advance w dt ts).targets = play w (some (r.blast w)).toList ts :=
    r.targets_advance w dt ts
  rw [Outcome.targets_collect hstep f.rockets ts 0.0, List.filterMap_eq_map']

/-- **A step does nothing to the targets but to let the blasts strike**, one after the other. -/
theorem targets_advance :
    (f.advance w dt ts).state.targets = play w (f.blasts w dt) ts := by
  have hstrikes := Outcome.targets_collect (Strike.targets_advance w dt) f.strikes
    (Outcome.collect (Rocket.advance w dt) f.rockets ts 0.0).targets 0.0
  have hzones := Outcome.targets_collect (Zone.targets_advance w dt) f.zones
    (Outcome.collect (Strike.advance w dt) f.strikes
      (Outcome.collect (Rocket.advance w dt) f.rockets ts 0.0).targets 0.0).targets 0.0
  rw [blasts, play_append, play_append, ← targets_rockets w dt, ← hstrikes, ← hzones]
  rfl

end InFlight

end HexPulse
