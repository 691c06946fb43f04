import HexPulse.Effect.InFlight
import HexPulse.Proofs.Target.Turnover
import HexPulse.Spawning

/-!
# HexPulse — Proofs — Target — Harm

Where targets come from and what harms them, as turnover.  Rockets, strikes and zones each keep a
count of their own of the damage they deal; `Harm` says that a count is the sum of the amounts that
live targets were struck by, so counts may be added (`Harm.trans`).
-/

namespace HexPulse

open Scalar

variable {α : Type} [Scalar α]

namespace Targets

/-! ### Coming and walking -/

/-- Walking is all that happens to targets when time passes. -/
theorem turnover_follow (ts : Targets α) (l : Layout α) (dt : α) :
    Turnover ts [] [] [] (ts.follow l dt).state := by
  refine Turnover.refl.walk rfl (congrArg Table.mk ?_)
  refine Progress.map_each (g := fun e => (e.1, e.2.still)) (fun e => ?_) ts.table.entries
  split
  · exact congrArg (e.1, ·) (e.2.still_walk l _ _)
  · rfl

/-- A target that is put into a cell is added, and nothing else happens. -/
theorem turnover_addAt {ts us : Targets α} {l : Layout α} {cell : Hex} {health speed : α}
    {path : List Hex} {t : Target α} (h : ts.addAt l cell health path speed = .ok (t, us)) :
    Turnover ts [t] [] [] us := by
  obtain ⟨centre, -, h⟩ := exists_of_bind_eq_ok h
  obtain ⟨rfl, rfl⟩ := Prod.mk.inj (Except.ok.inj h)
  exact Turnover.refl.add centre health path speed

/-- The target that appears by a roll is added, and nothing else happens. -/
theorem turnover_roll (s : SpawnSettings α) (l : Layout α) (inBounds : Hex → Bool) (heart : Hex)
    (ts : Targets α) (draws : Draws α) :
    Turnover ts (s.roll l inBounds heart ts draws).state.spawned.toList [] []
      (s.roll l inBounds heart ts draws).state.targets := by
  rw [SpawnSettings.roll]
  split
  · dsimp only
    split
    · exact .refl
    · split
      · exact .refl
      · refine Progress.ofExcept_rec
          (P := fun r : Roll α => Turnover ts r.spawned.toList [] [] r.targets)
          .refl fun roll hroll => ?_
        obtain ⟨path, -, hroll⟩ := exists_of_bind_eq_ok hroll
        obtain ⟨⟨t, us⟩, hadd, hroll⟩ := exists_of_bind_eq_ok hroll
        obtain rfl := Except.ok.inj hroll
        exact turnover_addAt hadd
  · exact .refl

/-! ### Harm -/

theorem get?_damage_of_ne (ts : Targets α) {id j : Int} (h : j ≠ id) (amount : α) :
    (ts.damage id amount).get? j = ts.get? j := by
  rw [get?, get?, damage, Table.get?_modify_of_ne _ _ h]

/-- From `ts` to `us` live targets were struck, by amounts that add up to what was dealt. -/
def Harm (ts : Targets α) (dealt : α) (us : Targets α) : Prop :=
  ∃ struck, Turnover ts [] struck [] us ∧ SumsTo struck dealt

namespace Harm

variable {ts us vs : Targets α} {dealt dealt' : α}

theorem refl (ts : Targets α) : Harm ts 0.0 ts := ⟨[], .refl, .zero⟩

theorem trans (h : Harm ts dealt us) (h' : Harm us dealt' vs) : Harm ts (dealt + dealt') vs := by
  obtain ⟨struck, ht, hsum⟩ := h
  obtain ⟨struck', ht', hsum'⟩ := h'
  exact ⟨struck ++ struck', ht.trans ht', hsum.add hsum'⟩

theorem sound (h : Harm ts dealt us) (hs : ts.Sound) : us.Sound := by
  obtain ⟨struck, ht, -⟩ := h
  exact ht.sound hs

/-- One more blow against a live target adds its amount. -/
theorem strike (h : Harm ts dealt us) {id : Int} {t : Target α} (live : us.get? id = some t)
    (amount : α) : Harm ts (dealt + amount) (us.damage id amount) := by
  obtain ⟨struck, ht, hsum⟩ := h
  exact ⟨struck ++ [amount], ht.strike live amount, hsum.add (.one amount)⟩

/-- Blows against different targets that are all alive. -/
theorem foldl (h : Harm ts dealt us) (amount : α) {struck : List (Target α)}
    (live : ∀ t ∈ struck, us.get? t.id ≠ none) (nodup : (struck.map (·.id)).Nodup) :
    Harm ts (struck.foldl (fun dealt _ => dealt + amount) dealt)
      (struck.foldl (fun us t => us.damage t.id amount) us) := by
  induction struck generalizing us dealt with
  | nil => exact h
  | cons t struck ih =>
    obtain ⟨hnot, hnodup⟩ := List.nodup_cons.mp nodup
    obtain ⟨u, hu⟩ := Option.ne_none_iff_exists'.mp (live t List.mem_cons_self)
    refine ih (h.strike hu amount) (fun v hv => ?_) hnodup
    -- a blow against one leaves the others alive
    have hne : v.id ≠ t.id := by
      intro e
      exact hnot (List.mem_map.mpr ⟨v, hv, e⟩)
    rw [get?_damage_of_ne us hne]
    exact live v (List.mem_cons_of_mem _ hv)

end Harm

/-- What overlaps a circle is harmed once, and counted once. -/
theorem harm_hit (w : WeaponSettings α) {ts : Targets α} (hs : ts.Sound) (center : Point α)
    (radius amount : α) :
    Harm ts (ts.hit w center radius amount).2 (ts.hit w center radius amount).1 := by
  have hsub : (ts.within center (radius + w.targetRadius)).Sublist ts.table.values :=
    List.filter_sublist.trans List.filter_sublist
  refine (Harm.refl ts).foldl amount (fun t ht => ?_) ?_
  · have ha : t.alive = true := (List.mem_filter.mp (List.mem_filter.mp ht).1).2
    rw [hs.get?_eq_some_iff.mpr ⟨hsub.subset ht, rfl, ha⟩]
    exact Option.some_ne_none t
  · exact (hsub.map _).nodup (hs.keyed.keys_eq ▸ hs.keyed.nodup)

end Targets

open Targets

/-- Members that are advanced one after the other, each with a count of its own. -/
theorem Outcome.harm_collect {β : Type} {step : β → Targets α → Outcome α (Option β)}
    (h : ∀ x ts, ts.Sound → Harm ts (step x ts).dealt (step x ts).targets) {ts us : Targets α}
    (hs : ts.Sound) {dealt : α} (hd : Harm ts dealt us) (xs : List β) :
    Harm ts (collect step xs us dealt).dealt (collect step xs us dealt).targets := by
  induction xs generalizing us dealt with
  | nil => exact hd
  | cons x xs ih => exact ih (hd.trans (h x us (hd.sound hs)))

/-- A rocket deals what its blast takes from live targets. -/
theorem Rocket.harm_advance (w : WeaponSettings α) (dt : α) (r : Rocket α) (ts : Targets α)
    (hs : ts.Sound) : Harm ts (r.advance w dt ts).dealt (r.advance w dt ts).targets := by
  have hhit := harm_hit w hs r.position w.rocketRadius w.rocketDamage
  rw [advance]
  dsimp only
  split
  · exact hhit
  · exact hhit

/-- A strike deals what its blast takes from live targets, once it lands. -/
theorem Strike.harm_advance (w : WeaponSettings α) (dt : α) (s : Strike α) (ts : Targets α)
    (hs : ts.Sound) : Harm ts (s.advance w dt ts).dealt (s.advance w dt ts).targets := by
  rw [advance]
  dsimp only
  split
  · exact .refl ts
  · exact harm_hit w hs s.center w.orbitalRadius w.orbitalDamage

/-- A zone deals what its blasts take from live targets. -/
theorem Zone.harm_advance (w : WeaponSettings α) (dt : α) (z : Zone α) (ts : Targets α)
    (hs : ts.Sound) : Harm ts (z.advance w dt ts).dealt (z.advance w dt ts).targets := by
  rw [advance]
  dsimp only
  split
  · exact harm_hit w hs z.center w.plasmaRadius _
  · exact .refl ts

/-- Everything in flight deals what it counts. -/
theorem InFlight.harm_advance (w : WeaponSettings α) (dt : α) (f : InFlight α) {ts : Targets α}
    (hs : ts.Sound) :
    Harm ts (f.advance w dt ts).state.dealt (f.advance w dt ts).state.targets := by
  have hrockets := Outcome.harm_collect (Rocket.harm_advance w dt) hs (.refl ts) f.rockets
  have hs₁ := hrockets.sound hs
  have hstrikes := Outcome.harm_collect (Strike.harm_advance w dt) hs₁ (.refl _) f.strikes
  have hs₂ := hstrikes.sound hs₁
  have hzones := Outcome.harm_collect (Zone.harm_advance w dt) hs₂ (.refl _) f.zones
  exact (hrockets.trans hstrikes).trans hzones

end HexPulse
