import HexPulse.Proofs.Effect.Blast
import Mathlib.Algebra.Order.Group.Multiset
import Mathlib.Tactic.Abel

/-!
# HexPulse — Proofs — Effect — Course

Strikes and zones go their own course.  A run of calls is set beside the run of the same calls from
a state that lacks some strikes and zones (`InFlight.Extra`): everything else in flight is the same
at every moment, in the same order, and what is in flight in addition depends on the lengths of the
steps alone (`course`), as does what it sets off (`bursts`).

* `InFlight.Extra.after`: where the two runs are after the same calls.
* `InFlight.Extra.perm_blastsAlong`: what goes off in addition along them.
-/

namespace HexPulse

/-! ### Lists that differ by some members -/

/-- The first list is the second one with some members put in at one place. -/
def Adds {β : Type} (zs xs ys : List β) : Prop :=
  ∃ before after, xs = before ++ zs ++ after ∧ ys = before ++ after

namespace Adds

variable {β γ : Type} {zs xs ys : List β}

theorem nil_iff : Adds [] xs ys ↔ xs = ys := by
  constructor
  · rintro ⟨before, after, rfl, rfl⟩
    rw [List.append_nil]
  · rintro rfl
    exact ⟨xs, [], by simp, by simp⟩

theorem snoc (xs zs : List β) : Adds zs (xs ++ zs) xs := ⟨xs, [], by simp, by simp⟩

/-- What the members put in turn into is put in. -/
theorem filterMap (h : Adds zs xs ys) (f : β → Option γ) :
    Adds (zs.filterMap f) (xs.filterMap f) (ys.filterMap f) := by
  obtain ⟨before, after, rfl, rfl⟩ := h
  refine ⟨before.filterMap f, after.filterMap f, ?_, List.filterMap_append⟩
  rw [List.filterMap_append, List.filterMap_append]

theorem append_left (as : List β) (h : Adds zs xs ys) : Adds zs (as ++ xs) (as ++ ys) := by
  obtain ⟨before, after, rfl, rfl⟩ := h
  exact ⟨as ++ before, after, by simp, by simp⟩

theorem append_right (h : Adds zs xs ys) (bs : List β) : Adds zs (xs ++ bs) (ys ++ bs) := by
  obtain ⟨before, after, rfl, rfl⟩ := h
  exact ⟨before, after ++ bs, by simp, by simp⟩

/-- Up to the order the members that were put in are the difference. -/
theorem perm (h : Adds zs xs ys) : xs.Perm (zs ++ ys) := by
  obtain ⟨before, after, rfl, rfl⟩ := h
  rw [List.append_assoc]
  refine List.perm_append_comm_assoc before zs after |>.trans ?_
  exact List.Perm.refl _

end Adds

variable {α : Type}

/-! ### Courses -/

section Course

variable {β : Type}

/-- What is left of some members after steps of some lengths. -/
def course (next : α → β → Option β) (times : List α) (xs : List β) : List β :=
  times.foldl (fun xs dt => xs.filterMap (next dt)) xs

/-- What some members set off in steps of some lengths. -/
def bursts (next : α → β → Option β) (blast? : α → β → Option (Blast α)) :
    List α → List β → List (Blast α)
  | [], _ => []
  | dt :: times, xs =>
    xs.filterMap (blast? dt) ++ bursts next blast? times (xs.filterMap (next dt))

variable {next : α → β → Option β} {blast? : α → β → Option (Blast α)}

theorem filterMap_one {γ : Type} (f : β → Option γ) (x : β) : [x].filterMap f = (f x).toList := rfl

theorem course_nil (times : List α) : course next times [] = [] := by
  induction times with
  | nil => rfl
  | cons dt times ih => exact ih

theorem bursts_nil (times : List α) : bursts next blast? times [] = [] := by
  induction times with
  | nil => rfl
  | cons dt times ih => exact ih

/-- Steps set off what the first of them do, and then what the others do with what is left. -/
theorem bursts_append (times times' : List α) (xs : List β) :
    bursts next blast? (times ++ times') xs =
      bursts next blast? times xs ++ bursts next blast? times' (course next times xs) := by
  induction times generalizing xs with
  | nil => rfl
  | cons dt times ih =>
    rw [List.cons_append, bursts, bursts, ih, List.append_assoc]
    rfl

end Course

variable [Scalar α]

namespace InFlight

/-! ### Runs of calls -/

/-- What is asked of the things in flight: to take up an effect, or to advance by some time against
some targets. -/
inductive Call (α : Type) where
  | accept (e : Effect α)
  | advance (dt : α) (ts : Targets α)

/-- The length of a step. -/
def Call.time? : Call α → Option α
  | .accept _ => none
  | .advance dt _ => some dt

/-- The lengths of the steps of a run. -/
def times (calls : List (Call α)) : List α := calls.filterMap Call.time?

/-- What is in flight after a call; an effect that cannot be taken up changes nothing. -/
def call (w : WeaponSettings α) (l : Layout α) (f : InFlight α) : Call α → InFlight α
  | .accept e =>
    match f.accept w l e with
    | .ok g => g
    | .error _ => f
  | .advance dt ts => (f.advance w dt ts).state.rest

/-- What is in flight after calls. -/
def after (w : WeaponSettings α) (l : Layout α) (f : InFlight α) (calls : List (Call α)) :
    InFlight α :=
  calls.foldl (call w l) f

/-- What goes off along a run. -/
def blastsAlong (w : WeaponSettings α) (l : Layout α) : List (Call α) → InFlight α → List (Blast α)
  | [], _ => []
  | .accept e :: calls, f => blastsAlong w l calls (f.call w l (.accept e))
  | .advance dt ts :: calls, f =>
    f.blasts w dt ++ blastsAlong w l calls (f.call w l (.advance dt ts))

/-- The first has some strikes and zones that the second lacks, and the same otherwise. -/
structure Extra (ss : List (Strike α)) (zs : List (Zone α)) (g f : InFlight α) : Prop where
  rockets : g.rockets = f.rockets
  strikes : Adds ss g.strikes f.strikes
  zones : Adds zs g.zones f.zones

namespace Extra

variable {w : WeaponSettings α} {l : Layout α} {ss : List (Strike α)} {zs : List (Zone α)}
  {g f : InFlight α}

/-- Whether an effect is taken up does not depend on what is in flight. -/
theorem accept (h : Extra ss zs g f) (e : Effect α) :
    Extra ss zs (g.call w l (.accept e)) (f.call w l (.accept e)) := by
  obtain ⟨hrockets, hstrikes, hzones⟩ := h
  cases e with
  | rocket origin direction =>
    rw [call, call, InFlight.accept, InFlight.accept]
    cases l.centre origin with
    | error _ => exact ⟨hrockets, hstrikes, hzones⟩
    | ok c => exact ⟨congrArg (· ++ [_]) hrockets, hstrikes, hzones⟩
  | strike cell delay =>
    rw [call, call, InFlight.accept, InFlight.accept]
    cases l.centre cell with
    | error _ => exact ⟨hrockets, hstrikes, hzones⟩
    | ok c => exact ⟨hrockets, hstrikes.append_right _, hzones⟩
  | plasma center charge =>
    rw [call, call, InFlight.accept, InFlight.accept]
    cases (Scalar.convert charge : Except Fault α) with
    | error _ => exact ⟨hrockets, hstrikes, hzones⟩
    | ok c => exact ⟨hrockets, hstrikes, hzones.append_right _⟩
  | beam origin target =>
    rw [call, call, InFlight.accept, InFlight.accept]
    cases l.centre origin with
    | error _ => exact ⟨hrockets, hstrikes, hzones⟩
    | ok c => exact ⟨hrockets, hstrikes, hzones⟩
  | shock => exact ⟨hrockets, hstrikes, hzones⟩
  | damage => exact ⟨hrockets, hstrikes, hzones⟩
  | terrain => exact ⟨hrockets, hstrikes, hzones⟩
  | log => exact ⟨hrockets, hstrikes, hzones⟩

/-- In a step everything goes on by itself. -/
theorem advance (h : Extra ss zs g f) (dt : α) (ts : Targets α) :
    Extra (ss.filterMap (Strike.next dt)) (zs.filterMap (Zone.next w dt))
      (g.call w l (.advance dt ts)) (f.call w l (.advance dt ts)) := by
  refine ⟨?_, ?_, ?_⟩
  · change (Outcome.collect (Rocket.advance w dt) g.rockets ts 0.0).rest =
      (Outcome.collect (Rocket.advance w dt) f.rockets ts 0.0).rest
    rw [h.rockets]
  · rw [call, call, strikes_advance, strikes_advance]
    exact h.strikes.filterMap _
  · rw [call, call, zones_advance, zones_advance]
    exact h.zones.filterMap _

/-- Along a run everything goes its own course. -/
theorem after (h : Extra ss zs g f) (calls : List (Call α)) :
    Extra (course Strike.next (times calls) ss) (course (Zone.next w) (times calls) zs)
      (g.after w l calls) (f.after w l calls) := by
  induction calls generalizing ss zs g f with
  | nil => exact h
  | cons c calls ih =>
    cases c with
    | accept e => exact ih (h.accept e)
    | advance dt ts => exact ih (h.advance dt ts)

/-- What goes off in addition in a step. -/
theorem perm_blasts (h : Extra ss zs g f) (dt : α) : (g.blasts w dt).Perm
    (ss.filterMap (Strike.blast? w dt) ++ zs.filterMap (Zone.blast? w dt) ++ f.blasts w dt) := by
  have hstrikes := (h.strikes.filterMap (Strike.blast? w dt)).perm
  have hzones := (h.zones.filterMap (Zone.blast? w dt)).perm
  rw [blasts, blasts, h.rockets]
  refine ((hstrikes.append_left _).append hzones).trans ?_
  rw [← Multiset.coe_eq_coe]
  simp only [← Multiset.coe_add]
  abel

/-- Strikes that go off in addition are put in between the other blasts. -/
theorem adds_strikes (h : Extra ss [] g f) (dt : α) :
    Adds (ss.filterMap (Strike.blast? w dt)) (g.blasts w dt) (f.blasts w dt) := by
  rw [blasts, blasts, h.rockets, Adds.nil_iff.mp h.zones]
  exact ((h.strikes.filterMap _).append_left _).append_right _

/-- One more zone adds its own blasts to those of the others. -/
theorem adds_zones (h : Extra [] zs g f) (dt : α) :
    Adds (zs.filterMap (Zone.blast? w dt)) (g.blasts w dt) (f.blasts w dt) := by
  rw [blasts, blasts, h.rockets, Adds.nil_iff.mp h.strikes]
  exact (h.zones.filterMap _).append_left _

/-- What goes off in addition along a run. -/
theorem perm_blastsAlong (h : Extra ss zs g f) (calls : List (Call α)) :
    (blastsAlong w l calls g).Perm
      (bursts Strike.next (Strike.blast? w) (times calls) ss ++
        bursts (Zone.next w) (Zone.blast? w) (times calls) zs ++ blastsAlong w l calls f) := by
  induction calls generalizing ss zs g f with
  | nil => exact .refl _
  | cons c calls ih =>
    cases c with
    | accept e => exact ih (h.accept e)
    | advance dt ts =>
      refine ((h.perm_blasts dt).append (ih (h.advance dt ts))).trans ?_
      change List.Perm _ (bursts Strike.next (Strike.blast? w) (dt :: times calls) ss ++
        bursts (Zone.next w) (Zone.blast? w) (dt :: times calls) zs ++
        (f.blasts w dt ++ blastsAlong w l calls (f.call w l (.advance dt ts))))
      rw [bursts, bursts, ← Multiset.coe_eq_coe]
      simp only [← Multiset.coe_add]
      abel

end Extra

end InFlight

/-- What a zone sets off, it sets off at its place. -/
theorem Zone.mem_bursts {w : WeaponSettings α} {times : List α} {z : Zone α} {b : Blast α}
    (hb : b ∈ bursts (Zone.next w) (Zone.blast? w) times [z]) :
    b.center = z.center ∧ b.radius = w.plasmaRadius := by
  induction times generalizing z with
  | nil => cases hb
  | cons dt times ih =>
    rw [bursts, filterMap_one, filterMap_one, List.mem_append] at hb
    rcases hb with hb | hb
    · rw [Option.mem_toList, Zone.blast?] at hb
      split at hb
      · cases hb
        exact ⟨rfl, rfl⟩
      · cases hb
    · rw [Zone.next] at hb
      split at hb
      · exact ih (z := ⟨z.center, z.remaining - dt, z.since w dt⟩) hb
      · rw [Option.toList_none, bursts_nil] at hb
        cases hb

end HexPulse
