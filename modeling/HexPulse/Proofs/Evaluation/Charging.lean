import HexPulse.Proofs.Activation.Pass
import HexPulse.Proofs.Outcome
import HexPulse.Proofs.Scalar.Extended
import HexPulse.Proofs.Scalar.Nearest

/-!
# HexPulse — Proofs — Evaluation — Charging

Where the charge of a plasma node goes.  Its threshold is read anew at each evaluation; it may be
anything, above the greatest one or below the charge that has been gathered.

* `Evaluation.Charges`: an evaluation without a fault is refused and leaves the charge alone, adds
  one to it, or shoots with one more than it was.
* `Charging.balanced`: so of a node's evaluations that had a value, each one is still in its charge
  or was shot; and the charge stays below the greatest threshold.
-/

namespace HexPulse

variable {α : Type}

/-- The charges of the plasma zones that an evaluation asks for. -/
def Evaluation.shots (e : Evaluation α) : List Int :=
  e.effects.filterMap fun
    | .plasma _ charge => some charge
    | _ => none

theorem Board.charge_of_placeNode {b c : Board α} {cell : Hex} {kind : String} {n : Node α}
    (h : b.placeNode cell kind = .ok (n, c)) : n.charge = 0 := by
  obtain ⟨_, -, h⟩ := exists_of_bind_eq_ok h
  obtain ⟨_, -, h⟩ := exists_of_bind_eq_ok h
  obtain ⟨rfl, -⟩ := Prod.mk.inj (Except.ok.inj h)
  rfl

namespace Evaluation

@[simp] theorem shots_nil (result : Except Halt (Value α)) (charge : Int) :
    (⟨result, charge, []⟩ : Evaluation α).shots = [] := rfl

@[simp] theorem shots_plasma (result : Except Halt (Value α)) (charge : Int) (center : Point α)
    (k : Int) : (⟨result, charge, [.plasma center k]⟩ : Evaluation α).shots = [k] := rfl

end Evaluation

variable [Scalar α]

/-- What an evaluation of a plasma node comes to. -/
inductive Evaluation.Charges (greatest : α) (n : Node α) : Evaluation α → Prop where
  | refused (error : PortError) : Charges greatest n ⟨.error (.refused error), n.charge, []⟩
  | charged (threshold : Option α)
      (below : Scalar.intLt (n.charge + 1) (Board.plasmaLimit greatest threshold) = true) :
      Charges greatest n ⟨.ok (.number 0.0), n.charge + 1, []⟩
  | shot (center : Point α) (x : α) (number : Scalar.convert (n.charge + 1) = .ok x) :
      Charges greatest n ⟨.ok (.number x), 0, [.plasma center (n.charge + 1)]⟩

/-- A value adds one to what is in the charge and what is shot; a refusal adds nothing. -/
theorem Evaluation.Charges.balance {greatest : α} {n : Node α} {e : Evaluation α}
    (h : e.Charges greatest n) :
    n.charge + (if e.result.isOk then 1 else 0) = e.charge + e.shots.sum := by
  cases h with
  | refused error => simp [Except.isOk, Except.toBool]
  | charged threshold below => simp [Except.isOk, Except.toBool]
  | shot center x number => simp [Except.isOk, Except.toBool]

/-- **What a plasma node does.** -/
theorem Board.charges_evaluate {b : Board α} {n : Node α} (hk : n.kind = .plasma)
    (hf : (b.evaluate n).Faultless) :
    (b.evaluate n).Charges b.settings.weapons.plasmaMaxThreshold n := by
  have heval : b.evaluate n = b.plasma n := by rw [evaluate, hk]
  rw [heval] at hf ⊢
  rw [plasma] at hf ⊢
  split
  · exact .refused _
  · next aim limit horder =>
    -- the limit comes from the threshold as it is read now
    obtain ⟨_, -, horder⟩ := exists_of_bind_eq_ok horder
    obtain ⟨threshold, -, horder⟩ := exists_of_bind_eq_ok horder
    obtain ⟨-, rfl⟩ := Prod.mk.inj (Except.ok.inj horder)
    rw [show b.plasmaOrder n = _ from ‹_›] at hf
    dsimp only at hf ⊢
    split
    · next hbelow => exact .charged threshold hbelow
    · next hlimit =>
      rw [if_neg hlimit] at hf
      rw [plasmaShot] at hf ⊢
      split
      · next f hcell =>
        rw [hcell] at hf
        exact absurd rfl (hf f)
      · next center hcell =>
        rw [hcell] at hf
        cases hx : (Scalar.convert (n.charge + 1) : Except Fault α) with
        | ok x => exact .shot center x hx
        | error f =>
          rw [hx] at hf
          exact absurd rfl (hf f)

/-- A plasma node from its placement on, and its evaluations up to now, the last ones first.
Between them anything may happen to the board, and to the node too if it keeps its kind and its
charge. -/
inductive Charging (greatest : α) : Node α → List (Evaluation α) → Prop where
  | placed {b c : Board α} {cell : Hex} {kind : String} {n : Node α}
      (placed : b.placeNode cell kind = .ok (n, c)) (hk : n.kind = .plasma) : Charging greatest n []
  | meanwhile {n m : Node α} {es : List (Evaluation α)} (h : Charging greatest n es)
      (kind : m.kind = n.kind) (charge : m.charge = n.charge) : Charging greatest m es
  | evaluated {n : Node α} {es : List (Evaluation α)} (h : Charging greatest n es) (b : Board α)
      (settings : b.settings.weapons.plasmaMaxThreshold = greatest)
      (faultless : (b.evaluate n).Faultless) :
      Charging greatest (n.after (b.evaluate n)) (b.evaluate n :: es)

namespace Charging

variable {greatest : α} {n : Node α} {es : List (Evaluation α)}

/-- A node that is charged is a plasma node. -/
theorem kind (h : Charging greatest n es) : n.kind = .plasma := by
  induction h with
  | placed _ hk => exact hk
  | meanwhile _ kind _ ih => exact kind.trans ih
  | evaluated _ b _ _ ih => exact ih

/-- The last evaluation, and those before it. -/
theorem charges (h : Charging greatest n es) (b : Board α)
    (settings : b.settings.weapons.plasmaMaxThreshold = greatest)
    (faultless : (b.evaluate n).Faultless) : (b.evaluate n).Charges greatest n := by
  have hcharges := Board.charges_evaluate h.kind faultless
  rwa [settings] at hcharges

/-- No charge is lost, and none is counted twice. -/
theorem count (h : Charging greatest n es) :
    ((es.countP fun e => e.result.isOk : ℕ) : ℤ) = n.charge + (es.flatMap (·.shots)).sum := by
  induction h with
  | placed placed hk =>
    rw [Board.charge_of_placeNode placed]
    rfl
  | meanwhile _ _ charge ih => rw [ih, charge]
  | @evaluated n es h b settings faultless ih =>
    have hstep := (h.charges b settings faultless).balance
    rw [List.countP_cons, List.flatMap_cons, List.sum_append, Node.after]
    dsimp only
    split at hstep
    · next hok =>
      rw [if_pos hok]
      push_cast
      omega
    · next hok =>
      rw [if_neg hok]
      omega

theorem nonneg (h : Charging greatest n es) : 0 ≤ n.charge := by
  induction h with
  | placed placed hk => exact (Board.charge_of_placeNode placed).ge
  | meanwhile _ _ charge ih => rwa [charge]
  | @evaluated n es h b settings faultless ih =>
    have hcharges := h.charges b settings faultless
    rw [Node.after]
    generalize b.evaluate n = e at hcharges
    cases hcharges with
    | refused error => exact ih
    | charged threshold below => exact Int.le_add_one ih
    | shot center x number => exact le_refl 0

end Charging

/-! ### On doubles -/

open Double

/-- Whatever the threshold is, the limit is at most the greatest one, or one. -/
theorem Board.exists_plasmaLimit {greatest : Float} {t : EReal} (ht : Stands greatest t)
    (threshold : Option Float) :
    ∃ l, Stands (plasmaLimit greatest threshold) l ∧ l ≤ max 1 t := by
  cases threshold with
  | none => exact ⟨_, stands_one.greater ht, le_rfl⟩
  | some x =>
    rw [plasmaLimit]
    rcases stands_or x with ⟨v, hv⟩ | hx
    · exact ⟨_, stands_one.greater (hv.lesser ht), max_le_max le_rfl (min_le_right _ _)⟩
    · -- what is no number is less than nothing, and nothing is less than it
      rw [Scalar.lesser, if_neg (not_lt_of_notANumber hx _).1, Scalar.greater,
        if_neg (not_lt_of_notANumber hx _).1]
      exact ⟨1, stands_one, le_max_left _ _⟩

/-- A node without a charge is below the bound, whatever the threshold is. -/
theorem extended_zero_lt (t : EReal) : extended 0 < max 1 t := by
  rw [extended, Int.cast_zero, EReal.coe_zero]
  exact zero_lt_one.trans_le (le_max_left _ _)

/-- The charge stays below the greatest threshold, and a shot is at most one above it. -/
theorem Evaluation.Charges.bounded {greatest : Float} {t : EReal} (ht : Stands greatest t)
    {n : Node Float} {e : Evaluation Float} (h : e.Charges greatest n)
    (hn : extended n.charge < max 1 t) :
    extended e.charge < max 1 t ∧ ∀ c ∈ e.shots, extended c < max 1 t + 1 := by
  cases h with
  | refused error => exact ⟨hn, nofun⟩
  | charged threshold below =>
    obtain ⟨l, hl, hle⟩ := Board.exists_plasmaLimit ht threshold
    exact ⟨(hl.intLt_iff.mp below).trans_le hle, nofun⟩
  | shot center x number =>
    refine ⟨extended_zero_lt t, fun c hc => ?_⟩
    obtain rfl := List.mem_singleton.mp hc
    rw [extended_add_one]
    exact EReal.add_lt_add_right_coe hn 1

/-- How an evaluation of a plasma node ends: it is refused and asks for nothing, or it has the
value zero and asks for nothing, or it asks for a zone of some charge and has the number of this
charge. -/
inductive Evaluation.Discharges (e : Evaluation Float) : Prop where
  | refused {error : PortError} (result : e.result = .error (.refused error))
      (effects : e.effects = [])
  | zero (result : e.result = .ok (.number 0.0)) (effects : e.effects = [])
  | shot {center : Point Float} {c : Int} {x : Float} (result : e.result = .ok (.number x))
      (effects : e.effects = [.plasma center c]) (positive : 1 ≤ c)
      (number : Scalar.convert c = .ok x) (exact : c ≤ 2 ^ 53 → Denotes x c)

/-- A shot is of one unit or more, and the number that it returns is that of its charge. -/
theorem Evaluation.Charges.discharges {greatest : Float} {n : Node Float} {e : Evaluation Float}
    (h : e.Charges greatest n) (hn : 0 ≤ n.charge) : e.Discharges := by
  cases h with
  | refused error => exact .refused rfl rfl
  | charged threshold below => exact .zero rfl rfl
  | shot center x number =>
    refine .shot rfl rfl (by omega) number fun hsmall => denotes_of_convert ?_ number
    rw [abs_of_nonneg (by omega)]
    exact hsmall

/-- The evaluations of a plasma node against its charge. -/
structure Balanced (greatest : Float) (n : Node Float) (es : List (Evaluation Float)) : Prop where
  /-- each value is in the charge, or was shot -/
  count : ((es.countP fun e => e.result.isOk : ℕ) : ℤ) = n.charge + (es.flatMap (·.shots)).sum
  discharges : ∀ e ∈ es, e.Discharges
  bounded : greatest.isNaN = false → ∃ t, Stands greatest t ∧ extended n.charge < max 1 t ∧
    ∀ e ∈ es, ∀ c ∈ e.shots, extended c < max 1 t + 1

namespace Charging

variable {greatest : Float} {n : Node Float} {es : List (Evaluation Float)}

theorem discharges (h : Charging greatest n es) : ∀ e ∈ es, e.Discharges := by
  induction h with
  | placed placed hk => exact nofun
  | meanwhile _ _ _ ih => exact ih
  | @evaluated n es h b settings faultless ih =>
    intro e he
    rcases List.mem_cons.mp he with rfl | he
    · exact (h.charges b settings faultless).discharges h.nonneg
    · exact ih e he

/-- **The charge stays below the greatest threshold**, and a shot is at most one above it. -/
theorem bounded (h : Charging greatest n es) {t : EReal} (ht : Stands greatest t) :
    extended n.charge < max 1 t ∧ ∀ e ∈ es, ∀ c ∈ e.shots, extended c < max 1 t + 1 := by
  induction h with
  | placed placed hk =>
    rw [Board.charge_of_placeNode placed]
    exact ⟨extended_zero_lt t, nofun⟩
  | meanwhile _ _ charge ih => rwa [charge]
  | @evaluated n es h b settings faultless ih =>
    obtain ⟨hcharge, hshots⟩ := (h.charges b settings faultless).bounded ht ih.1
    refine ⟨hcharge, fun e he => ?_⟩
    rcases List.mem_cons.mp he with rfl | he
    · exact hshots
    · exact ih.2 e he

/-- **The balance of a plasma node.** -/
theorem balanced (h : Charging greatest n es) : Balanced greatest n es := by
  refine ⟨h.count, h.discharges, fun hnumber => ?_⟩
  obtain ⟨t, ht⟩ := isNaN_eq_false_iff.mp hnumber
  exact ⟨t, ht, h.bounded ht⟩

end Charging

end HexPulse
