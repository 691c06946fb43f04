import HexPulse.Scalar.Binary
import HexPulse.Scalar
import Mathlib.Data.Rat.Floor
import Mathlib.Tactic.NormNum

/-!
# HexPulse — Proofs — Scalar — Exact

Sums of scalars.  Doubles are rounded after every addition, so what a sum comes to depends on the
order and on the grouping: `SumsTo` says of a number only that it is one of the sums of a list.
Where sums are exact (`Exact`) there is only one, the `total`.

Rational numbers are exact scalars, whose root of three and hypotenuse are rounded down to
millionths.
-/

namespace HexPulse.Scalar

variable {α : Type} [Scalar α]

/-- Adding up the list in some grouping, and with some zeros between, comes to the number. -/
inductive SumsTo : List α → α → Prop where
  | zero : SumsTo [] 0.0
  | one (x : α) : SumsTo [x] x
  | add {xs ys : List α} {a b : α} (h : SumsTo xs a) (h' : SumsTo ys b) : SumsTo (xs ++ ys) (a + b)

/-- The sum of a list from its last member on. -/
def total (xs : List α) : α := xs.foldr (· + ·) 0.0

@[simp] theorem total_nil : total ([] : List α) = 0.0 := rfl

@[simp] theorem total_cons (x : α) (xs : List α) : total (x :: xs) = x + total xs := rfl

/-- Addition and subtraction are exact. -/
class Exact (α : Type) [Scalar α] : Prop where
  add_assoc (a b c : α) : a + b + c = a + (b + c)
  add_comm (a b : α) : a + b = b + a
  zero_add (a : α) : (0.0 : α) + a = a
  add_sub_cancel (a b : α) : a + b - b = a
  sub_add_cancel (a b : α) : a - b + b = a

section Exact

variable [Exact α]

instance : Std.Associative (α := α) (· + ·) := ⟨Exact.add_assoc⟩

instance : Std.Commutative (α := α) (· + ·) := ⟨Exact.add_comm⟩

theorem Exact.add_zero (a : α) : a + 0.0 = a := (Exact.add_comm _ _).trans (Exact.zero_add a)

theorem total_append (xs ys : List α) : total (xs ++ ys) = total xs + total ys := by
  induction xs with
  | nil => exact (Exact.zero_add _).symm
  | cons x xs ih => simp only [List.cons_append, total_cons, ih, Exact.add_assoc]

/-- The order of the terms does not matter. -/
theorem total_perm {xs ys : List α} (h : xs.Perm ys) : total xs = total ys := by
  induction h with
  | nil => rfl
  | cons x _ ih => simp only [total_cons, ih]
  | swap x y xs =>
    simp only [total_cons]
    ac_rfl
  | trans _ _ ih ih' => exact ih.trans ih'

theorem SumsTo.eq_total {xs : List α} {a : α} (h : SumsTo xs a) : a = total xs := by
  induction h with
  | zero => rfl
  | one x => rw [total_cons, total_nil, Exact.add_zero]
  | add _ _ ih ih' => rw [total_append, ih, ih']

/-- What is taken away from numbers one by one is taken away from their sum. -/
theorem total_sub_add {β : Type} (f g : β → α) (xs : List β) :
    total (xs.map fun x => f x - g x) + total (xs.map g) = total (xs.map f) := by
  induction xs with
  | nil => exact Exact.zero_add _
  | cons x xs ih =>
    simp only [List.map_cons, total_cons]
    calc f x - g x + total (xs.map fun x => f x - g x) + (g x + total (xs.map g))
      _ = f x - g x + g x + (total (xs.map fun x => f x - g x) + total (xs.map g)) := by ac_rfl
      _ = f x + total (xs.map f) := by rw [Exact.sub_add_cancel, ih]

/-- The members that pass a test, and the others. -/
theorem total_filter {β : Type} (f : β → α) (p : β → Bool) (xs : List β) :
    total ((xs.filter p).map f) + total ((xs.filter fun x => !p x).map f) = total (xs.map f) := by
  rw [← total_append, ← List.map_append]
  exact total_perm ((List.filter_append_perm p xs).map f)

end Exact

/-! ### Rational numbers -/

/-- A root, rounded down to millionths. -/
def root (x : ℚ) : ℚ := (Binary.floorSqrt (x * 10 ^ 12).floor.toNat : ℚ) / 10 ^ 6

/-- The nearest integer, a half going to the even neighbour. -/
def nearest (x : ℚ) : Int :=
  let n : Int := Binary.roundQuotient x.num.natAbs x.den
  if x < 0 then -n else n

instance : Scalar ℚ where
  decLt := inferInstance
  decLe := inferInstance
  abs x := if x < 0 then -x else x
  sqrtThree := root 3
  hypot x y := root (x * x + y * y)
  isFinite _ := true
  ofInt n := n
  intLe n x := (n : ℚ) ≤ x
  intLt n x := (n : ℚ) < x
  round x := .ok (nearest x)
  roundTo n x := nearest (x * 10 ^ n) / 10 ^ n
  text := toString

instance : Exact ℚ where
  add_assoc := add_assoc
  add_comm := add_comm
  zero_add a := by
    have hzero : (0.0 : ℚ) = 0 := by norm_num
    exact (congrArg (· + a) hzero).trans (zero_add a)
  add_sub_cancel := add_sub_cancel_right
  sub_add_cancel := sub_add_cancel

end HexPulse.Scalar
