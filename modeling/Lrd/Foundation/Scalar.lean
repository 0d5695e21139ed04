import Mathlib.Algebra.Order.Field.Basic
import Mathlib.Algebra.Order.Field.Rat
import Mathlib.Data.Rat.Cast.Order
import Mathlib.Tactic.Linarith

/-!
# Floating-point scalars

A program's `double` is a type of scalars whose arithmetic is left to the
platform and whose comparisons are read off a value in a linear order. A scalar
without a value is a NaN, and every comparison with it is false. Results that
need no law of arithmetic hold for every `Scalar`. Results about decayed counts
that survive rounding are stated for `FloatScalar`, whose laws IEEE doubles keep.
Results about exact arithmetic are stated for `ExactScalar`, an ordered field in
which no operation rounds.
-/

namespace Foundation

/-- The floating-point operations a program uses. `value` gives what a scalar
compares as, `ofNat` is the conversion of an unsigned integer, `pow` raises to an
integer exponent, and `halve age halfLife` is `exp (-ln 2 * age / halfLife)`. -/
class Scalar (D : Type) extends Add D, Sub D, Mul D, Div D where
  Value : Type
  [order : LinearOrder Value]
  value : D → Option Value
  ofNat : Nat → D
  pow : D → Nat → D
  halve : Int → Int → D

namespace Scalar

attribute [reducible, instance] Scalar.order

variable {D : Type} [Scalar D]

/-- The ordered comparison `a < b`, false when either side is a NaN. -/
def lt (a b : D) : Bool :=
  match value a, value b with
  | some x, some y => decide (x < y)
  | _, _ => false

/-- The ordered comparison `a <= b`, false when either side is a NaN. -/
def le (a b : D) : Bool :=
  match value a, value b with
  | some x, some y => decide (x ≤ y)
  | _, _ => false

/-- The comparison `a == b`, false when either side is a NaN. -/
def eq (a b : D) : Bool :=
  match value a, value b with
  | some x, some y => decide (x = y)
  | _, _ => false

/-- A scalar that is not a NaN. -/
def IsNumber (a : D) : Prop := (value a).isSome

instance (a : D) : Decidable (IsNumber a) := inferInstanceAs (Decidable ((value a).isSome = true))

theorem lt_of_values {a b : D} {x y : Value D} (left : value a = some x)
    (right : value b = some y) : lt a b = decide (x < y) := by
  simp only [lt, left, right]

theorem eq_of_values {a b : D} {x y : Value D} (left : value a = some x)
    (right : value b = some y) : eq a b = decide (x = y) := by
  simp only [eq, left, right]

/-- Where `a <= b` fails, `b < a` holds unless one side is a NaN. -/
theorem lt_iff_of_not_le {a b : D} (fails : le a b = false) :
    lt b a = true ↔ IsNumber a ∧ IsNumber b := by
  unfold lt IsNumber
  unfold le at fails
  cases left : value a with
  | none => cases value b <;> simp
  | some x =>
      cases right : value b with
      | none => simp
      | some y =>
          simp only [left, right, decide_eq_false_iff_not, not_le] at fails
          simp only [fails, decide_true, Option.isSome_some, and_self]

end Scalar

/-- What rounding leaves intact of a decayed count
`previous * (1 - elapsed / window) + current`. Zero counts contribute nothing, and a
decayed count, being at least `current`, is not rounded below it. The laws are about the
integers that a word of 64 bits holds: all of them convert to finite doubles. -/
class FloatScalar (D : Type) extends Scalar D where
  zero_mul_weight : ∀ {elapsed window : Nat}, elapsed < window → window < 2 ^ 64 →
    (ofNat 0 * (ofNat 1 - ofNat elapsed / ofNat window) : D) = ofNat 0
  zero_add_ofNat : ∀ {n : Nat}, n < 2 ^ 64 → (ofNat 0 + ofNat n : D) = ofNat n
  one_le_ofNat : ∀ {n : Nat}, 0 < n → n < 2 ^ 64 → Scalar.lt (ofNat n : D) (ofNat 1) = false
  lt_decayed : ∀ {limit previous current elapsed window : Nat}, elapsed < window →
    window < 2 ^ 64 → previous < 2 ^ 64 → limit ≤ current → current < 2 ^ 53 →
    Scalar.lt (ofNat limit : D) (ofNat previous * (ofNat 1 - ofNat elapsed / ofNat window) +
      ofNat current + ofNat 1) = true

/-- Multiplying by one is exact. -/
class UnitScalar (D : Type) extends Scalar D where
  one_pow : ∀ n : Nat, pow (ofNat 1) n = ofNat 1
  mul_one : ∀ a : D, a * ofNat 1 = a

/-- Scalars computed exactly: an ordered field whose comparisons are its order
and whose conversions and powers are the field's own. -/
class ExactScalar (D : Type) extends Scalar D, Field D, LinearOrder D,
    IsStrictOrderedRing D where
  embed : D → Value
  value_eq : ∀ a, value a = some (embed a)
  embed_strictMono : StrictMono embed
  ofNat_eq : ∀ n : Nat, Scalar.ofNat n = (n : D)
  pow_eq : ∀ (a : D) (n : Nat), Scalar.pow a n = a ^ n

namespace ExactScalar

variable {D : Type} [ExactScalar D]

theorem isNumber (a : D) : Scalar.IsNumber a := by
  simp only [Scalar.IsNumber, value_eq, Option.isSome_some]

theorem lt_iff (a b : D) : Scalar.lt a b = true ↔ a < b := by
  rw [Scalar.lt_of_values (value_eq a) (value_eq b), decide_eq_true_eq]
  exact embed_strictMono.lt_iff_lt

theorem le_iff (a b : D) : Scalar.le a b = true ↔ a ≤ b := by
  simp only [Scalar.le, value_eq, decide_eq_true_eq]
  exact embed_strictMono.le_iff_le

instance (priority := low) : FloatScalar D where
  zero_mul_weight _ _ := by rw [ofNat_eq 0, Nat.cast_zero, zero_mul]
  zero_add_ofNat _ := by rw [ofNat_eq 0, Nat.cast_zero, zero_add]
  one_le_ofNat positive _ := by
    rw [Bool.eq_false_iff, ne_eq, lt_iff, ofNat_eq, ofNat_eq, not_lt, Nat.cast_le]
    exact positive
  lt_decayed {limit previous current elapsed window} inside _ _ reached _ := by
    have windowPositive : (0 : D) < window := Nat.cast_pos.mpr (Nat.zero_lt_of_lt inside)
    have ratio : (elapsed : D) / window ≤ 1 := by
      rw [div_le_one windowPositive]
      exact Nat.cast_le.mpr inside.le
    have decayed : (0 : D) ≤ previous * (1 - elapsed / window) :=
      mul_nonneg (Nat.cast_nonneg previous) (sub_nonneg.mpr ratio)
    have counted : (limit : D) ≤ current := Nat.cast_le.mpr reached
    simp only [ofNat_eq, lt_iff, Nat.cast_one]
    linarith

instance (priority := low) : UnitScalar D where
  one_pow n := by rw [pow_eq, ofNat_eq, Nat.cast_one, one_pow]
  mul_one a := by rw [ofNat_eq, Nat.cast_one, mul_one]

end ExactScalar

/-- Rationals compute exactly. Their decay is exact at whole half-lives. -/
instance : ExactScalar ℚ where
  __ := (inferInstance : Field ℚ)
  __ := (inferInstance : LinearOrder ℚ)
  __ := (inferInstance : IsStrictOrderedRing ℚ)
  Value := ℚ
  value := some
  ofNat := Nat.cast
  pow a n := a ^ n
  halve age halfLife := (1 / 2) ^ (age.toNat / halfLife.toNat)
  embed := id
  value_eq _ := rfl
  embed_strictMono := strictMono_id
  ofNat_eq _ := rfl
  pow_eq _ _ := rfl

/-- Rationals with a NaN, which every operation propagates except the zeroth
power. -/
instance : Scalar (Option ℚ) where
  add a b := do return (← a) + (← b)
  sub a b := do return (← a) - (← b)
  mul a b := do return (← a) * (← b)
  div a b := do
    let divisor ← b
    if divisor = 0 then none else return (← a) / divisor
  Value := ℚ
  value := id
  ofNat n := some n
  pow a n := if n = 0 then some 1 else do return (← a) ^ n
  halve age halfLife := some ((1 / 2) ^ (age.toNat / halfLife.toNat))

end Foundation
