/-!
# double-precision numbers

A finite double is a sign, a significand `m < 2^53` and an exponent `p ≤ 2045`; its magnitude is
`m · 2^p` in units of `2^-1074`, and every value has one such form.  All rounding is to the nearest
double, a tie going to the even significand, computed on natural numbers.

* `same_self` : a double that is not a NaN is the same as itself, a NaN is not.
-/

namespace EntityAccess

/-- the least significand with an exponent above zero, `2^52` -/
def Binary64.half : Nat := 4503599627370496

/-- what a significand stays below, `2^53` -/
def Binary64.bound : Nat := 9007199254740992

/-- how many units one is made of, `2^1074` -/
def Binary64.unit : Nat := Nat.pow 2 1074

/-- a finite double -/
structure Binary64.Finite where
  negative : Bool
  significand : Nat
  exponent : Nat
  significand_lt : significand < bound
  normal : half ≤ significand ∨ exponent = 0
  exponent_le : exponent ≤ 2045
deriving DecidableEq

/-- a double -/
inductive Binary64 where
  | finite (x : Binary64.Finite)
  | infinite (negative : Bool)
  | nan
deriving DecidableEq

namespace Binary64

/-- the magnitude in units of `2^-1074` -/
def Finite.scaled (x : Finite) : Nat := x.significand * Nat.pow 2 x.exponent

def Finite.isZero (x : Finite) : Bool := x.significand == 0

/-- positive or negative zero -/
def Finite.zero (negative : Bool) : Finite := ⟨negative, 0, 0, by decide, .inr rfl, by decide⟩

instance : Inhabited Finite := ⟨.zero false⟩

/-- the same number: the two zeros are -/
def Finite.same (x y : Finite) : Bool :=
  x.significand == y.significand && x.exponent == y.exponent &&
    (x.negative == y.negative || x.isZero)

/-- the same number: the two zeros are, a NaN is the same as nothing -/
def same : Binary64 → Binary64 → Bool
  | .finite x, .finite y => x.same y
  | .infinite a, .infinite b => a == b
  | _, _ => false

theorem Finite.same_self (x : Finite) : x.same x = true := by simp [Finite.same]

theorem same_self (x : Binary64) : x.same x = true ↔ x ≠ .nan := by
  cases x <;> simp [same, Finite.same_self]

/-! ### rounding -/

/-- the natural number nearest to `a / d`, a tie going to the even one -/
def nearestEven (a d : Nat) : Nat :=
  let q := a / d
  let r := a % d
  if 2 * r < d then q else if d < 2 * r then q + 1 else if q % 2 = 0 then q else q + 1

/-- the double of a significand and an exponent, infinite if there is no finite one -/
def make (negative : Bool) (m p : Nat) : Binary64 :=
  if h : m < bound ∧ (half ≤ m ∨ p = 0) ∧ p ≤ 2045 then
    .finite ⟨negative, m, p, h.1, h.2.1, h.2.2⟩
  else .infinite negative

/-- the double nearest to `num / den` -/
def ofRatio (negative : Bool) (num den : Nat) : Binary64 :=
  let a := num * unit
  let p := Nat.log2 (a / den) - 52
  let m := nearestEven a (den * Nat.pow 2 p)
  if m = bound then make negative half (p + 1) else make negative m p

/-- the double nearest to an integer -/
def ofInt (n : Int) : Binary64 := ofRatio (decide (n < 0)) n.natAbs 1

/-- the double nearest to a product -/
def Finite.mul (x y : Finite) : Binary64 :=
  ofRatio (x.negative != y.negative) (x.scaled * y.scaled) (unit * unit)

/-- the double nearest to a quotient; the divisor is not zero -/
def Finite.div (x y : Finite) : Binary64 :=
  ofRatio (x.negative != y.negative) x.scaled y.scaled

end Binary64
end EntityAccess
