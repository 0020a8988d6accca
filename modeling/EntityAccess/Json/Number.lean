import EntityAccess.Json.Basic
import EntityAccess.Number.Reading

/-!
# number literals of JSON

An integer literal within 64 bits is exact.  Any other literal is a double: its leading digits, as
many as fit 64 bits, are rounded to a double and then multiplied or divided by a power of ten; a
literal too large for a double has no value.
-/

namespace EntityAccess.Json

open Number

/-- the parts of a number literal -/
structure Literal where
  negative : Bool
  whole : List Char
  fraction : List Char
  exponent : Option Int

/-- whole digits after the significand `s`: the significand of those that fit, and how many
do not -/
def takeWhole (s : Nat) : List Char → Nat × Nat
  | [] => (s, 0)
  | c :: cs =>
    let next := s * 10 + (c.toNat - '0'.toNat)
    if maxUnsigned < next then (s, cs.length + 1) else takeWhole next cs

/-- fraction digits after the significand `s`: the significand of those that fit, and how many
they are -/
def takeFraction (s : Nat) : List Char → Nat × Nat
  | [] => (s, 0)
  | c :: cs =>
    let next := s * 10 + (c.toNat - '0'.toNat)
    if maxUnsigned < next then (s, 0)
    else ((takeFraction next cs).1, (takeFraction next cs).2 + 1)

/-- a power of ten as a double, up to `10^308` -/
def powerOfTen (n : Nat) : Binary64.Finite :=
  match Binary64.ofDecimal false 1 n with
  | .finite x => x
  | _ => .zero false

/-- the greatest power of ten that is a double -/
def greatestPower : Binary64.Finite := powerOfTen 308

/-- the finite double of a result, if it is one -/
def finite? : Binary64 → Option Binary64.Finite
  | .finite x => some x
  | _ => none

/-- `x` divided that many times by the greatest power of ten -/
def divideTimes (x : Binary64.Finite) : Nat → Binary64.Finite
  | 0 => x
  | n + 1 => (finite? ((divideTimes x n).div greatestPower)).getD x

/-- `x · 10^e` by one multiplication or by divisions, none if it is too large; a third division by
the greatest power of ten finds zero -/
def scaleByTen (x : Binary64.Finite) (e : Int) : Option Binary64.Finite :=
  if 0 ≤ e then
    if e ≤ 308 then finite? (x.mul (powerOfTen e.natAbs)) else if x.isZero then some x else none
  else
    let whole := (e.natAbs - 1) / 308
    let rest := powerOfTen (e.natAbs - whole * 308)
    finite? ((divideTimes x (min whole 3)).div rest)

/-- a double of the given sign -/
def signed (negative : Bool) (x : Binary64.Finite) : Binary64.Finite :=
  { x with negative := negative }

/-- the value of a literal, if it has one -/
def Literal.value? (l : Literal) : Option Json :=
  let (s, dropped) := takeWhole 0 l.whole
  let (s', taken) := takeFraction s l.fraction
  let float (s : Nat) (e : Int) : Option Json :=
    match Binary64.ofInt s with
    | .finite x => (scaleByTen x e).map fun y => .float (signed l.negative y)
    | _ => none
  match l.exponent with
  | some e => float s' (dropped - taken + e)
  | none =>
    if l.fraction ≠ [] then float s' (dropped - taken)
    else if dropped ≠ 0 then float s dropped
    else if l.negative then
      if s = 0 ∨ Number.maxSigned + 1 < s then float s 0 else some (.int (-(s : Int)))
    else some (.int s)

end EntityAccess.Json
