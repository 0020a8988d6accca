import EntityAccess.Number.Binary64

/-!
# doubles as decimal text

`ofDecimal` reads a decimal to the nearest double.  `shortest` finds, among the decimals that read
back as a given double, one with the fewest digits, and of those the nearest.  Where the point and
the exponent go is the choice of a `Layout`; `Finite.text` fixes it.
-/

namespace EntityAccess.Binary64

/-- how many decimal digits a number has; `0` has one -/
def decimalLength (n : Nat) : Nat := (Nat.toDigits 10 n).length

/-- the double nearest to `digits · 10^exponent` -/
def ofDecimal (negative : Bool) (digits : Nat) (exponent : Int) : Binary64 :=
  let magnitude : Int := decimalLength digits + exponent
  if digits = 0 ∨ magnitude < -325 then .finite (.zero negative)
  else if 310 < magnitude then .infinite negative
  else match exponent with
    | .ofNat e => ofRatio negative (digits * Nat.pow 10 e) 1
    | .negSucc e => ofRatio negative digits (Nat.pow 10 (e + 1))

/-- a decimal `0.d₁d₂… · 10^point` -/
structure Digits where
  digits : List Char
  point : Int
deriving DecidableEq

/-- `n · 10^exponent` without zeros at the end -/
def Digits.ofNat (n : Nat) (exponent : Int) : Digits :=
  let ds := Nat.toDigits 10 n
  let kept := (ds.reverse.dropWhile (· == '0')).reverse
  ⟨if kept = [] then ['0'] else kept, ds.length + exponent⟩

/-- the place of the decimal point of `num / den`, which is not zero: the `k` for which
`10^(k-1) ≤ num / den < 10^k` -/
def decimalPoint (num den : Nat) : Int :=
  if den ≤ num then decimalLength (num / den) else 1 - decimalLength ((den - 1) / num)

/-- the decimal of `count` digits nearest to `x`, or its other neighbour, if it reads back -/
def ofDigitCount? (x : Finite) (count : Nat) : Option Digits :=
  let exponent := decimalPoint x.scaled unit - count
  let (a, d) := match exponent with
    | .ofNat e => (x.scaled, unit * Nat.pow 10 e)
    | .negSucc e => (x.scaled * Nat.pow 10 (e + 1), unit)
  let nearest := nearestEven a d
  let other := if nearest = a / d then nearest + 1 else a / d
  if ofDecimal x.negative nearest exponent = .finite x then some (.ofNat nearest exponent)
  else if ofDecimal x.negative other exponent = .finite x then some (.ofNat other exponent)
  else none

/-- all digits of `x` -/
def allDigits (x : Finite) : Digits :=
  if 1074 ≤ x.exponent then .ofNat (x.significand * Nat.pow 2 (x.exponent - 1074)) 0
  else .ofNat (x.significand * Nat.pow 5 (1074 - x.exponent)) (x.exponent - 1074)

/-- the first digit count from `count` up, among the next `fuel`, whose decimal reads back -/
def shortestFrom (x : Finite) : (fuel count : Nat) → Digits
  | 0, _ => allDigits x
  | fuel + 1, count => (ofDigitCount? x count).getD (shortestFrom x fuel (count + 1))

/-- the shortest decimal that reads back as `x`; seventeen digits always do -/
def shortest (x : Finite) : Digits :=
  if x.isZero then ⟨['0'], 1⟩ else shortestFrom x 17 1

/-! ### layout -/

/-- which numbers are written without an exponent, by the place of their point -/
structure Layout where
  leastPoint : Int
  greatestPoint : Int

/-- no exponent from `10^-5` up to, and not including, `10^16` -/
def plainLayout : Layout := ⟨-4, 16⟩

/-- digits with a point, and a zero on each side of it that has no digit -/
def Digits.positional (d : Digits) : List Char :=
  if d.point ≤ 0 then '0' :: '.' :: (List.replicate (-d.point).toNat '0' ++ d.digits)
  else
    let whole := d.point.toNat
    if d.digits.length ≤ whole then
      d.digits ++ List.replicate (whole - d.digits.length) '0' ++ ['.', '0']
    else d.digits.take whole ++ '.' :: d.digits.drop whole

/-- one digit, the others after a point, and an exponent with its sign -/
def Digits.scientific (d : Digits) : List Char :=
  let exponent := d.point - 1
  let fraction := if d.digits.length ≤ 1 then [] else '.' :: d.digits.drop 1
  d.digits.take 1 ++ fraction ++ 'e' :: (if exponent < 0 then '-' else '+') ::
    Nat.toDigits 10 exponent.natAbs

def Digits.write (layout : Layout) (d : Digits) : List Char :=
  if layout.leastPoint ≤ d.point ∧ d.point ≤ layout.greatestPoint then d.positional
  else d.scientific

/-- the text of a finite double: the fewest digits that read back, always with a point or an
exponent -/
def Finite.text (x : Finite) : String :=
  String.ofList ((if x.negative then ['-'] else []) ++ (shortest x).write plainLayout)

end EntityAccess.Binary64
