import EntityAccess.Number.Decimal

/-!
# numbers in text

Integers are an optional sign and ASCII digits, within given bounds; a reader says which of the two
faults it met first.  Doubles are decimals with optional point and exponent, or `inf`, `infinity`
and `nan` in any case.
-/

namespace EntityAccess.Number

/-- the value of an ASCII digit -/
def digit? (c : Char) : Option Nat := if c.isDigit then some (c.toNat - '0'.toNat) else none

/-- why a text is not an integer within bounds -/
inductive IntegerFault where
  | empty
  | invalidDigit
  | tooLarge
  | tooSmall
deriving DecidableEq

def IntegerFault.message : IntegerFault → String
  | .empty => "cannot parse integer from empty string"
  | .invalidDigit => "invalid digit found in string"
  | .tooLarge => "number too large to fit in target type"
  | .tooSmall => "number too small to fit in target type"

/-- the number written after `n`, at most `bound` -/
def readDigits (bound : Nat) (n : Nat) : List Char → Except IntegerFault Nat
  | [] => .ok n
  | c :: cs =>
    match digit? c with
    | none => .error .invalidDigit
    | some d => if bound < n * 10 + d then .error .tooLarge else readDigits bound (n * 10 + d) cs

/-- a number without sign, or with `+`, at most `bound` -/
def readNat (bound : Nat) : List Char → Except IntegerFault Nat
  | [] => .error .empty
  | ['+'] => .error .invalidDigit
  | '+' :: cs => readDigits bound 0 cs
  | cs => readDigits bound 0 cs

/-- the greatest number of 64 bits -/
def maxUnsigned : Nat := 18446744073709551615

/-- the greatest signed number of 64 bits -/
def maxSigned : Nat := 9223372036854775807

/-- within the signed numbers of 64 bits -/
def isSigned64 (n : Int) : Bool := decide (-(maxSigned : Int) - 1 ≤ n ∧ n ≤ maxSigned)

/-- a signed number of 64 bits -/
def readInt : List Char → Option Int
  | '-' :: c :: cs => (readDigits (maxSigned + 1) 0 (c :: cs)).toOption.map fun n => -(n : Int)
  | cs => (readNat maxSigned cs).toOption.map fun n => (n : Int)

/-- the digits at the start of a text and what follows them -/
def spanDigits : List Char → List Char × List Char
  | [] => ([], [])
  | c :: cs => if c.isDigit then ((c :: (spanDigits cs).1), (spanDigits cs).2) else ([], c :: cs)

/-- the number that digits write -/
def ofDigits (ds : List Char) : Nat := ds.foldl (fun n c => n * 10 + (c.toNat - '0'.toNat)) 0

/-- the exponent at the end of a decimal -/
def readExponent : List Char → Option Int
  | [] => some 0
  | e :: cs =>
    if e ≠ 'e' ∧ e ≠ 'E' then none
    else
      let (negative, ds) := match cs with
        | '-' :: ds => (true, ds)
        | '+' :: ds => (false, ds)
        | ds => (false, ds)
      if ds = [] ∨ ¬ ds.all Char.isDigit then none
      else some (if negative then -(ofDigits ds : Int) else ofDigits ds)

/-- an unsigned decimal -/
def readDecimal (negative : Bool) (cs : List Char) : Option Binary64 :=
  let (whole, rest) := spanDigits cs
  let (fraction, tail) := match rest with
    | '.' :: after => spanDigits after
    | other => ([], other)
  if whole = [] ∧ fraction = [] then none
  else (readExponent tail).map fun e =>
    .ofDecimal negative (ofDigits (whole ++ fraction)) (e - fraction.length)

/-- an unsigned double -/
def readMagnitude (negative : Bool) (cs : List Char) : Option Binary64 :=
  let word := cs.map Char.toLower
  if word = ['i', 'n', 'f'] ∨ word = ['i', 'n', 'f', 'i', 'n', 'i', 't', 'y'] then
    some (.infinite negative)
  else if word = ['n', 'a', 'n'] then some .nan
  else readDecimal negative cs

/-- a double -/
def readDouble : List Char → Option Binary64
  | '-' :: cs => readMagnitude true cs
  | '+' :: cs => readMagnitude false cs
  | cs => readMagnitude false cs

end EntityAccess.Number
