import EntityAccess.Number.Reading
import EntityAccess.Text.Split

/-!
# numeric addresses

Four decimal numbers with points between them, or eight groups of hexadecimal digits with colons
between them.  Of the groups two colons can stand for one or more that are zero, and the last two
can be written as four decimal numbers.
-/

namespace EntityAccess.Connection.Address

/-- a decimal number below 256 without zeros in front -/
def isOctet (cs : List Char) : Bool :=
  !cs.isEmpty && cs.all Char.isDigit && (cs.length == 1 || cs.head? != some '0') &&
    Number.ofDigits cs < 256

/-- four decimal numbers -/
def isQuad (cs : List Char) : Bool :=
  let parts := Text.pieces ['.'] cs
  parts.length == 4 && parts.all isOctet

def isHexDigit (c : Char) : Bool :=
  c.isDigit || ('a' ≤ c && c ≤ 'f') || ('A' ≤ c && c ≤ 'F')

/-- one to four hexadecimal digits -/
def isGroup (cs : List Char) : Bool := !cs.isEmpty && cs.length ≤ 4 && cs.all isHexDigit

/-- how many groups are written one after another, where `last` says what the last piece may be -/
def groups? (last : List Char → Option Nat) (cs : List Char) : Option Nat :=
  if cs = [] then some 0
  else match (Text.pieces [':'] cs).reverse with
    | [] => none
    | piece :: front =>
      if front.all isGroup then (last piece).map (front.length + ·) else none

/-- a group counts as one -/
def single? (cs : List Char) : Option Nat := if isGroup cs then some 1 else none

/-- a group, or the decimal numbers of two -/
def singleOrPair? (cs : List Char) : Option Nat := if isQuad cs then some 2 else single? cs

/-- groups, at most once with two colons for those that are left out -/
def isGrouped (cs : List Char) : Bool :=
  match Text.pieces [':', ':'] cs with
  | [all] => groups? singleOrPair? all == some 8
  | [front, back] =>
    match groups? single? front, groups? singleOrPair? back with
    | some m, some n => m + n ≤ 7
    | _, _ => false
  | _ => false

/-- an address of either kind -/
def isNumeric (cs : List Char) : Bool := isQuad cs || isGrouped cs

end EntityAccess.Connection.Address
