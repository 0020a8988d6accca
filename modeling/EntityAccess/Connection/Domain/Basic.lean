import EntityAccess.Connection.Address
import EntityAccess.Connection.Domain.Label
import EntityAccess.Text.Octets

/-!
# domains

A domain is a list of labels with points between them, compared without regard to case, width and
characters that show nothing.  If its last label is a number, then the domain is an address: up to
four numbers, also octal and hexadecimal ones, of which the last fills all that is left.
-/

namespace EntityAccess.Connection.Domain

/-- ranges of characters that show nothing and do not count -/
def ignored : Array (Nat × Nat) :=
  #[(0xAD, 0xAD), (0x34F, 0x34F), (0x115F, 0x1160), (0x17B4, 0x17B5), (0x180B, 0x180F),
    (0x200B, 0x200B), (0x2060, 0x2064), (0x206A, 0x206F), (0x3164, 0x3164), (0xFE00, 0xFE0F),
    (0xFEFF, 0xFEFF), (0xFFA0, 0xFFA0), (0x1BCA0, 0x1BCA3), (0x1D173, 0x1D17A), (0xE0100, 0xE01EF)]

/-- a character without regard to case and width, where points of all writings are the same -/
def foldChar (c : Char) : Char :=
  if c.toNat = 0x3002 ∨ c.toNat = 0xFF61 then '.'
  else if 0xFF01 ≤ c.toNat ∧ c.toNat ≤ 0xFF5E then (Char.ofNat (c.toNat - 0xFEE0)).toLower
  else c.toLower

/-- a domain in the form in which it is compared -/
def folded (cs : List Char) : List Char :=
  (cs.filter (!Text.inRanges ignored ·)).map foldChar

/-! ### numbers -/

/-- the number that hexadecimal digits write -/
def ofHexDigits (cs : List Char) : Nat :=
  (cs.filterMap fun c => Text.hexOctet? c.toNat).foldl (fun n d => n * 16 + d) 0

/-- a number, hexadecimal after `0x` and octal after `0` -/
def readNumber? : List Char → Option Nat
  | [] => none
  | '0' :: 'x' :: cs => if cs.all Address.isHexDigit then some (ofHexDigits cs) else none
  | '0' :: c :: cs =>
    if (c :: cs).all fun d => '0' ≤ d && d ≤ '7' then
      some ((c :: cs).foldl (fun n d => n * 8 + (d.toNat - 48)) 0)
    else none
  | cs => if cs.all Char.isDigit then some (Number.ofDigits cs) else none

/-- whether a label is written as a number -/
def isNumber (label : List Char) : Bool :=
  (!label.isEmpty && label.all Char.isDigit) || (readNumber? label).isSome

/-- whether labels make up an address -/
def isAddress (labels : List (List Char)) : Bool :=
  match (labels.mapM readNumber?).map List.reverse with
  | some (last :: front) =>
    front.length ≤ 3 && front.all (· < 256) && last < Nat.pow 256 (4 - front.length)
  | _ => false

/-! ### domains -/

/-- the labels of a domain, without an empty one at the end -/
def labels (cs : List Char) : List (List Char) :=
  let all := Text.pieces ['.'] cs
  if all.getLast? = some [] then all.dropLast else all

/-- whether a domain that is folded has proper labels and, where it has to be one, is an address -/
def isFolded (cs : List Char) : Bool :=
  let parts := labels cs
  !cs.isEmpty && parts.all isLabel && (!(parts.getLast?.any isNumber) || isAddress parts)

/-- whether a text is a domain, where characters can be written with percent signs -/
def isDomain (cs : List Char) : Bool :=
  match Text.decode? (Text.percentDecode (Text.octets (String.ofList cs))) with
  | some text => isFolded (folded text.toList)
  | none => false

end EntityAccess.Connection.Domain
