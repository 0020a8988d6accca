/-!
# octets of a text

A text as it is sent is a list of octets (numbers below 256).  Reading it back follows UTF-8: octets
that are part of no character are either refused or stand for the replacement character, one for
each longest beginning of a character.
-/

namespace EntityAccess.Text

/-- the octets of a text -/
def octets (s : String) : List Nat :=
  s.toList.flatMap fun c => (String.utf8EncodeChar c).map UInt8.toNat

/-! ### percent signs -/

/-- the value of a hexadecimal digit -/
def hexOctet? (b : Nat) : Option Nat :=
  if 48 ≤ b ∧ b ≤ 57 then some (b - 48)
  else if 65 ≤ b ∧ b ≤ 70 then some (b - 55)
  else if 97 ≤ b ∧ b ≤ 102 then some (b - 87)
  else none

/-- two hexadecimal digits after a percent sign become one octet; all else stays -/
def percentDecode : List Nat → List Nat
  | [] => []
  | [a] => [a]
  | [a, b] => [a, b]
  | a :: h :: l :: rest =>
    match if a = 37 then hexOctet? h else none, hexOctet? l with
    | some x, some y => (x * 16 + y) :: percentDecode rest
    | _, _ => a :: percentDecode (h :: l :: rest)

/-! ### characters -/

/-- a character of which octets are missing: how many, the bounds of the next one, and the value of
those that have been read -/
structure Pending where
  missing : Nat
  least : Nat
  greatest : Nat
  value : Nat

/-- what an octet starts that is no character by itself -/
def Pending.start? (b : Nat) : Option Pending :=
  if 0xC2 ≤ b ∧ b ≤ 0xDF then some ⟨1, 0x80, 0xBF, b - 0xC0⟩
  else if b = 0xE0 then some ⟨2, 0xA0, 0xBF, 0⟩
  else if b = 0xED then some ⟨2, 0x80, 0x9F, 0xD⟩
  else if 0xE1 ≤ b ∧ b ≤ 0xEF then some ⟨2, 0x80, 0xBF, b - 0xE0⟩
  else if b = 0xF0 then some ⟨3, 0x90, 0xBF, 0⟩
  else if b = 0xF4 then some ⟨3, 0x80, 0x8F, 4⟩
  else if 0xF1 ≤ b ∧ b ≤ 0xF3 then some ⟨3, 0x80, 0xBF, b - 0xF0⟩
  else none

/-- an octet between characters: the character it is, nothing for one that cannot stand here, or
the character it starts -/
def firstOctet (b : Nat) : List (Option Char) × Option Pending :=
  if b < 0x80 then ([some (Char.ofNat b)], none)
  else match Pending.start? b with
    | some p => ([], some p)
    | none => ([none], none)

/-- an octet inside a character -/
def laterOctet (p : Pending) (b : Nat) : List (Option Char) × Option Pending :=
  if p.least ≤ b ∧ b ≤ p.greatest then
    let value := p.value * 64 + b % 64
    if p.missing ≤ 1 then ([some (Char.ofNat value)], none)
    else ([], some ⟨p.missing - 1, 0x80, 0xBF, value⟩)
  else (none :: (firstOctet b).1, (firstOctet b).2)

/-- the characters of octets, nothing in place of octets that are part of none -/
def decodeFrom : Option Pending → List Nat → List (Option Char)
  | none, [] => []
  | some _, [] => [none]
  | none, b :: rest => (firstOctet b).1 ++ decodeFrom (firstOctet b).2 rest
  | some p, b :: rest => (laterOctet p b).1 ++ decodeFrom (laterOctet p b).2 rest

/-- the text of octets, if they are one -/
def decode? (bytes : List Nat) : Option String :=
  ((decodeFrom none bytes).mapM id).map String.ofList

/-- the text of octets, with replacement characters -/
def decodeLossy (bytes : List Nat) : String :=
  String.ofList ((decodeFrom none bytes).map fun c => c.getD (Char.ofNat 0xFFFD))

end EntityAccess.Text
