/-!
# blank characters and trimming

White space is the Unicode property `White_Space` (25 characters).  `trim` drops it at both ends
and nowhere else; letters are folded by `lowerAscii` for ASCII only.

* `trimStart_eq_self` : a text that starts with no blank is its own `trimStart`.
-/

namespace EntityAccess.Text

/-- the Unicode property `White_Space` -/
def isBlank (c : Char) : Bool :=
  let n := c.toNat
  (9 ≤ n && n ≤ 13) || n == 0x20 || n == 0x85 || n == 0xA0 || n == 0x1680 ||
    (0x2000 ≤ n && n ≤ 0x200A) || n == 0x2028 || n == 0x2029 || n == 0x202F || n == 0x205F ||
    n == 0x3000

/-- the text from its first character that is not blank -/
def trimStart (cs : List Char) : List Char := cs.dropWhile isBlank

theorem trimStart_eq_self {c : Char} (h : isBlank c = false) (cs : List Char) :
    trimStart (c :: cs) = c :: cs := by
  simp [trimStart, h]

/-- the text without the blanks at its end -/
def trimEnd (cs : List Char) : List Char := (trimStart cs.reverse).reverse

/-- a text without the blanks at both ends -/
def trim (s : String) : String := String.ofList (trimEnd (trimStart s.toList))

/-- ASCII letters in lower case, all else as it is -/
def lowerAscii (s : String) : String := s.map Char.toLower

end EntityAccess.Text
