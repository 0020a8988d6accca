import EntityAccess.Text.Blank
import EntityAccess.Text.Split

/-!
# media types

A content type is a main type and a subtype, both tokens, and parameters after semicolons.  A
subtype can end in a suffix, after its last plus sign.
-/

namespace EntityAccess.Http

structure MediaType where
  main : String
  sub : String
  suffix : Option String
deriving DecidableEq

namespace MediaType

def isTokenChar (c : Char) : Bool :=
  c.isAlphanum || "!#$%&'*+-.^_|~".toList.contains c || c.toNat = 96

/-- where a reader stands among parameters -/
inductive ParameterMode where
  | nameStart
  | name
  | valueStart
  | value
  | quoteStart
  | quoted
  | quoteEnd
deriving DecidableEq

/-- the place after one character, if it may stand here -/
def ParameterMode.step (m : ParameterMode) (c : Char) : Option ParameterMode :=
  let quotable := 31 < c.toNat
  match m with
  | .nameStart => if c = ' ' then some .nameStart else if isTokenChar c then some .name else none
  | .name => if c = '=' then some .valueStart else if isTokenChar c then some .name else none
  | .valueStart =>
    if c = '"' then some .quoteStart else if isTokenChar c then some .value else none
  | .value => if c = ';' then some .nameStart else if isTokenChar c then some .value else none
  | .quoteStart => if quotable then some .quoted else none
  | .quoted => if c = '"' then some .quoteEnd else if quotable then some .quoted else none
  | .quoteEnd => if c = ';' then some .nameStart else if c = ' ' then some .quoteEnd else none

/-- whether a content type may end here -/
def ParameterMode.final : ParameterMode → Bool
  | .nameStart => true
  | .valueStart => true
  | .value => true
  | .quoteEnd => true
  | _ => false

/-- whether the rest of a content type is well formed -/
def parametersFrom (m : ParameterMode) : List Char → Bool
  | [] => m.final
  | c :: cs =>
    match m.step c with
    | some m => parametersFrom m cs
    | none => false

/-- a subtype and its suffix; a plus sign in front begins no suffix -/
def splitSuffix (sub : List Char) : List Char × Option (List Char) :=
  match Text.lastCut ['+'] sub with
  | some (c :: cs, suffix) => (c :: cs, some suffix)
  | _ => (sub, none)

/-- letters of names are compared in lower case -/
def lowered (cs : List Char) : String := Text.lowerAscii (String.ofList cs)

def read? (text : String) : Option MediaType :=
  let cs := text.toList
  let main := cs.takeWhile isTokenChar
  match cs.dropWhile isTokenChar with
  | '/' :: rest =>
    let (sub, suffix) := splitSuffix (rest.takeWhile isTokenChar)
    let ends : Bool := match rest.dropWhile isTokenChar with
      | [] => true
      | ';' :: parameters => !sub.isEmpty && parametersFrom .nameStart parameters
      | _ => false
    if !main.isEmpty && ends && cs.all (·.toNat < 127) then
      some ⟨lowered main, lowered sub, suffix.map lowered⟩
    else none
  | _ => none

/-- JSON itself, or a format that is written in JSON -/
def isJson (m : MediaType) : Bool :=
  m.main == "application" && (m.sub == "json" || m.suffix == some "json")

end MediaType
end EntityAccess.Http
