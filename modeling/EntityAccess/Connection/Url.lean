import EntityAccess.Connection.Domain.Basic
import EntityAccess.Connection.Path

/-!
# connection URLs

A URL names a scheme and what follows a colon: an authority with credentials, host and port, then a
path and a query.  After most schemes the authority stands behind two slashes and its host may be
any text; schemes of the web always have an authority whose host is a domain, and take backslashes
for slashes.  Parts are kept as they are written; who uses them decodes them.

* `cutBefore_append` : cutting a text at a character loses nothing.
-/

namespace EntityAccess.Connection

structure Url where
  /-- none if the URL has no authority, or one that names no host -/
  host : Option (List Char)
  port : Option Nat
  user : List Char
  password : List Char
  /-- without slashes at its start -/
  path : List Char
  query : List Char
deriving DecidableEq

namespace Url

/-- the text up to the first of some characters, and from there on -/
def cutBefore (stops : List Char) (cs : List Char) : List Char × List Char :=
  (cs.takeWhile (!stops.contains ·), cs.dropWhile (!stops.contains ·))

theorem cutBefore_append (stops cs : List Char) :
    (cutBefore stops cs).1 ++ (cutBefore stops cs).2 = cs := by
  simp [cutBefore, List.takeWhile_append_dropWhile]

/-- the text without control characters and spaces at its ends and without line breaks -/
def cleaned (s : String) : List Char :=
  let isEdge := fun c : Char => c.toNat ≤ 32
  let inner := ((s.toList.dropWhile isEdge).reverse.dropWhile isEdge).reverse
  inner.filter fun c => c ≠ '\t' ∧ c ≠ '\n' ∧ c ≠ '\r'

/-! ### schemes -/

inductive Scheme where
  | file
  /-- a scheme of the web, with the port that goes without saying -/
  | web (port : Nat)
  | other
deriving DecidableEq

def Scheme.ofName (name : String) : Scheme :=
  match name with
  | "file" => .file
  | "http" => .web 80
  | "https" => .web 443
  | "ws" => .web 80
  | "wss" => .web 443
  | "ftp" => .web 21
  | _ => .other

/-- the port that goes without saying -/
def Scheme.defaultPort? : Scheme → Option Nat
  | .web port => some port
  | _ => none

/-- the characters that separate segments -/
def Scheme.slashes : Scheme → List Char
  | .other => ['/']
  | _ => ['/', '\\']

/-- a scheme and what follows its colon -/
def splitScheme? (cs : List Char) : Option (Scheme × List Char) :=
  let isSchemeChar := fun c : Char => c.isAlphanum || c == '+' || c == '-' || c == '.'
  match cs.takeWhile isSchemeChar, cs.dropWhile isSchemeChar with
  | c :: name, ':' :: rest =>
    if c.isAlpha then some (.ofName (Text.lowerAscii (String.ofList (c :: name))), rest) else none
  | _, _ => none

/-! ### authorities -/

/-- characters that no host contains -/
def forbiddenInHost : List Char :=
  ['\x00', ' ', '#', '/', ':', '<', '>', '?', '@', '[', '\\', ']', '^', '|']

/-- whether a text is a host: an address in brackets, or a text of the form that the scheme asks -/
def isHost (scheme : Scheme) (cs : List Char) : Bool :=
  match cs with
  | '[' :: rest =>
    match rest.reverse with
    | ']' :: address => Address.isGrouped address.reverse
    | _ => false
  | _ =>
    match scheme with
    | .other => !cs.any forbiddenInHost.contains
    | _ => Domain.isDomain cs

/-- a host and what follows it; a colon in brackets belongs to the host -/
def splitHost (cs : List Char) : List Char × List Char :=
  match cs with
  | '[' :: _ =>
    let (address, rest) := cutBefore [']'] cs
    let (more, rest) := cutBefore [':'] rest
    (address ++ more, rest)
  | _ => cutBefore [':'] cs

/-- a port, none if its place is empty -/
def readPort? (cs : List Char) : Option (Option Nat) :=
  if cs = [] then some none
  else if cs.all Char.isDigit then
    let n := Number.ofDigits cs
    if n ≤ 65535 then some (some n) else none
  else none

structure Authority where
  user : List Char
  password : List Char
  host : List Char
  port : Option Nat
  /-- a backslash after the port and what follows it -/
  rest : List Char
deriving DecidableEq

/-- credentials and the place they are for, which only has to be named if a path or query follows -/
def splitCredentials? (cs : List Char) (isLast : Bool) : Option (List Char × List Char) :=
  match Text.lastCut ['@'] cs with
  | some ([], []) => if isLast then some ([], []) else none
  | some (credentials, place) => some (credentials, place)
  | none => some ([], cs)

/-- an authority, which is the end of a URL or not -/
def readAuthority? (scheme : Scheme) (cs : List Char) (isLast : Bool) : Option Authority := do
  let (credentials, place) ← splitCredentials? cs isLast
  let (user, password) := cutBefore [':'] credentials
  let (host, after) := splitHost place
  let needsHost := scheme ≠ .other ∨ after ≠ [] ∨ user ≠ [] ∨ password.drop 1 ≠ []
  if host = [] then
    if needsHost then none
  else if !isHost scheme host then none
  let (digits, rest) := cutBefore ['\\'] (after.drop 1)
  let port ← readPort? digits
  some ⟨user, password.drop 1, host, if port = scheme.defaultPort? then none else port, rest⟩

/-! ### paths -/

/-- the path after an authority or a colon -/
def pathText (scheme : Scheme) (cs : List Char) : List Char :=
  let slashed := cs.map fun c => if scheme.slashes.contains c then '/' else c
  let segments := Path.resolve (Text.pieces ['/'] (match slashed with
    | '/' :: rest => rest
    | rest => rest))
  Path.text (if scheme = .file then Path.withDriveColon segments else segments)

/-! ### URLs -/

/-- path and query; what follows a hash counts for neither -/
def pathAndQuery (cs : List Char) : List Char × List Char :=
  let (shown, _) := cutBefore ['#'] cs
  let (path, query) := cutBefore ['?'] shown
  (path, query.drop 1)

/-- a URL without an authority -/
def ofPath (path : List Char × List Char) : Url := ⟨none, none, [], [], path.1, path.2⟩

/-- a URL from its authority on -/
def readFromAuthority? (scheme : Scheme) (cs : List Char) : Option Url := do
  let (authority, rest) := cutBefore ('?' :: '#' :: scheme.slashes) cs
  let a ← readAuthority? scheme authority (rest = [])
  let (path, query) := pathAndQuery rest
  some ⟨if a.host = [] then none else some a.host, a.port, a.user, a.password,
    pathText scheme (a.rest ++ path), query⟩

/-- a URL of a file from its host on; a drive in place of the host belongs to the path -/
def readFile? (cs : List Char) : Option Url :=
  let (host, rest) := cutBefore ('?' :: '#' :: Scheme.file.slashes) cs
  let (path, query) := pathAndQuery rest
  if Path.isDrive host then some (ofPath (pathText .file (host ++ path), query))
  else if host = [] then some (ofPath (pathText .file path, query))
  else if isHost .file host then
    some ⟨some host, none, [], [], pathText .file path, query⟩
  else none

/-- a URL after the colon of its scheme -/
def readRest? (scheme : Scheme) (cs : List Char) : Option Url :=
  let pathOnly := fun resolved : List Char → List Char =>
    let (path, query) := pathAndQuery cs
    some (ofPath (resolved path, query))
  match scheme with
  | .web _ => readFromAuthority? scheme (cs.dropWhile scheme.slashes.contains)
  | .file =>
    match cs with
    | a :: b :: rest =>
      if scheme.slashes.contains a && scheme.slashes.contains b then readFile? rest
      else pathOnly (pathText scheme)
    | _ => pathOnly (pathText scheme)
  | .other =>
    match cs with
    | '/' :: '/' :: rest => readFromAuthority? scheme rest
    | '/' :: _ => pathOnly (pathText scheme)
    | _ => pathOnly id

def read? (s : String) : Option Url := do
  let (scheme, rest) ← splitScheme? (cleaned s)
  readRest? scheme rest

end Url
end EntityAccess.Connection
