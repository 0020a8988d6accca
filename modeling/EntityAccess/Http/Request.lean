import EntityAccess.Text.Form

/-!
# requests

The path of a request names a resource: one of three fixed ones, all rows of an entity, or one row.
A path matches as it is written; its segments are decoded afterwards.
-/

namespace EntityAccess.Http

inductive Method where
  | get
  | head
  | post
  | patch
  | delete
  | other
deriving DecidableEq

def Method.ofWord : String → Method
  | "GET" => .get
  | "HEAD" => .head
  | "POST" => .post
  | "PATCH" => .patch
  | "DELETE" => .delete
  | _ => .other

structure Request where
  method : Method
  /-- path and query -/
  target : String
  contentType : Option String
  body : String

namespace Request

/-- the target without a fragment -/
def targetChars (r : Request) : List Char := r.target.toList.takeWhile (· != '#')

def path (r : Request) : List Char := r.targetChars.takeWhile (· != '?')

def query (r : Request) : String :=
  String.ofList ((r.targetChars.dropWhile (· != '?')).drop 1)

end Request

/-- what a path names -/
inductive Route where
  | health
  | ready
  | version
  /-- the rows of an entity, by a segment that is not decoded -/
  | collection (entity : List Char)
  /-- one row -/
  | item (entity id : List Char)

namespace Route

/-- a resource that a single segment names -/
def ofSegment (segment : List Char) : Route :=
  match String.ofList segment with
  | "health" => .health
  | "ready" => .ready
  | "version" => .version
  | _ => .collection segment

/-- the resource of a path; no segment may be empty -/
def ofPath? (path : List Char) : Option Route :=
  match Text.pieces ['/'] path with
  | [[], segment] => if segment = [] then none else some (ofSegment segment)
  | [[], entity, id] => if entity = [] ∨ id = [] then none else some (.item entity id)
  | _ => none

end Route

/-! ### operations -/

/-- what is asked of a resource; segments of its path name entities and rows -/
inductive Operation (Segment : Type) where
  | health
  | ready
  | version
  | list (entity : Segment)
  | create (entity : Segment)
  | read (entity id : Segment)
  | update (entity id : Segment)
  | delete (entity id : Segment)

/-- what a method asks of a resource -/
def Route.operation? : Route → Method → Option (Operation (List Char))
  | .health, .get => some .health
  | .ready, .get => some .ready
  | .version, .get => some .version
  | .collection entity, .get => some (.list entity)
  | .collection entity, .post => some (.create entity)
  | .item entity id, .get => some (.read entity id)
  | .item entity id, .patch => some (.update entity id)
  | .item entity id, .delete => some (.delete entity id)
  | _, _ => none

/-- a segment as text, if it is one -/
def decodeSegment? (segment : List Char) : Option String :=
  Text.decode? (Text.percentDecode (Text.octets (String.ofList segment)))

/-- an operation with its segments decoded -/
def Operation.decode? : Operation (List Char) → Option (Operation String)
  | .health => some .health
  | .ready => some .ready
  | .version => some .version
  | .list entity => return .list (← decodeSegment? entity)
  | .create entity => return .create (← decodeSegment? entity)
  | .read entity id => return .read (← decodeSegment? entity) (← decodeSegment? id)
  | .update entity id => return .update (← decodeSegment? entity) (← decodeSegment? id)
  | .delete entity id => return .delete (← decodeSegment? entity) (← decodeSegment? id)

end EntityAccess.Http
