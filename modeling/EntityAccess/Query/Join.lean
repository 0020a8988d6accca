import EntityAccess.Filter.Key
import EntityAccess.Schema.Basic

/-!
# joins along relationship paths

Every path from the root entity along declared relationships is joined under an alias of its own,
and so is every path it begins with.  Paths are followed together for as long as they go the same
way: those that begin with one name are a branch, and the branches of an entity are followed one
after the other, in the order of their names.  The joins of a read are kept by the text of their
paths, in whose order a path comes after those it begins with.
-/

namespace EntityAccess

/-- the alias of the root entity -/
def rootAlias : String := "root"

/-- a joined table -/
structure Join where
  tableAlias : String
  /-- the joined entity -/
  entity : String
  relationship : Relationship
  /-- the alias that the relationship starts from -/
  parentAlias : String
deriving DecidableEq

/-- joins by the text of their paths -/
abbrev Joins := Dict Join

namespace Joins

def at? (js : Joins) (p : Path) : Option Join := js.get? p.text

/-- a row of the root can occur more than once among the joined rows -/
def fansOut (js : Joins) : Bool := js.values.any (·.relationship.kind = .oneToMany)

/-- the joins of both; equal paths have equal joins -/
def merge (js more : Joins) : Joins :=
  more.entries.foldl (fun js e => js.insertNew e.1 e.2) js

end Joins

/-- the alias of a path -/
def Path.tableAlias (p : Path) : String := Text.concat ["j_", Text.joinWith "__" p]

/-! ### following paths -/

/-- puts a path to those that begin with the same name -/
def addToBranch (branches : Dict (List Path)) : Path → Dict (List Path)
  | [] => branches
  | name :: rest => branches.insert name ((branches.get? name).getD [] ++ [rest])

/-- what comes after the first names of paths, by these names -/
def branches (paths : List Path) : Dict (List Path) := paths.foldl addToBranch .empty

/-- paths are being followed: the names up to here, and the joins so far -/
structure Traversal where
  path : Path
  joins : Joins

namespace Traversal

def push (t : Traversal) (name : String) : Traversal := { t with path := t.path ++ [name] }

def pop (t : Traversal) : Traversal := { t with path := t.path.dropLast }

def tableAlias (t : Traversal) : String := t.path.tableAlias

/-- the join of the path up to here, unless it is there already -/
def join (t : Traversal) (target : Entity) (r : Relationship) (parent : String) : Traversal :=
  { t with joins := t.joins.insertNew t.path.text ⟨t.tableAlias, target.name, r, parent⟩ }

end Traversal

/-- follows the paths that begin with `name` from `entity`, which is joined as `parent`: joins what
the name leads to and goes on from there.  If it leads nowhere, the first of them is to blame -/
def followBranch (schema : Schema) (entity : Entity) (parent : String)
    (goOn : Entity → String → List Path → Traversal → Except Error Traversal)
    (t : Traversal) (name : String) (rests : List Path) : Except Error Traversal :=
  let t := t.push name
  match entity.relationship? name with
  | none => .error (.noSuchRelationship (Path.text (t.path ++ rests.headD [])) entity.name)
  | some r =>
    match schema.entity? r.target with
    | none => .error (.config (.missingReference .entity r.target))
    | some target => do
      let t := t.join target r parent
      let t ← goOn target t.tableAlias (rests.filter (· ≠ [])) t
      return t.pop

/-- follows paths from `entity`, to a depth that none of them exceeds -/
def joinBranches (schema : Schema) : (depth : Nat) → (entity : Entity) → (parent : String) →
    List Path → Traversal → Except Error Traversal
  | 0, _, _, _, t => .ok t
  | depth + 1, entity, parent, paths, t =>
    (branches paths).entries.foldlM (fun t (name, rests) =>
      followBranch schema entity parent (joinBranches schema depth) t name rests) t

/-- the length of the longest path -/
def longest (paths : List Path) : Nat := (paths.map List.length).foldr max 0

/-- the joins along all paths from the root -/
def resolveJoins (schema : Schema) (root : Entity) (paths : List Path) : Except Error Joins :=
  (joinBranches schema (longest paths) root rootAlias (paths.filter (· ≠ []))
    ⟨[], .empty⟩).map (·.joins)

end EntityAccess
