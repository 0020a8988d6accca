import EntityAccess.Repository.Basic

/-!
# related rows

The relationships of a load plan are loaded for many records at once, with one statement for each
relationship that has any key to ask for.

* `firstOfEach_cons_of_mem`, `firstOfEach_cons` : each key counts once.
-/

namespace EntityAccess

/-- the first of each key that has not been seen -/
def firstOfEach {α : Type} (key : α → String) (seen : List String) : List α → List α
  | [] => []
  | a :: rest =>
    if seen.contains (key a) then firstOfEach key seen rest
    else a :: firstOfEach key (key a :: seen) rest

theorem firstOfEach_cons_of_mem {α : Type} {key : α → String} {seen : List String} {a : α}
    (h : key a ∈ seen) (rest : List α) :
    firstOfEach key seen (a :: rest) = firstOfEach key seen rest := by
  simp [firstOfEach, h]

theorem firstOfEach_cons {α : Type} {key : α → String} {seen : List String} {a : α}
    (h : key a ∉ seen) (rest : List α) :
    firstOfEach key seen (a :: rest) = a :: firstOfEach key (key a :: seen) rest := by
  simp [firstOfEach, h]

/-- the value by which a record finds its related rows; null finds none -/
def Record.localKey (r : Record) (rel : Relationship) : Option Json :=
  (r.get? rel.localColumn).filter fun v => !v.isNull

/-- the text of the key that a related row is found by -/
def remoteKey (rel : Relationship) (row : Row) : String :=
  ((row.get? rel.remoteColumn).map Json.plainText).getD ""

/-- the distinct keys of records, in the order of their first occurrence -/
def keysOf (rel : Relationship) (records : List Record) : List Json :=
  firstOfEach Json.plainText [] (records.filterMap (·.localKey rel))

/-- the distinct keys of records as values of the column that they are compared with -/
def keyValues (rel : Relationship) (target : Entity) (records : List Record) :
    Except Error (List SqlValue) :=
  (keysOf rel records).mapM (castFilter (target.columnType rel.remoteColumn))

/-- those of the related rows that belong to a record -/
def matching (rel : Relationship) (rows : List Row) (r : Record) : List Row :=
  match r.localKey rel with
  | some v => rows.filter fun row => remoteKey rel row = v.plainText
  | none => []

/-- a record with its related rows -/
def Record.attach (r : Record) (name : String) (rel : Relationship) (rows : List Row) : Record :=
  let found := matching rel rows r
  r.withRelated name <| match rel.kind with
    | .manyToOne => .one found.head?
    | .oneToMany => .many found

namespace Repository

/-- the relationship of that name and its target -/
def relation (r : Repository) (name : String) : Except Error (Relationship × Entity) :=
  match r.entity.relationship? name with
  | none => .error (.noSuchRelationship name r.entity.name)
  | some rel =>
    match r.schema.entity? rel.target with
    | none => .error (.config (.missingReference .entity rel.target))
    | some target => .ok (rel, target)

/-- the rows of a target with one of the given values in a column -/
def relatedRows (target : Entity) (column : String) (keys : List SqlValue) : Action (List Row) :=
  if keys.isEmpty then pure []
  else Action.query (.related target column keys) (ResultSet.readRows target)

/-- records with one relationship loaded -/
def loadOne (r : Repository) (records : List Record) (name : String) : Action (List Record) := do
  let (rel, target) ← r.relation name
  let keys ← keyValues rel target records
  let rows ← relatedRows target rel.remoteColumn keys
  return records.map (·.attach name rel rows)

/-- records with the relationships of a load plan loaded -/
def loadRelated (r : Repository) (records : List Record) (load : LoadPlan) :
    Action (List Record) :=
  if records.isEmpty then pure [] else load.names.foldlM r.loadOne records

end Repository
end EntityAccess
