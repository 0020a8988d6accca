import EntityAccess.Record
import EntityAccess.Schema.Basic
import EntityAccess.Sql.Value

/-!
# results of statements

A result names the type of each of its columns, and a value is read only as what its column says;
whatever does not fit the schema is a failure of the database.  A row of an entity takes from a
result the columns that the entity can select; others are not looked at.
-/

namespace EntityAccess

structure ResultSet where
  /-- the columns with the database's names of their types -/
  columns : Dict String
  /-- a column that a row leaves out is null there -/
  rows : List (Dict SqlValue)

/-- a database's answer -/
abbrev Reply := Except DatabaseError ResultSet

/-- the names of the types that a column type is read from -/
def ColumnType.sources : ColumnType → List String
  | .text => ["text", "varchar", "bpchar", "name", "unknown", "citext"]
  | .integer => ["bigint"]
  | .float => ["double precision"]
  | .boolean => ["boolean"]
  | .date => ["date"]
  | .dateTime => ["timestamp"]
  | .json => ["jsonb", "json"]
  | .searchVector => []

/-- a value that is one of a column type -/
def SqlValue.fits : SqlValue → ColumnType → Bool
  | .text _, .text => true
  | .int _, .integer => true
  | .float _, .float => true
  | .bool _, .boolean => true
  | .date _, .date => true
  | .dateTime _, .dateTime => true
  | .json _, .json => true
  | _, _ => false

namespace ResultSet

def empty : ResultSet := ⟨.empty, []⟩

/-- a value of a result column as a value of a row -/
def readCell (type : ColumnType) (source : String) (v : SqlValue) : Except DatabaseError Json :=
  if v.isNull then .ok .null
  else if type.sources.contains source && v.fits type then .ok v.sent.toJson
  else .error .driver

/-- a row of an entity -/
def readRow (e : Entity) (columns : Dict String) (row : Dict SqlValue) :
    Except DatabaseError Row := do
  let present := e.selectable.filterMap fun c => (columns.get? c.name).map fun s => (c, s)
  return Dict.ofList (← present.mapM fun (c, source) => do
    return (c.name, ← readCell c.type source ((row.get? c.name).getD .null)))

/-- all rows of an entity -/
def readRows (e : Entity) (r : ResultSet) : Except DatabaseError (List Row) :=
  r.rows.mapM (readRow e r.columns)

/-- the first row of an entity, if there is one -/
def readFirst? (e : Entity) (r : ResultSet) : Except DatabaseError (Option Row) :=
  match r.rows with
  | [] => .ok none
  | row :: _ => (readRow e r.columns row).map some

/-- one value of the first row, which has to be there -/
def single (r : ResultSet) (column : String) (type : ColumnType) :
    Except DatabaseError SqlValue :=
  match r.rows, r.columns.get? column with
  | [], _ => .error .noRow
  | _ :: _, none => .error .driver
  | row :: _, some source =>
    let v := (row.get? column).getD .null
    if type.sources.contains source && v.fits type then .ok v else .error .driver

/-- the count in a column of that name; nothing is less than zero -/
def readCount (r : ResultSet) : Except DatabaseError Nat := do
  match ← r.single "count" .integer with
  | .int n => .ok n.toNat
  | _ => .error .driver

/-- the truth value in a column of that name -/
def readFlag (r : ResultSet) (column : String) : Except DatabaseError Bool := do
  match ← r.single column .boolean with
  | .bool b => .ok b
  | _ => .error .driver

/-- the truth value in the first column -/
def readFirstFlag (r : ResultSet) : Except DatabaseError Bool :=
  r.readFlag (r.columns.keys.headD "")

end ResultSet
end EntityAccess
