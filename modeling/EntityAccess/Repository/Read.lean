import EntityAccess.Page
import EntityAccess.Repository.Related

/-!
# reads

A read runs a plan and loads the relationships of its load plan.  A row that joins have repeated is
there once, at its first place.
-/

namespace EntityAccess.Repository

/-- the records of a plan -/
def fetch (r : Repository) (plan : SelectPlan) (load : LoadPlan) : Action (List Record) := do
  let rows ← Action.query (.select r.schema plan) (ResultSet.readRows r.entity)
  r.loadRelated (firstOfEach Record.id [] (rows.map Record.ofRow)) load

/-- the first matching record -/
def get (r : Repository) (filters : Filters) : Action (Option Record) := do
  let plan ← r.compile filters [] .listing
  let load ← r.resolveLoadPlan filters []
  return (← r.fetch (plan.window (some 1) none) load).head?

/-- a record that has to be there -/
def required (r : Repository) : Option Record → Except Error Record
  | some record => .ok record
  | none => .error r.notFound

def getNotNone (r : Repository) (filters : Filters) : Action Record := do
  r.required (← r.get filters)

def getById (r : Repository) (id : String) : Action (Option Record) :=
  r.get [(primaryKey, .str id)]

def getAll (r : Repository) (filters : Filters) (sort : List SortKey) : Action (List Record) := do
  let plan ← r.compile filters sort .listing
  r.fetch plan (← r.resolveLoadPlan filters [])

/-- the filter key for the primary key being one of a list -/
def keyInList : String := Text.concat [primaryKey, operatorSeparator, "in"]

def getByIds (r : Repository) (ids : List String) : Action (List Record) :=
  if ids.isEmpty then pure []
  else do
    let filters : Filters := [(keyInList, Json.strings ids)]
    let plan ← r.compile filters [] .unsorted
    r.fetch plan (← r.resolveLoadPlan filters [])

/-- whether there is a row of that primary key -/
def exists? (r : Repository) (id : String) : Action Bool :=
  Action.query (.rowExists r.entity id) (·.readFlag "exists")

/-- one page of a plan; of a page of size zero only the total is read -/
def paginate (r : Repository) (plan : SelectPlan) (load : LoadPlan) (p : PageParams) :
    Action (Page Record) := do
  let total ← Action.query (.count r.schema plan) ResultSet.readCount
  if p.perPage = 0 then return .create [] total p
  let items ← r.fetch (plan.window (some p.perPage) (some p.offset)) load
  return .create items total p

def list (r : Repository) (filters : Filters) (sort : List SortKey) (includes : List String)
    (p : PageParams) : Action (Page Record) := do
  let plan ← r.compile filters sort .paged
  r.paginate plan (← r.resolveLoadPlan filters includes) p

/-- all records, in the order of a listing by pages -/
def getExport (r : Repository) (filters : Filters) (sort : List SortKey)
    (includes : List String) : Action (List Record) := do
  let plan ← r.compile filters sort .paged
  r.fetch plan (← r.resolveLoadPlan filters includes)

def search (r : Repository) (params : SearchParams) (filters : Filters) (sort : List SortKey)
    (p : PageParams) : Action (Page Record) := do
  let plan ← r.compile filters sort .paged
  let plan ← plan.search params
  r.paginate plan (← r.resolveLoadPlan filters []) p

end EntityAccess.Repository
