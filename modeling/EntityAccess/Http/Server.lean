import EntityAccess.Catalog
import EntityAccess.Http.ListQuery
import EntityAccess.Http.MediaType
import EntityAccess.Http.Request
import EntityAccess.Http.Response
import EntityAccess.Json.Source
import EntityAccess.Repository.Batches
import EntityAccess.Repository.Write
import EntityAccess.Settings

/-!
# answering requests

Every entity of a catalog is served under its name.  What is wrong with a request is found before
the database is asked, except that an update needs the current row.
-/

namespace EntityAccess.Http

structure Server where
  catalog : Catalog
  settings : Settings

namespace Server

/-! ### request bodies -/

/-- the greatest size of a body, in octets -/
def maxBodySize : Nat := 1024 * 1024

/-- the JSON value of a body, or the status of a refusal; what follows the value does not count -/
def readBody (r : Request) : Except Response Json :=
  if ((r.contentType.bind MediaType.read?).map (·.isJson)).getD false then
    if maxBodySize < r.body.utf8ByteSize then .error (.plain 413)
    else match Json.readFirst? r.body with
      | some v => .ok v
      | none => .error (.plain 400)
  else .error (.plain 415)

/-- the fields of a body -/
def readFields (v : Json) : Except Error Row :=
  match v.dict? with
  | some fields => .ok fields
  | none => .error (.badRequest .bodyNotObject)

/-! ### entities -/

/-- the repository of the entity of that name -/
def repository (s : Server) (entity : String) : Except Error Repository :=
  match s.catalog.repository? entity with
  | some r => .ok r
  | none => .error (.notFound (.entity entity))

/-- the answer to an export, of at most `limit` rows; nothing if there are more -/
def exportRows (s : Server) (limit : Nat) (r : Repository) (q : ListQuery) :
    Action (Option Response) := do
  let source ← r.batches q.filters
  let chunks := Chunks.start s.settings.exportBatchSize
  match ← ExceptT.lift (chunks.drain Record.id source limit) with
  | none => return none
  | some (_, some e, _) => throw e
  | some (rows, none, _) => return some (.many (rows.map Record.toJson))

/-- the answer to a listing by pages -/
def listPage (r : Repository) (q : ListQuery) : Action Response := do
  let _ ← r.compile q.filters q.sort .paged
  let _ ← r.resolveLoadPlan q.filters q.includes
  let page ← match q.search with
    | some params => r.search params q.filters q.sort q.page
    | none => r.list q.filters q.sort q.includes q.page
  return .page { page with items := page.items.map Record.toJson }

def listRows (s : Server) (limit : Nat) (entity : String) (fields : List (String × String)) :
    Action (Option Response) := do
  let r ← s.repository entity
  let q ← ListQuery.ofFields fields s.settings.defaultPerPage
  if q.isExport then s.exportRows limit r q else some <$> listPage r q

def createRow (s : Server) (entity : String) (body : Json) : Action Response := do
  let r ← s.repository entity
  let input ← readFields body
  let _ ← r.entity.checkCreate input
  return .created (← r.create input).toJson

def readRow (s : Server) (entity id : String) : Action Response := do
  let r ← s.repository entity
  return .one (← r.required (← r.getById id)).toJson

def updateRow (s : Server) (entity id : String) (body : Json) : Action Response := do
  let r ← s.repository entity
  let input ← readFields body
  if input.isEmpty then throw .noUpdateData
  let current ← r.required (← r.getById id)
  return .one (← r.update current input).toJson

def deleteRow (s : Server) (entity id : String) : Action Response := do
  let r ← s.repository entity
  let _ ← r.required (← r.remove id)
  return .plain 204

/-! ### the service itself -/

def health : Response := ⟨200, some (Json.ofFields [("status", .str "ok")])⟩

def version : Response :=
  ⟨200, some (Json.ofFields [("name", .str "partnerbase"), ("version", .str "0.1.0")])⟩

/-- whether the database answers -/
def ready (s : Server) : Program Response :=
  .ask .probe fun reply =>
    let (status, state, database) := match reply with
      | .ok _ => (200, "ok", "ok")
      | .error _ => (503, "degraded", "unavailable")
    .done ⟨status, some (Json.ofFields [("status", .str state), ("database", .str database),
      ("entities", .nat s.catalog.schema.entities.length)])⟩

/-! ### requests -/

/-- an answer, be it to an error -/
def settle (action : Action (Option Response)) : Program (Option Response) := do
  match ← action.run with
  | .ok response => return response
  | .error e => return some (.ofError e)

/-- the answer to a body that can be read -/
def withBody (r : Request) (answer : Json → Action Response) : Program (Option Response) :=
  match readBody r with
  | .ok body => settle (some <$> answer body)
  | .error refusal => pure (some refusal)

/-- the answer to an operation -/
def perform (s : Server) (limit : Nat) (r : Request) :
    Operation String → Program (Option Response)
  | .health => pure (some health)
  | .ready => some <$> s.ready
  | .version => pure (some version)
  | .list entity => settle (s.listRows limit entity (Text.readForm r.query))
  | .create entity => withBody r (s.createRow entity)
  | .read entity id => settle (some <$> s.readRow entity id)
  | .update entity id => withBody r (s.updateRow entity id)
  | .delete entity id => settle (some <$> s.deleteRow entity id)

/-- the answer of a resource to a method -/
def respondTo (s : Server) (limit : Nat) (r : Request) (route : Route) (m : Method) :
    Program (Option Response) :=
  match route.operation? m with
  | none => pure (some (.plain 405))
  | some operation =>
    match operation.decode? with
    | none => pure (some (.plain 400))
    | some operation => s.perform limit r operation

/-- the answer to a request; nothing if an export has more rows than `limit` -/
def respond (s : Server) (limit : Nat) (r : Request) : Program (Option Response) :=
  match Route.ofPath? r.path with
  | none => pure (some (.plain 404))
  | some route =>
    if r.method = .head then
      Option.map (fun a => { a with body := none }) <$> s.respondTo limit r route .get
    else s.respondTo limit r route r.method

end Server
end EntityAccess.Http
