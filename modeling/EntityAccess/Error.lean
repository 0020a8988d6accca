import EntityAccess.Json.Printer
import EntityAccess.Number.Reading
import EntityAccess.Text.Concat
import EntityAccess.Text.Quoted

/-!
# what can go wrong

Errors are causes; their wording is in one `message` function each.  Three groups: faults of the
configuration, faults of a request, and failures of the database.
-/

namespace EntityAccess

open Text (concat)

/-- what a reference or a name that occurs twice stands for -/
inductive ReferenceKind where
  | entity
  | column
  | relationship
deriving DecidableEq

def ReferenceKind.word : ReferenceKind → String
  | .entity => "entity"
  | .column => "column"
  | .relationship => "relationship"

/-- where an identifier stands in a schema document -/
inductive IdentifierKind where
  | schema
  | entity
  | table
  | column
  | searchVector
  | relationship
  | searchConfig
deriving DecidableEq

def IdentifierKind.word : IdentifierKind → String
  | .schema => "schema"
  | .entity => "entity"
  | .table => "table"
  | .column => "column"
  | .searchVector => "search vector"
  | .relationship => "relationship"
  | .searchConfig => "search config"

/-- a text that is no identifier -/
inductive IdentifierFault where
  | named (kind : IdentifierKind) (name : String)
  | other (description : String)

def IdentifierFault.message : IdentifierFault → String
  | .named kind name => concat [kind.word, " `", name, "`"]
  | .other description => description

/-- a JSON value that is no column default -/
inductive DefaultFault where
  /-- an object without an expression, with its other keys -/
  | object (keys : List String)
  | value (v : Json)

def DefaultFault.message (fault : DefaultFault) : String :=
  let got := match fault with
    | .object keys => concat ["object with keys: ", Text.nameList keys]
    | .value v => v.write
  concat ["column default must be a literal or \x7b \"expression\": \"...\" \x7d; got ", got]

/-- why a schema document cannot be read -/
inductive LoadFault where
  | columnDefault (fault : DefaultFault)
  /-- not JSON, or not of the shape of a document -/
  | unreadable
  | other (description : String)

def LoadFault.message : LoadFault → String
  | .columnDefault fault => fault.message
  | .unreadable => "unreadable document"
  | .other description => description

/-- what makes a well-formed document or setting unacceptable -/
inductive ValidationFault where
  | declaredVector (entity column : String)
  | declaredKey (entity : String)
  | missingForeignColumn (entity relationship : String)
  | unsupportedAction (entity relationship action : String)
  | emptyVector (entity vector : String)
  | indexedNotText (entity vector column : String)
  | unreadableSetting (key : String) (fault : Number.IntegerFault)
  | emptyBatch
  | other (description : String)

def ValidationFault.message : ValidationFault → String
  | .declaredVector e c => concat [e, ".", c, ": declare search vectors under `search_vectors`"]
  | .declaredKey e => concat [e, ": `id` is implicit and must not be declared"]
  | .missingForeignColumn e r => concat [e, ".", r, ": one_to_many relationship requires `column`"]
  | .unsupportedAction e r action => concat [e, ".", r, ": unsupported on_delete `", action, "`"]
  | .emptyVector e v => concat [e, ".", v, ": search vector needs at least one column"]
  | .indexedNotText e v c => concat [e, ".", v, ": indexed column `", c, "` must be text"]
  | .unreadableSetting key fault => concat [key, ": ", fault.message]
  | .emptyBatch => "EXPORT_BATCH_SIZE must be positive"
  | .other description => description

/-- a fault of the configuration -/
inductive ConfigError where
  | missingReference (kind : ReferenceKind) (id : String)
  | duplicate (kind : ReferenceKind) (name : String)
  | invalidIdentifier (fault : IdentifierFault)
  | load (fault : LoadFault)
  | validation (fault : ValidationFault)

def ConfigError.message : ConfigError → String
  | .missingReference kind id => concat ["missing reference: ", kind.word, " '", id, "'"]
  | .duplicate kind name => concat ["duplicate ", kind.word, ": ", name]
  | .invalidIdentifier fault => concat ["invalid identifier: ", fault.message]
  | .load fault => concat ["config load: ", fault.message]
  | .validation fault => concat ["validation: ", fault.message]

/-- what a value had to be -/
inductive ValueKind where
  | integer
  | float
  | boolean
  | date
  | dateTime
  | text
deriving DecidableEq

def ValueKind.word : ValueKind → String
  | .integer => "integer"
  | .float => "float"
  | .boolean => "boolean"
  | .date => "date"
  | .dateTime => "datetime"
  | .text => "text"

/-- why a request cannot be understood -/
inductive BadRequest where
  | malformedFilterKey (key : String)
  | malformedSortKey (key : String)
  | unexpectedValue (kind : ValueKind) (value : Json)
  | vectorCompared
  | noSearchVector (entity : String)
  | pageZero
  | pageOutOfRange
  | notNonNegative (parameter : String)
  | notFlag (parameter : String)
  | bodyNotObject
  | toMany (relationship : String)
  | toOne (relationship : String)
  /-- the reason is the database driver's -/
  | invalidUrl
  | urlWithoutPath
  | other (description : String)

def BadRequest.message : BadRequest → String
  | .malformedFilterKey key => concat ["malformed filter key `", key, "`"]
  | .malformedSortKey key => concat ["malformed sort key `", key, "`"]
  | .unexpectedValue kind value => concat ["expected ", kind.word, " value, got ", value.write]
  | .vectorCompared => "search vectors cannot be compared directly"
  | .noSearchVector entity => concat [entity, " has no search vector"]
  | .pageZero => "page must be >= 1"
  | .pageOutOfRange => "page is out of range"
  | .notNonNegative parameter => concat ["`", parameter, "` must be a non-negative integer"]
  | .notFlag parameter => concat ["`", parameter, "` must be true or false"]
  | .bodyNotObject => "body must be a JSON object"
  | .toMany relationship => concat ["`", relationship, "` is a to-many relationship"]
  | .toOne relationship => concat ["`", relationship, "` is a to-one relationship"]
  | .invalidUrl => "invalid DATABASE_URL: <driver>"
  | .urlWithoutPath => "DATABASE_URL: no path"
  | .other description => description

/-- what is not there -/
inductive Missing where
  | entity (name : String)
  | record (entity : String)
  | other (description : String)

def Missing.message : Missing → String
  | .entity name => concat ["unknown entity `", name, "`"]
  | .record name => concat [name, " not found"]
  | .other description => description

/-- how the database fails -/
inductive DatabaseError where
  /-- the statement was refused, with an SQLSTATE -/
  | rejected (code message : String)
  /-- one row was needed and none came -/
  | noRow
  /-- an answer that cannot be decoded, or no connection -/
  | driver
deriving DecidableEq

def DatabaseError.message : DatabaseError → String
  | .rejected _ message => concat ["error returned from database: ", message]
  | .noRow => "no rows returned by a query that expected to return at least one row"
  | .driver => "<driver>"

def DatabaseError.isUniqueViolation : DatabaseError → Bool
  | .rejected code _ => code == "23505"
  | _ => false

def DatabaseError.isForeignKeyViolation : DatabaseError → Bool
  | .rejected code _ => code == "23503"
  | _ => false

/-- an error -/
inductive Error where
  | config (e : ConfigError)
  | notFound (what : Missing)
  | badRequest (reason : BadRequest)
  | noUpdateData
  | invalidDateFormat (text : String)
  | unknownOperator (token : String)
  | noSuchRelationship (path entity : String)
  | unknownField (field entity : String)
  | transitionNotPermitted (resource before after : String)
  | rule (resource message : String)
  | notLoaded (relationship : String)
  | database (e : DatabaseError)

namespace Error

def message : Error → String
  | .config e => e.message
  | .notFound what => concat ["not found: ", what.message]
  | .badRequest reason => concat ["bad request: ", reason.message]
  | .noUpdateData => "no data was passed on update"
  | .invalidDateFormat text => concat ["invalid date format: ", text]
  | .unknownOperator token => concat ["unknown filter operator `", token, "`"]
  | .noSuchRelationship path entity =>
    concat ["incorrect path `", path, "`: ", entity, " has no such relationship"]
  | .unknownField field entity => concat ["incorrect field `", field, "` for ", entity]
  | .transitionNotPermitted resource before after =>
    concat [resource, ": state transition from `", before, "` to `", after, "` not permitted"]
  | .rule resource message => concat [resource, ": ", message]
  | .notLoaded relationship => concat ["relationship `", relationship, "` is not in the load plan"]
  | .database e => concat ["database: ", e.message]

/-- the HTTP status and the code of an error -/
def status : Error → Nat × String
  | .config _ => (500, "config_error")
  | .notFound _ => (404, "not_found")
  | .badRequest _ => (400, "bad_request")
  | .noUpdateData => (400, "no_update_data")
  | .invalidDateFormat _ => (400, "invalid_date_format")
  | .unknownOperator _ => (400, "invalid_filter")
  | .noSuchRelationship _ _ => (400, "invalid_filter")
  | .unknownField _ _ => (400, "invalid_filter")
  | .transitionNotPermitted _ _ _ => (422, "transition_not_permitted")
  | .rule _ _ => (400, "rule_violation")
  | .notLoaded _ => (500, "not_loaded")
  | .database e =>
    if e = .noRow then (404, "not_found")
    else if e.isUniqueViolation then (409, "conflict")
    else if e.isForeignKeyViolation then (409, "foreign_key_violation")
    else (500, "database_error")

/-- the resource that a business rule names -/
def resource? : Error → Option String
  | .rule resource _ => some resource
  | .transitionNotPermitted resource _ _ => some resource
  | _ => none

/-- the body of an error response -/
def body (e : Error) : Json :=
  let details := match e.resource? with
    | some resource => [("details", Json.ofFields [("resource", .str resource)])]
    | none => []
  Json.ofFields [("error", Json.ofFields
    ([("code", .str e.status.2), ("message", .str e.message)] ++ details))]

end Error

instance : Coe ConfigError Error := ⟨.config⟩

end EntityAccess
